import NewsFlash.Accounts.CurrentUser
import NewsFlash.Accounts.Devices
import NewsFlash.Accounts.Editors
import NewsFlash.Accounts.Pills
import NewsFlash.Accounts.Retry
import NewsFlash.Accounts.SignOut
import NewsFlash.Accounts.SignUp
import NewsFlash.Accounts.Validation
import NewsFlash.Library.Callback
import NewsFlash.Library.Changes
import NewsFlash.Library.Frames
import NewsFlash.Library.InFlight
import NewsFlash.Library.Indicator
import NewsFlash.Library.Machine
import NewsFlash.Library.Memo
import NewsFlash.Library.Pager
import NewsFlash.Library.Query
import NewsFlash.Library.Regex
import NewsFlash.Library.Replica
import NewsFlash.Library.Simulation
import NewsFlash.Library.Sorting
import NewsFlash.Library.Toggle
import NewsFlash.Library.Tracking
import NewsFlash.Library.Trim
import NewsFlash.Library.Triple
import NewsFlash.Library.Turns
import NewsFlash.Library.Window
import NewsFlash.Models.App
import NewsFlash.Models.Authentication
import NewsFlash.Models.Constants
import NewsFlash.Models.Networking
import NewsFlash.Models.News
import NewsFlash.Models.Tabs
import NewsFlash.Models.Text
import NewsFlash.Models.UserRepository
import NewsFlash.Operations.ExactlyOnce
import NewsFlash.Pages.ForYou
import NewsFlash.Pages.ForYouView
import NewsFlash.Pages.Search
import NewsFlash.Requests.Account
import NewsFlash.Requests.Query
import NewsFlash.Requests.Settings
import NewsFlash.SavedStore.Coherence
import NewsFlash.SavedStore.Devices
import NewsFlash.SavedStore.Isolation
import NewsFlash.SavedStore.Machine
import NewsFlash.SavedStore.OneCall
import NewsFlash.SavedStore.Refetch
import NewsFlash.SavedStore.Uniqueness
import NewsFlash.Screens.Bookmark
import NewsFlash.Screens.Buttons
import NewsFlash.Screens.Category
import NewsFlash.Screens.CellReuse
import NewsFlash.Screens.Deck
import NewsFlash.Screens.Endless
import NewsFlash.Screens.FlashCards
import NewsFlash.Screens.FlashStack
import NewsFlash.Screens.Handlers
import NewsFlash.Screens.Images
import NewsFlash.Screens.IndexSafety
import NewsFlash.Screens.Koloda
import NewsFlash.Screens.Lifetime
import NewsFlash.Screens.Messages
import NewsFlash.Screens.Notices
import NewsFlash.Screens.Roots
import NewsFlash.Screens.SavedRefresh
import NewsFlash.Screens.SavedTable
import NewsFlash.Screens.SearchTable
import NewsFlash.Screens.Session
import NewsFlash.Screens.TopTitles

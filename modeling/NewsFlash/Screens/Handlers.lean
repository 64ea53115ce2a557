import NewsFlash.Screens.SearchTable

/-!
# The handlers of the five screens

Five screens show an array of `News.shared` each, with handlers copied from one to the next.
What a handler renders, opens, saves or shares is compared here between two states of the
store that agree on the array of the screen and on the saved urls. One handler asks for the
length of another screen's array.
-/

namespace NewsFlash.Screens.Handlers

open NewsFlash.Library NewsFlash.Models NewsFlash.Models.Networking NewsFlash.Pages
open NewsFlash.Screens.SearchTable (Fault ArticleCell Cell)

/-! ## A row of an array -/

def subscript (articles : List Article) (row : Nat) : Except Fault Article :=
  match articles[row]? with
  | some article => .ok article
  | none => .error .indexOutOfRange

/-- `image` is what is handed to `URL(string:)` for the image, if anything is. -/
def articleCell (image : Article → Option String) (saved : Article → Bool)
    (articles : List Article) (row : Nat) : Except Fault Cell := do
  let article ← subscript articles row
  .ok (.newsArticle {
    title := article.title
    description := article.description
    source := article.source.bind Source.name
    image := image article
    saved := saved article })

/-- The address that is handed to `URL(string:)` for Safari. -/
def selectedAddress (articles : List Article) (row : Nat) : Except Fault (Option String) := do
  let article ← subscript articles row
  .ok (some article.key)

/-- The handler of the leading action of a table: the url that is unsaved or the article that
is saved. -/
def bookmark (articles : List Article) (row : Nat) (saved : Bool) :
    Except Fault (String ⊕ Article) := do
  let article ← subscript articles row
  .ok (if saved then .inl article.key else .inr article)

def sharedAddress (articles : List Article) (row : Nat) : Except Fault (Option String) := do
  let article ← subscript articles row
  .ok article.url

def isSaved (news : News) (article : Article) : Bool := news.savedUrls.contains article.key

def imageOrEmpty (article : Article) : Option String := some (article.urlToImage.getD "")

/-! ## The screens -/

namespace ForYouViewController

def numberOfRowsInSection (news : News) : Nat := news.allNews.length

def didSelectRowAt (news : News) (row : Nat) : Except Fault (Option String) :=
  -- The guard of the search screen, with the array of the search screen.
  if row = news.searchResults.length then .ok none
  else selectedAddress news.allNews row

def cellForRowAt (news : News) (keepLoading : Bool) (row : Nat) : Except Fault Cell :=
  if row = news.allNews.length ∧ keepLoading = true then .ok .newsArticleLoading
  else articleCell Article.urlToImage (isSaved news) news.allNews row

def leadingSwipe.handler (news : News) (row : Nat) (saved : Bool) :
    Except Fault (String ⊕ Article) :=
  bookmark news.allNews row saved

def trailingSwipe.handler (news : News) (row : Nat) : Except Fault (Option String) :=
  sharedAddress news.allNews row

end ForYouViewController

namespace CategoryViewController

def numberOfRowsInSection (news : News) : Nat := news.categoryNews.length

def didSelectRowAt (news : News) (row : Nat) : Except Fault (Option String) :=
  selectedAddress news.categoryNews row

def cellForRowAt (news : News) (row : Nat) : Except Fault Cell :=
  articleCell imageOrEmpty (isSaved news) news.categoryNews row

def leadingSwipe.handler (news : News) (row : Nat) (saved : Bool) :
    Except Fault (String ⊕ Article) :=
  bookmark news.categoryNews row saved

def trailingSwipe.handler (news : News) (row : Nat) : Except Fault (Option String) :=
  sharedAddress news.categoryNews row

end CategoryViewController

namespace SavedNewsViewController

def numberOfRowsInSection (news : News) : Nat := news.savedNews.length

def didSelectRowAt (news : News) (row : Nat) : Except Fault (Option String) :=
  selectedAddress news.savedNews row

def cellForRowAt (news : News) (row : Nat) : Except Fault Cell :=
  articleCell imageOrEmpty (fun _ => true) news.savedNews row

/-- The label, and the url that the action will unsave: the article is read when the action
is configured. -/
def leadingSwipe (news : News) (row : Nat) : Except Fault (String × String) := do
  let article ← subscript news.savedNews row
  .ok ("Unsave", article.key)

def trailingSwipe.handler (news : News) (row : Nat) : Except Fault (Option String) :=
  sharedAddress news.savedNews row

end SavedNewsViewController

structure Card where
  cardColorIndex : Nat
  title : Option String
  source : Option String
  description : Option String
  image : Option String
  saved : Bool
deriving DecidableEq, Repr

namespace FlashCardsViewController

def kolodaNumberOfCards (news : News) : Nat := news.topNews.length

def didSelectCardAt (news : News) (index : Nat) : Except Fault (Option String) :=
  selectedAddress news.topNews index

def card (savedUrls : List String) (index : Nat) (article : Article) : Card where
  cardColorIndex := index % 4
  title := article.title
  source := article.source.bind Source.name
  description := article.description
  image := imageOrEmpty article
  saved := article.url.any fun url => savedUrls.contains url

def viewForCardAt (news : News) (index : Nat) : Except Fault Card := do
  let article ← subscript news.topNews index
  .ok (card news.savedUrls index article)

def shareUrl (news : News) (currentCardIndex : Nat) : Except Fault (Option String) :=
  sharedAddress news.topNews currentCardIndex

def saveArticle (news : News) (currentCardIndex : Nat) : Except Fault Article :=
  subscript news.topNews currentCardIndex

def unsaveArticle (news : News) (currentCardIndex : Nat) : Except Fault String := do
  let article ← subscript news.topNews currentCardIndex
  .ok article.key

end FlashCardsViewController

/-! ## All handlers of a screen -/

inductive Screen where
  | forYou | search | category | saved | flashCards
deriving DecidableEq, Repr

/-- What a user does with a row or a card that is on screen. A leading action is configured
for the cell that is drawn; the bookmark of a row or of a card goes by its flag. -/
inductive Handler where
  | render
  | select
  | configure (cell : Cell)
  | bookmark (saved : Bool)
  | share

inductive Outcome where
  | cell (cell : Cell)
  | card (card : Card)
  | opened (address : Option String)
  | configured (label : String)
  | saved (article : Article)
  | unsaved (url : String)
  | shared (address : Option String)
  | nothing
deriving DecidableEq, Repr

def Outcome.ofBookmark : String ⊕ Article → Outcome
  | .inl url => .unsaved url
  | .inr article => .saved article

namespace Screen

def articles (news : News) : Screen → List Article
  | forYou => news.allNews
  | search => news.searchResults
  | category => news.categoryNews
  | saved => news.savedNews
  | flashCards => news.topNews

/-- The search screen over a store; what else it keeps is no matter of its handlers. -/
def searchTable (news : News) (keepLoading : Bool) : SearchTable.Table where
  screen := { app := { news }, keepLoading }

def rows (news : News) : Screen → Nat
  | forYou => ForYouViewController.numberOfRowsInSection news
  | search => (searchTable news true).numberOfRowsInSection
  | category => CategoryViewController.numberOfRowsInSection news
  | saved => SavedNewsViewController.numberOfRowsInSection news
  | flashCards => FlashCardsViewController.kolodaNumberOfCards news

/-! `parses` is `URL(string:)`; without a URL nothing is opened or shared. -/

variable (parses : String → Bool)

def didSelect (news : News) (row : Nat) : Screen → Except Fault (Option String)
  | forYou => ForYouViewController.didSelectRowAt news row
  | search => (searchTable news true).didSelectRowAt row
  | category => CategoryViewController.didSelectRowAt news row
  | saved => SavedNewsViewController.didSelectRowAt news row
  | flashCards => FlashCardsViewController.didSelectCardAt news row

def render (news : News) (keepLoading : Bool) (row : Nat) : Screen → Except Fault Outcome
  | forYou => (ForYouViewController.cellForRowAt news keepLoading row).map .cell
  | search => ((searchTable news keepLoading).cellForRowAt row).map .cell
  | category => (CategoryViewController.cellForRowAt news row).map .cell
  | saved => (SavedNewsViewController.cellForRowAt news row).map .cell
  | flashCards => (FlashCardsViewController.viewForCardAt news row).map .card

def configure (news : News) (row : Nat) (cell : Cell) : Screen → Except Fault Outcome
  | forYou | search | category => (SearchTable.Table.leadingSwipe cell).map .configured
  | saved => (SavedNewsViewController.leadingSwipe news row).map fun action => .configured action.1
  | flashCards => .ok .nothing

def bookmark (news : News) (row : Nat) (flag : Bool) : Screen → Except Fault Outcome
  | forYou => (ForYouViewController.leadingSwipe.handler news row flag).map .ofBookmark
  | search =>
      (SearchTable.Table.leadingSwipe.handler (searchTable news true) row flag).map .ofBookmark
  | category => (CategoryViewController.leadingSwipe.handler news row flag).map .ofBookmark
  | saved => (SavedNewsViewController.leadingSwipe news row).map fun action => .unsaved action.2
  | flashCards =>
      if flag then (FlashCardsViewController.unsaveArticle news row).map .unsaved
      else (FlashCardsViewController.saveArticle news row).map .saved

def share (news : News) (row : Nat) : Screen → Except Fault (Option String)
  | forYou => ForYouViewController.trailingSwipe.handler news row
  | search => SearchTable.Table.trailingSwipe.handler (searchTable news true) row
  | category => CategoryViewController.trailingSwipe.handler news row
  | saved => SavedNewsViewController.trailingSwipe.handler news row
  | flashCards => FlashCardsViewController.shareUrl news row

def handle (screen : Screen) (news : News) (keepLoading : Bool) (row : Nat) :
    Handler → Except Fault Outcome
  | .render => screen.render news keepLoading row
  | .select => (screen.didSelect news row).map fun address => .opened (address.filter parses)
  | .configure cell => screen.configure news row cell
  | .bookmark flag => screen.bookmark news row flag
  | .share => (screen.share news row).map fun address => .shared (address.filter parses)

end Screen

/-! ## Which lists a handler reads -/

section Lists

variable (parses : String → Bool) (screen : Screen) (news news' : News)

def Alike : Prop :=
  screen.articles news = screen.articles news' ∧ news.savedUrls = news'.savedUrls

/-- A displayed row does the same in both states, whatever is done with it. -/
def Separate (row : Nat) : Prop :=
  Alike screen news news' → screen.rows news = screen.rows news' ∧
    (row < screen.rows news → ∀ keepLoading handler,
      screen.handle parses news keepLoading row handler =
        screen.handle parses news' keepLoading row handler)

/-- A displayed article whose url parses is opened when it is selected. -/
def OpensOwn (row : Nat) : Prop :=
  ∀ article ∈ (screen.articles news)[row]?, ∀ url ∈ article.url, parses url = true →
    ∀ keepLoading, screen.handle parses news keepLoading row .select = .ok (.opened (some url))

/-- The selection is stopped by the guard that For You has from the search screen. -/
def Guarded (row : Nat) : Prop := screen = .forYou ∧ row = news.searchResults.length

instance (row : Nat) : Decidable (Guarded screen news row) := inferInstanceAs (Decidable (_ ∧ _))

def ShowsLink (row : Nat) : Prop :=
  ∃ article ∈ (screen.articles news)[row]?, parses article.key = true

end Lists

section Rows

variable {parses : String → Bool} {screen : Screen} {news news' : News} {row : Nat}

theorem subscript_some {articles : List Article} {article : Article}
    (h : articles[row]? = some article) : subscript articles row = .ok article := by
  rw [subscript, h]

/-- Every handler but the selection of For You reads the array of its screen and the saved
urls alone. -/
theorem handle_alike (halike : Alike screen news news') (keepLoading : Bool) (handler : Handler)
    (hother : screen ≠ .forYou ∨ handler ≠ .select) :
    screen.handle parses news keepLoading row handler =
      screen.handle parses news' keepLoading row handler := by
  obtain ⟨topNews, allNews, searchResults, savedNews, savedUrls, categoryNews⟩ := news
  obtain ⟨topNews', allNews', searchResults', savedNews', savedUrls', categoryNews'⟩ := news'
  obtain ⟨hlist, hsaved⟩ := halike
  cases hsaved
  cases screen <;> cases hlist <;> cases handler <;> first | rfl | simp at hother

theorem rows_alike (halike : Alike screen news news') : screen.rows news = screen.rows news' := by
  obtain ⟨topNews, allNews, searchResults, savedNews, savedUrls, categoryNews⟩ := news
  obtain ⟨topNews', allNews', searchResults', savedNews', savedUrls', categoryNews'⟩ := news'
  obtain ⟨hlist, -⟩ := halike
  cases screen <;> cases hlist <;> rfl

theorem searchTable_subscript_some {article : Article} (keepLoading : Bool)
    (h : news.searchResults[row]? = some article) :
    (Screen.searchTable news keepLoading).subscript row = .ok article := by
  unfold SearchTable.Table.subscript
  change (match news.searchResults[row]? with | some article => _ | none => _) = _
  rw [h]

theorem selectedAddress_some {articles : List Article} {article : Article}
    (h : articles[row]? = some article) :
    selectedAddress articles row = .ok (some article.key) := by
  rw [selectedAddress, subscript_some h]
  rfl

theorem didSelect_some {article : Article} (h : (screen.articles news)[row]? = some article) :
    screen.didSelect news row =
      .ok (if Guarded screen news row then none else some article.key) := by
  cases screen with
  | forYou =>
      change ForYouViewController.didSelectRowAt news row = _
      unfold ForYouViewController.didSelectRowAt Guarded
      simp only [true_and]
      split
      · rfl
      · exact selectedAddress_some h
  | search =>
      have hlt : row < news.searchResults.length := (List.getElem?_eq_some_iff.mp h).1
      have hne : ¬ row = (Screen.searchTable news true).searchResults.length := Nat.ne_of_lt hlt
      change (Screen.searchTable news true).didSelectRowAt row = _
      rw [SearchTable.Table.didSelectRowAt, if_neg hne, searchTable_subscript_some true h,
        if_neg fun hguard => Screen.noConfusion hguard.1]
      rfl
  | category | saved | flashCards =>
      rw [if_neg fun hguard => Screen.noConfusion hguard.1]
      exact selectedAddress_some h

theorem handle_select {article : Article} (h : (screen.articles news)[row]? = some article)
    (keepLoading : Bool) : screen.handle parses news keepLoading row .select =
      .ok (.opened ((if Guarded screen news row then none else some article.key).filter parses)) := by
  change (screen.didSelect news row).map _ = _
  rw [didSelect_some h]
  rfl

/-- The guard can only close what would have been opened. -/
theorem select_eq_iff {article : Article} (halike : Alike screen news news')
    (h : (screen.articles news)[row]? = some article) (keepLoading : Bool) :
    screen.handle parses news keepLoading row .select =
        screen.handle parses news' keepLoading row .select ↔
      (parses article.key = true → (Guarded screen news row ↔ Guarded screen news' row)) := by
  rw [handle_select h, handle_select (halike.1 ▸ h)]
  by_cases hguard : Guarded screen news row <;> by_cases hguard' : Guarded screen news' row <;>
    simp [hguard, hguard', Option.filter]

theorem separate_iff : Separate parses screen news news' row ↔
    ¬ (Alike screen news news' ∧ ShowsLink parses screen news row ∧
      ¬ (Guarded screen news row ↔ Guarded screen news' row)) := by
  constructor
  · rintro hseparate ⟨halike, ⟨article, hshown, hparses⟩, hguards⟩
    have hlt : row < screen.rows news := by
      have hlength : row < (screen.articles news).length :=
        (List.getElem?_eq_some_iff.mp hshown).1
      cases screen with
      | search => exact Nat.lt_succ_of_lt hlength
      | forYou | category | saved | flashCards => exact hlength
    have hselect := (hseparate halike).2 hlt true .select
    exact hguards ((select_eq_iff halike hshown true).mp hselect hparses)
  · intro hwhen halike
    refine ⟨rows_alike halike, fun hlt keepLoading handler => ?_⟩
    by_cases hother : screen ≠ .forYou ∨ handler ≠ .select
    · exact handle_alike halike keepLoading handler hother
    · obtain ⟨hscreen, hhandler⟩ : screen = .forYou ∧ handler = .select := by
        simpa only [not_or, not_not] using hother
      subst hscreen hhandler
      have hshown : (Screen.forYou.articles news)[row]? = some news.allNews[row] :=
        List.getElem?_eq_getElem hlt
      refine (select_eq_iff halike hshown keepLoading).mpr fun hparses => ?_
      by_contra hguards
      exact hwhen ⟨halike, ⟨_, hshown, hparses⟩, hguards⟩

theorem opensOwn_iff : OpensOwn parses screen news row ↔
    ¬ (Guarded screen news row ∧
      ∃ article ∈ (screen.articles news)[row]?, ∃ url ∈ article.url, parses url = true) := by
  constructor
  · rintro hopens ⟨hguard, article, hshown, url, hurl, hparses⟩
    have hopened := hopens article hshown url hurl hparses true
    rw [handle_select hshown, if_pos hguard] at hopened
    cases hopened
  · intro hwhen article hshown url hurl hparses keepLoading
    have hguard : ¬ Guarded screen news row := fun hguard =>
      hwhen ⟨hguard, article, hshown, url, hurl, hparses⟩
    have hkey : article.key = url := by
      rw [Article.key, show article.url = some url from hurl, Option.getD_some]
    rw [handle_select hshown, if_neg hguard, hkey, Option.filter_some, if_pos hparses]

end Rows

/-- **Lists of the screens.** In two states that agree on the list of a screen and on the saved
urls, a displayed row does the same unless an article whose url parses is selected in For You
at the row that is the number of search results in one of them and not in the other. A
displayed article opens itself unless its row in For You is the number of search results. -/
theorem screens_separate (parses : String → Bool) (screen : Screen) (news news' : News)
    (row : Nat) :
    (Separate parses screen news news' row ↔
      ¬ (Alike screen news news' ∧ ShowsLink parses screen news row ∧
        ¬ (Guarded screen news row ↔ Guarded screen news' row))) ∧
    (OpensOwn parses screen news row ↔
      ¬ (Guarded screen news row ∧
        ∃ article ∈ (screen.articles news)[row]?, ∃ url ∈ article.url, parses url = true)) :=
  ⟨separate_iff, opensOwn_iff⟩

def personalStory : Article where
  source := none
  title := some "Cycling to the coast"
  description := none
  url := some "https://example.com/coast"
  urlToImage := none

def personalOnly : News where
  allNews := [personalStory]

/-- The first article of For You does not open before a search has found one. -/
theorem forYou_first_closed :
    ¬ ∀ (parses : String → Bool) (screen : Screen) (news news' : News) (row : Nat),
      Separate parses screen news news' row ∧ OpensOwn parses screen news row := by
  intro h
  have hopens := (h (fun _ => true) .forYou personalOnly personalOnly 0).2
  have hopened := hopens personalStory rfl "https://example.com/coast" rfl rfl true
  revert hopened
  decide

end NewsFlash.Screens.Handlers

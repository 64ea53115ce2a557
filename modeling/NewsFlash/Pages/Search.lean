import NewsFlash.Library.InFlight
import NewsFlash.Library.Machine
import NewsFlash.Models.Networking

/-!
# The pages of the search results

A search click empties the results and asks for `currentPage` of the new query;
cancel empties them. Neither stops the requests in flight, whose closures append
to whatever list they find, and neither resets `currentPage`. `Steady` says which
steps keep the results on the pages of the last query.
-/

namespace NewsFlash.Pages.Search

open NewsFlash.Library NewsFlash.Models NewsFlash.Models.Networking

/-! ## The screen -/

inductive Mode where
  | opened | searching | cancelled
deriving DecidableEq

/-- A request in flight; it is live if it was made since the last click or cancel. -/
structure Pending where
  request : SearchRequest
  live : Bool
deriving DecidableEq

structure Screen where
  app : App
  currentPage : Nat := 1
  currentQuery : String := ""
  keepLoading : Bool := true
  inFlight : List Pending := []
  mode : Mode := .opened

inductive Action where
  | searchBarSearchButtonClicked (text : String)
  | searchBarCancelButtonClicked
  | renderLoadingRow
  | deliver (i : Nat) (ok : Bool)
  | didReceiveMemoryWarning

namespace Screen

def searchResults (s : Screen) : List Article := s.app.news.searchResults

def withResults (s : Screen) (articles : List Article) : Screen :=
  { s with app := { s.app with news := { s.app.news with searchResults := articles } } }

/-- From here on the requests in flight are those of the past. -/
def outdate (s : Screen) (mode : Mode) : Screen :=
  { s with mode := mode, inFlight := s.inFlight.map fun pending => { pending with live := false } }

section Service

/-! `parses` is `URL(string:)`, and `page` is what the news service has for a query
and a page. -/

variable (parses : String → Bool) (page : String → Nat → List Article)

def loadNewsForPage (s : Screen) : Option Screen :=
  let code : Callback App SearchRequest Unit Unit :=
    Networking.getSearchResults parses s.currentPage s.currentQuery
  match code.exec s.app with
  | (none, _) => none
  | (some (), t) => some { s with
      app := t.store
      inFlight := s.inFlight ++ t.issued.map fun request => ⟨request, true⟩ }

def loadNewsForPage.onNews (s : Screen) : Option (List Article) → Screen
  | some news => { s with keepLoading := true }.withResults (s.searchResults ++ news)
  | none => { s with keepLoading := false }

def answer (pending : Pending) : List Article := page pending.request.q pending.request.page

def act (s : Screen) : Action → Option Screen
  | .searchBarSearchButtonClicked text =>
      ({ s.outdate .searching with currentQuery := text }.withResults []).loadNewsForPage parses
  | .searchBarCancelButtonClicked => some ((s.outdate .cancelled).withResults [])
  | .renderLoadingRow =>
      if s.keepLoading then
        if s.currentQuery ≠ "" then
          { s with currentPage := s.currentPage + 1 }.loadNewsForPage parses
        else some s
      else none
  | .deliver i ok => (pick s.inFlight i).map fun (pending, rest) =>
      loadNewsForPage.onNews { s with inFlight := rest }
        (if ok then some (answer page pending) else none)
  | .didReceiveMemoryWarning => some (s.withResults [])

end Service

end Screen

def machine (parses : String → Bool) (page : String → Nat → List Article) :
    Machine Screen Action where
  step := Screen.act parses page

/-! ## What the results are heading for -/

section Settled

variable (page : String → Nat → List Article)

def edits (inFlight : List Pending) : List (Edit Article) :=
  (inFlight.filter Pending.live).map fun pending => .append (Screen.answer page pending)

/-- The results once all live answers have arrived in order. -/
def Screen.settled (s : Screen) : List Article := settle s.searchResults (edits page s.inFlight)

/-- The results are the first `m` pages of the last query, and the loading row
would ask for the next one. -/
def Screen.Paged (s : Screen) : Prop :=
  ∃ m, s.searchResults = firstPages (page s.currentQuery) m ∧ s.currentPage + 1 = m + 1

/-- What the screen shows after a search, with nothing in flight, and after a cancel. -/
def Screen.Faithful (s : Screen) : Prop :=
  (s.mode = .searching → s.inFlight = [] → s.Paged page) ∧
    (s.mode = .cancelled → s.searchResults = [])

/-- A search finds nothing on the pages below `currentPage`; an answer fits the
list that the results are heading for, and its failure takes nothing from that
list; after a cancel, an answer brings nothing; a memory warning finds no results. -/
def Steady (s : Screen) : Action → Prop
  | .searchBarSearchButtonClicked text => firstPages (page text) (s.currentPage - 1) = []
  | .deliver i true => ∀ picked ∈ pick s.inFlight i,
      if s.mode = .searching then
        settle (s.searchResults ++ Screen.answer page picked.1) (edits page picked.2) =
          s.settled page
      else Screen.answer page picked.1 = []
  | .deliver i false => ∀ picked ∈ pick s.inFlight i,
      s.mode = .searching → settle s.searchResults (edits page picked.2) = s.settled page
  | .didReceiveMemoryWarning => s.mode = .searching → s.searchResults = []
  | .searchBarCancelButtonClicked | .renderLoadingRow => True

instance (s : Screen) : (a : Action) → Decidable (Steady page s a)
  | .searchBarSearchButtonClicked _ => inferInstanceAs (Decidable (_ = _))
  | .deliver _ true => inferInstanceAs (Decidable (∀ _ ∈ _, ite _ _ _))
  | .deliver _ false => inferInstanceAs (Decidable (∀ _ ∈ _, _ → _))
  | .didReceiveMemoryWarning => inferInstanceAs (Decidable (_ → _))
  | .searchBarCancelButtonClicked | .renderLoadingRow => inferInstanceAs (Decidable True)

end Settled

/-! ## Steady steps -/

section Steps

variable {parses : String → Bool} {page : String → Nat → List Article} {s s' : Screen}

theorem loadNewsForPage_eq (h : s.loadNewsForPage parses = some s') :
    ∃ language, s' = { s with inFlight := s.inFlight ++
      [⟨⟨language, s.currentPage, s.currentQuery⟩, true⟩] } := by
  unfold Screen.loadNewsForPage at h
  simp only [Callback.exec_apply, getSearchResults_apply] at h
  refine ⟨preferredLanguage s.app, ?_⟩
  cases hparses : parses (SearchRequest.url
      ⟨preferredLanguage s.app, s.currentPage, s.currentQuery⟩) with
  | false =>
      rw [hparses] at h
      cases h
  | true =>
      rw [hparses] at h
      exact (Option.some.inj h).symm

@[simp] theorem edits_outdated (inFlight : List Pending) :
    edits page (inFlight.map fun pending => { pending with live := false }) = [] := by
  simp [edits, List.filter_map, Function.comp_def]

theorem edits_concat (inFlight : List Pending) (request : SearchRequest) :
    edits page (inFlight ++ [⟨request, true⟩]) =
      edits page inFlight ++ [.append (page request.q request.page)] := by
  simp [edits, List.filter_append, Screen.answer]

/-- What the screen keeps: after a search it is heading for the first pages of the
query, after a cancel it shows nothing. -/
structure Heading (page : String → Nat → List Article) (s : Screen) : Prop where
  positive : 0 < s.currentPage
  searching : s.mode = .searching →
    s.settled page = firstPages (page s.currentQuery) s.currentPage
  cancelled : s.mode = .cancelled → s.searchResults = []

theorem heading_search {text : String} (hheading : Heading page s)
    (hsteady : firstPages (page text) (s.currentPage - 1) = [])
    (h : s.act parses page (.searchBarSearchButtonClicked text) = some s') : Heading page s' := by
  obtain ⟨language, rfl⟩ := loadNewsForPage_eq h
  refine ⟨hheading.positive, fun _ => ?_, fun hmode => by cases hmode⟩
  obtain ⟨n, hn⟩ : ∃ n, s.currentPage = n + 1 :=
    Nat.exists_eq_succ_of_ne_zero (Nat.pos_iff_ne_zero.mp hheading.positive)
  have hfirst : firstPages (page text) s.currentPage = page text s.currentPage := by
    rw [hn] at hsteady ⊢
    rw [firstPages_succ, show firstPages (page text) n = [] from hsteady, List.nil_append]
  rw [Screen.settled, edits_concat, settle_concat_append]
  change settle [] (edits page (s.inFlight.map _)) ++ page text s.currentPage =
    firstPages (page text) s.currentPage
  rw [edits_outdated, hfirst]
  rfl

theorem heading_render (hheading : Heading page s)
    (h : s.act parses page .renderLoadingRow = some s') : Heading page s' := by
  simp only [Screen.act] at h
  split at h
  · split at h
    · obtain ⟨language, rfl⟩ := loadNewsForPage_eq h
      refine ⟨Nat.succ_pos _, fun hmode => ?_, hheading.cancelled⟩
      rw [Screen.settled, edits_concat, settle_concat_append]
      exact congrArg (· ++ page s.currentQuery (s.currentPage + 1)) (hheading.searching hmode)
    · obtain rfl := Option.some.inj h
      exact hheading
  · cases h

theorem heading_deliver {i : Nat} {ok : Bool} (hheading : Heading page s)
    (hsteady : Steady page s (.deliver i ok))
    (h : s.act parses page (.deliver i ok) = some s') : Heading page s' := by
  obtain ⟨⟨pending, rest⟩, hpick, rfl⟩ := Option.map_eq_some_iff.mp h
  cases ok with
  | true =>
      have hanswer := hsteady (pending, rest) hpick
      refine ⟨hheading.positive, fun hmode => ?_, fun hmode => ?_⟩
      · have hmode' : s.mode = .searching := hmode
        rw [if_pos hmode'] at hanswer
        exact hanswer.trans (hheading.searching hmode')
      · have hmode' : s.mode = .cancelled := hmode
        rw [hmode', if_neg (by decide)] at hanswer
        change s.searchResults ++ Screen.answer page pending = []
        rw [hheading.cancelled hmode', hanswer]
        rfl
  | false =>
      refine ⟨hheading.positive, fun hmode => ?_, hheading.cancelled⟩
      exact (hsteady (pending, rest) hpick hmode).trans (hheading.searching hmode)

theorem heading_step {a : Action} (hheading : Heading page s) (hsteady : Steady page s a)
    (h : (machine parses page).step s a = some s') : Heading page s' := by
  change s.act parses page a = some s' at h
  cases a with
  | searchBarSearchButtonClicked text => exact heading_search hheading hsteady h
  | searchBarCancelButtonClicked =>
      obtain rfl := Option.some.inj h
      exact ⟨hheading.positive, fun hmode => (by cases hmode), fun _ => rfl⟩
  | renderLoadingRow => exact heading_render hheading h
  | deliver i ok => exact heading_deliver hheading hsteady h
  | didReceiveMemoryWarning =>
      obtain rfl := Option.some.inj h
      refine ⟨hheading.positive, fun hmode => ?_, fun _ => rfl⟩
      have hempty : s.searchResults = [] := hsteady hmode
      have hsettled := hheading.searching hmode
      rw [Screen.settled, hempty] at hsettled
      exact hsettled

end Steps

/-! ## The results are those of the last query -/

section Runs

variable {parses : String → Bool} {page : String → Nat → List Article} {s : Screen}

theorem faithful_of_heading (hheading : Heading page s) : s.Faithful page := by
  refine ⟨fun hmode hidle => ⟨s.currentPage, ?_, rfl⟩, hheading.cancelled⟩
  rw [← hheading.searching hmode, Screen.settled, hidle]
  rfl

/-- **Search results.** In every state of a run of steady steps from the opened
screen: with nothing in flight after a search, the results are the first pages of
its query, each once and in order, and the loading row would ask for the next one;
after a cancel there are no results until the next search. -/
theorem searchResults_faithful {app : App} {as : List Action}
    (hsteady : (machine parses page).Meets (Steady page) { app := app } as) :
    (machine parses page).Always (Screen.Faithful page) { app := app } as := by
  have hheading : Heading page { app := app } :=
    ⟨Nat.one_pos, fun hmode => (by cases hmode), fun hmode => (by cases hmode)⟩
  exact (machine parses page).always_of_meets heading_step faithful_of_heading hheading hsteady

end Runs

def onePerPage (q : String) (page : Nat) : List Article := [.titled (q ++ toString page)]

/-- Two pages of one query, then a cancel after a request that fails. -/
def searchAndCancel : List Action :=
  [.searchBarSearchButtonClicked "swift", .deliver 0 true, .renderLoadingRow, .deliver 0 true,
    .renderLoadingRow, .searchBarCancelButtonClicked, .deliver 0 false]

theorem searchResults_faithful_searchAndCancel :
    (machine (fun _ => true) onePerPage).Always (Screen.Faithful onePerPage) { app := {} }
      searchAndCancel := by
  have hsteady : (machine (fun _ => true) onePerPage).Meets (Steady onePerPage) { app := {} }
      searchAndCancel := by decide +kernel
  exact searchResults_faithful hsteady

/-- The second search asks for the second page of its query right away. -/
def secondSearch : List Action :=
  [.searchBarSearchButtonClicked "swift", .deliver 0 true, .renderLoadingRow, .deliver 0 true,
    .searchBarSearchButtonClicked "lean", .deliver 0 true]

theorem searchResults_unfaithful :
    ¬ ∀ (parses : String → Bool) (page : String → Nat → List Article) (app : App)
      (as : List Action), (machine parses page).Always (Screen.Faithful page) { app := app } as := by
  intro h
  have hends : ((machine (fun _ => true) onePerPage).run { app := {} } secondSearch).isSome := by
    decide +kernel
  have hresults : ∀ s ∈ (machine (fun _ => true) onePerPage).run { app := {} } secondSearch,
      s.mode = .searching ∧ s.inFlight = [] ∧ s.currentPage = 2 ∧
        s.searchResults ≠ firstPages (onePerPage s.currentQuery) 2 := by decide +kernel
  refine Machine.not_always_of_run _ hends (fun s hs hfaithful => ?_)
    (h (fun _ => true) onePerPage {} secondSearch)
  obtain ⟨hmode, hidle, hpage, hresults⟩ := hresults s hs
  obtain ⟨m, hpages, hm⟩ := hfaithful.1 hmode hidle
  rw [hpage] at hm
  obtain rfl : m = 2 := by omega
  exact hresults hpages

end NewsFlash.Pages.Search

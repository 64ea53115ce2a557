import NewsFlash.Library.Pager
import NewsFlash.Pages.ForYou
import NewsFlash.Screens.Handlers

/-!
# The two endless lists

For You and the search load the next page when the row of the loading cell is drawn, which is
the row after the last article. The search counts that row, For You does not. Both are pagers:
a table draws the rows below its count, and a reply brings a page and reloads the table.
-/

namespace NewsFlash.Screens.Endless

open NewsFlash.Library NewsFlash.Models NewsFlash.Models.Networking NewsFlash.Pages
open NewsFlash.Screens.Handlers

/-! ## The lists as pagers -/

/-- What the news service has for some interests or a query, in a language, on a page. -/
structure Server where
  allNews : List String → String → Nat → List Article
  search : String → Nat → List Article

def Server.NonEmpty (server : Server) : Prop :=
  (∀ interests language page, server.allNews interests language page ≠ []) ∧
    ∀ q page, server.search q page ≠ []

inductive EndlessList where
  | forYou (screen : ForYou.Screen)
  | search (table : SearchTable.Table)

namespace EndlessList

def isSearch : EndlessList → Bool
  | forYou _ => false
  | search _ => true

def rows : EndlessList → Nat
  | forYou s => ForYouViewController.numberOfRowsInSection s.app.news
  | search t => t.numberOfRowsInSection

def inFlight : EndlessList → List Nat
  | forYou s => s.inFlight.map fun pending => pending.request.page
  | search t => t.screen.inFlight.map fun pending => pending.request.page

section Service

/-! `parses` is `URL(string:)`. -/

variable (parses : String → Bool) (server : Server)

def draw : EndlessList → Nat → Option EndlessList
  | forYou s, row =>
      if row < ForYouViewController.numberOfRowsInSection s.app.news then
        match ForYouViewController.cellForRowAt s.app.news s.keepLoading row with
        | .error _ => none
        | .ok .newsArticleLoading =>
            (s.act parses server.allNews .renderLoadingRow).map forYou
        | .ok (.newsArticle _) => some (forYou s)
      else none
  | search t, row => (t.step parses (.cellForRowAt row)).map search

def settle : EndlessList → Option EndlessList
  | forYou s =>
      (s.inFlight.foldlM (fun s (_ : ForYou.Pending) =>
        ForYou.Screen.act parses server.allNews s (.deliver 0 true)) s).map forYou
  | search t =>
      (t.screen.inFlight.foldlM (fun t (pending : Search.Pending) =>
        SearchTable.Table.step parses t
          (.deliver 0 (some (Search.Screen.answer server.search pending)))) t).map search

def pager : Pager EndlessList where
  rows := rows
  draw := draw parses server
  inFlight := inFlight
  settle := settle parses server

/-- The first page of the list has arrived, and nothing else has been asked for. -/
def Arrived : EndlessList → Prop
  | forYou s => s.currentPage = 1 ∧ s.keepLoading = true ∧ s.inFlight = [] ∧ s.allNews ≠ []
  | search t =>
      t.screen.currentPage = 1 ∧ t.screen.keepLoading = true ∧ t.screen.inFlight = [] ∧
        t.screen.searchResults ≠ [] ∧ t.screen.currentQuery ≠ "" ∧
        parses (SearchRequest.url
          ⟨preferredLanguage t.screen.app, 1, t.screen.currentQuery⟩) = true

end Service

end EndlessList

/-- Whether an address is a URL does not depend on its page number. -/
def IgnoresPage (parses : String → Bool) : Prop :=
  ∀ language q page page', parses (SearchRequest.url ⟨language, page, q⟩) =
    parses (SearchRequest.url ⟨language, page', q⟩)

/-! ## A scroll of For You -/

section ForYou

variable {parses : String → Bool} {server : Server} {s : ForYou.Screen}

theorem draw_forYou {row : Nat} (hrow : row < s.allNews.length) :
    (EndlessList.forYou s).draw parses server row = some (.forYou s) := by
  have hcell : ∃ cell, ForYouViewController.cellForRowAt s.app.news s.keepLoading row =
      .ok (.newsArticle cell) := by
    have hne : ¬ (row = s.app.news.allNews.length ∧ s.keepLoading = true) := fun h =>
      Nat.ne_of_lt hrow h.1
    have harticle : subscript s.app.news.allNews row = .ok s.app.news.allNews[row] :=
      subscript_some (List.getElem?_eq_getElem hrow)
    rw [ForYouViewController.cellForRowAt, if_neg hne, articleCell, harticle]
    exact ⟨_, rfl⟩
  obtain ⟨cell, hcell⟩ := hcell
  have hcount : row < ForYouViewController.numberOfRowsInSection s.app.news := hrow
  rw [EndlessList.draw, if_pos hcount, hcell]

/-- A scroll of For You asks for nothing, and there is nothing to wait for. -/
theorem scroll_forYou (hnews : s.allNews ≠ []) (above : List Nat) :
    ((EndlessList.pager parses server).scroll above (.forYou s)) = some (.forYou s) := by
  have hpos : 0 < s.allNews.length := List.length_pos_of_ne_nil hnews
  have hrows : (EndlessList.pager parses server).rows (.forYou s) = s.allNews.length := rfl
  obtain ⟨t, hscroll, rfl⟩ :=
    Pager.scroll_some (P := EndlessList.pager parses server) (J := (· = .forYou s))
      (Q := (· = .forYou s)) rfl
      (by
        rintro t rfl row hrow
        rw [hrows] at hrow
        exact ⟨_, draw_forYou (by omega), rfl⟩)
      (by
        rintro t rfl
        rw [hrows]
        exact ⟨_, draw_forYou (by omega), rfl⟩) above
  exact hscroll

theorem settle_forYou (hquiet : s.inFlight = []) :
    (EndlessList.forYou s).settle parses server = some (.forYou s) := by
  rw [EndlessList.settle, hquiet]
  rfl

end ForYou

/-! ## A scroll of the search -/

section Search

variable {parses : String → Bool} {t : SearchTable.Table}

theorem draw_article (server : Server) {row : Nat} (hrow : row < t.searchResults.length) :
    ∃ cells, (EndlessList.search t).draw parses server row = some (.search { t with cells }) := by
  have hcell : ∃ cell, t.cellForRowAt row = .ok (.newsArticle cell) := by
    have hne : ¬ (row = t.searchResults.length ∧ t.screen.keepLoading = true) := fun h =>
      Nat.ne_of_lt hrow h.1
    rw [SearchTable.Table.cellForRowAt, if_neg hne, if_pos hrow, SearchTable.subscript_of_lt hrow]
    exact ⟨_, rfl⟩
  obtain ⟨cell, hcell⟩ := hcell
  have hcount : row < t.numberOfRowsInSection := Nat.lt_succ_of_lt hrow
  refine ⟨Function.update t.cells row (some (.newsArticle cell)), ?_⟩
  simp only [EndlessList.draw, SearchTable.Table.step, if_pos hcount, hcell, Option.map_some]

def asked (screen : Search.Screen) : Search.Screen where
  app := screen.app
  currentPage := screen.currentPage + 1
  currentQuery := screen.currentQuery
  keepLoading := screen.keepLoading
  inFlight := screen.inFlight ++
    [⟨⟨preferredLanguage screen.app, screen.currentPage + 1, screen.currentQuery⟩, true⟩]
  mode := screen.mode

theorem draw_loading (server : Server) (hkeep : t.screen.keepLoading = true)
    (hquery : t.screen.currentQuery ≠ "")
    (hparses : parses (SearchRequest.url ⟨preferredLanguage t.screen.app,
      t.screen.currentPage + 1, t.screen.currentQuery⟩) = true) :
    ∃ cells, (EndlessList.search t).draw parses server t.searchResults.length =
      some (.search ⟨asked t.screen, cells⟩) := by
  have hcell : t.cellForRowAt t.searchResults.length = .ok .newsArticleLoading := by
    rw [SearchTable.Table.cellForRowAt, if_pos ⟨rfl, hkeep⟩]
  have hcount : t.searchResults.length < t.numberOfRowsInSection := Nat.lt_succ_self _
  have hask : SearchTable.ask parses t.screen .renderLoadingRow = some (asked t.screen) := by
    simp only [SearchTable.ask, Search.Screen.act, if_pos hkeep, if_pos hquery,
      Search.Screen.loadNewsForPage, Callback.exec_apply, getSearchResults_apply, if_pos hparses]
    rfl
  refine ⟨Function.update t.cells t.searchResults.length (some .newsArticleLoading), ?_⟩
  simp only [EndlessList.draw, SearchTable.Table.step, if_pos hcount, hcell, hask, Option.map_some]

theorem scroll_search (server : Server) (hkeep : t.screen.keepLoading = true)
    (hquery : t.screen.currentQuery ≠ "")
    (hparses : parses (SearchRequest.url ⟨preferredLanguage t.screen.app,
      t.screen.currentPage + 1, t.screen.currentQuery⟩) = true) (above : List Nat) :
    ∃ cells, (EndlessList.pager parses server).scroll above (.search t) =
      some (.search ⟨asked t.screen, cells⟩) := by
  obtain ⟨list, hscroll, cells, rfl⟩ :=
    Pager.scroll_some (P := EndlessList.pager parses server)
      (J := fun list => ∃ cells, list = .search { t with cells })
      (Q := fun list => ∃ cells, list = .search ⟨asked t.screen, cells⟩) ⟨t.cells, rfl⟩
      (by
        rintro list ⟨cells, rfl⟩ row hrow
        obtain ⟨cells', hdraw⟩ := draw_article server (t := { t with cells }) hrow
        exact ⟨_, hdraw, cells', rfl⟩)
      (by
        rintro list ⟨cells, rfl⟩
        obtain ⟨cells', hdraw⟩ :=
          draw_loading server (t := { t with cells }) hkeep hquery hparses
        exact ⟨_, hdraw, cells', rfl⟩) above
  exact ⟨cells, hscroll⟩

def received (screen : Search.Screen) (news : List Article) : Search.Screen :=
  Search.Screen.loadNewsForPage.onNews { screen with inFlight := [] } (some news)

theorem settle_search {server : Server} {pending : Search.Pending}
    (hflight : t.screen.inFlight = [pending]) :
    (EndlessList.search t).settle parses server =
      some (.search (SearchTable.Table.reloadData
        ⟨received t.screen (Search.Screen.answer server.search pending), t.cells⟩)) := by
  have hdeliver : t.step parses
      (.deliver 0 (some (Search.Screen.answer server.search pending))) =
        some (SearchTable.Table.reloadData
          ⟨received t.screen (Search.Screen.answer server.search pending), t.cells⟩) := by
    simp only [SearchTable.Table.step, hflight]
    rfl
  rw [EndlessList.settle, hflight, List.foldlM_cons, hdeliver]
  rfl

end Search

/-! ## What a series of scrolls asks for -/

section Scrolls

variable {parses : String → Bool} {server : Server}

theorem requestsOf_forYou {s : ForYou.Screen} (hquiet : s.inFlight = []) (hnews : s.allNews ≠ [])
    (above : Nat → List Nat) (k : Nat) :
    (EndlessList.pager parses server).requestsOf above (.forYou s) (k + 1) = some [] := by
  refine Pager.requestsOf_eq (I := fun _ list => list = .forYou s) (f := fun _ => []) ?_ rfl above k
  rintro _ list rfl above
  refine ⟨.forYou s, scroll_forYou hnews above, ?_, .forYou s, settle_forYou hquiet, rfl⟩
  exact List.drop_length

/-- What the search keeps between two scrolls: `n` scrolls after the first page, the current page
is `n + 1`. -/
structure Loaded (parses : String → Bool) (n : Nat) (screen : Search.Screen) : Prop where
  page : screen.currentPage = n + 1
  keepLoading : screen.keepLoading = true
  quiet : screen.inFlight = []
  query : screen.currentQuery ≠ ""
  parses : ∀ page, parses (SearchRequest.url
    ⟨preferredLanguage screen.app, page, screen.currentQuery⟩) = true

theorem loaded_received {n : Nat} {screen : Search.Screen} (hloaded : Loaded parses n screen)
    (news : List Article) : Loaded parses (n + 1) (received (asked screen) news) where
  page := congrArg (· + 1) hloaded.page
  keepLoading := rfl
  quiet := rfl
  query := hloaded.query
  parses := hloaded.parses

theorem requestsOf_search {t : SearchTable.Table} (hloaded : Loaded parses 0 t.screen)
    (above : Nat → List Nat) (k : Nat) :
    (EndlessList.pager parses server).requestsOf above (.search t) (k + 1) = some [k + 2] := by
  refine Pager.requestsOf_eq (I := fun n list => ∃ t, list = .search t ∧ Loaded parses n t.screen)
    (f := fun n => [n + 2]) ?_ ⟨t, rfl, hloaded⟩ above k
  rintro n list ⟨t, rfl, hloaded⟩ above
  obtain ⟨cells, hscroll⟩ := scroll_search server hloaded.keepLoading hloaded.query
    (hloaded.parses _) above
  have hflight : (asked t.screen).inFlight =
      [⟨⟨preferredLanguage t.screen.app, n + 2, t.screen.currentQuery⟩, true⟩] := by
    rw [asked, hloaded.quiet, hloaded.page, List.nil_append]
  refine ⟨_, hscroll, ?_, _, settle_search (t := ⟨asked t.screen, cells⟩) hflight, _, rfl,
    loaded_received hloaded _⟩
  change ((asked t.screen).inFlight.map _).drop (t.screen.inFlight.map _).length = _
  rw [hflight, hloaded.quiet]
  rfl

end Scrolls

/-! ## Which list keeps loading -/

/-- **Endless lists.** Whatever rows come on screen before the last one, the `k`-th scroll to
the last row asks for page `k + 1` and nothing else exactly in the search: For You never asks. -/
theorem lists_endless {parses : String → Bool} {server : Server} {list : EndlessList} {k : Nat}
    (hparses : IgnoresPage parses) (harrived : list.Arrived parses)
    (above : Nat → List Nat) (hk : 1 ≤ k) :
    (EndlessList.pager parses server).requestsOf above list k = some [k + 1] ↔
      list.isSearch = true := by
  obtain ⟨k, rfl⟩ : ∃ n, k = n + 1 := Nat.exists_eq_add_of_le' hk
  cases list with
  | forYou s =>
      obtain ⟨-, -, hquiet, hnews⟩ := harrived
      rw [requestsOf_forYou hquiet hnews]
      exact iff_of_false (by simp) (by simp [EndlessList.isSearch])
  | search t =>
      obtain ⟨hpage, hkeep, hquiet, -, hquery, hfirst⟩ := harrived
      have hloaded : Loaded parses 0 t.screen :=
        ⟨hpage, hkeep, hquiet, hquery, fun page => (hparses _ _ page 1).trans hfirst⟩
      exact iff_of_true (requestsOf_search hloaded above k) rfl

def oneStory : Server where
  allNews _ _ _ := [personalStory]
  search _ _ := [personalStory]

def searched : EndlessList := .search {
  screen := { app := { news := { searchResults := [personalStory] } }, currentQuery := "coast" } }

theorem lists_endless_searched :
    (EndlessList.pager (fun _ => true) oneStory).requestsOf (fun _ => []) searched 3 =
      some [4] := by
  have harrived : searched.Arrived fun _ => true :=
    ⟨rfl, rfl, rfl, List.cons_ne_nil _ _, by decide, rfl⟩
  exact (lists_endless (fun _ _ _ _ => rfl) harrived (fun _ => []) (by decide)).mpr rfl

def personalised : EndlessList := .forYou { app := { news := personalOnly } }

theorem forYou_ends :
    ¬ ∀ (parses : String → Bool) (server : Server) (list : EndlessList) (above : Nat → List Nat)
      (k : Nat), server.NonEmpty → IgnoresPage parses → list.Arrived parses → 1 ≤ k →
        (EndlessList.pager parses server).requestsOf above list k = some [k + 1] := by
  intro h
  have hnonempty : oneStory.NonEmpty :=
    ⟨fun _ _ _ => List.cons_ne_nil _ _, fun _ _ => List.cons_ne_nil _ _⟩
  have harrived : personalised.Arrived fun _ => true := ⟨rfl, rfl, rfl, List.cons_ne_nil _ _⟩
  have hrequests := h (fun _ => true) oneStory personalised (fun _ => []) 1 hnonempty
    (fun _ _ _ _ => rfl) harrived (Nat.le_refl 1)
  have hnone : (EndlessList.pager (fun _ => true) oneStory).requestsOf (fun _ => [])
      personalised 1 = some [] :=
    requestsOf_forYou (s := { app := { news := personalOnly } }) rfl (List.cons_ne_nil _ _)
      (fun _ => []) 0
  exact absurd (hnone.symm.trans hrequests) (by decide)

end NewsFlash.Screens.Endless

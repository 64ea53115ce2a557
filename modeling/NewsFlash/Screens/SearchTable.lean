import NewsFlash.Pages.Search

/-!
# The rows of the search table

The table counts one row more than there are results. Whether that row is drawn as a
loading cell depends on `keepLoading`, and of its handlers only the selection knows it. The
handlers below are those of the source up to where they trap: a subscript past the results,
or a cast of a loading cell to an article cell.
-/

namespace NewsFlash.Screens.SearchTable

open NewsFlash.Library NewsFlash.Models NewsFlash.Models.Networking NewsFlash.Pages

/-! ## The table and its handlers -/

inductive Fault where
  | indexOutOfRange | castFailed
deriving DecidableEq, Repr

structure ArticleCell where
  title : Option String
  description : Option String
  source : Option String
  image : Option String
  saved : Bool
deriving DecidableEq, Repr

inductive Cell where
  | newsArticleLoading
  | newsArticle (cell : ArticleCell)
deriving DecidableEq, Repr

/-- The screen, and the cells that the table has on screen for its rows. -/
structure Table where
  screen : Search.Screen
  cells : Nat → Option Cell := fun _ => none

namespace Table

def searchResults (t : Table) : List Article := t.screen.searchResults

def numberOfRowsInSection (t : Table) : Nat := t.searchResults.length + 1

def subscript (t : Table) (row : Nat) : Except Fault Article :=
  match t.searchResults[row]? with
  | some article => .ok article
  | none => .error .indexOutOfRange

def cellForRowAt (t : Table) (row : Nat) : Except Fault Cell :=
  if row = t.searchResults.length ∧ t.screen.keepLoading = true then .ok .newsArticleLoading
  else do
    -- Only the image checks the row.
    let image ← if t.searchResults.length > row then do
        let article ← t.subscript row
        .ok (some (article.urlToImage.getD ""))
      else .ok none
    let article ← t.subscript row
    .ok (.newsArticle {
      title := article.title
      description := article.description
      source := article.source.bind Source.name
      image
      saved := t.screen.app.news.savedUrls.contains article.key })

/-- The address that is opened; the extra row is only deselected. -/
def didSelectRowAt (t : Table) (row : Nat) : Except Fault (Option String) :=
  if row = t.searchResults.length then .ok none
  else do
    let article ← t.subscript row
    .ok (some article.key)

/-- `cellForRow(at: indexPath) as! NewsArticleTableViewCell`; it is asked for a row on screen. -/
def articleCell : Cell → Except Fault ArticleCell
  | .newsArticle cell => .ok cell
  | .newsArticleLoading => .error .castFailed

def leadingSwipe (cell : Cell) : Except Fault String := do
  let cell ← articleCell cell
  .ok (if cell.saved then "Unsave" else "Save")

/-- What the handler of the leading action asks for; `saved` is the flag of its cell. -/
def leadingSwipe.handler (t : Table) (row : Nat) (saved : Bool) :
    Except Fault (String ⊕ Article) := do
  let article ← t.subscript row
  .ok (if saved then .inl article.key else .inr article)

def trailingSwipe : Except Fault String := .ok "Share"

def trailingSwipe.handler (t : Table) (row : Nat) : Except Fault (Option String) := do
  let article ← t.subscript row
  .ok article.url

def reloadData (t : Table) : Table := { t with cells := fun _ => none }

end Table

/-! ## Runs of the search -/

/-- An answer brings any articles, or none where the request failed. -/
inductive Action where
  | searchBarSearchButtonClicked (text : String)
  | searchBarCancelButtonClicked
  | cellForRowAt (row : Nat)
  | deliver (i : Nat) (news : Option (List Article))
  | didReceiveMemoryWarning

section Service

/-! `parses` is `URL(string:)`. -/

variable (parses : String → Bool)

def ask (s : Search.Screen) (a : Search.Action) : Option Search.Screen :=
  s.act parses (fun _ _ => []) a

namespace Table

/-- The table is reloaded after a cancel and after every success. It draws rows below
the count. -/
def step (t : Table) : Action → Option Table
  | .searchBarSearchButtonClicked text =>
      (ask parses t.screen (.searchBarSearchButtonClicked text)).map fun screen => { t with screen }
  | .searchBarCancelButtonClicked =>
      (ask parses t.screen .searchBarCancelButtonClicked).map fun screen =>
        { t with screen }.reloadData
  | .cellForRowAt row =>
      if row < t.numberOfRowsInSection then
        match t.cellForRowAt row with
        | .error _ => none
        | .ok .newsArticleLoading => (ask parses t.screen .renderLoadingRow).map fun screen =>
            ⟨screen, Function.update t.cells row (some .newsArticleLoading)⟩
        | .ok cell => some { t with cells := Function.update t.cells row (some cell) }
      else none
  | .deliver i news => (pick t.screen.inFlight i).map fun (_, rest) =>
      let t' : Table :=
        { t with screen := Search.Screen.loadNewsForPage.onNews { t.screen with inFlight := rest } news }
      if news.isSome then t'.reloadData else t'
  | .didReceiveMemoryWarning =>
      (ask parses t.screen .didReceiveMemoryWarning).map fun screen => { t with screen }

end Table

def machine : Machine Table Action where
  step := Table.step parses

end Service

def opened (app : App) : Table where
  screen := { app }

/-! ## Which handlers finish -/

inductive Handler where
  | render | select | leading | leadingAction | trailing | trailingAction
deriving DecidableEq, Repr

/-- The handler gets through; a swipe is built for a cell on screen, and its action is
triggered with whatever flag the cell then has. -/
def Table.Finishes (t : Table) (row : Nat) : Handler → Prop
  | .render => (t.cellForRowAt row).isOk
  | .select => (t.didSelectRowAt row).isOk
  | .leading => ∀ cell ∈ t.cells row, (leadingSwipe cell).isOk
  | .leadingAction => ∀ saved, (leadingSwipe.handler t row saved).isOk
  | .trailing => trailingSwipe.isOk
  | .trailingAction => (trailingSwipe.handler t row).isOk

section Handlers

variable {t : Table} {row : Nat}

theorem subscript_of_lt (h : row < t.searchResults.length) :
    t.subscript row = .ok t.searchResults[row] := by
  rw [Table.subscript, List.getElem?_eq_getElem h]

theorem subscript_of_le (h : t.searchResults.length ≤ row) :
    t.subscript row = .error .indexOutOfRange := by
  rw [Table.subscript, List.getElem?_eq_none h]

/-- A row of an article is drawn as one, the extra row only as a loading cell. -/
theorem cellForRowAt_isOk (hrow : row < t.numberOfRowsInSection) :
    (t.cellForRowAt row).isOk ↔
      row < t.searchResults.length ∨ t.screen.keepLoading = true := by
  rcases Nat.lt_succ_iff_lt_or_eq.mp hrow with hlt | heq
  · have hne : ¬ (row = t.searchResults.length ∧ t.screen.keepLoading = true) := fun h =>
      Nat.ne_of_lt hlt h.1
    rw [Table.cellForRowAt, if_neg hne, if_pos hlt, subscript_of_lt hlt]
    exact iff_of_true rfl (Or.inl hlt)
  · have hle : ¬ row < t.searchResults.length := by omega
    rw [or_iff_right hle, Table.cellForRowAt]
    cases hkeep : t.screen.keepLoading with
    | true =>
        rw [if_pos ⟨heq, rfl⟩]
        exact iff_of_true rfl rfl
    | false =>
        rw [if_neg (fun h => by cases h.2), if_neg hle, subscript_of_le (Nat.le_of_eq heq.symm)]
        exact iff_of_false Bool.false_ne_true Bool.false_ne_true

theorem didSelectRowAt_isOk (hrow : row < t.numberOfRowsInSection) :
    (t.didSelectRowAt row).isOk := by
  rw [Table.didSelectRowAt]
  split
  · rfl
  · next hne =>
      have hlt : row < t.searchResults.length := by
        have hcount : row < t.searchResults.length + 1 := hrow
        omega
      rw [subscript_of_lt hlt]
      rfl

theorem action_isOk {β : Type} (f : Article → β) :
    ((t.subscript row).bind fun article => Except.ok (f article)).isOk ↔
      row < t.searchResults.length := by
  rcases Nat.lt_or_ge row t.searchResults.length with hlt | hle
  · rw [subscript_of_lt hlt]
    exact iff_of_true rfl hlt
  · rw [subscript_of_le hle]
    exact iff_of_false (by simp [Except.bind, Except.isOk, Except.toBool]) (Nat.not_lt.mpr hle)

end Handlers

def Drawn (t : Table) : Prop :=
  ∀ row, t.cells row = some .newsArticleLoading → t.searchResults.length ≤ row

theorem finishes_iff {t : Table} {row : Nat} (hdrawn : Drawn t)
    (hrow : row < t.numberOfRowsInSection) (handler : Handler) :
    t.Finishes row handler ↔ match handler with
      | .render => row < t.searchResults.length ∨ t.screen.keepLoading = true
      | .leading => row < t.searchResults.length ∨ t.cells row ≠ some .newsArticleLoading
      | .leadingAction | .trailingAction => row < t.searchResults.length
      | .select | .trailing => True := by
  cases handler with
  | render => exact cellForRowAt_isOk hrow
  | select => exact iff_of_true (didSelectRowAt_isOk hrow) trivial
  | leading =>
      have hloading : t.Finishes row .leading ↔ t.cells row ≠ some .newsArticleLoading := by
        change (∀ cell ∈ t.cells row, _) ↔ _
        rcases t.cells row with _ | _ | cell
        · exact iff_of_true (fun cell hmem => by cases hmem) (by simp)
        · exact iff_of_false (fun h => absurd (h _ rfl) Bool.false_ne_true) fun h => h rfl
        · refine iff_of_true (fun _ hmem => ?_) (by simp)
          obtain rfl := Option.some.inj hmem
          rfl
      rw [hloading, iff_or_self]
      intro hlt hcell
      exact Nat.not_le.mpr hlt (hdrawn row hcell)
  | leadingAction =>
      change (∀ saved : Bool, _) ↔ _
      rw [Bool.forall_bool]
      exact (and_congr (action_isOk _) (action_isOk _)).trans (and_self_iff)
  | trailing => exact iff_of_true rfl trivial
  | trailingAction => exact action_isOk _

/-! ## What a step leaves on screen -/

section Steps

variable {parses : String → Bool} {t t' : Table}

theorem drawn_of_nil (h : t.searchResults = []) : Drawn t := by
  intro row _
  rw [h]
  exact Nat.zero_le row

theorem drawn_reloadData (t : Table) : Drawn t.reloadData := by
  intro row hcell
  cases hcell

theorem loadNewsForPage_searchResults {s s' : Search.Screen}
    (h : s.loadNewsForPage parses = some s') : s'.searchResults = s.searchResults := by
  obtain ⟨language, rfl⟩ := Search.loadNewsForPage_eq h
  rfl

theorem renderLoadingRow_searchResults {s s' : Search.Screen}
    (h : ask parses s .renderLoadingRow = some s') : s'.searchResults = s.searchResults := by
  unfold ask Search.Screen.act at h
  simp only at h
  split at h
  · split at h
    · obtain ⟨language, rfl⟩ := Search.loadNewsForPage_eq h
      rfl
    · obtain rfl := Option.some.inj h
      rfl
  · cases h

theorem drawn_cellForRowAt {row : Nat} (hdrawn : Drawn t)
    (h : t.step parses (.cellForRowAt row) = some t') : Drawn t' := by
  simp only [Table.step] at h
  split at h
  · next hrow =>
      split at h
      · cases h
      · next hcell =>
          obtain ⟨screen, hload, rfl⟩ := Option.map_eq_some_iff.mp h
          -- a loading cell is made for the extra row only
          have hextra : row = t.searchResults.length := by
            by_contra hne
            rw [Table.cellForRowAt, if_neg fun h => hne h.1] at hcell
            have hlt : row < t.searchResults.length := by
              have hcount : row < t.searchResults.length + 1 := hrow
              omega
            rw [if_pos hlt, subscript_of_lt hlt] at hcell
            cases hcell
          intro r hr
          change Function.update t.cells row _ r = _ at hr
          change screen.searchResults.length ≤ r
          rw [renderLoadingRow_searchResults hload]
          by_cases hrow : r = row
          · exact Nat.le_of_eq (hrow.trans hextra).symm
          · rw [Function.update_of_ne hrow] at hr
            exact hdrawn r hr
      · next cell hloading hcell =>
          obtain rfl := Option.some.inj h
          intro r hr
          change Function.update t.cells row _ r = _ at hr
          by_cases hrow : r = row
          · subst hrow
            rw [Function.update_self] at hr
            exact absurd (Option.some.inj hr) hloading
          · rw [Function.update_of_ne hrow] at hr
            exact hdrawn r hr
  · cases h

theorem drawn_step {a : Action} (hdrawn : Drawn t) (h : (machine parses).step t a = some t') :
    Drawn t' := by
  cases a with
  | searchBarSearchButtonClicked text =>
      obtain ⟨screen, hsearch, rfl⟩ := Option.map_eq_some_iff.mp h
      exact drawn_of_nil (loadNewsForPage_searchResults hsearch)
  | searchBarCancelButtonClicked =>
      obtain rfl := Option.some.inj h
      exact drawn_reloadData _
  | cellForRowAt row => exact drawn_cellForRowAt hdrawn h
  | deliver i news =>
      obtain ⟨⟨pending, rest⟩, -, rfl⟩ := Option.map_eq_some_iff.mp h
      cases news with
      | some news => exact drawn_reloadData _
      | none => exact hdrawn
  | didReceiveMemoryWarning =>
      obtain rfl := Option.some.inj h
      exact drawn_of_nil rfl

end Steps

/-! ## Every row but the extra one is safe -/

/-- **Search rows.** In every state of the search, all handlers finish on a row below the
count exactly where the row is one of the results. So on the extra row, which is always below
the count, some handler never finishes. -/
theorem searchRows_finish {parses : String → Bool} {app : App} {as : List Action} :
    (machine parses).Always
      (fun t => (∀ row < t.numberOfRowsInSection,
          (∀ handler, t.Finishes row handler) ↔ row < t.searchResults.length) ∧
        ¬ ∀ row < t.numberOfRowsInSection, ∀ handler, t.Finishes row handler)
      (opened app) as := by
  have hrows : ∀ t : Table, Drawn t → ∀ row < t.numberOfRowsInSection,
      (∀ handler, t.Finishes row handler) ↔ row < t.searchResults.length := by
    intro t hdrawn row hrow
    constructor
    · intro hall
      exact (finishes_iff hdrawn hrow .trailingAction).mp (hall .trailingAction)
    · intro hlt handler
      rw [finishes_iff hdrawn hrow handler]
      cases handler with
      | render | leading => exact Or.inl hlt
      | leadingAction | trailingAction => exact hlt
      | select | trailing => trivial
  refine (machine parses).always_of_meets (G := fun _ _ => True) (I := Drawn)
    (fun hdrawn _ h => drawn_step hdrawn h) (fun {t} hdrawn => ⟨hrows t hdrawn, fun hall => ?_⟩)
    (fun row hcell => by cases hcell) ((machine parses).meets_of_forall (fun _ _ => trivial) _)
  have hextra : t.searchResults.length < t.numberOfRowsInSection := Nat.lt_succ_self _
  exact Nat.lt_irrefl _ ((hrows t hdrawn _ hextra).mp (hall _ hextra))

def searchStarted : List Action :=
  [.searchBarSearchButtonClicked "swift", .cellForRowAt 0]

/-- The loading cell is swiped. -/
theorem searchRows_trap :
    ¬ ∀ (parses : String → Bool) (app : App) (as : List Action),
      (machine parses).Always
        (fun t => ∀ row < t.numberOfRowsInSection, ∀ handler, t.Finishes row handler)
        (opened app) as := by
  intro h
  have hends : ((machine fun _ => true).run (opened {}) searchStarted).isSome := by
    decide +kernel
  have hloading : ∀ t ∈ (machine fun _ => true).run (opened {}) searchStarted,
      0 < t.numberOfRowsInSection ∧ t.cells 0 = some .newsArticleLoading := by
    decide +kernel
  refine Machine.not_always_of_run _ hends (fun t ht hall => ?_)
    (h (fun _ => true) {} searchStarted)
  obtain ⟨hrow, hcell⟩ := hloading t ht
  exact absurd (hall 0 hrow .leading _ hcell) Bool.false_ne_true

end NewsFlash.Screens.SearchTable

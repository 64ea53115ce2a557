import NewsFlash.Library.InFlight
import NewsFlash.Library.Machine
import NewsFlash.Models.Networking

/-!
# Bookmarks of reused cells

Three tables carry the same code for the bookmark of a row. A cell keeps the flag that
`cellForRowAt` gave it, the label of a swipe action is read from the flag, and the handler
captures the cell and the row: when it is triggered it reads the flag and the list as they
are by then, and the answer writes the flag of the captured cell, whatever that cell shows
by then. `Marks` says exactly which steps keep flags and actions right, and `Careful` which
order of events does.
-/

namespace NewsFlash.Screens.CellReuse

open NewsFlash.Library NewsFlash.Models NewsFlash.Models.Networking

/-! ## Tables and cells -/

inductive Table where
  | forYou | search | category
deriving DecidableEq, Repr

namespace Table

def articles (news : News) : Table → List Article
  | forYou => news.allNews
  | search => news.searchResults
  | category => news.categoryNews

def assign (articles : List Article) (news : News) : Table → News
  | forYou => { news with allNews := articles }
  | search => { news with searchResults := articles }
  | category => { news with categoryNews := articles }

theorem savedUrls_assign (articles : List Article) (news : News) (table : Table) :
    (table.assign articles news).savedUrls = news.savedUrls := by
  cases table <;> rfl

end Table

structure Shown where
  row : Nat
  article : Article
deriving DecidableEq, Repr

/-- A successful answer: the captured cell, the flag that it got, and the url that was saved, or
unsaved, with it. -/
structure Flagging where
  captured : Nat
  saved : Bool
  url : String
deriving DecidableEq, Repr

/-- A cell that is not visible waits to be reused. `bound` and `answers` record the flag with
which it was bound and the successful answers since then, newest first. -/
structure Cell where
  table : Table
  saved : Bool := false
  shown : Option Shown := none
  bound : Bool := false
  answers : List Flagging := []
deriving DecidableEq, Repr

inductive Label where
  | save | unsave
deriving DecidableEq, Repr

/-- `cell.saved ? "Unsave" : "Save"` -/
def Label.of (saved : Bool) : Label := if saved then .unsave else .save

/-- A configured action; its handler captures the cell at index `cell` and the row. -/
structure SwipeAction where
  table : Table
  row : Nat
  cell : Nat
  label : Label
deriving DecidableEq, Repr

/-- An action that was triggered: what its row showed then, and the request it sent. -/
structure Triggered where
  label : Label
  shown : Article
  request : SavedRequest Nat
deriving DecidableEq, Repr

/-- The operation is the one on the button, and it is about the article that was shown. -/
def Triggered.Right (t : Triggered) : Prop :=
  match t.label, t.request with
  | .save, .addDocument _ article _ => article = t.shown
  | .unsave, .whereUrl _ url _ => url = t.shown.key
  | _, _ => False

structure State where
  app : App
  cells : List Cell := []
  actions : List SwipeAction := []
  inFlight : List (SavedRequest Nat) := []
  triggered : List Triggered := []

/-- A list is replaced or extended whenever a fetch is answered; the reload of its table
comes later. Cells are bound one row at a time, reusing the cell at the given index. -/
inductive Action where
  | load (table : Table) (articles : List Article)
  | reloadData (table : Table)
  | scrollOff (c : Nat)
  | cellForRowAt (table : Table) (row : Nat) (reused : Option Nat)
  | leadingSwipe (c : Nat)
  | trigger (k : Nat)
  | deliver (i : Nat) (ok : Bool) (documents : List DocumentId)

/-- The handler of an action: `saved` is the captured cell's flag. -/
def handler (table : Table) (row cell : Nat) (saved : Bool) :
    Callback App (SavedRequest Nat) (Nat × Bool) Unit := do
  let article ← Callback.forced (← Callback.read fun app => (table.articles app.news)[row]?)
  if saved then unsaveArticle (article.url.getD "") cell
  else saveArticle article cell

def closure (ok : Bool) (documents : List DocumentId) :
    SavedRequest Nat → Callback App (SavedRequest Nat) (Nat × Bool) Unit
  | .addDocument _ article cell =>
      saveArticle.onAdded article
        (fun isSaved => if isSaved then Callback.complete (cell, true) else pure ()) (!ok)
  | .whereUrl uid url cell =>
      unsaveArticle.onDocuments uid url
        (fun isUnsaved => if isUnsaved then Callback.complete (cell, false) else pure ())
        (if ok then some documents else none)
  | _ => pure ()

def flagging (ok : Bool) : SavedRequest Nat → List Flagging
  | .addDocument _ article captured => if ok then [⟨captured, true, article.key⟩] else []
  | .whereUrl _ url captured => if ok then [⟨captured, false, url⟩] else []
  | _ => []

def Cell.record (new : List Flagging) (cell : Cell) : Cell :=
  { cell with answers := new ++ cell.answers }

namespace State

def savedUrls (s : State) : List String := s.app.news.savedUrls

def setSaved (cells : List Cell) (assigned : Nat × Bool) : List Cell :=
  cells.modify assigned.1 fun cell => { cell with saved := assigned.2 }

def shownAt (s : State) (table : Table) (row : Nat) : Option Article :=
  s.cells.findSome? fun cell => cell.shown.bind fun shown =>
    if cell.table = table ∧ shown.row = row then some shown.article else none

def hide (cell : Cell) : Cell := { cell with shown := none }

/-- A row is bound while it is not visible; only a cell that is not visible is reused. -/
def cellForRowAt (s : State) (table : Table) (row : Nat) (reused : Option Nat) :
    Option State := do
  let article ← (table.articles s.app.news)[row]?
  guard ((s.shownAt table row).isNone)
  let saved := s.savedUrls.contains article.key
  let cell : Cell := { table, saved, shown := some ⟨row, article⟩, bound := saved }
  match reused with
  | none => some { s with cells := s.cells ++ [cell] }
  | some c =>
      guard (s.cells[c]?.any fun old => old.table = table ∧ old.shown = none)
      some { s with cells := s.cells.set c cell }

def leadingSwipe (s : State) (c : Nat) : Option State := do
  let cell ← s.cells[c]?
  let shown ← cell.shown
  let action : SwipeAction := ⟨cell.table, shown.row, c, .of cell.saved⟩
  some { s with actions := s.actions ++ [action] }

def trigger (s : State) (action : SwipeAction) : Option State := do
  let cell ← s.cells[action.cell]?
  let shown ← s.shownAt action.table action.row
  match (handler action.table action.row action.cell cell.saved).exec s.app with
  | (none, _) => none
  | (some (), t) => some { s with
      app := t.store
      inFlight := s.inFlight ++ t.issued
      triggered := s.triggered ++ t.issued.map fun request => ⟨action.label, shown, request⟩ }

/-- The deletes that the closure of an unsave issues have no closure. -/
def react (s : State) (code : Callback App (SavedRequest Nat) (Nat × Bool) Unit) : State :=
  let (_, t) := code.exec s.app
  { s with app := t.store, cells := t.completed.foldl setSaved s.cells }

def step (s : State) : Action → Option State
  | .load table articles =>
      some { s with app := { s.app with news := table.assign articles s.app.news } }
  | .reloadData table => some { s with
      cells := s.cells.map fun cell => if cell.table = table then hide cell else cell }
  | .scrollOff c => some { s with cells := s.cells.modify c hide }
  | .cellForRowAt table row reused => s.cellForRowAt table row reused
  | .leadingSwipe c => s.leadingSwipe c
  | .trigger k => s.actions[k]?.bind s.trigger
  | .deliver i ok documents => (pick s.inFlight i).map fun (request, rest) =>
      { s with
        inFlight := rest
        cells := s.cells.map (Cell.record (flagging ok request)) }.react
          (closure ok documents request)

end State

def machine : Machine State Action where
  step := State.step

/-- Every visible cell is flagged as the saved urls say. -/
def State.Marked (s : State) : Prop :=
  ∀ cell ∈ s.cells, ∀ shown ∈ cell.shown, cell.saved = s.savedUrls.contains shown.article.key

structure Faithful (s : State) : Prop where
  marked : s.inFlight = [] → s.Marked
  triggered : ∀ t ∈ s.triggered, t.Right

/-! ## When a step marks the rows right -/

/-- The button names what the captured cell's flag decides, and the row of the list still
holds the article that it shows. -/
def State.Names (s : State) (action : SwipeAction) : Prop :=
  ∀ cell ∈ s.cells[action.cell]?, ∀ shown ∈ s.shownAt action.table action.row,
    ∀ article ∈ (action.table.articles s.app.news)[action.row]?,
      action.label = .of cell.saved ∧
        if cell.saved then article.key = shown.key else article = shown

/-- What the last answer that meets `p` brought, or `bound` where there is none. -/
def Flagging.last (p : Flagging → Bool) (bound : Bool) (answers : List Flagging) : Bool :=
  ((answers.find? p).map Flagging.saved).getD bound

/-- The answers since the cell at index `c` was bound settle its flag: the last one that captured
it and the last one about the url that it shows are both saves, or both unsaves. What it was bound
with stands for an answer that is missing. -/
def Cell.SettledBy (cell : Cell) (c : Nat) (url : String) (answers : List Flagging) : Prop :=
  Flagging.last (fun answer => answer.captured = c) cell.bound answers =
    Flagging.last (fun answer => answer.url = url) cell.bound answers

def State.SettledBy (s : State) (ok : Bool) (request : SavedRequest Nat) : Prop :=
  ∀ c : Nat, ∀ cell ∈ s.cells[c]?, ∀ shown ∈ cell.shown,
    cell.SettledBy c shown.article.key (flagging ok request ++ cell.answers)

/-- Only the answer that leaves nothing in flight has to settle the flags. -/
def Marks (s : State) : Action → Prop
  | .trigger k => ∀ action ∈ s.actions[k]?, s.Names action
  | .deliver i ok _ => ∀ picked ∈ pick s.inFlight i, picked.2 = [] → s.SettledBy ok picked.1
  | _ => True

/-- The captured cell is the only visible one that may show the url, and shows nothing else. -/
def State.Alone (s : State) (captured : Nat) (url : String) : Prop :=
  ∀ c, ∀ cell ∈ s.cells[c]?, ∀ shown ∈ cell.shown, (shown.article.key = url ↔ c = captured)

/-- Nothing is triggered and no row is bound while a request is in flight, and the url of a
triggered action is shown in its own cell alone. -/
def Careful (s : State) : Action → Prop
  | .trigger k => s.inFlight = [] ∧ ∀ action ∈ s.actions[k]?, s.Names action ∧
      ∀ shown ∈ s.shownAt action.table action.row, s.Alone action.cell shown.key
  | .cellForRowAt .. => s.inFlight = []
  | _ => True

/-! ## What one step does -/

section Steps

variable {s s' : State}

theorem trigger_eq {action : SwipeAction} (h : s.trigger action = some s') :
    ∃ cell shown article request, s.cells[action.cell]? = some cell ∧
      s.shownAt action.table action.row = some shown ∧
      (action.table.articles s.app.news)[action.row]? = some article ∧
      (∃ uid, request = if cell.saved then .whereUrl uid article.key action.cell
        else .addDocument uid article action.cell) ∧
      s' = { s with
        inFlight := s.inFlight ++ [request]
        triggered := s.triggered ++ [⟨action.label, shown, request⟩] } := by
  unfold State.trigger at h
  obtain ⟨cell, hcell, h⟩ := Option.bind_eq_some_iff.mp h
  obtain ⟨shown, hshown, h⟩ := Option.bind_eq_some_iff.mp h
  cases harticle : (action.table.articles s.app.news)[action.row]? with
  | none => simp [handler, harticle] at h
  | some article =>
      cases huser : s.app.currentUser with
      | none =>
          cases hsaved : cell.saved <;>
            simp [handler, harticle, hsaved, huser, unsaveArticle_apply, saveArticle_apply] at h
      | some user =>
          refine ⟨cell, shown, article, _, hcell, hshown, rfl, ⟨user.uid, rfl⟩, ?_⟩
          cases hsaved : cell.saved with
          | false =>
              simp [handler, harticle, hsaved, huser, saveArticle_apply] at h
              exact h.symm
          | true =>
              simp [handler, harticle, hsaved, huser, unsaveArticle_apply] at h
              exact h.symm

theorem right_iff_names {action : SwipeAction} {cell : Cell} {shown article : Article}
    (uid : Uid) (hcell : s.cells[action.cell]? = some cell)
    (hshown : s.shownAt action.table action.row = some shown)
    (harticle : (action.table.articles s.app.news)[action.row]? = some article) :
    Triggered.Right ⟨action.label, shown, if cell.saved then
        .whereUrl uid article.key action.cell else .addDocument uid article action.cell⟩ ↔
      s.Names action := by
  simp only [State.Names, hcell, hshown, harticle, Option.mem_some_iff, forall_eq']
  cases cell.saved <;> cases action.label <;> simp [Triggered.Right, Label.of]

theorem last_append (p : Flagging → Bool) (bound : Bool) (new answers : List Flagging) :
    Flagging.last p bound (new ++ answers) = Flagging.last p (Flagging.last p bound answers) new := by
  unfold Flagging.last
  rw [List.find?_append]
  cases new.find? p <;> rfl

theorem last_singleton (p : Flagging → Bool) (bound : Bool) (answer : Flagging) :
    Flagging.last p bound [answer] = if p answer then answer.saved else bound := by
  unfold Flagging.last
  rw [List.find?_singleton]
  split <;> rfl

def Cell.answered (c : Nat) (new : List Flagging) (cell : Cell) : Cell :=
  { cell.record new with
    saved := Flagging.last (fun answer => answer.captured = c) cell.saved new }

theorem setSaved_record (cells : List Cell) (answer : Flagging) (c : Nat) :
    (State.setSaved (cells.map (Cell.record [answer])) (answer.captured, answer.saved))[c]? =
      cells[c]?.map (Cell.answered c [answer]) := by
  simp only [State.setSaved, List.getElem?_modify, List.getElem?_map, Option.map_eq_map,
    Option.map_map]
  congr 1
  funext cell
  by_cases hc : answer.captured = c <;> simp [Cell.answered, last_singleton, hc, Cell.record]

/-- A successful answer flags the captured cell, and its url is saved, or not, from then on. -/
theorem deliver_spec {i : Nat} {ok : Bool} {documents : List DocumentId}
    (h : machine.step s (.deliver i ok documents) = some s') :
    ∃ request rest, pick s.inFlight i = some (request, rest) ∧ s'.inFlight = rest ∧
      s'.triggered = s.triggered ∧
      (∀ c : Nat, s'.cells[c]? = s.cells[c]?.map (Cell.answered c (flagging ok request))) ∧
      ∀ key, s'.savedUrls.contains key =
        Flagging.last (fun answer => answer.url = key) (s.savedUrls.contains key)
          (flagging ok request) := by
  obtain ⟨⟨request, rest⟩, hpick, rfl⟩ := Option.map_eq_some_iff.mp h
  refine ⟨request, rest, hpick, rfl, rfl, ?_⟩
  have hfailed : ∀ c : Nat, (s.cells.map (Cell.record []))[c]? =
      s.cells[c]?.map (Cell.answered c []) := fun c => List.getElem?_map
  cases request with
  | addDocument uid article captured =>
      cases ok with
      | false => exact ⟨hfailed, fun _ => rfl⟩
      | true =>
          refine ⟨setSaved_record s.cells ⟨captured, true, article.key⟩, fun key => ?_⟩
          change (s.savedUrls ++ [article.key]).contains key = _
          rw [List.contains_append, flagging, if_pos rfl, last_singleton]
          by_cases hkey : article.key = key <;> simp [hkey, eq_comm (a := key)]
  | whereUrl uid url captured =>
      cases ok with
      | false => exact ⟨hfailed, fun _ => rfl⟩
      | true =>
          have hreact : ∀ cells, ({ s with inFlight := rest, cells } : State).react
              (closure true documents (.whereUrl uid url captured)) = { s with
                app := { s.app with news := { s.app.news with
                  savedNews := s.app.news.savedNews.filter fun a => a.url != some url
                  savedUrls := s.savedUrls.filter fun savedUrl => savedUrl != url } }
                cells := State.setSaved cells (captured, false)
                inFlight := rest } := by
            intro cells
            simp only [State.react, closure, if_true, Callback.exec_apply,
              unsaveArticle.onDocuments_decomposed, Callback.complete_apply]
            rfl
          simp only [hreact]
          refine ⟨setSaved_record s.cells ⟨captured, false, url⟩, fun key => ?_⟩
          change (s.savedUrls.filter fun savedUrl => savedUrl != url).contains key = _
          rw [flagging, if_pos rfl, last_singleton]
          by_cases hkey : url = key
          · simp [hkey]
          · simp [hkey, Ne.symm hkey, List.contains_eq_mem]
  | orderedBySavedAt | getDocuments | delete => exact ⟨hfailed, fun _ => rfl⟩

theorem cellForRowAt_marked {table : Table} {row : Nat} {reused : Option Nat}
    (h : s.cellForRowAt table row reused = some s') :
    (s.Marked → s'.Marked) ∧ s'.inFlight = s.inFlight ∧ s'.triggered = s.triggered := by
  obtain ⟨article, harticle, h⟩ := Option.bind_eq_some_iff.mp h
  obtain ⟨-, -, h⟩ := Option.bind_eq_some_iff.mp h
  have hbound : ∀ shown ∈ some (Shown.mk row article),
      s.savedUrls.contains article.key = s.savedUrls.contains shown.article.key := by
    intro shown hshown
    obtain rfl := Option.mem_some_iff.mp hshown
    rfl
  cases reused with
  | none =>
      obtain rfl := Option.some.inj h
      refine ⟨fun hmarked cell hcell => ?_, rfl, rfl⟩
      rcases List.mem_append.mp hcell with hcell | hcell
      · exact hmarked cell hcell
      · obtain rfl := List.mem_singleton.mp hcell
        exact hbound
  | some c =>
      obtain ⟨-, -, h⟩ := Option.bind_eq_some_iff.mp h
      obtain rfl := Option.some.inj h
      refine ⟨fun hmarked cell hcell => ?_, rfl, rfl⟩
      rcases List.mem_or_eq_of_mem_set hcell with hcell | rfl
      · exact hmarked cell hcell
      · exact hbound

/-- A step that at most hides cells: what is still visible stays where it was. -/
structure Hides (s s' : State) : Prop where
  visible : ∀ c : Nat, ∀ cell ∈ s'.cells[c]?, ∀ shown ∈ cell.shown, cell ∈ s.cells[c]?
  savedUrls : s'.savedUrls = s.savedUrls
  inFlight : s'.inFlight = s.inFlight
  triggered : s'.triggered = s.triggered

theorem Hides.marked (h : Hides s s') (hmarked : s.Marked) : s'.Marked := by
  intro cell hcell shown hshown
  obtain ⟨c, hc⟩ := List.mem_iff_getElem?.mp hcell
  rw [h.savedUrls]
  exact hmarked cell (List.mem_of_getElem? (h.visible c cell hc shown hshown)) shown hshown

theorem hides_step {a : Action} (hrow : ∀ table row reused, a ≠ .cellForRowAt table row reused)
    (htrigger : ∀ k, a ≠ .trigger k) (hdeliver : ∀ i ok documents, a ≠ .deliver i ok documents)
    (h : machine.step s a = some s') : Hides s s' := by
  cases a with
  | load table articles =>
      obtain rfl := Option.some.inj h
      exact ⟨fun _ _ hcell _ _ => hcell, Table.savedUrls_assign _ _ _, rfl, rfl⟩
  | reloadData table =>
      obtain rfl := Option.some.inj h
      refine ⟨fun c cell hcell shown hshown => ?_, rfl, rfl, rfl⟩
      rw [List.getElem?_map, Option.mem_def, Option.map_eq_some_iff] at hcell
      obtain ⟨old, hold, rfl⟩ := hcell
      by_cases htable : old.table = table
      · rw [if_pos htable] at hshown
        cases hshown
      · rwa [if_neg htable]
  | scrollOff c =>
      obtain rfl := Option.some.inj h
      refine ⟨fun j cell hcell shown hshown => ?_, rfl, rfl, rfl⟩
      rw [List.getElem?_modify, Option.mem_def, Option.map_eq_map, Option.map_eq_some_iff]
        at hcell
      obtain ⟨old, hold, rfl⟩ := hcell
      by_cases hj : c = j
      · rw [if_pos hj] at hshown
        cases hshown
      · rwa [if_neg hj]
  | leadingSwipe c =>
      obtain ⟨cell, -, h⟩ := Option.bind_eq_some_iff.mp h
      obtain ⟨shown, -, h⟩ := Option.bind_eq_some_iff.mp h
      obtain rfl := Option.some.inj h
      exact ⟨fun _ _ hcell _ _ => hcell, rfl, rfl, rfl⟩
  | cellForRowAt table row reused => exact absurd rfl (hrow table row reused)
  | trigger k => exact absurd rfl (htrigger k)
  | deliver i ok documents => exact absurd rfl (hdeliver i ok documents)

/-! ## What is recorded of the answers -/

/-- A visible cell is flagged, and its url is saved or not, as the binding and the answers since
then have left them. -/
def Recorded (s : State) : Prop :=
  ∀ c : Nat, ∀ cell ∈ s.cells[c]?, ∀ shown ∈ cell.shown,
    cell.saved = Flagging.last (fun answer => answer.captured = c) cell.bound cell.answers ∧
      s.savedUrls.contains shown.article.key =
        Flagging.last (fun answer => answer.url = shown.article.key) cell.bound cell.answers

theorem recorded_cellForRowAt {table : Table} {row : Nat} {reused : Option Nat} (hs : Recorded s)
    (h : s.cellForRowAt table row reused = some s') : Recorded s' := by
  obtain ⟨article, harticle, h⟩ := Option.bind_eq_some_iff.mp h
  obtain ⟨-, -, h⟩ := Option.bind_eq_some_iff.mp h
  have hbound : ∀ shown ∈ some (Shown.mk row article),
      s.savedUrls.contains article.key = s.savedUrls.contains article.key ∧
        s.savedUrls.contains shown.article.key = s.savedUrls.contains article.key := by
    intro shown hshown
    obtain rfl := Option.mem_some_iff.mp hshown
    exact ⟨rfl, rfl⟩
  cases reused with
  | none =>
      obtain rfl := Option.some.inj h
      intro c cell hcell
      rw [List.getElem?_append, Option.mem_def] at hcell
      split at hcell
      · exact hs c cell hcell
      · obtain rfl := List.mem_singleton.mp (List.mem_of_getElem? hcell)
        exact hbound
  | some j =>
      obtain ⟨-, -, h⟩ := Option.bind_eq_some_iff.mp h
      obtain rfl := Option.some.inj h
      intro c cell hcell
      rw [List.getElem?_set, Option.mem_def] at hcell
      split at hcell
      · split at hcell
        · obtain rfl := Option.some.inj hcell
          exact hbound
        · cases hcell
      · exact hs c cell hcell

theorem Hides.recorded (h : Hides s s') (hs : Recorded s) : Recorded s' := by
  intro c cell hcell shown hshown
  rw [h.savedUrls]
  exact hs c cell (h.visible c cell hcell shown hshown) shown hshown

theorem recorded_deliver {i : Nat} {ok : Bool} {documents : List DocumentId} (hs : Recorded s)
    (h : machine.step s (.deliver i ok documents) = some s') : Recorded s' := by
  obtain ⟨request, rest, -, -, -, hcells, hurls⟩ := deliver_spec h
  intro c cell' hcell' shown hshown
  rw [hcells] at hcell'
  obtain ⟨cell, hcell, rfl⟩ := Option.map_eq_some_iff.mp hcell'
  obtain ⟨hflagged, hlisted⟩ := hs c cell hcell shown hshown
  rw [hurls, hlisted, ← last_append]
  refine ⟨?_, rfl⟩
  calc
    Flagging.last _ cell.saved (flagging ok request) =
        Flagging.last _ (Flagging.last _ cell.bound cell.answers) (flagging ok request) := by
      rw [hflagged]
    _ = _ := (last_append ..).symm

theorem recorded_step {a : Action} (hs : Recorded s) (h : machine.step s a = some s') :
    Recorded s' := by
  cases a with
  | cellForRowAt table row reused => exact recorded_cellForRowAt hs h
  | deliver i ok documents => exact recorded_deliver hs h
  | trigger k =>
      obtain ⟨action, -, h⟩ := Option.bind_eq_some_iff.mp h
      obtain ⟨_, _, _, _, -, -, -, -, rfl⟩ := trigger_eq h
      exact hs
  | load | reloadData | scrollOff | leadingSwipe =>
      exact (hides_step (by simp) (by simp) (by simp) h).recorded hs

/-- After an answer the visible cells are flagged right exactly where the answers until then
settle them. -/
theorem marked_iff_settledBy {i : Nat} {ok : Bool} {documents : List DocumentId}
    {request : SavedRequest Nat} {rest : List (SavedRequest Nat)} (hs : Recorded s)
    (h : machine.step s (.deliver i ok documents) = some s')
    (hpick : pick s.inFlight i = some (request, rest)) :
    s'.Marked ↔ s.SettledBy ok request := by
  have hs' := recorded_deliver hs h
  obtain ⟨_, _, hpick', -, -, hcells, -⟩ := deliver_spec h
  obtain ⟨rfl, rfl⟩ := Prod.mk.inj (Option.some.inj (hpick.symm.trans hpick'))
  constructor
  · intro hmarked c cell hcell shown hshown
    have hcell' : cell.answered c (flagging ok request) ∈ s'.cells[c]? := by
      rw [hcells, Option.mem_def.mp hcell]
      rfl
    obtain ⟨hflagged, hlisted⟩ := hs' c _ hcell' shown hshown
    exact hflagged.symm.trans
      ((hmarked _ (List.mem_of_getElem? hcell') shown hshown).trans hlisted)
  · intro hsettled cell' hmem shown hshown
    obtain ⟨c, hcell'⟩ := List.mem_iff_getElem?.mp hmem
    obtain ⟨hflagged, hlisted⟩ := hs' c cell' hcell' shown hshown
    rw [hcells] at hcell'
    obtain ⟨cell, hcell, rfl⟩ := Option.map_eq_some_iff.mp hcell'
    exact hflagged.trans ((hsettled c cell hcell shown hshown).trans hlisted.symm)

/-! ## What keeps flags and actions right -/

theorem faithful_of_marked (hfaithful : Faithful s) (hmarked : s.Marked → s'.Marked)
    (hinFlight : s'.inFlight = s.inFlight) (htriggered : s'.triggered = s.triggered) :
    Faithful s' := by
  constructor
  · intro hidle
    exact hmarked (hfaithful.marked (hinFlight ▸ hidle))
  · rw [htriggered]
    exact hfaithful.triggered

theorem triggered_concat {t : Triggered} (htriggered : ∀ t ∈ s.triggered, t.Right) :
    (∀ u ∈ s.triggered ++ [t], u.Right) ↔ t.Right := by
  constructor
  · intro h
    exact h t (List.mem_append_right _ (List.mem_singleton_self t))
  · intro hright u hu
    rcases List.mem_append.mp hu with hu | hu
    · exact htriggered u hu
    · obtain rfl := List.mem_singleton.mp hu
      exact hright

theorem faithful_step {a : Action} (hs : Recorded s) (hfaithful : Faithful s)
    (h : machine.step s a = some s') : Faithful s' ↔ Marks s a := by
  cases a with
  | trigger k =>
      obtain ⟨action, haction, h⟩ := Option.bind_eq_some_iff.mp h
      obtain ⟨cell, shown, article, request, hcell, hshown, harticle, ⟨uid, rfl⟩, rfl⟩ :=
        trigger_eq h
      simp only [Marks, haction, Option.mem_some_iff, forall_eq']
      rw [← right_iff_names uid hcell hshown harticle, ← triggered_concat hfaithful.triggered]
      constructor
      · intro hfaithful'
        exact hfaithful'.triggered
      · intro hright
        refine ⟨fun hidle => ?_, hright⟩
        exact absurd hidle (List.append_ne_nil_of_right_ne_nil _ (List.cons_ne_nil _ _))
  | deliver i ok documents =>
      obtain ⟨request, rest, hpick, hrest, htriggered, -⟩ := deliver_spec h
      have hmarked := marked_iff_settledBy hs h hpick
      simp only [Marks, hpick, Option.mem_some_iff, forall_eq']
      constructor
      · intro hfaithful' hidle
        exact hmarked.mp (hfaithful'.marked (hrest.trans hidle))
      · intro hsettles
        constructor
        · intro hidle
          exact hmarked.mpr (hsettles (hrest.symm.trans hidle))
        · rw [htriggered]
          exact hfaithful.triggered
  | cellForRowAt table row reused =>
      obtain ⟨hmarked, hinFlight, htriggered⟩ := cellForRowAt_marked h
      exact iff_of_true (faithful_of_marked hfaithful hmarked hinFlight htriggered) trivial
  | load | reloadData | scrollOff | leadingSwipe =>
      have hhides : Hides s s' := hides_step (by simp) (by simp) (by simp) h
      exact iff_of_true (faithful_of_marked hfaithful hhides.marked hhides.inFlight
        hhides.triggered) trivial

end Steps

/-! ## Careful runs -/

def State.AloneFor (s : State) : SavedRequest Nat → Prop
  | .addDocument _ article captured => s.Alone captured article.key
  | .whereUrl _ url captured => s.Alone captured url
  | _ => True

/-- All visible cells are flagged right all along, with at most one request in flight. -/
structure Calm (s : State) : Prop where
  recorded : Recorded s
  marked : s.Marked
  triggered : ∀ t ∈ s.triggered, t.Right
  single : ∀ request ∈ s.inFlight, s.inFlight = [request] ∧ s.AloneFor request

section Calm

variable {s s' : State}

theorem settled_of_alone {captured : Nat} {saved : Bool} {url : String} (hs : Recorded s)
    (hmarked : s.Marked) (halone : s.Alone captured url) (c : Nat) :
    ∀ cell ∈ s.cells[c]?, ∀ shown ∈ cell.shown,
      cell.SettledBy c shown.article.key ([⟨captured, saved, url⟩] ++ cell.answers) := by
  intro cell hcell shown hshown
  obtain ⟨hflagged, hlisted⟩ := hs c cell hcell shown hshown
  have hcaptured := halone c cell hcell shown hshown
  rw [Cell.SettledBy, last_append, last_append, last_singleton, last_singleton, ← hflagged,
    ← hlisted]
  by_cases hc : c = captured
  · simp [hc, hcaptured.mpr hc]
  · have hkey : shown.article.key ≠ url := fun heq => hc (hcaptured.mp heq)
    simp [Ne.symm hc, hkey.symm, hmarked cell (List.mem_of_getElem? hcell) shown hshown]

theorem settled_of_marked (hs : Recorded s) (hmarked : s.Marked) (c : Nat) :
    ∀ cell ∈ s.cells[c]?, ∀ shown ∈ cell.shown,
      cell.SettledBy c shown.article.key ([] ++ cell.answers) := by
  intro cell hcell shown hshown
  obtain ⟨hflagged, hlisted⟩ := hs c cell hcell shown hshown
  exact hflagged.symm.trans
    ((hmarked cell (List.mem_of_getElem? hcell) shown hshown).trans hlisted)

theorem settledBy_of_aloneFor {request : SavedRequest Nat} {ok : Bool} (hs : Recorded s)
    (hmarked : s.Marked) (halone : s.AloneFor request) : s.SettledBy ok request := by
  cases request with
  | addDocument uid article captured =>
      cases ok with
      | true => exact settled_of_alone hs hmarked halone
      | false => exact settled_of_marked hs hmarked
  | whereUrl uid url captured =>
      cases ok with
      | true => exact settled_of_alone hs hmarked halone
      | false => exact settled_of_marked hs hmarked
  | orderedBySavedAt | getDocuments | delete => exact settled_of_marked hs hmarked

theorem Hides.aloneFor (h : Hides s s') {request : SavedRequest Nat}
    (halone : s.AloneFor request) : s'.AloneFor request := by
  have hvisible : ∀ captured url, s.Alone captured url → s'.Alone captured url :=
    fun captured url halone c cell hcell shown hshown =>
      halone c cell (h.visible c cell hcell shown hshown) shown hshown
  cases request with
  | addDocument uid article captured => exact hvisible captured article.key halone
  | whereUrl uid url captured => exact hvisible captured url halone
  | orderedBySavedAt | getDocuments | delete => trivial

theorem calm_of_idle (hs : Recorded s) (hmarked : s.Marked)
    (htriggered : ∀ t ∈ s.triggered, t.Right) (hidle : s.inFlight = []) : Calm s := by
  refine ⟨hs, hmarked, htriggered, fun request hmem => ?_⟩
  rw [hidle] at hmem
  cases hmem

theorem calm_trigger {k : Nat} (hcalm : Calm s) (hcareful : Careful s (.trigger k))
    (h : machine.step s (.trigger k) = some s') : Calm s' := by
  have hs' := recorded_step hcalm.recorded h
  obtain ⟨action, haction, h⟩ := Option.bind_eq_some_iff.mp h
  obtain ⟨cell, shown, article, request, hcell, hshown, harticle, ⟨uid, rfl⟩, rfl⟩ := trigger_eq h
  obtain ⟨hidle, haction'⟩ := hcareful
  obtain ⟨hnames, halone⟩ := haction' action haction
  have hkey : article.key = shown.key := by
    have hsame := (hnames cell hcell shown hshown article harticle).2
    split at hsame
    · exact hsame
    · rw [hsame]
  have hright := (right_iff_names uid hcell hshown harticle).mpr hnames
  refine ⟨hs', hcalm.marked, (triggered_concat hcalm.triggered).mpr hright, fun request hmem => ?_⟩
  rw [hidle, List.nil_append] at hmem ⊢
  obtain rfl := List.mem_singleton.mp hmem
  refine ⟨rfl, ?_⟩
  have halone' : s.Alone action.cell article.key := hkey ▸ halone shown hshown
  cases cell.saved <;> exact halone'

theorem calm_deliver {i : Nat} {ok : Bool} {documents : List DocumentId} (hcalm : Calm s)
    (h : machine.step s (.deliver i ok documents) = some s') : Calm s' := by
  obtain ⟨request, rest, hpick, hrest, htriggered, -⟩ := deliver_spec h
  obtain ⟨hsingle, halone⟩ := hcalm.single request (mem_of_pick hpick)
  have hnil : rest = [] := rest_eq_nil hpick hsingle
  have hmarked : s'.Marked := (marked_iff_settledBy hcalm.recorded h hpick).mpr
    (settledBy_of_aloneFor hcalm.recorded hcalm.marked halone)
  refine calm_of_idle (recorded_step hcalm.recorded h) hmarked ?_ (hrest.trans hnil)
  rw [htriggered]
  exact hcalm.triggered

theorem calm_step {a : Action} (hcalm : Calm s) (hcareful : Careful s a)
    (h : machine.step s a = some s') : Calm s' := by
  cases a with
  | trigger k => exact calm_trigger hcalm hcareful h
  | deliver i ok documents => exact calm_deliver hcalm h
  | cellForRowAt table row reused =>
      obtain ⟨hmarked, hinFlight, htriggered⟩ := cellForRowAt_marked h
      refine calm_of_idle (recorded_step hcalm.recorded h) (hmarked hcalm.marked) ?_
        (hinFlight.trans hcareful)
      rw [htriggered]
      exact hcalm.triggered
  | load | reloadData | scrollOff | leadingSwipe =>
      have hhides : Hides s s' := hides_step (by simp) (by simp) (by simp) h
      refine ⟨hhides.recorded hcalm.recorded, hhides.marked hcalm.marked, ?_, ?_⟩
      · rw [hhides.triggered]
        exact hcalm.triggered
      · rw [hhides.inFlight]
        intro request hmem
        obtain ⟨hsingle, halone⟩ := hcalm.single request hmem
        exact ⟨hsingle, hhides.aloneFor halone⟩

end Calm

/-! ## Rows are marked right -/

def app : App where
  currentUser := some ⟨"reader", none⟩
  news := { allNews := [.titled "First", ⟨none, some "Second", none, some "second", none⟩] }

/-- The cell of the first row shows the second one by the time the save is answered. -/
def reusedWhilePending : List Action :=
  [.cellForRowAt .forYou 0 none, .leadingSwipe 0, .trigger 0, .scrollOff 0,
    .cellForRowAt .forYou 1 (some 0), .deliver 0 true []]

end NewsFlash.Screens.CellReuse

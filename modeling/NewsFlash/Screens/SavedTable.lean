import NewsFlash.Library.InFlight
import NewsFlash.Library.Machine
import NewsFlash.Models.Networking

/-!
# The table of the saved articles

Every screen edits `savedNews`, but only the Saved screen's own fetches and unsaves update its
table and its placeholder. `deleteRows(at:)` throws unless the rows that the table knows of,
less the deleted one, are the articles that are left. `Keeps` says exactly which steps keep
the table in step with the list, and `Careful` which order of events does.
-/

namespace NewsFlash.Screens.SavedTable

open NewsFlash.Library NewsFlash.Models NewsFlash.Models.Networking

/-! ## The screen and its requests -/

/-- The articles by which the table last counted its rows, and `nothingSavedView.isHidden`. -/
structure View where
  shown : List Article
  nothingSavedHidden : Bool
deriving DecidableEq, Repr

/-- The completion that waits for an answer. A refresh is in flight until the part of its
completion that it queues on the main queue has run. -/
inductive Completion where
  | viewDidLoad | handleRefresh | queuedReload | elsewhere | deleteRow (row : Nat)
deriving DecidableEq, Repr

/-- What is in flight; a queued part has no request. -/
structure Pending where
  request : Option (SavedRequest Unit)
  completion : Completion
deriving DecidableEq, Repr

inductive Answer where
  | added (error : Bool)
  | matched (documents : Option (List DocumentId))
  | fetched (documents : Option (List SavedFields))
  | dequeued
deriving DecidableEq, Repr

/-- `actions` are the configured swipe actions of the Saved screen: a row and the article that
was in it. -/
structure State where
  app : App
  view : Option View := none
  actions : List (Nat × Article) := []
  inFlight : List Pending := []
  thrown : Bool := false

inductive Action where
  | viewDidLoad
  | handleRefresh
  | didReceiveMemoryWarning
  | saveElsewhere (article : Article)
  | unsaveElsewhere (url : String)
  | leadingSwipe (row : Nat)
  | trigger (k : Nat)
  | deliver (i : Nat) (answer : Answer)

namespace State

def savedNews (s : State) : List Article := s.app.news.savedNews

def send (s : State) (code : Callback App (SavedRequest Unit) Unit Unit)
    (completion : Completion) : Option State :=
  match code.exec s.app with
  | (none, _) => none
  | (some (), t) => some { s with
      app := t.store
      inFlight := s.inFlight ++ t.issued.map fun request => ⟨some request, completion⟩ }

def react (s : State) (code : Callback App (SavedRequest Unit) Unit Unit) : Option State :=
  match code.exec s.app with
  | (none, _) => none
  | (some (), t) => some { s with app := t.store }

/-- `reloadData`, and the placeholder as the list says. -/
def reloadData (s : State) : State :=
  { s with view := s.view.map fun _ => ⟨s.savedNews, !s.savedNews.isEmpty⟩ }

/-- The table deletes the row, or UIKit throws. -/
def deleteRow (s : State) (row : Nat) : State :=
  if ∀ view ∈ s.view, row < view.shown.length ∧ view.shown.eraseIdx row = s.savedNews then
    s.reloadData
  else { s with thrown := true }

end State

def assignSavedNews (data : Option (List Article)) : Callback App (SavedRequest Unit) Unit Unit :=
  App.modifyNews fun news => { news with savedNews := data.getD [] }

namespace State

def answer (s : State) : Option (SavedRequest Unit) → Completion → Answer → Option State
  | some (.addDocument _ article _), _, .added error =>
      s.react (saveArticle.onAdded article (fun _ => pure ()) error)
  | some (.whereUrl uid url _), completion, .matched documents =>
      (s.react (unsaveArticle.onDocuments uid url (fun _ => pure ()) documents)).map fun s =>
        match completion, documents with
        | .deleteRow row, some _ => s.deleteRow row
        | _, _ => s
  | some (.orderedBySavedAt _), completion, .fetched documents =>
      (s.react (getSavedNews.onDocuments assignSavedNews documents)).map fun s =>
        if completion = .handleRefresh then
          { s with inFlight := s.inFlight ++ [⟨none, .queuedReload⟩] }
        else s.reloadData
  | none, .queuedReload, .dequeued => some s.reloadData
  | _, _, _ => none

/-- The table counts its rows for the first time when the view is laid out. A handler
subscripts the list by a row that the table knows of. -/
def step (s : State) : Action → Option State
  | .viewDidLoad =>
      if s.thrown ∨ s.view.isSome then none
      else { s with view := some ⟨s.savedNews, true⟩ }.send getSavedNews .viewDidLoad
  | .handleRefresh =>
      if s.thrown ∨ s.view = none then none else s.send getSavedNews .handleRefresh
  | .didReceiveMemoryWarning =>
      if s.thrown then none
      else some { s with
        app := { s.app with news := { s.app.news with savedNews := [] } } }
  | .saveElsewhere article =>
      if s.thrown then none else s.send (saveArticle article ()) .elsewhere
  | .unsaveElsewhere url => if s.thrown then none else s.send (unsaveArticle url ()) .elsewhere
  | .leadingSwipe row =>
      if s.thrown ∨ ¬ ∃ view ∈ s.view, row < view.shown.length then none
      else s.savedNews[row]?.map fun article => { s with actions := s.actions ++ [(row, article)] }
  | .trigger k =>
      if s.thrown then none
      else s.actions[k]?.bind fun (row, article) =>
        s.send (unsaveArticle (article.url.getD "") ()) (.deleteRow row)
  | .deliver i answer =>
      if s.thrown then none
      else (pick s.inFlight i).bind fun (pending, rest) =>
        { s with inFlight := rest }.answer pending.request pending.completion answer

end State

def machine : Machine State Action where
  step := State.step

/-- The view counts as many rows as there are articles and shows its placeholder when there
are none. -/
def View.Fits (view : View) (articles : List Article) : Prop :=
  view.shown.length = articles.length ∧ (view.nothingSavedHidden = true ↔ articles ≠ [])

/-- No `deleteRows` has thrown, and with nothing in flight the loaded view fits the list. -/
structure InStep (s : State) : Prop where
  deleted : s.thrown = false
  fits : s.inFlight = [] → ∀ view ∈ s.view, view.Fits s.savedNews

/-! ## When a step keeps the table in step -/

/-- An answer that deletes a row deletes the one article that goes. One that leaves nothing in
flight, and reloads nothing, leaves a list that the view fits. -/
def State.KeepsAnswer (s : State) : Option (SavedRequest Unit) → Completion → Answer → Prop
  | some (.addDocument _ article _), _, .added error => s.inFlight = [] → ∀ view ∈ s.view,
      view.Fits (if error then s.savedNews else article :: s.savedNews)
  | some (.whereUrl _ url _), completion, .matched documents =>
      let left := s.savedNews.filter fun article => article.url != some url
      match completion, documents with
      | .deleteRow row, some _ => ∀ view ∈ s.view,
          row < view.shown.length ∧ view.shown.eraseIdx row = left
      | _, some _ => s.inFlight = [] → ∀ view ∈ s.view, view.Fits left
      | _, none => s.inFlight = [] → ∀ view ∈ s.view, view.Fits s.savedNews
  | _, _, _ => True

/-- The placeholder of a guest's screen stays hidden, and a memory warning empties the list
only. -/
def Keeps (s : State) : Action → Prop
  | .viewDidLoad => s.inFlight = [] → s.app.currentUser = none → s.savedNews ≠ []
  | .didReceiveMemoryWarning => s.inFlight = [] → ∀ view ∈ s.view, view.Fits []
  | .deliver i answer => ∀ picked ∈ pick s.inFlight i,
      { s with inFlight := picked.2 }.KeepsAnswer picked.1.request picked.1.completion answer
  | _ => True

/-! ## When a step is careful -/

def Completion.Reloads : Completion → Prop
  | .viewDidLoad | .handleRefresh | .queuedReload => True
  | .elsewhere | .deleteRow _ => False

def Completion.DeletesRow : Completion → Prop
  | .deleteRow _ => True
  | _ => False

namespace State

def Reloading (s : State) : Prop := ∃ pending ∈ s.inFlight, pending.completion.Reloads

/-- The list may change apart from the table: nothing is loaded yet, or a reload is on its way,
and no row is about to be deleted. -/
def MayChange (s : State) : Prop :=
  (s.view = none ∨ s.Reloading) ∧ ∀ pending ∈ s.inFlight, ¬ pending.completion.DeletesRow

/-- The list may change, or the article that is saved is new to it, or the unsaved one is not in
it. Fetched articles differ in their urls, and one row is deleted at a time. -/
def CarefulAnswer (s : State) : Option (SavedRequest Unit) → Completion → Answer → Prop
  | some (.addDocument _ article _), _, .added false => s.MayChange ∧
      ∀ url ∈ article.url, ∀ saved ∈ s.savedNews, saved.url ≠ some url
  | some (.whereUrl _ _ _), .deleteRow _, .matched (some _) =>
      ∀ pending ∈ s.inFlight, ¬ pending.completion.DeletesRow
  | some (.whereUrl _ url _), _, .matched (some _) =>
      s.MayChange ∨ ∀ saved ∈ s.savedNews, saved.url ≠ some url
  | some (.orderedBySavedAt _), _, .fetched documents =>
      (∀ pending ∈ s.inFlight, ¬ pending.completion.DeletesRow) ∧
        ∀ fetched ∈ documents, (List.filterMap SavedFields.url fetched).Nodup
  | _, _, _ => True

end State

/-- A user loads the screen, or a guest over saved articles; memory warnings come while the list
may change or is empty; and the row whose article is unsaved still shows it, with its url. -/
def Careful (s : State) : Action → Prop
  | .viewDidLoad => s.app.currentUser.isSome ∨ s.savedNews ≠ []
  | .didReceiveMemoryWarning => s.MayChange ∨ s.savedNews = []
  | .trigger k => ∀ action ∈ s.actions[k]?, action.2.url.isSome ∧
      s.savedNews[action.1]? = some action.2 ∧ ∀ view ∈ s.view, view.shown = s.savedNews
  | .deliver i answer => ∀ picked ∈ pick s.inFlight i,
      { s with inFlight := picked.2 }.CarefulAnswer picked.1.request picked.1.completion answer
  | _ => True

/-! ## What one step does -/

section Steps

variable {s s' : State}

theorem send_forced {code : Callback App (SavedRequest Unit) Unit Unit}
    {completion : Completion} {request : User → SavedRequest Unit}
    (hcode : ∀ t, code t = (t.store.currentUser.map fun _ => (), { t with
      issued := t.issued ++ t.store.currentUser.toList.map request }))
    (h : s.send code completion = some s') :
    ∃ user, s' = { s with inFlight := s.inFlight ++ [⟨some (request user), completion⟩] } := by
  unfold State.send at h
  simp only [Callback.exec_apply, hcode] at h
  cases huser : s.app.currentUser with
  | none => simp [huser] at h
  | some user =>
      simp only [huser, Option.map_some, Option.toList_some, List.map_cons, List.map_nil,
        List.nil_append] at h
      exact ⟨user, (Option.some.inj h).symm⟩

theorem send_getSavedNews {completion : Completion}
    (h : s.send getSavedNews completion = some s') :
    if s.app.currentUser = none then s' = s
    else ∃ uid, s' =
      { s with inFlight := s.inFlight ++ [⟨some (.orderedBySavedAt uid), completion⟩] } := by
  unfold State.send at h
  simp only [Callback.exec_apply, getSavedNews_apply] at h
  cases huser : s.app.currentUser with
  | none =>
      rw [if_pos rfl]
      simpa [huser] using h.symm
  | some user =>
      rw [if_neg (Option.some_ne_none user)]
      simp only [huser, Option.toList_some, List.map_cons, List.map_nil, List.nil_append] at h
      exact ⟨_, (Option.some.inj h).symm⟩

/-- While something is in flight only `deleteRows` matters. -/
theorem inStep_of_inFlight (hthrown : s.thrown = false) {pending : Pending}
    (h : pending ∈ s.inFlight) : InStep s := by
  refine ⟨hthrown, fun hidle => ?_⟩
  rw [hidle] at h
  cases h

theorem inStep_send {pending : Pending} (hs : InStep s) :
    InStep { s with inFlight := s.inFlight ++ [pending] } :=
  inStep_of_inFlight hs.deleted (List.mem_append_right _ (List.mem_singleton_self _))

theorem inStep_iff_fits (hthrown : s.thrown = false) :
    InStep s ↔ (s.inFlight = [] → ∀ view ∈ s.view, view.Fits s.savedNews) := by
  constructor
  · intro hs
    exact hs.fits
  · intro hfits
    exact ⟨hthrown, hfits⟩

theorem fits_reloaded (articles : List Article) :
    View.Fits ⟨articles, !articles.isEmpty⟩ articles := by
  refine ⟨rfl, ?_⟩
  cases articles <;> simp

theorem inStep_reloadData (hthrown : s.thrown = false) : InStep s.reloadData := by
  refine ⟨hthrown, fun _ view hview => ?_⟩
  obtain ⟨old, -, rfl⟩ := Option.map_eq_some_iff.mp hview
  exact fits_reloaded s.savedNews

theorem inStep_deleteRow {row : Nat} (hthrown : s.thrown = false) :
    InStep (s.deleteRow row) ↔
      ∀ view ∈ s.view, row < view.shown.length ∧ view.shown.eraseIdx row = s.savedNews := by
  unfold State.deleteRow
  split
  next hrule => exact iff_of_true (inStep_reloadData hthrown) hrule
  next hrule =>
    refine iff_of_false (fun hs => ?_) hrule
    cases hs.deleted

theorem react_eq {code : Callback App (SavedRequest Unit) Unit Unit}
    (h : s.react code = some s') : s' = { s with app := (code.exec s.app).2.store } := by
  unfold State.react at h
  rcases hexec : code.exec s.app with ⟨_ | _, t⟩
  · rw [hexec] at h
    cases h
  · rw [hexec] at h
    exact (Option.some.inj h).symm

theorem savedNews_onAdded (article : Article) (error : Bool) :
    ((saveArticle.onAdded article (fun _ => pure ()) error :
        Callback App (SavedRequest Unit) Unit Unit).exec s.app).2.store.news.savedNews =
      if error then s.savedNews else article :: s.savedNews := by
  cases error <;> rfl

theorem savedNews_onDocuments (uid : Uid) (url : String)
    (documents : Option (List DocumentId)) :
    ((unsaveArticle.onDocuments uid url (fun _ => pure ()) documents :
        Callback App (SavedRequest Unit) Unit Unit).exec s.app).2.store.news.savedNews =
      if documents.isSome then s.savedNews.filter fun article => article.url != some url
      else s.savedNews := by
  cases documents with
  | none => rfl
  | some documents =>
      rw [Callback.exec_apply, unsaveArticle.onDocuments_decomposed]
      rfl

/-- The answer to an unsave filters the list; the one that the Saved screen asked for deletes
its row as well. -/
theorem inStep_matched {uid : Uid} {url : String} {completion : Completion}
    {documents : Option (List DocumentId)} (hthrown : s.thrown = false)
    (h : s.answer (some (.whereUrl uid url ())) completion (.matched documents) = some s') :
    InStep s' ↔ s.KeepsAnswer (some (.whereUrl uid url ())) completion (.matched documents) := by
  obtain ⟨t, ht, rfl⟩ := Option.map_eq_some_iff.mp h
  obtain rfl := react_eq ht
  have hsaved := savedNews_onDocuments (s := s) uid url documents
  cases documents with
  | none =>
      rw [if_neg (by simp)] at hsaved
      cases completion <;> exact inStep_iff_fits hthrown
  | some documents =>
      rw [if_pos (Option.isSome_some)] at hsaved
      cases completion with
      | deleteRow row =>
          refine Iff.trans (inStep_deleteRow hthrown) ?_
          rw [State.savedNews, hsaved]
          exact Iff.rfl
      | viewDidLoad | handleRefresh | queuedReload | elsewhere =>
          refine Iff.trans (inStep_iff_fits hthrown) ?_
          rw [State.savedNews, hsaved]
          exact Iff.rfl

theorem inStep_answer {request : Option (SavedRequest Unit)} {completion : Completion}
    {answer : Answer} (hthrown : s.thrown = false)
    (h : s.answer request completion answer = some s') :
    InStep s' ↔ s.KeepsAnswer request completion answer := by
  rcases request with _ | ⟨uid, article⟩ | ⟨uid, url⟩ | uid | uid | ⟨uid, document⟩
  · cases completion <;> cases answer <;> try cases h
    exact iff_of_true (inStep_reloadData hthrown) trivial
  · cases answer with
    | added error =>
        obtain rfl := react_eq h
        refine Iff.trans (inStep_iff_fits hthrown) ?_
        rw [State.savedNews, savedNews_onAdded]
        exact Iff.rfl
    | matched | fetched | dequeued => cases h
  · cases answer with
    | matched documents => exact inStep_matched hthrown h
    | added | fetched | dequeued => cases h
  · cases answer with
    | fetched documents =>
        obtain ⟨t, ht, rfl⟩ := Option.map_eq_some_iff.mp h
        obtain rfl := react_eq ht
        refine iff_of_true ?_ trivial
        split
        · exact inStep_of_inFlight hthrown (List.mem_append_right _ (List.mem_singleton_self _))
        · exact inStep_reloadData hthrown
    | added | matched | dequeued => cases h
  · cases answer <;> cases h
  · cases answer <;> cases h

theorem inStep_viewDidLoad (hs : InStep s) (h : machine.step s .viewDidLoad = some s') :
    InStep s' ↔ Keeps s .viewDidLoad := by
  obtain ⟨-, h⟩ := Option.ite_none_left_eq_some.mp h
  have hsent := send_getSavedNews h
  by_cases huser : s.app.currentUser = none
  · rw [if_pos huser] at hsent
    subst hsent
    refine Iff.trans (inStep_iff_fits hs.deleted) (imp_congr_right fun _ => ?_)
    simp [huser, View.Fits, State.savedNews]
  · rw [if_neg huser] at hsent
    obtain ⟨uid, rfl⟩ := hsent
    refine iff_of_true ?_ fun _ hnone => absurd hnone huser
    exact inStep_of_inFlight hs.deleted (List.mem_append_right _ (List.mem_singleton_self _))

theorem inStep_step {a : Action} (hs : InStep s) (h : machine.step s a = some s') :
    InStep s' ↔ Keeps s a := by
  cases a with
  | viewDidLoad => exact inStep_viewDidLoad hs h
  | handleRefresh =>
      obtain ⟨-, h⟩ := Option.ite_none_left_eq_some.mp h
      have hsent := send_getSavedNews h
      refine iff_of_true ?_ trivial
      split at hsent
      · subst hsent
        exact hs
      · obtain ⟨uid, rfl⟩ := hsent
        exact inStep_send hs
  | didReceiveMemoryWarning =>
      obtain ⟨-, h⟩ := Option.ite_none_left_eq_some.mp h
      obtain rfl := Option.some.inj h
      exact inStep_iff_fits hs.deleted
  | saveElsewhere article =>
      obtain ⟨-, h⟩ := Option.ite_none_left_eq_some.mp h
      obtain ⟨user, rfl⟩ := send_forced (saveArticle_apply article ()) h
      exact iff_of_true (inStep_send hs) trivial
  | unsaveElsewhere url =>
      obtain ⟨-, h⟩ := Option.ite_none_left_eq_some.mp h
      obtain ⟨user, rfl⟩ := send_forced (unsaveArticle_apply url ()) h
      exact iff_of_true (inStep_send hs) trivial
  | leadingSwipe row =>
      obtain ⟨-, h⟩ := Option.ite_none_left_eq_some.mp h
      obtain ⟨article, -, rfl⟩ := Option.map_eq_some_iff.mp h
      exact iff_of_true ⟨hs.deleted, hs.fits⟩ trivial
  | trigger k =>
      obtain ⟨-, h⟩ := Option.ite_none_left_eq_some.mp h
      obtain ⟨⟨row, article⟩, -, h⟩ := Option.bind_eq_some_iff.mp h
      obtain ⟨user, rfl⟩ := send_forced (unsaveArticle_apply _ ()) h
      exact iff_of_true (inStep_send hs) trivial
  | deliver i answer =>
      obtain ⟨-, h⟩ := Option.ite_none_left_eq_some.mp h
      obtain ⟨⟨pending, rest⟩, hpick, h⟩ := Option.bind_eq_some_iff.mp h
      simp only [Keeps, hpick, Option.mem_some_iff, forall_eq']
      exact inStep_answer hs.deleted h

end Steps

/-! ## Careful runs -/

/-- The rows are the list, and the placeholder stands in for it when it is empty. -/
def State.Settled (s : State) : Prop :=
  ∀ view ∈ s.view, view = ⟨s.savedNews, !s.savedNews.isEmpty⟩

/-- What is in flight was sent by its screen. A row that is about to be deleted shows the article
with the url of the unsave. -/
def State.Sent (s : State) : Pending → Prop
  | ⟨some (.addDocument ..), .elsewhere⟩ | ⟨some (.whereUrl ..), .elsewhere⟩
  | ⟨some (.orderedBySavedAt _), .viewDidLoad⟩ | ⟨some (.orderedBySavedAt _), .handleRefresh⟩
  | ⟨none, .queuedReload⟩ => True
  | ⟨some (.whereUrl _ url _), .deleteRow row⟩ =>
      (s.savedNews[row]?).bind Article.url = some url ∧ ∀ view ∈ s.view, view.shown = s.savedNews
  | _ => False

structure Calm (s : State) : Prop where
  deleted : s.thrown = false
  distinct : (s.savedNews.filterMap Article.url).Nodup
  settled : s.Settled ∨ s.Reloading
  sent : ∀ pending ∈ s.inFlight, s.Sent pending

section Calm

variable {s s' : State}

theorem Calm.inStep (hs : Calm s) : InStep s := by
  refine ⟨hs.deleted, fun hidle view hview => ?_⟩
  rcases hs.settled with hsettled | ⟨pending, hpending, -⟩
  · rw [hsettled view hview]
    exact fits_reloaded s.savedNews
  · rw [hidle] at hpending
    cases hpending

/-- Where the urls are distinct, the unsave of a row's article removes that row. -/
theorem filter_eq_eraseIdx {articles : List Article} {row : Nat} {url : String}
    (hdistinct : (articles.filterMap Article.url).Nodup)
    (hrow : (articles[row]?).bind Article.url = some url) :
    articles.filter (fun article => article.url != some url) = articles.eraseIdx row := by
  induction articles generalizing row with
  | nil => cases hrow
  | cons article articles ih =>
      cases row with
      | zero =>
          have hurl : article.url = some url := hrow
          rw [List.filterMap_cons_some hurl, List.nodup_cons] at hdistinct
          have hothers : ∀ other ∈ articles, (other.url != some url) = true := by
            intro other hother
            rw [bne_iff_ne]
            exact fun heq => hdistinct.1 (List.mem_filterMap.mpr ⟨other, hother, heq⟩)
          rw [List.filter_cons_of_neg (by simp [hurl]), List.filter_eq_self.mpr hothers,
            List.eraseIdx_cons_zero]
      | succ row =>
          rw [List.getElem?_cons_succ] at hrow
          have hmem : url ∈ articles.filterMap Article.url := by
            obtain ⟨other, hother, hurl⟩ := Option.bind_eq_some_iff.mp hrow
            exact List.mem_filterMap.mpr ⟨other, List.mem_of_getElem? hother, hurl⟩
          have hkept : article.url ≠ some url := by
            intro heq
            rw [List.filterMap_cons_some heq, List.nodup_cons] at hdistinct
            exact hdistinct.1 hmem
          have htail : (articles.filterMap Article.url).Nodup :=
            hdistinct.sublist (by
              rw [List.filterMap_cons]
              split
              · exact List.Sublist.refl _
              · exact List.sublist_cons_self _ _)
          rw [List.filter_cons_of_pos (by simpa using hkept), ih htail hrow,
            List.eraseIdx_cons_succ]

theorem sent_congr {pending : Pending} (hsaved : s'.savedNews = s.savedNews)
    (hview : s'.view = s.view) (h : s.Sent pending) : s'.Sent pending := by
  unfold State.Sent at h ⊢
  rwa [hsaved, hview]

theorem sent_of_not_deletes {pending : Pending} (h : s.Sent pending)
    (hdeletes : ¬ pending.completion.DeletesRow) : s'.Sent pending := by
  obtain ⟨request, completion⟩ := pending
  cases completion with
  | deleteRow row => exact absurd trivial hdeletes
  | viewDidLoad | handleRefresh | queuedReload | elsewhere =>
      rcases request with _ | ⟨_ | _ | _ | _ | _⟩ <;> exact h

theorem sent_of_shown {pending : Pending} (hsaved : s'.savedNews = s.savedNews)
    (hshown : ∀ view ∈ s'.view, view.shown = s'.savedNews) (h : s.Sent pending) :
    s'.Sent pending := by
  by_cases hdeletes : pending.completion.DeletesRow
  · obtain ⟨request, completion⟩ := pending
    cases completion with
    | deleteRow row =>
        rcases request with _ | ⟨_ | _ | _ | _ | _⟩ <;> first | exact h.elim | skip
        refine ⟨?_, hshown⟩
        rw [hsaved]
        exact h.1
    | viewDidLoad | handleRefresh | queuedReload | elsewhere => exact hdeletes.elim
  · exact sent_of_not_deletes h hdeletes

theorem settled_congr (hsaved : s'.savedNews = s.savedNews) (hview : s'.view = s.view)
    (h : s.Settled) : s'.Settled := by
  unfold State.Settled at h ⊢
  rwa [hsaved, hview]

structure Answering (s : State) (pending : Pending) : Prop where
  deleted : s.thrown = false
  distinct : (s.savedNews.filterMap Article.url).Nodup
  settled : s.Settled ∨ s.Reloading ∨ pending.completion.Reloads
  sent : ∀ other ∈ s.inFlight, s.Sent other
  picked : s.Sent pending

theorem Calm.answering (hs : Calm s) {i : Nat} {pending : Pending} {rest : List Pending}
    (hpick : pick s.inFlight i = some (pending, rest)) :
    Answering { s with inFlight := rest } pending where
  deleted := hs.deleted
  distinct := hs.distinct
  settled := by
    rcases hs.settled with hsettled | ⟨other, hother, hreloads⟩
    · exact Or.inl hsettled
    · rcases List.mem_cons.mp ((pick_perm hpick).mem_iff.mp hother) with rfl | hother
      · exact Or.inr (Or.inr hreloads)
      · exact Or.inr (Or.inl ⟨other, hother, hreloads⟩)
  sent := fun other hother => hs.sent other (mem_of_mem_pick hpick hother)
  picked := hs.sent pending (mem_of_pick hpick)

section Answers

variable {pending : Pending} {app : App}

theorem calm_unchanged (hs : Answering s pending) (hreloads : ¬ pending.completion.Reloads)
    (hsaved : app.news.savedNews = s.savedNews) : Calm { s with app } where
  deleted := hs.deleted
  distinct := by
    rw [show State.savedNews { s with app } = s.savedNews from hsaved]
    exact hs.distinct
  settled := by
    rcases hs.settled with hsettled | hreloading | hpending
    · exact Or.inl (settled_congr hsaved rfl hsettled)
    · exact Or.inr hreloading
    · exact absurd hpending hreloads
  sent := fun other hother => sent_congr hsaved rfl (hs.sent other hother)

theorem calm_mayChange (hdeleted : s.thrown = false) (hsent : ∀ other ∈ s.inFlight, s.Sent other)
    (hmay : s.MayChange) (hdistinct : (app.news.savedNews.filterMap Article.url).Nodup) :
    Calm { s with app } where
  deleted := hdeleted
  distinct := hdistinct
  settled := by
    rcases hmay.1 with hview | hreloading
    · refine Or.inl fun view hmem => ?_
      rw [show State.view { s with app } = none from hview] at hmem
      cases hmem
    · exact Or.inr hreloading
  sent := fun other hother => sent_of_not_deletes (hsent other hother) (hmay.2 other hother)

theorem reloadData_settled (s : State) : s.reloadData.Settled := by
  intro view hview
  obtain ⟨old, -, rfl⟩ := Option.map_eq_some_iff.mp hview
  rfl

theorem calm_reloadData (hdeleted : s.thrown = false)
    (hdistinct : (s.savedNews.filterMap Article.url).Nodup)
    (hsent : ∀ other ∈ s.inFlight, s.reloadData.Sent other) : Calm s.reloadData :=
  ⟨hdeleted, hdistinct, Or.inl (reloadData_settled s), hsent⟩

theorem savedNews_fetched {documents : Option (List SavedFields)}
    (h : s.react (getSavedNews.onDocuments assignSavedNews documents) = some s') :
    s' = { s with app := s'.app } ∧
      s'.savedNews = (documents.map (List.map SavedFields.article)).getD [] := by
  unfold State.react at h
  cases documents with
  | none =>
      obtain rfl := Option.some.inj h
      exact ⟨rfl, rfl⟩
  | some documents =>
      simp only [getSavedNews.onDocuments, Callback.exec_apply, Callback.bind_apply,
        App.modifyNews, Callback.write_apply, assignSavedNews] at h
      split at h
      · cases h
      next hexec =>
        obtain rfl := Option.some.inj h
        refine ⟨rfl, ?_⟩
        split at hexec
        · obtain ⟨-, rfl⟩ := Prod.mk.inj hexec
          rfl
        · cases hexec

theorem filterMap_articles (documents : List SavedFields) :
    (documents.map SavedFields.article).filterMap Article.url =
      documents.filterMap SavedFields.url := by
  rw [List.filterMap_map]
  rfl

theorem calm_fetched {uid : Uid} {completion : Completion} {documents : Option (List SavedFields)}
    (hs : Answering s ⟨some (.orderedBySavedAt uid), completion⟩)
    (hcareful : s.CarefulAnswer (some (.orderedBySavedAt uid)) completion (.fetched documents))
    (h : s.answer (some (.orderedBySavedAt uid)) completion (.fetched documents) = some s') :
    Calm s' := by
  obtain ⟨t, ht, rfl⟩ := Option.map_eq_some_iff.mp h
  obtain ⟨hstate, hsaved⟩ := savedNews_fetched ht
  obtain ⟨hdeletes, hdocuments⟩ := hcareful
  have hdistinct : (t.savedNews.filterMap Article.url).Nodup := by
    rw [hsaved]
    cases documents with
    | none => exact List.nodup_nil
    | some documents =>
        rw [Option.map_some, Option.getD_some, filterMap_articles]
        exact hdocuments documents rfl
  have hdeleted : t.thrown = false := by
    rw [hstate]
    exact hs.deleted
  have hinFlight : t.inFlight = s.inFlight := by rw [hstate]
  split
  · refine ⟨hdeleted, hdistinct, Or.inr ⟨_, List.mem_append_right _ List.mem_cons_self, trivial⟩, ?_⟩
    intro other hother
    rcases List.mem_append.mp hother with hother | hother
    · rw [hinFlight] at hother
      exact sent_of_not_deletes (hs.sent other hother) (hdeletes other hother)
    · obtain rfl := List.mem_singleton.mp hother
      trivial
  · refine calm_reloadData hdeleted hdistinct fun other hother => ?_
    rw [hinFlight] at hother
    exact sent_of_not_deletes (hs.sent other hother) (hdeletes other hother)

theorem calm_deleteRow {uid : Uid} {url : String} {row : Nat} {documents : List DocumentId}
    (hs : Answering s ⟨some (.whereUrl uid url ()), .deleteRow row⟩)
    (hcareful : ∀ other ∈ s.inFlight, ¬ other.completion.DeletesRow)
    (h : s.answer (some (.whereUrl uid url ())) (.deleteRow row) (.matched (some documents)) =
      some s') : Calm s' := by
  obtain ⟨t, ht, rfl⟩ := Option.map_eq_some_iff.mp h
  obtain rfl := react_eq ht
  have hsaved := savedNews_onDocuments (s := s) uid url (some documents)
  rw [if_pos Option.isSome_some] at hsaved
  obtain ⟨hrow, hshown⟩ := hs.picked
  have hfilter := filter_eq_eraseIdx hs.distinct hrow
  have hlength : row < s.savedNews.length := by
    obtain ⟨article, harticle, -⟩ := Option.bind_eq_some_iff.mp hrow
    exact (List.getElem?_eq_some_iff.mp harticle).1
  set app := ((unsaveArticle.onDocuments uid url (fun _ => pure ()) (some documents) :
    Callback App (SavedRequest Unit) Unit Unit).exec s.app).2.store with happ
  have hrule : ∀ view ∈ s.view, row < view.shown.length ∧ view.shown.eraseIdx row =
      app.news.savedNews := by
    intro view hview
    rw [hshown view hview, hsaved, hfilter]
    exact ⟨hlength, rfl⟩
  have hdeletes : State.deleteRow { s with app } row = State.reloadData { s with app } :=
    if_pos hrule
  change Calm (State.deleteRow { s with app } row)
  rw [hdeletes]
  refine calm_reloadData hs.deleted ?_ fun other hother =>
    sent_of_not_deletes (hs.sent other hother) (hcareful other hother)
  change (app.news.savedNews.filterMap Article.url).Nodup
  rw [hsaved]
  exact hs.distinct.sublist (List.Sublist.filterMap _ List.filter_sublist)

theorem calm_unsaved {uid : Uid} {url : String} {documents : List DocumentId}
    (hs : Answering s ⟨some (.whereUrl uid url ()), .elsewhere⟩)
    (hcareful : s.MayChange ∨ ∀ saved ∈ s.savedNews, saved.url ≠ some url)
    (h : s.answer (some (.whereUrl uid url ())) .elsewhere (.matched (some documents)) =
      some s') : Calm s' := by
  obtain ⟨t, ht, rfl⟩ := Option.map_eq_some_iff.mp h
  obtain rfl := react_eq ht
  have hsaved := savedNews_onDocuments (s := s) uid url (some documents)
  rw [if_pos Option.isSome_some] at hsaved
  rcases hcareful with hmay | hothers
  · refine calm_mayChange hs.deleted hs.sent hmay ?_
    rw [hsaved]
    exact hs.distinct.sublist (List.Sublist.filterMap _ List.filter_sublist)
  · refine calm_unchanged hs id (hsaved.trans (List.filter_eq_self.mpr fun saved hmem => ?_))
    rw [bne_iff_ne]
    exact hothers saved hmem

theorem calm_unmatched {uid : Uid} {url : String} {completion : Completion}
    (hs : Answering s ⟨some (.whereUrl uid url ()), completion⟩) (hreloads : ¬ completion.Reloads)
    (h : s.answer (some (.whereUrl uid url ())) completion (.matched none) = some s') :
    Calm s' := by
  simp only [State.answer, Option.map_eq_some_iff] at h
  obtain ⟨t, ht, rfl⟩ := h
  obtain rfl := react_eq ht
  have hsaved := savedNews_onDocuments (s := s) uid url none
  cases completion <;> exact calm_unchanged hs hreloads hsaved

theorem calm_added {uid : Uid} {article : Article} {error : Bool}
    (hs : Answering s ⟨some (.addDocument uid article ()), .elsewhere⟩)
    (hcareful : s.CarefulAnswer (some (.addDocument uid article ())) .elsewhere (.added error))
    (h : s.answer (some (.addDocument uid article ())) .elsewhere (.added error) = some s') :
    Calm s' := by
  obtain rfl := react_eq h
  have hsaved := savedNews_onAdded (s := s) article error
  cases error with
  | true => exact calm_unchanged hs id hsaved
  | false =>
      obtain ⟨hmay, hnew⟩ := hcareful
      refine calm_mayChange hs.deleted hs.sent hmay ?_
      rw [hsaved, if_neg Bool.false_ne_true, List.filterMap_cons]
      split
      · exact hs.distinct
      next url hurl =>
        refine List.nodup_cons.mpr ⟨fun hmem => ?_, hs.distinct⟩
        obtain ⟨saved, hsavedMem, heq⟩ := List.mem_filterMap.mp hmem
        exact hnew url hurl saved hsavedMem heq

theorem calm_answer {answer : Answer} (hs : Answering s pending)
    (hcareful : s.CarefulAnswer pending.request pending.completion answer)
    (h : s.answer pending.request pending.completion answer = some s') : Calm s' := by
  obtain ⟨request, completion⟩ := pending
  have hpicked := hs.picked
  rcases request with _ | ⟨uid, article⟩ | ⟨uid, url⟩ | uid | uid | ⟨uid, document⟩
  · cases completion <;> first | exact hpicked.elim | skip
    cases answer <;> try cases h
    exact calm_reloadData hs.deleted hs.distinct fun other hother =>
      sent_of_shown (s := s) rfl (fun view hview => by rw [reloadData_settled s view hview])
        (hs.sent other hother)
  · cases completion <;> first | exact hpicked.elim | skip
    cases answer <;> first | cases h | exact calm_added hs hcareful h
  · cases answer with
    | matched documents =>
        cases documents with
        | none =>
            cases completion with
            | deleteRow | elsewhere => exact calm_unmatched hs id h
            | viewDidLoad | handleRefresh | queuedReload => exact hpicked.elim
        | some documents =>
            cases completion with
            | deleteRow row => exact calm_deleteRow hs hcareful h
            | elsewhere => exact calm_unsaved hs hcareful h
            | viewDidLoad | handleRefresh | queuedReload => exact hpicked.elim
    | added | fetched | dequeued => cases h
  · cases answer with
    | fetched documents => exact calm_fetched hs hcareful h
    | added | matched | dequeued => cases h
  · cases completion <;> exact hpicked.elim
  · cases completion <;> exact hpicked.elim

end Answers

theorem calm_send {pending : Pending} (hs : Calm s) (hsent : s.Sent pending) :
    Calm { s with inFlight := s.inFlight ++ [pending] } := by
  refine ⟨hs.deleted, hs.distinct, hs.settled.imp_right ?_, fun other hother => ?_⟩
  · rintro ⟨other, hother, hreloads⟩
    exact ⟨other, List.mem_append_left _ hother, hreloads⟩
  · rcases List.mem_append.mp hother with hother | hother
    · exact hs.sent other hother
    · obtain rfl := List.mem_singleton.mp hother
      exact hsent

theorem calm_viewDidLoad (hs : Calm s) (hcareful : Careful s .viewDidLoad)
    (h : machine.step s .viewDidLoad = some s') : Calm s' := by
  obtain ⟨-, h⟩ := Option.ite_none_left_eq_some.mp h
  have hsent := send_getSavedNews h
  have hloaded : ∀ pending ∈ s.inFlight,
      State.Sent { s with view := some ⟨s.savedNews, true⟩ } pending := by
    intro pending hpending
    refine sent_of_shown (s := s) rfl (fun view hview => ?_) (hs.sent pending hpending)
    obtain rfl := Option.some.inj hview
    rfl
  by_cases huser : s.app.currentUser = none
  · rw [if_pos huser] at hsent
    subst hsent
    have hsaved : s.savedNews ≠ [] := hcareful.resolve_left (by simp [huser])
    refine ⟨hs.deleted, hs.distinct, Or.inl fun view hview => ?_, hloaded⟩
    obtain rfl := Option.some.inj hview
    change View.mk s.savedNews true = ⟨s.savedNews, !s.savedNews.isEmpty⟩
    rw [List.isEmpty_eq_false_iff.mpr hsaved]
    rfl
  · rw [if_neg huser] at hsent
    obtain ⟨uid, rfl⟩ := hsent
    refine ⟨hs.deleted, hs.distinct, Or.inr ?_, fun other hother => ?_⟩
    · exact ⟨_, List.mem_append_right _ List.mem_cons_self, trivial⟩
    · rcases List.mem_append.mp hother with hother | hother
      · exact hloaded other hother
      · obtain rfl := List.mem_singleton.mp hother
        trivial

theorem calm_step {a : Action} (hs : Calm s) (hcareful : Careful s a)
    (h : machine.step s a = some s') : Calm s' := by
  cases a with
  | viewDidLoad => exact calm_viewDidLoad hs hcareful h
  | handleRefresh =>
      obtain ⟨-, h⟩ := Option.ite_none_left_eq_some.mp h
      have hsent := send_getSavedNews h
      split at hsent
      · subst hsent
        exact hs
      · obtain ⟨uid, rfl⟩ := hsent
        exact calm_send hs trivial
  | didReceiveMemoryWarning =>
      obtain ⟨-, h⟩ := Option.ite_none_left_eq_some.mp h
      obtain rfl := Option.some.inj h
      rcases hcareful with hmay | hempty
      · exact calm_mayChange hs.deleted hs.sent hmay List.nodup_nil
      · exact ⟨hs.deleted, List.nodup_nil, hs.settled.imp_left (settled_congr hempty.symm rfl),
          fun other hother => sent_congr hempty.symm rfl (hs.sent other hother)⟩
  | saveElsewhere article =>
      obtain ⟨-, h⟩ := Option.ite_none_left_eq_some.mp h
      obtain ⟨user, rfl⟩ := send_forced (saveArticle_apply article ()) h
      exact calm_send hs trivial
  | unsaveElsewhere url =>
      obtain ⟨-, h⟩ := Option.ite_none_left_eq_some.mp h
      obtain ⟨user, rfl⟩ := send_forced (unsaveArticle_apply url ()) h
      exact calm_send hs trivial
  | leadingSwipe row =>
      obtain ⟨-, h⟩ := Option.ite_none_left_eq_some.mp h
      obtain ⟨article, -, rfl⟩ := Option.map_eq_some_iff.mp h
      exact ⟨hs.deleted, hs.distinct, hs.settled, hs.sent⟩
  | trigger k =>
      obtain ⟨-, h⟩ := Option.ite_none_left_eq_some.mp h
      obtain ⟨⟨row, article⟩, haction, h⟩ := Option.bind_eq_some_iff.mp h
      obtain ⟨user, rfl⟩ := send_forced (unsaveArticle_apply _ ()) h
      obtain ⟨hurl, hrow, hshown⟩ := hcareful (row, article) haction
      obtain ⟨url, hurl⟩ := Option.isSome_iff_exists.mp hurl
      refine calm_send hs ⟨?_, hshown⟩
      rw [hrow, Option.bind_some, hurl, Option.getD_some]
  | deliver i answer =>
      obtain ⟨-, h⟩ := Option.ite_none_left_eq_some.mp h
      obtain ⟨⟨pending, rest⟩, hpick, h⟩ := Option.bind_eq_some_iff.mp h
      exact calm_answer (hs.answering hpick) (hcareful _ hpick) h

end Calm

/-! ## The table is in step -/

/-- **Saved table.** In every run from the start that loads the Saved screen, saves and unsaves
from any screen, refreshes, succeeds and fails, and gets memory warnings: every row that the
screen deletes is the one article that went, and with nothing in flight the table and the
placeholder fit the list, exactly as long as every step keeps them in step. It is enough that
every step is careful, from a start with distinct urls. -/
theorem savedTable_inStep {app : App} {as : List Action} :
    (machine.Always InStep { app } as ↔ machine.Meets Keeps { app } as) ∧
      ((app.news.savedNews.filterMap Article.url).Nodup → machine.Meets Careful { app } as →
        machine.Always InStep { app } as) := by
  have hstart : InStep { app } := ⟨rfl, fun _ view hview => by cases hview⟩
  constructor
  · exact machine.always_iff_meets (I := fun _ => True) (fun _ _ _ => trivial)
      (fun _ hs h => inStep_step hs h) trivial hstart
  · intro hdistinct
    have hcalm : Calm { app } := ⟨rfl, hdistinct, Or.inl fun view hview => (by cases hview),
      fun pending hpending => (by cases hpending)⟩
    exact machine.always_of_meets (fun hs hcareful h => calm_step hs hcareful h) Calm.inStep hcalm

def reader : App := { currentUser := some ⟨"reader", none⟩ }

def fetchedStory : SavedFields := ⟨none, some "Story", none, some "story", none⟩

/-- The table does not hear of the article that another screen saves, and the row that it then
deletes is not the one article that went. -/
def savedElsewhereThenUnsaved : List Action :=
  [.viewDidLoad, .deliver 0 (.fetched (some [fetchedStory])),
    .saveElsewhere ⟨none, some "News", none, some "news", none⟩, .deliver 0 (.added false),
    .leadingSwipe 0, .trigger 0, .deliver 0 (.matched (some [1]))]

theorem savedTable_throws :
    ¬ ∀ (app : App) (as : List Action), machine.Always InStep { app } as := by
  intro h
  have hends : (machine.run { app := reader } savedElsewhereThenUnsaved).isSome := by
    decide +kernel
  have hthrown : ∀ s ∈ machine.run { app := reader } savedElsewhereThenUnsaved,
      s.thrown = true := by
    decide +kernel
  refine machine.not_always_of_run hends (fun s hs hinStep => ?_)
    (h reader savedElsewhereThenUnsaved)
  have hdeleted := hinStep.deleted
  rw [hthrown s hs] at hdeleted
  cases hdeleted

end NewsFlash.Screens.SavedTable

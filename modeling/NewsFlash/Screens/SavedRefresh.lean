import NewsFlash.Library.Indicator
import NewsFlash.Screens.SavedTable

/-!
# The refresh control of the Saved screen

The part of a refresh that its completion queues on the main queue ends the refreshing, and every
answer to the fetch queues it, a failure too. Nobody answers the fetch of a guest.
-/

namespace NewsFlash.Screens.SavedRefresh

open NewsFlash.Library NewsFlash.Models NewsFlash.Models.Networking NewsFlash.Screens.SavedTable

def isRefresh : Pending → Bool
  | ⟨some (.orderedBySavedAt _), .handleRefresh⟩ | ⟨none, .queuedReload⟩ => true
  | _ => false

def Awaited (s : State) : Prop := ∃ pending ∈ s.inFlight, isRefresh pending = true

instance (s : State) : Decidable (Awaited s) := inferInstanceAs (Decidable (∃ _ ∈ _, _))

def refreshControl : Indicator machine where
  starts
    | .handleRefresh => true
    | _ => false
  stops s
    | .deliver i .dequeued => (pick s.inFlight i).any fun picked => isRefresh picked.1
    | _ => false
  awaited := Awaited

/-- A guest does not pull the control. -/
def KeepsRefreshing (s : State) : Action → Prop
  | .handleRefresh => s.app.currentUser.isSome ∨ Awaited s
  | _ => True

section Steps

variable {s s' : State} {pending : Pending}

theorem awaited_mono (h : ∀ pending ∈ s.inFlight, pending ∈ s'.inFlight) (hs : Awaited s) :
    Awaited s' := by
  obtain ⟨pending, hmem, hrefresh⟩ := hs
  exact ⟨pending, h pending hmem, hrefresh⟩

theorem mem_send {code : Callback App (SavedRequest Unit) Unit Unit} {completion : Completion}
    (h : s.send code completion = some s') (hmem : pending ∈ s.inFlight) :
    pending ∈ s'.inFlight := by
  unfold State.send at h
  split at h
  · cases h
  · obtain rfl := Option.some.inj h
    exact List.mem_append_left _ hmem

theorem awaited_handleRefresh (h : s.send getSavedNews .handleRefresh = some s') :
    Awaited s' ↔ s.app.currentUser.isSome ∨ Awaited s := by
  unfold State.send at h
  simp only [Callback.exec_apply, getSavedNews_apply] at h
  obtain rfl := Option.some.inj h
  cases huser : s.app.currentUser with
  | none => simp [Awaited]
  | some user =>
      refine iff_of_true ⟨⟨some (.orderedBySavedAt user.uid), .handleRefresh⟩, ?_, rfl⟩ (Or.inl rfl)
      exact List.mem_append_right _ List.mem_cons_self

theorem mem_answer {request : Option (SavedRequest Unit)} {completion : Completion}
    {answer : Answer} (h : s.answer request completion answer = some s')
    (hmem : pending ∈ s.inFlight) : pending ∈ s'.inFlight := by
  unfold State.answer at h
  split at h
  · obtain rfl := react_eq h
    exact hmem
  · obtain ⟨t, ht, rfl⟩ := Option.map_eq_some_iff.mp h
    obtain rfl := react_eq ht
    split
    · unfold State.deleteRow
      split <;> exact hmem
    · exact hmem
  · obtain ⟨t, ht, rfl⟩ := Option.map_eq_some_iff.mp h
    obtain rfl := react_eq ht
    split
    · exact List.mem_append_left _ hmem
    · exact hmem
  · obtain rfl := Option.some.inj h
    exact hmem
  · cases h

theorem awaited_answer {answer : Answer} (hrefresh : isRefresh pending = true)
    (hanswer : answer ≠ .dequeued)
    (h : s.answer pending.request pending.completion answer = some s') : Awaited s' := by
  unfold isRefresh at hrefresh
  split at hrefresh
  · cases answer with
    | fetched documents =>
        obtain ⟨t, ht, rfl⟩ := Option.map_eq_some_iff.mp h
        rw [if_pos rfl]
        exact ⟨⟨none, .queuedReload⟩, List.mem_append_right _ List.mem_cons_self, rfl⟩
    | added | matched | dequeued => cases h
  · cases answer with
    | dequeued => exact absurd rfl hanswer
    | added | matched | fetched => cases h
  · cases hrefresh

theorem awaited_deliver {i : Nat} {answer : Answer} (hs : Awaited s)
    (h : machine.step s (.deliver i answer) = some s')
    (hstops : refreshControl.stops s (.deliver i answer) = false) : Awaited s' := by
  obtain ⟨-, h⟩ := Option.ite_none_left_eq_some.mp h
  obtain ⟨⟨picked, rest⟩, hpick, h⟩ := Option.bind_eq_some_iff.mp h
  obtain ⟨pending, hmem, hrefresh⟩ := hs
  rcases List.mem_cons.mp ((pick_perm hpick).mem_iff.mp hmem) with rfl | hmem
  · refine awaited_answer hrefresh ?_ h
    rintro rfl
    simp [refreshControl, hpick, hrefresh] at hstops
  · exact ⟨pending, mem_answer h hmem, hrefresh⟩

theorem awaited_step {a : Action} (h : machine.step s a = some s')
    (hstops : refreshControl.stops s a = false)
    (hs : refreshControl.starts a = true ∨ Awaited s) : Awaited s' ↔ KeepsRefreshing s a := by
  cases a with
  | handleRefresh =>
      obtain ⟨-, h⟩ := Option.ite_none_left_eq_some.mp h
      exact awaited_handleRefresh h
  | deliver i answer =>
      exact iff_of_true (awaited_deliver (hs.resolve_left Bool.false_ne_true) h hstops) trivial
  | viewDidLoad =>
      obtain ⟨-, h⟩ := Option.ite_none_left_eq_some.mp h
      have hsent : ∀ pending ∈ s.inFlight, pending ∈ s'.inFlight := fun _ hmem =>
        mem_send (s := { s with view := some ⟨s.savedNews, true⟩ }) h hmem
      exact iff_of_true (awaited_mono hsent (hs.resolve_left Bool.false_ne_true)) trivial
  | didReceiveMemoryWarning =>
      obtain ⟨-, h⟩ := Option.ite_none_left_eq_some.mp h
      obtain rfl := Option.some.inj h
      exact iff_of_true (hs.resolve_left Bool.false_ne_true) trivial
  | saveElsewhere | unsaveElsewhere =>
      obtain ⟨-, h⟩ := Option.ite_none_left_eq_some.mp h
      have hsent : ∀ pending ∈ s.inFlight, pending ∈ s'.inFlight := fun _ => mem_send h
      exact iff_of_true (awaited_mono hsent (hs.resolve_left Bool.false_ne_true)) trivial
  | leadingSwipe row =>
      obtain ⟨-, h⟩ := Option.ite_none_left_eq_some.mp h
      obtain ⟨article, -, rfl⟩ := Option.map_eq_some_iff.mp h
      exact iff_of_true (hs.resolve_left Bool.false_ne_true) trivial
  | trigger k =>
      obtain ⟨-, h⟩ := Option.ite_none_left_eq_some.mp h
      obtain ⟨⟨row, article⟩, -, h⟩ := Option.bind_eq_some_iff.mp h
      have hsent : ∀ pending ∈ s.inFlight, pending ∈ s'.inFlight := fun _ => mem_send h
      exact iff_of_true (awaited_mono hsent (hs.resolve_left Bool.false_ne_true)) trivial

end Steps

/-- **Saved refresh control.** In every run from the start the control of the Saved screen spins
only while an answer or a queued part is under way that ends it, exactly as long as no guest
pulls it: no failed fetch, no memory warning and no deleted row leaves it spinning. -/
theorem savedRefresh_attended (app : App) (as : List Action) :
    refreshControl.machine.Always refreshControl.Attended ({ app }, false) as ↔
      refreshControl.machine.Meets (refreshControl.Guarded KeepsRefreshing) ({ app }, false) as :=
  Indicator.attended_iff (K := fun _ => True) (fun _ _ => trivial)
    (fun _ h hstops hs => awaited_step h hstops hs) trivial

end NewsFlash.Screens.SavedRefresh

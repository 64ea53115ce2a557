import Mathlib.Data.List.Nodup
import NewsFlash.Library.Machine
import NewsFlash.Library.Turns

/-!
# The messages that all screens show

Messages are presented one after another by the one manager that all screens share. A message is
gone when it is tapped, when its timer fires or when its screen leaves; the timer fires in any
case, and dismisses what may not be there any more. Whether UIKit presents a message at all, which
messages it takes away with a screen, and whether it calls the completion of a dismissal that has
nothing to dismiss, is left open.
-/

namespace NewsFlash.Screens.Messages

open NewsFlash.Library

/-! ## The manager -/

structure Loaf (ι : Type) where
  message : String
  sender : ι
deriving DecidableEq, Repr

/-- The views that have been made are numbered, oldest first. `onScreen` are those that can be
seen, and `timers` those whose timer has not fired. -/
structure World (ι : Type) where
  queue : List (Loaf ι) := []
  isPresenting : Bool := false
  presented : List (Loaf ι) := []
  onScreen : List Nat := []
  timers : List Nat := []
  alive : ι → Bool

/-- `presents` tells whether UIKit presents the view that the step may make, `calls` whether it
calls the completion of a dismissal without anything to dismiss, and `taken` are the views that
it takes away with a screen. -/
inductive Event (ι : Type) where
  | show (loaf : Loaf ι) (presents : Bool)
  | handleTap (v : Nat) (presents : Bool)
  | timer (v : Nat) (calls presents : Bool)
  | leave (sender : ι) (taken : List Nat)

namespace World

variable {ι : Type}

/-- The view is loaded, which starts its timer. -/
def presentToast (w : World ι) (loaf : Loaf ι) (presents : Bool) : World ι :=
  { w with
    presented := w.presented ++ [loaf]
    timers := w.timers ++ [w.presented.length]
    onScreen := w.onScreen ++ if presents then [w.presented.length] else [] }

/-- A message whose screen has left is dequeued, and that is all. -/
def presentIfPossible (w : World ι) (presents : Bool) : World ι :=
  if w.isPresenting then w
  else match w.queue with
    | [] => w
    | loaf :: queue =>
        if w.alive loaf.sender then
          { w with queue, isPresenting := true }.presentToast loaf presents
        else { w with queue }

def queueAndPresent (w : World ι) (loaf : Loaf ι) (presents : Bool) : World ι :=
  { w with queue := w.queue ++ [loaf] }.presentIfPossible presents

def loafDidDismiss (w : World ι) (presents : Bool) : World ι :=
  { w with isPresenting := false }.presentIfPossible presents

variable [DecidableEq ι]

def step (w : World ι) : Event ι → Option (World ι)
  | .show loaf presents =>
      if w.alive loaf.sender then some (w.queueAndPresent loaf presents) else none
  | .handleTap v presents =>
      if v ∈ w.onScreen then
        some ({ w with onScreen := w.onScreen.erase v }.loafDidDismiss presents)
      else none
  | .timer v calls presents =>
      if v ∈ w.timers then
        let w' := { w with timers := w.timers.erase v, onScreen := w.onScreen.erase v }
        some (if v ∈ w.onScreen ∨ calls = true then w'.loafDidDismiss presents else w')
      else none
  | .leave sender taken => some { w with
      alive := fun s => w.alive s && s ≠ sender
      onScreen := w.onScreen.filter (· ∉ taken) }

end World

def machine (ι : Type) [DecidableEq ι] : Machine (World ι) (Event ι) where
  step := World.step

/-! ## What is promised -/

def World.start {ι : Type} (alive : ι → Bool) : World ι := { alive }

def Event.sent {ι : Type} : Event ι → Option (Loaf ι)
  | .show loaf _ => some loaf
  | .handleTap _ _ | .timer _ _ _ | .leave _ _ => none

/-- Every message that has been sent has had its turn or waits, in the order in which they were
sent; it has been presented unless its screen was gone at its turn. -/
def InOrder {ι : Type} (sent : List (Loaf ι)) (w : World ι) : Prop :=
  ∃ turns : List (Loaf ι × Bool), sent = turns.map Prod.fst ++ w.queue ∧
    w.presented = (turns.filter Prod.snd).map Prod.fst ∧
    ∀ turn ∈ turns, turn.2 = false → w.alive turn.1.sender = false

/-- Only the message that was presented last is on screen, no message waits without reason, and
the manager is presenting only as long as a timer will tell it to stop. -/
structure Flows {ι : Type} (w : World ι) : Prop where
  alone : ∀ v ∈ w.onScreen, w.isPresenting = true ∧ v + 1 = w.presented.length
  idle : w.isPresenting = false → w.queue = []
  ends : w.isPresenting = true → ∃ v ∈ w.timers, v + 1 = w.presented.length

/-- The screen of the message whose turn is next is there, or nothing waits behind it. -/
def Attended {ι : Type} (w : World ι) : Prop :=
  ∀ loaf queue, w.queue = loaf :: queue → w.alive loaf.sender = true ∨ queue = []

/-- The next message is attended where one is called. A timer that fires late says nothing while
another message is on screen; the timer of the message that is being presented says something. -/
def Smooth {ι : Type} (w : World ι) : Event ι → Prop
  | .show _ _ | .leave _ _ => True
  | .handleTap _ _ => Attended w
  | .timer v calls _ =>
      if v ∈ w.onScreen then Attended w
      else if calls = true then w.onScreen = [] ∧ Attended w
      else w.isPresenting = true → v + 1 ≠ w.presented.length

instance {ι : Type} (w : World ι) : Decidable (Attended w) :=
  match h : w.queue with
  | [] => isTrue fun loaf queue hqueue => by rw [h] at hqueue; cases hqueue
  | loaf :: queue => decidable_of_iff (w.alive loaf.sender = true ∨ queue = []) (by
      constructor
      · intro hnext loaf' queue' hqueue
        rw [h] at hqueue
        obtain ⟨rfl, rfl⟩ := List.cons.inj hqueue
        exact hnext
      · exact fun hattended => hattended loaf queue h)

instance {ι : Type} (w : World ι) : (e : Event ι) → Decidable (Smooth w e)
  | .show _ _ | .leave _ _ => inferInstanceAs (Decidable True)
  | .handleTap _ _ => inferInstanceAs (Decidable (Attended w))
  | .timer v calls _ => inferInstanceAs (Decidable (if v ∈ w.onScreen then Attended w
      else if calls = true then w.onScreen = [] ∧ Attended w
      else w.isPresenting = true → v + 1 ≠ w.presented.length))

/-! ## Turns -/

section Turned

variable {ι : Type} {w w' : World ι} {sent : List (Loaf ι)}

/-- The manager as a server of the messages; those that are there are those of screens that
are. -/
structure Refines (w : World ι) (s : Turns (Loaf ι)) : Prop where
  queue : s.queue = w.queue
  busy : s.busy = w.isPresenting
  served : s.served = w.presented

def there (w : World ι) (loaf : Loaf ι) : Bool := w.alive loaf.sender

theorem presentIfPossible_refines {s : Turns (Loaf ι)} (h : Refines w s) (presents : Bool) :
    Refines (w.presentIfPossible presents) (s.next (there w)) := by
  unfold World.presentIfPossible
  cases hbusy : w.isPresenting with
  | true =>
      rw [Turns.next_busy (h.busy.trans hbusy)]
      exact h
  | false =>
      cases hqueue : w.queue with
      | nil =>
          rw [Turns.next_empty (h.queue.trans hqueue)]
          exact h
      | cons loaf queue =>
          have hidle := h.busy.trans hbusy
          have hcons := h.queue.trans hqueue
          have hserved := @Turns.served_next_cons _ (there w) s loaf queue hidle hcons
          have hnext := @Turns.next_cons _ (there w) s loaf queue hidle hcons
          simp only [Bool.false_eq_true, if_false]
          split
          · next halive =>
              rw [there, if_pos halive, h.served] at hserved
              refine ⟨?_, ?_, hserved⟩
              · rw [hnext]
                rfl
              · rw [hnext]
                exact halive
          · next hgone =>
              rw [there, if_neg hgone, List.append_nil, h.served] at hserved
              refine ⟨?_, ?_, hserved⟩
              · rw [hnext]
              · rw [hnext]
                exact Bool.eq_false_iff.mpr hgone

theorem presentIfPossible_alive (presents : Bool) :
    (w.presentIfPossible presents).alive = w.alive := by
  unfold World.presentIfPossible
  split
  · rfl
  · split
    · rfl
    · split
      · rfl
      · rfl

/-- The messages have had their turns in order so far. -/
structure Turned (sent : List (Loaf ι)) (w : World ι) (s : Turns (Loaf ι)) : Prop where
  refines : Refines w s
  ordered : s.Ordered sent
  missing : ∀ turn ∈ s.turns, turn.2 = false → w.alive turn.1.sender = false

theorem missing_next {s : Turns (Loaf ι)}
    (h : ∀ turn ∈ s.turns, turn.2 = false → w.alive turn.1.sender = false) (presents : Bool) :
    ∀ turn ∈ (s.next (there w)).turns, turn.2 = false →
      (w.presentIfPossible presents).alive turn.1.sender = false := by
  rw [presentIfPossible_alive]
  apply Turns.next_missing (Q := fun loaf : Loaf ι => w.alive loaf.sender = false)
  · exact fun _ hgone => hgone
  · exact h

theorem Turned.queueAndPresent {s : Turns (Loaf ι)} (h : Turned sent w s) (loaf : Loaf ι)
    (presents : Bool) :
    Turned (sent ++ [loaf]) (w.queueAndPresent loaf presents) (s.arrive (there w) loaf) := by
  have hqueued : Refines { w with queue := w.queue ++ [loaf] }
      { s with queue := s.queue ++ [loaf] } := by
    refine ⟨?_, h.refines.busy, h.refines.served⟩
    simp only [h.refines.queue]
  exact ⟨presentIfPossible_refines hqueued presents, h.ordered.arrive loaf,
    @missing_next _ { w with queue := w.queue ++ [loaf] } { s with queue := s.queue ++ [loaf] }
      h.missing presents⟩

theorem Turned.loafDidDismiss {s : Turns (Loaf ι)} (h : Turned sent w s) (presents : Bool) :
    Turned sent (w.loafDidDismiss presents) (s.release (there w)) := by
  have hidle : Refines { w with isPresenting := false } { s with busy := false } :=
    ⟨h.refines.queue, rfl, h.refines.served⟩
  exact ⟨presentIfPossible_refines hidle presents, h.ordered.release,
    @missing_next _ { w with isPresenting := false } { s with busy := false } h.missing presents⟩

theorem Turned.unseen {s : Turns (Loaf ι)} (h : Turned sent w s) {alive : ι → Bool}
    (halive : ∀ sender, w.alive sender = false → alive sender = false) (onScreen timers : List Nat) :
    Turned sent { w with alive, onScreen, timers } s :=
  ⟨⟨h.refines.queue, h.refines.busy, h.refines.served⟩, h.ordered,
    fun turn hturn hgone => halive _ (h.missing turn hturn hgone)⟩

variable [DecidableEq ι]

theorem turned_step {s : Turns (Loaf ι)} {e : Event ι} (h : Turned sent w s)
    (hstep : w.step e = some w') : ∃ s', Turned (sent ++ e.sent.toList) w' s' := by
  have hsame : ∀ sender, w.alive sender = false → w.alive sender = false := fun _ hgone => hgone
  cases e with
  | «show» loaf presents =>
      obtain ⟨-, hstep⟩ := Option.ite_none_right_eq_some.mp hstep
      obtain rfl := Option.some.inj hstep
      exact ⟨_, h.queueAndPresent loaf presents⟩
  | handleTap v presents =>
      obtain ⟨-, hstep⟩ := Option.ite_none_right_eq_some.mp hstep
      obtain rfl := Option.some.inj hstep
      change ∃ s', Turned (sent ++ []) _ s'
      rw [List.append_nil]
      exact ⟨_, (h.unseen hsame (w.onScreen.erase v) w.timers).loafDidDismiss presents⟩
  | timer v calls presents =>
      obtain ⟨-, hstep⟩ := Option.ite_none_right_eq_some.mp hstep
      obtain rfl := Option.some.inj hstep
      have hfired := h.unseen hsame (w.onScreen.erase v) (w.timers.erase v)
      change ∃ s', Turned (sent ++ []) _ s'
      rw [List.append_nil]
      split
      · exact ⟨_, hfired.loafDidDismiss presents⟩
      · exact ⟨_, hfired⟩
  | leave sender taken =>
      obtain rfl := Option.some.inj hstep
      change ∃ s', Turned (sent ++ []) _ s'
      rw [List.append_nil]
      refine ⟨s, h.unseen (fun other hgone => ?_) _ w.timers⟩
      rw [hgone, Bool.false_and]

theorem turned_run {es : List (Event ι)} {s : Turns (Loaf ι)} (h : Turned sent w s)
    (hrun : (machine ι).run w es = some w') :
    ∃ s', Turned (sent ++ es.filterMap Event.sent) w' s' := by
  induction es generalizing sent w s with
  | nil =>
      obtain rfl := Option.some.inj hrun
      rw [List.filterMap_nil, List.append_nil]
      exact ⟨s, h⟩
  | cons e es ih =>
      obtain ⟨t, hstep, hrest⟩ := (machine ι).run_cons_eq_some.mp hrun
      obtain ⟨s', hs'⟩ := turned_step h hstep
      obtain ⟨s'', hs''⟩ := ih hs' hrest
      have hsent : e.sent.toList ++ es.filterMap Event.sent = (e :: es).filterMap Event.sent := by
        cases e <;> rfl
      rw [List.append_assoc, hsent] at hs''
      exact ⟨s'', hs''⟩

end Turned

/-! ## One message at a time -/

section Flow

variable {ι : Type} {w w' : World ι}

/-- How the views are numbered, however they come and go. -/
structure Numbered (w : World ι) : Prop where
  timed : ∀ v ∈ w.onScreen, v ∈ w.timers
  made : ∀ v ∈ w.timers, v < w.presented.length
  nodup_onScreen : w.onScreen.Nodup
  nodup_timers : w.timers.Nodup

theorem Numbered.unseen (h : Numbered w) (queue : List (Loaf ι)) (isPresenting : Bool) :
    Numbered { w with queue, isPresenting } :=
  ⟨h.timed, h.made, h.nodup_onScreen, h.nodup_timers⟩

theorem numbered_presentToast (h : Numbered w) (loaf : Loaf ι) (presents : Bool) :
    Numbered (w.presentToast loaf presents) := by
  have hnew : w.presented.length ∉ w.timers := fun hmem => Nat.lt_irrefl _ (h.made _ hmem)
  have hseen : w.presented.length ∉ w.onScreen := fun hmem => hnew (h.timed _ hmem)
  unfold World.presentToast
  constructor
  case timed =>
    intro v hv
    rcases List.mem_append.mp hv with hv | hv
    · exact List.mem_append_left _ (h.timed v hv)
    · split at hv
      · exact List.mem_append_right _ hv
      · cases hv
  case made =>
    intro v hv
    rw [List.length_append, List.length_singleton]
    rcases List.mem_append.mp hv with hv | hv
    · exact Nat.lt_succ_of_lt (h.made v hv)
    · obtain rfl := List.mem_singleton.mp hv
      exact Nat.lt_succ_self _
  case nodup_onScreen =>
    cases presents with
    | false =>
        simp only [Bool.false_eq_true, if_false, List.append_nil]
        exact h.nodup_onScreen
    | true =>
        simp only [if_true, ← List.concat_eq_append]
        exact (List.nodup_concat _ _).mpr ⟨hseen, h.nodup_onScreen⟩
  case nodup_timers =>
    simp only [← List.concat_eq_append]
    exact (List.nodup_concat _ _).mpr ⟨hnew, h.nodup_timers⟩

theorem numbered_presentIfPossible (h : Numbered w) (presents : Bool) :
    Numbered (w.presentIfPossible presents) := by
  unfold World.presentIfPossible
  split
  · exact h
  · split
    · exact h
    · split
      · next loaf queue _ _ =>
          exact numbered_presentToast (h.unseen queue true) loaf presents
      · exact h.unseen _ w.isPresenting

/-- A view is dismissed, with its timer or before it. -/
theorem numbered_erase (h : Numbered w) (v : Nat) :
    Numbered { w with onScreen := w.onScreen.erase v } ∧
      Numbered { w with timers := w.timers.erase v, onScreen := w.onScreen.erase v } := by
  have hnodup : (w.onScreen.erase v).Nodup := h.nodup_onScreen.erase v
  refine ⟨⟨fun u hu => h.timed u (List.mem_of_mem_erase hu), h.made, hnodup, h.nodup_timers⟩,
    ⟨fun u hu => ?_, fun u hu => h.made u (List.mem_of_mem_erase hu), hnodup,
      h.nodup_timers.erase v⟩⟩
  obtain ⟨hne, hu⟩ := h.nodup_onScreen.mem_erase_iff.mp hu
  exact (List.mem_erase_of_ne hne).mpr (h.timed u hu)

theorem flows_idle_iff (hidle : w.isPresenting = false) :
    Flows w ↔ w.onScreen = [] ∧ w.queue = [] := by
  constructor
  · intro h
    refine ⟨List.eq_nil_iff_forall_not_mem.mpr fun v hv => ?_, h.idle hidle⟩
    have hpresenting := (h.alone v hv).1
    rw [hidle] at hpresenting
    cases hpresenting
  · rintro ⟨hscreen, hqueue⟩
    refine ⟨fun v hv => ?_, fun _ => hqueue, fun hpresenting => ?_⟩
    · rw [hscreen] at hv
      cases hv
    · rw [hidle] at hpresenting
      cases hpresenting

theorem flows_presentToast (h : Numbered w) (hpresenting : w.isPresenting = true) (loaf : Loaf ι)
    (presents : Bool) : Flows (w.presentToast loaf presents) ↔ w.onScreen = [] := by
  have hlength : (w.presentToast loaf presents).presented.length = w.presented.length + 1 :=
    List.length_append
  constructor
  · intro hflows
    refine List.eq_nil_iff_forall_not_mem.mpr fun v hv => ?_
    have hlast := (hflows.alone v (List.mem_append_left _ hv)).2
    have hmade := h.made v (h.timed v hv)
    omega
  · intro hscreen
    refine ⟨fun v hv => ⟨hpresenting, ?_⟩, fun hidle => ?_, fun _ => ?_⟩
    · change v ∈ w.onScreen ++ _ at hv
      rw [hscreen, List.nil_append] at hv
      split at hv
      · obtain rfl := List.mem_singleton.mp hv
        exact hlength.symm
      · cases hv
    · change w.isPresenting = false at hidle
      rw [hpresenting] at hidle
      cases hidle
    · exact ⟨w.presented.length, List.mem_append_right _ List.mem_cons_self, hlength.symm⟩

/-- Calling the next message is right where nothing is on screen and the message is attended. -/
theorem flows_presentIfPossible (h : Numbered w) (hidle : w.isPresenting = false)
    (presents : Bool) :
    Flows (w.presentIfPossible presents) ↔ w.onScreen = [] ∧ Attended w := by
  unfold World.presentIfPossible
  rw [if_neg (by rw [hidle]; decide)]
  unfold Attended
  cases hqueue : w.queue with
  | nil =>
      rw [flows_idle_iff hidle, hqueue]
      simp
  | cons loaf queue =>
      by_cases halive : w.alive loaf.sender = true
      · have hnext := flows_presentToast (h.unseen queue true) rfl loaf presents
        simp only [halive, if_true, hnext, List.cons.injEq]
        constructor
        · rintro hscreen
          refine ⟨hscreen, ?_⟩
          rintro _ _ ⟨rfl, rfl⟩
          exact Or.inl halive
        · exact And.left
      · have hdropped := @flows_idle_iff _ { w with queue } hidle
        simp only [halive, Bool.false_eq_true, if_false, hdropped, List.cons.injEq]
        constructor
        · rintro ⟨hscreen, hempty⟩
          refine ⟨hscreen, ?_⟩
          rintro _ _ ⟨rfl, rfl⟩
          exact Or.inr hempty
        · rintro ⟨hscreen, hattended⟩
          exact ⟨hscreen, (hattended loaf queue ⟨rfl, rfl⟩).resolve_left halive⟩

theorem flows_loafDidDismiss (h : Numbered w) (presents : Bool) :
    Flows (w.loafDidDismiss presents) ↔ w.onScreen = [] ∧ Attended w :=
  flows_presentIfPossible (h.unseen w.queue false) rfl presents

theorem erase_onScreen (h : Numbered w) (hflows : Flows w) {v : Nat} (hv : v ∈ w.onScreen) :
    w.onScreen.erase v = [] := by
  refine List.eq_nil_iff_forall_not_mem.mpr fun u hu => ?_
  obtain ⟨hne, hu⟩ := h.nodup_onScreen.mem_erase_iff.mp hu
  have hlast := (hflows.alone v hv).2
  have hlast' := (hflows.alone u hu).2
  omega

theorem flows_show (h : Numbered w) (hflows : Flows w) {loaf : Loaf ι}
    (halive : w.alive loaf.sender = true) (presents : Bool) :
    Flows (w.queueAndPresent loaf presents) := by
  unfold World.queueAndPresent
  by_cases hpresenting : w.isPresenting = true
  · -- the message waits
    have hwaits : { w with queue := w.queue ++ [loaf] }.presentIfPossible presents =
        { w with queue := w.queue ++ [loaf] } := if_pos hpresenting
    rw [hwaits]
    exact ⟨hflows.alone, fun hidle => absurd hpresenting (Bool.eq_false_iff.mp hidle),
      hflows.ends⟩
  · have hidle : w.isPresenting = false := Bool.eq_false_iff.mpr hpresenting
    obtain ⟨hscreen, hqueue⟩ := (flows_idle_iff hidle).mp hflows
    have hnumbered := h.unseen (w.queue ++ [loaf]) w.isPresenting
    apply (flows_presentIfPossible hnumbered hidle presents).mpr
    refine ⟨hscreen, fun first rest hcons => Or.inl ?_⟩
    change w.queue ++ [loaf] = first :: rest at hcons
    rw [hqueue] at hcons
    obtain ⟨rfl, -⟩ := List.cons.inj hcons
    exact halive

variable [DecidableEq ι] {e : Event ι}

theorem numbered_step (h : Numbered w) (hstep : w.step e = some w') : Numbered w' := by
  have hdismiss : ∀ {w : World ι} (presents : Bool), Numbered w →
      Numbered (w.loafDidDismiss presents) := fun presents h =>
    numbered_presentIfPossible (h.unseen _ false) presents
  cases e with
  | «show» loaf presents =>
      obtain ⟨-, hstep⟩ := Option.ite_none_right_eq_some.mp hstep
      obtain rfl := Option.some.inj hstep
      exact numbered_presentIfPossible (h.unseen _ w.isPresenting) presents
  | handleTap v presents =>
      obtain ⟨-, hstep⟩ := Option.ite_none_right_eq_some.mp hstep
      obtain rfl := Option.some.inj hstep
      exact hdismiss presents (numbered_erase h v).1
  | timer v calls presents =>
      obtain ⟨-, hstep⟩ := Option.ite_none_right_eq_some.mp hstep
      obtain rfl := Option.some.inj hstep
      split
      · exact hdismiss presents (numbered_erase h v).2
      · exact (numbered_erase h v).2
  | leave sender taken =>
      obtain rfl := Option.some.inj hstep
      exact ⟨fun v hv => h.timed v (List.mem_of_mem_filter hv), h.made,
        h.nodup_onScreen.filter _, h.nodup_timers⟩

theorem flows_step (h : Numbered w) (hflows : Flows w) (hstep : w.step e = some w') :
    Flows w' ↔ Smooth w e := by
  cases e with
  | «show» loaf presents =>
      obtain ⟨halive, hstep⟩ := Option.ite_none_right_eq_some.mp hstep
      obtain rfl := Option.some.inj hstep
      exact iff_of_true (flows_show h hflows halive presents) trivial
  | handleTap v presents =>
      obtain ⟨hv, hstep⟩ := Option.ite_none_right_eq_some.mp hstep
      obtain rfl := Option.some.inj hstep
      rw [flows_loafDidDismiss (numbered_erase h v).1 presents]
      exact and_iff_right (erase_onScreen h hflows hv)
  | timer v calls presents =>
      obtain ⟨htimer, hstep⟩ := Option.ite_none_right_eq_some.mp hstep
      obtain rfl := Option.some.inj hstep
      have hdismissed := flows_loafDidDismiss (numbered_erase h v).2 presents
      simp only [Smooth]
      by_cases hv : v ∈ w.onScreen
      · rw [if_pos (Or.inl hv), if_pos hv, hdismissed]
        exact and_iff_right (erase_onScreen h hflows hv)
      · rw [if_neg hv, List.erase_of_not_mem hv]
        rw [List.erase_of_not_mem hv] at hdismissed
        cases calls with
        | true =>
            rw [if_pos (Or.inr rfl), if_pos rfl]
            exact hdismissed
        | false =>
            rw [if_neg (by simp [hv]), if_neg (by decide)]
            -- the timer of `v` has fired for nothing
            constructor
            · intro hflows' hpresenting hlast
              obtain ⟨u, hu, hlast'⟩ := hflows'.ends hpresenting
              obtain ⟨hne, -⟩ := h.nodup_timers.mem_erase_iff.mp hu
              change u + 1 = w.presented.length at hlast'
              omega
            · intro hsmooth
              refine ⟨hflows.alone, hflows.idle, fun hpresenting => ?_⟩
              obtain ⟨u, hu, hlast⟩ := hflows.ends hpresenting
              refine ⟨u, (List.mem_erase_of_ne ?_).mpr hu, hlast⟩
              rintro rfl
              exact hsmooth hpresenting hlast
  | leave sender taken =>
      obtain rfl := Option.some.inj hstep
      exact iff_of_true ⟨fun v hv => hflows.alone v (List.mem_of_mem_filter hv), hflows.idle,
        hflows.ends⟩ trivial

end Flow

/-! ## The messages of a run -/

/-- **The order of messages.** In every run of messages sent by screens that are there, taps,
timers and screens that leave, whatever UIKit presents, takes away or calls: the messages have
their turns in the order in which they were sent, each once, and only those whose screen was gone
by their turn are not presented. -/
theorem messages_inOrder {ι : Type} [DecidableEq ι] {alive : ι → Bool} {es : List (Event ι)}
    {w : World ι} (h : (machine ι).run (World.start alive) es = some w) :
    InOrder (es.filterMap Event.sent) w := by
  have hstart : Turned [] (World.start alive) ({} : Turns (Loaf ι)) :=
    ⟨⟨rfl, rfl, rfl⟩, rfl, fun _ hturn => absurd hturn List.not_mem_nil⟩
  obtain ⟨s, hs⟩ := turned_run hstart h
  refine ⟨s.turns, ?_, hs.refines.served.symm, hs.missing⟩
  rw [← hs.refines.queue]
  exact hs.ordered

/-- A screen leaves while its message waits, and the message behind it waits for a fourth one. -/
theorem messages_inOrder_left :
    InOrder [⟨"Article saved!", true⟩, ⟨"Could not save article!", false⟩,
        ⟨"Article unsaved!", true⟩, ⟨"No internet connection!", true⟩]
      { queue := [⟨"No internet connection!", true⟩]
        isPresenting := true
        presented := [⟨"Article saved!", true⟩, ⟨"Article unsaved!", true⟩]
        onScreen := [1]
        timers := [0, 1]
        alive := fun sender => true && sender ≠ false } :=
  @messages_inOrder Bool _ (fun _ => true)
    [.show ⟨"Article saved!", true⟩ true, .show ⟨"Could not save article!", false⟩ true,
      .show ⟨"Article unsaved!", true⟩ true, .leave false [], .handleTap 0 true,
      .show ⟨"No internet connection!", true⟩ true] _ rfl

/-- **The flow of messages.** In every run, messages are presented one at a time, none waits while
nothing is presented, and the manager is never left presenting without a timer to come, exactly if
every step is smooth. -/
theorem messages_flow {ι : Type} [DecidableEq ι] (alive : ι → Bool) (es : List (Event ι)) :
    (machine ι).Always Flows (World.start alive) es ↔
      (machine ι).Meets Smooth (World.start alive) es := by
  refine (machine ι).always_iff_meets (I := Numbered)
    (fun h _ hstep => numbered_step h hstep) (fun h hflows hstep => flows_step h hflows hstep) ?_ ?_
  · exact ⟨fun _ hv => absurd hv List.not_mem_nil, fun _ hv => absurd hv List.not_mem_nil,
      List.nodup_nil, List.nodup_nil⟩
  · exact (flows_idle_iff rfl).mpr ⟨rfl, rfl⟩

/-- A message is tapped away, and its timer fires while the next one is on screen. -/
example : ¬ (machine Bool).Meets Smooth (World.start fun _ => true)
    [.show ⟨"Article saved!", true⟩ true, .show ⟨"Article unsaved!", true⟩ true,
      .handleTap 0 true, .timer 0 true true] := by decide

end NewsFlash.Screens.Messages

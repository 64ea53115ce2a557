import NewsFlash.Library.Machine

/-!
# An activity indicator

Some actions of a machine start an indicator, and some of its steps stop it. While it is active
those actions are disabled. It is attended as long as a step that stops it is under way, so that
it is not left behind.
-/

namespace NewsFlash.Library

variable {σ α : Type*}

structure Indicator (M : Machine σ α) where
  starts : α → Bool
  stops : σ → α → Bool
  /-- A step that stops the indicator is under way. -/
  awaited : σ → Prop

namespace Indicator

variable {M : Machine σ α} (I : Indicator M)

def machine : Machine (σ × Bool) α where
  step := fun (s, active) a =>
    if active && I.starts a then none
    else (M.step s a).map fun s' => (s', (active || I.starts a) && !I.stops s a)

def Attended (s : σ × Bool) : Prop := s.2 = true → I.awaited s.1

/-- The condition concerns the steps that leave the indicator active. -/
def Guarded (G : σ → α → Prop) (s : σ × Bool) (a : α) : Prop :=
  s.2 = true ∨ I.starts a = true → I.stops s.1 a = false → G s.1 a

variable {I}

theorem step_eq_some {s t : σ × Bool} {a : α} (h : I.machine.step s a = some t) :
    (s.2 = true → I.starts a = false) ∧ M.step s.1 a = some t.1 ∧
      t.2 = ((s.2 || I.starts a) && !I.stops s.1 a) := by
  obtain ⟨s, active⟩ := s
  change (if active && I.starts a then none else _) = some t at h
  split at h
  · cases h
  · next hidle =>
      obtain ⟨s', hstep, rfl⟩ := Option.map_eq_some_iff.mp h
      refine ⟨fun hactive => ?_, hstep, rfl⟩
      simpa [show active = true from hactive] using hidle

/-- It is attended in every state of a run exactly as long as each step that leaves it active
leaves a step under way that stops it. -/
theorem attended_iff {G : σ → α → Prop} {K : σ → Prop}
    (hK : ∀ {s a s'}, K s → M.step s a = some s' → K s')
    (hG : ∀ {s a s'}, K s → M.step s a = some s' → I.stops s a = false →
      (I.starts a = true ∨ I.awaited s) → (I.awaited s' ↔ G s a))
    {s : σ} {as : List α} (hs : K s) :
    I.machine.Always I.Attended (s, false) as ↔ I.machine.Meets (I.Guarded G) (s, false) as := by
  refine I.machine.always_iff_meets (I := fun s => K s.1) ?_ ?_ hs fun hactive => by cases hactive
  · intro s a s' hs _ h
    exact hK hs (step_eq_some h).2.1
  · intro s a s' hs hattended h
    obtain ⟨hdisabled, hstep, hactive⟩ := step_eq_some h
    unfold Attended Guarded
    rw [hactive]
    cases hstops : I.stops s.1 a with
    | true => simp
    | false =>
        simp only [Bool.not_false, Bool.and_true, Bool.or_eq_true, forall_const]
        refine imp_congr_right fun hon => hG hs hstep hstops ?_
        exact hon.symm.imp_right hattended

end Indicator

end NewsFlash.Library

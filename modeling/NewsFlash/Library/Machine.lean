import Mathlib.Data.List.Infix

/-!
# Runs of a transition system

A machine takes labelled steps that may be disabled. A guard is a condition on
the state before a step and on its label. The rules below carry a property from
the steps that meet a guard to whole runs: an invariant, an exact
characterization of the runs that keep a property, and a relation between two
runs that take the same steps up to silent ones.
-/

namespace NewsFlash.Library

/-- A deterministic labelled transition system; `none` marks a disabled action. -/
structure Machine (σ α : Type*) where
  step : σ → α → Option σ

namespace Machine

variable {σ α : Type*} (M : Machine σ α)

/-- Take the listed actions in order, or fail at the first disabled one. -/
def run : σ → List α → Option σ
  | s, [] => some s
  | s, a :: as => (M.step s a).bind fun s' => run s' as

/-- Every step that the listed actions take meets the guard. -/
def Meets (G : σ → α → Prop) : σ → List α → Prop
  | _, [] => True
  | s, a :: as => ∀ s', M.step s a = some s' → G s a ∧ Meets G s' as

theorem run_cons (s : σ) (a : α) (as : List α) :
    M.run s (a :: as) = (M.step s a).bind fun s' => M.run s' as := rfl

theorem run_cons_eq_some {s t : σ} {a : α} {as : List α} :
    M.run s (a :: as) = some t ↔ ∃ s', M.step s a = some s' ∧ M.run s' as = some t := by
  rw [run_cons, Option.bind_eq_some_iff]

theorem meets_cons_of_step {G : σ → α → Prop} {s s' : σ} {a : α} {as : List α}
    (h : M.step s a = some s') : M.Meets G s (a :: as) ↔ G s a ∧ M.Meets G s' as := by
  constructor
  · intro hm
    exact hm s' h
  · intro hm t ht
    rw [h] at ht
    obtain rfl := Option.some.inj ht
    exact hm

theorem meets_of_forall {G : α → Prop} {as : List α} (h : ∀ a ∈ as, G a) (s : σ) :
    M.Meets (fun _ a => G a) s as := by
  induction as generalizing s with
  | nil => trivial
  | cons a as ih =>
      intro s' _
      exact ⟨h a List.mem_cons_self, ih (fun b hb => h b (List.mem_cons_of_mem a hb)) s'⟩

instance decidableMeets {G : σ → α → Prop} [∀ s a, Decidable (G s a)] :
    (s : σ) → (as : List α) → Decidable (M.Meets G s as)
  | _, [] => isTrue trivial
  | s, a :: as =>
      match h : M.step s a with
      | none => isTrue (by
          intro s' hs
          rw [h] at hs
          cases hs)
      | some s' =>
          have := decidableMeets (G := G) s' as
          decidable_of_iff (G s a ∧ M.Meets G s' as) (M.meets_cons_of_step h).symm

/-! ## Invariants of guarded runs -/

theorem run_invariant {G : σ → α → Prop} {I : σ → Prop}
    (hstep : ∀ {s a s'}, I s → G s a → M.step s a = some s' → I s')
    {s t : σ} {as : List α} (hI : I s) (hG : M.Meets G s as)
    (hrun : M.run s as = some t) : I t := by
  induction as generalizing s with
  | nil =>
      obtain rfl := Option.some.inj hrun
      exact hI
  | cons a as ih =>
      obtain ⟨s', hs, hrest⟩ := M.run_cons_eq_some.mp hrun
      obtain ⟨hGa, hGas⟩ := hG s' hs
      exact ih (hstep hI hGa hs) hGas hrest

/-! ## Properties of every state along a run -/

/-- The property holds in every state that a prefix of the actions reaches. -/
def Always (P : σ → Prop) (s : σ) (as : List α) : Prop :=
  ∀ pre t, pre <+: as → M.run s pre = some t → P t

theorem always_nil {P : σ → Prop} {s : σ} : M.Always P s [] ↔ P s := by
  constructor
  · intro h
    exact h [] s List.prefix_rfl rfl
  · intro h pre t hpre hrun
    obtain rfl := List.prefix_nil.mp hpre
    obtain rfl := Option.some.inj hrun
    exact h

theorem always_cons {P : σ → Prop} {s : σ} {a : α} {as : List α} :
    M.Always P s (a :: as) ↔ P s ∧ ∀ s', M.step s a = some s' → M.Always P s' as := by
  constructor
  · intro h
    refine ⟨h [] s List.nil_prefix rfl, ?_⟩
    intro s' hs pre t hpre hrun
    refine h (a :: pre) t ?_ ?_
    · rw [List.cons_prefix_cons]
      exact ⟨rfl, hpre⟩
    · exact M.run_cons_eq_some.mpr ⟨s', hs, hrun⟩
  · rintro ⟨hP, hrest⟩ pre t hpre hrun
    cases pre with
    | nil =>
        obtain rfl := Option.some.inj hrun
        exact hP
    | cons b pre =>
        rw [List.cons_prefix_cons] at hpre
        obtain ⟨rfl, hpre⟩ := hpre
        obtain ⟨s', hs, hrun⟩ := M.run_cons_eq_some.mp hrun
        exact hrest s' hs pre t hpre hrun

/-- A run that ends in a bad state refutes the property. -/
theorem not_always_of_run {P : σ → Prop} {s : σ} {as : List α} (hends : (M.run s as).isSome)
    (hbad : ∀ t ∈ M.run s as, ¬ P t) : ¬ M.Always P s as := by
  intro h
  obtain ⟨t, ht⟩ := Option.isSome_iff_exists.mp hends
  exact hbad t ht (h as t List.prefix_rfl ht)

/-- Where, under an invariant, a step from a good state leads to a good state
exactly when it meets the guard, a run stays good exactly when all its steps
meet the guard. -/
theorem always_iff_meets {G : σ → α → Prop} {I P : σ → Prop}
    (hinv : ∀ {s a s'}, I s → P s → M.step s a = some s' → I s')
    (hstep : ∀ {s a s'}, I s → P s → M.step s a = some s' → (P s' ↔ G s a))
    {s : σ} {as : List α} (hI : I s) (hP : P s) : M.Always P s as ↔ M.Meets G s as := by
  induction as generalizing s with
  | nil =>
      rw [always_nil]
      exact iff_of_true hP trivial
  | cons a as ih =>
      rw [always_cons]
      constructor
      · rintro ⟨_, hrest⟩ s' hs
        have hs' : P s' := (hrest s' hs) [] s' List.nil_prefix rfl
        have hG : G s a := (hstep hI hP hs).mp hs'
        exact ⟨hG, (ih (hinv hI hP hs) hs').mp (hrest s' hs)⟩
      · intro hG
        refine ⟨hP, fun s' hs => ?_⟩
        obtain ⟨hGa, hGas⟩ := hG s' hs
        have hs' : P s' := (hstep hI hP hs).mpr hGa
        exact (ih (hinv hI hP hs) hs').mpr hGas

/-- An invariant of the guarded steps that contains the property. -/
theorem always_of_meets {G : σ → α → Prop} {I P : σ → Prop}
    (hstep : ∀ {s a s'}, I s → G s a → M.step s a = some s' → I s')
    (hP : ∀ {s}, I s → P s) {s : σ} {as : List α} (hI : I s) (hG : M.Meets G s as) :
    M.Always P s as := by
  induction as generalizing s with
  | nil => exact (M.always_nil).mpr (hP hI)
  | cons a as ih =>
      rw [always_cons]
      refine ⟨hP hI, fun s' hs => ?_⟩
      obtain ⟨hGa, hGas⟩ := hG s' hs
      exact ih (hstep hI hGa hs) hGas

/-! ## Two runs side by side -/

/-- Two lists of actions that agree once the silent actions are left out. -/
inductive Aligned (silent : α → Prop) : List α → List α → Prop
  | nil : Aligned silent [] []
  | both (a : α) {as bs : List α} : Aligned silent as bs → Aligned silent (a :: as) (a :: bs)
  | left {a : α} {as bs : List α} : silent a → Aligned silent as bs → Aligned silent (a :: as) bs
  | right {b : α} {as bs : List α} : silent b → Aligned silent as bs → Aligned silent as (b :: bs)

theorem Aligned.refl (silent : α → Prop) (as : List α) : Aligned silent as as := by
  induction as with
  | nil => exact .nil
  | cons a as ih => exact .both a ih

/-- A relation kept by equal guarded steps on both sides, and by silent guarded
steps on either side, relates the ends of any two aligned guarded runs. -/
theorem run_aligned {silent : α → Prop} {G : σ → α → Prop} {R : σ → σ → Prop}
    (hboth : ∀ {s t a s' t'}, R s t → G s a → G t a →
      M.step s a = some s' → M.step t a = some t' → R s' t')
    (hleft : ∀ {s t a s'}, silent a → R s t → G s a → M.step s a = some s' → R s' t)
    (hright : ∀ {s t a t'}, silent a → R s t → G t a → M.step t a = some t' → R s t')
    {as bs : List α} (halign : Aligned silent as bs) {s t s' t' : σ} (hR : R s t)
    (hGs : M.Meets G s as) (hGt : M.Meets G t bs)
    (hs : M.run s as = some s') (ht : M.run t bs = some t') : R s' t' := by
  induction halign generalizing s t with
  | nil =>
      obtain rfl := Option.some.inj hs
      obtain rfl := Option.some.inj ht
      exact hR
  | both a _ ih =>
      obtain ⟨s₁, hs₁, hs⟩ := M.run_cons_eq_some.mp hs
      obtain ⟨t₁, ht₁, ht⟩ := M.run_cons_eq_some.mp ht
      obtain ⟨hGs₁, hGs⟩ := hGs s₁ hs₁
      obtain ⟨hGt₁, hGt⟩ := hGt t₁ ht₁
      exact ih (hboth hR hGs₁ hGt₁ hs₁ ht₁) hGs hGt hs ht
  | left ha _ ih =>
      obtain ⟨s₁, hs₁, hs⟩ := M.run_cons_eq_some.mp hs
      obtain ⟨hGs₁, hGs⟩ := hGs s₁ hs₁
      exact ih (hleft ha hR hGs₁ hs₁) hGs hGt hs ht
  | right hb _ ih =>
      obtain ⟨t₁, ht₁, ht⟩ := M.run_cons_eq_some.mp ht
      obtain ⟨hGt₁, hGt⟩ := hGt t₁ ht₁
      exact ih (hright hb hR hGt₁ ht₁) hGs hGt hs ht

end Machine

end NewsFlash.Library

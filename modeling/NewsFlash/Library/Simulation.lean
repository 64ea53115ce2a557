import NewsFlash.Library.Machine

/-!
# Simulation

Two machines that take the same actions. Where every step from the image of a
state is the image of a step, every run is the image of a run, disabled actions
included.
-/

namespace NewsFlash.Library

namespace Machine

variable {σ τ α : Type*}

/-- `M` steps from `f t` exactly as `N` does from `t`. -/
def Maps (N : Machine τ α) (f : τ → σ) (M : Machine σ α) : Prop :=
  ∀ t a, M.step (f t) a = (N.step t a).map f

theorem Maps.run {N : Machine τ α} {f : τ → σ} {M : Machine σ α} (h : N.Maps f M) (t : τ)
    (as : List α) : M.run (f t) as = (N.run t as).map f := by
  induction as generalizing t with
  | nil => rfl
  | cons a as ih =>
      rw [run_cons, run_cons, h t a, Option.bind_map, Option.map_bind]
      congr 1
      funext t'
      exact ih t'

end Machine

end NewsFlash.Library

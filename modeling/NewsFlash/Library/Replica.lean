import Mathlib.Data.List.Basic

/-!
# Replicas of a shared value

Writes change a shared value, in the order in which they arrive. A replica keeps
a view of the value; its own writes edit the view at once and arrive later. The
view mirrors the value if it is what the value will look like once the writes
that are still on their way have arrived.
-/

namespace NewsFlash.Library

/-- How a write changes a shared value, and how it edits a view of it. -/
structure Replica (δ ω ν : Type*) where
  apply : δ → ω → δ
  view : δ → ν
  edit : ν → ω → ν
  view_apply : ∀ d w, view (apply d w) = edit (view d) w

namespace Replica

variable {δ ω ν : Type*} (R : Replica δ ω ν)

/-- The value once the pending writes have arrived. -/
def expected (d : δ) (pending : List ω) : δ := pending.foldl R.apply d

def Mirrors (d : δ) (pending : List ω) (v : ν) : Prop := v = R.view (R.expected d pending)

theorem view_expected (d : δ) (pending : List ω) :
    R.view (R.expected d pending) = pending.foldl R.edit (R.view d) := by
  induction pending generalizing d with
  | nil => rfl
  | cons w pending ih =>
      rw [List.foldl_cons, ← R.view_apply]
      exact ih (R.apply d w)

variable {R} {d d' : δ} {pending : List ω} {v : ν} {w : ω}

/-- An own write is edited in at once. -/
theorem Mirrors.write (h : R.Mirrors d pending v) : R.Mirrors d (pending ++ [w]) (R.edit v w) := by
  unfold Mirrors expected
  rw [List.foldl_append, h]
  exact (R.view_apply _ _).symm

/-- The oldest own write arrives. -/
theorem Mirrors.arrive (h : R.Mirrors d (w :: pending) v) : R.Mirrors (R.apply d w) pending v := h

/-- Whatever else happens to the value is not seen. -/
theorem Mirrors.congr (hview : R.view d' = R.view d) (h : R.Mirrors d pending v) :
    R.Mirrors d' pending v := by
  unfold Mirrors
  rw [view_expected, hview, ← view_expected]
  exact h

end Replica

end NewsFlash.Library

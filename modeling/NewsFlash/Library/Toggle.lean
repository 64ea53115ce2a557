import Mathlib.Algebra.Ring.Parity
import Mathlib.Data.List.Nodup

/-!
# Toggling the members of a list

A list used as a set: an item is appended where it is missing and removed where it is there.
After any number of toggles an item is in the list exactly when it was there before or has been
toggled an odd number of times, but not both.
-/

namespace NewsFlash.Library

variable {α : Type*} [DecidableEq α]

def toggle (l : List α) (x : α) : List α := if x ∈ l then l.filter (· ≠ x) else l ++ [x]

def toggleFirst (l : List α) (x : α) : List α := if x ∈ l then l.erase x else l ++ [x]

variable {l : List α} {x y : α}

theorem toggleFirst_eq (h : l.Nodup) : toggleFirst l x = toggle l x := by
  have hfilter : l.erase x = l.filter (· ≠ x) := by
    rw [h.erase_eq_filter]
    refine List.filter_congr fun y _ => ?_
    by_cases hy : y = x <;> simp [hy]
  rw [toggleFirst, toggle, hfilter]

theorem mem_toggle : y ∈ toggle l x ↔ Xor (y ∈ l) (y = x) := by
  unfold toggle
  by_cases hx : x ∈ l
  · rw [if_pos hx]
    by_cases hy : y = x <;> simp [hy, hx, Xor]
  · rw [if_neg hx]
    by_cases hy : y = x <;> simp [hy, hx, Xor]

theorem nodup_toggle (h : l.Nodup) : (toggle l x).Nodup := by
  unfold toggle
  split
  · exact h.filter _
  · next hx => exact List.nodup_append_comm.mp (List.nodup_cons.mpr ⟨hx, h⟩)

theorem nodup_foldl_toggle (h : l.Nodup) (xs : List α) : (xs.foldl toggle l).Nodup := by
  induction xs generalizing l with
  | nil => exact h
  | cons x xs ih => exact ih (nodup_toggle h)

/-- One toggle changes the parity of its own item. -/
theorem mem_foldl_toggle (xs : List α) :
    y ∈ xs.foldl toggle l ↔ Xor (y ∈ l) (Odd (xs.count y)) := by
  induction xs generalizing l with
  | nil => simp [Xor]
  | cons x xs ih =>
      rw [List.foldl_cons, ih, mem_toggle, List.count_cons]
      by_cases hx : x = y
      · rw [if_pos (beq_iff_eq.mpr hx), Nat.odd_add_one, hx]
        by_cases hy : y ∈ l <;> simp [hy, Xor]
      · rw [if_neg (by simpa using hx), Nat.add_zero]
        simp [Ne.symm hx, Xor]

end NewsFlash.Library

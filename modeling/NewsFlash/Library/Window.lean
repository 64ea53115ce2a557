import Mathlib.Data.List.Range

/-!
# Windows of a list

The items of a list that stand in a window of fixed width, and how the window
changes when it moves by one: the item that it leaves and the one that it meets.
At the end of the list a window has fewer items.
-/

namespace NewsFlash.Library

variable {α : Type*} (xs : List α)

def window (start width : Nat) : List α := (xs.drop start).take width

namespace Window

@[simp] theorem window_zero (start : Nat) : window xs start 0 = [] := List.take_zero

theorem length_window (start width : Nat) :
    (window xs start width).length = min width (xs.length - start) := by
  rw [window, List.length_take, List.length_drop]

variable {xs}

theorem window_eq_nil {start width : Nat} (h : xs.length ≤ start) : window xs start width = [] := by
  rw [window, List.drop_eq_nil_of_le h, List.take_nil]

theorem window_eq_cons {start : Nat} (width : Nat) (h : start < xs.length) :
    window xs start (width + 1) = xs[start] :: window xs (start + 1) width := by
  rw [window, List.drop_eq_getElem_cons h, List.take_succ_cons]
  rfl

theorem head?_window (start width : Nat) : (window xs start (width + 1)).head? = xs[start]? := by
  rcases Nat.lt_or_ge start xs.length with h | h
  · rw [window_eq_cons width h, List.head?_cons, List.getElem?_eq_getElem h]
  · rw [window_eq_nil h, List.head?_nil, List.getElem?_eq_none h]

theorem window_succ {start width : Nat} (h : start + width < xs.length) :
    window xs start (width + 1) = window xs start width ++ [xs[start + width]] := by
  rw [window, window, List.take_add_one, List.getElem?_drop, List.getElem?_eq_getElem h]
  rfl

theorem window_succ_of_le {start width : Nat} (h : xs.length ≤ start + width) :
    window xs start (width + 1) = window xs start width := by
  have hlength : (xs.drop start).length ≤ width := by
    rw [List.length_drop]
    omega
  rw [window, window, List.take_of_length_le hlength,
    List.take_of_length_le (Nat.le_succ_of_le hlength)]

theorem dropLast_window {start width : Nat} (h : start + width < xs.length) :
    (window xs start (width + 1)).dropLast = window xs start width := by
  rw [window_succ h, List.dropLast_concat]

theorem mapM_getElem? {start width : Nat} (h : start + width ≤ xs.length) :
    (List.range' start width).mapM (fun i => xs[i]?) = some (window xs start width) := by
  induction width generalizing start with
  | zero =>
      rw [window_zero]
      rfl
  | succ width ih =>
      have hstart : start < xs.length := by omega
      rw [List.range'_succ, List.mapM_cons, List.getElem?_eq_getElem hstart,
        ih (by omega : start + 1 + width ≤ xs.length), window_eq_cons width hstart]
      rfl

theorem window_min (start width : Nat) :
    window xs start (min width (xs.length - start)) = window xs start width := by
  rw [window, window, ← List.length_drop, List.take_eq_take_min (l := xs.drop start) (i := width)]

end Window

end NewsFlash.Library

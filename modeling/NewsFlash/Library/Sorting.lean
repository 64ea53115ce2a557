import Mathlib.Data.List.Sort

/-!
# Sorting and filtering

A stable sort by a total order may be taken before or after a filter, and an item that
comes before all others is sorted to the front wherever it stood last. So a sorted
view of a collection can be edited in place where the collection gains its newest
item or loses some.
-/

namespace NewsFlash.Library

variable {α : Type*} {r : α → α → Prop} [DecidableRel r]

theorem orderedInsert_eq_cons {a : α} {l : List α} (h : ∀ b ∈ l, r a b) :
    l.orderedInsert r a = a :: l := by
  cases l with
  | nil => rfl
  | cons b l => exact List.orderedInsert_cons_of_le r l (h b List.mem_cons_self)

theorem orderedInsert_filter_neg {p : α → Bool} {a : α} (ha : p a = false) (l : List α) :
    (l.orderedInsert r a).filter p = l.filter p := by
  rw [List.orderedInsert_eq_take_drop, List.filter_append,
    List.filter_cons_of_neg (by simp [ha]), ← List.filter_append, List.takeWhile_append_dropWhile]

theorem orderedInsert_filter_pos [IsTrans α r] {p : α → Bool} {a : α} (ha : p a = true)
    {l : List α} (hsorted : l.Pairwise r) :
    (l.orderedInsert r a).filter p = (l.filter p).orderedInsert r a := by
  induction l with
  | nil => simp [ha]
  | cons b l ih =>
      obtain ⟨hb, hsorted⟩ := List.pairwise_cons.mp hsorted
      by_cases hab : r a b
      · have hall : ∀ c ∈ (b :: l).filter p, r a c := by
          intro c hc
          rcases List.mem_cons.mp (List.mem_of_mem_filter hc) with rfl | hc
          · exact hab
          · exact IsTrans.trans a b c hab (hb c hc)
        rw [List.orderedInsert_cons_of_le r l hab, List.filter_cons_of_pos ha,
          orderedInsert_eq_cons hall]
      · rw [List.orderedInsert_of_not_le r l hab]
        cases hp : p b with
        | true =>
            rw [List.filter_cons_of_pos hp, List.filter_cons_of_pos hp,
              List.orderedInsert_of_not_le r _ hab, ih hsorted]
        | false =>
            rw [List.filter_cons_of_neg (by simp [hp]), List.filter_cons_of_neg (by simp [hp]),
              ih hsorted]

theorem insertionSort_filter [Std.Total r] [IsTrans α r] (p : α → Bool) (l : List α) :
    (l.filter p).insertionSort r = (l.insertionSort r).filter p := by
  induction l with
  | nil => rfl
  | cons a l ih =>
      rw [List.insertionSort_cons]
      cases ha : p a with
      | true =>
          rw [List.filter_cons_of_pos ha, List.insertionSort_cons, ih,
            orderedInsert_filter_pos ha (List.pairwise_insertionSort r l)]
      | false =>
          rw [List.filter_cons_of_neg (by simp [ha]), ih, orderedInsert_filter_neg ha]

theorem insertionSort_concat {a : α} {l : List α} (h : ∀ b ∈ l, ¬ r b a) :
    (l ++ [a]).insertionSort r = a :: l.insertionSort r := by
  induction l with
  | nil => rfl
  | cons b l ih =>
      rw [List.cons_append, List.insertionSort_cons, List.insertionSort_cons,
        ih fun c hc => h c (List.mem_cons_of_mem b hc),
        List.orderedInsert_of_not_le r _ (h b List.mem_cons_self)]

end NewsFlash.Library

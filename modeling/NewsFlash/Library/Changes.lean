import Mathlib.Data.List.Destutter

/-!
# A value that is announced where it changes

Reports of a value come in; a report that differs from the one before is a change. Every change
leaves one notice, which reads the value when its turn comes, so it may find a later change than
its own.
-/

namespace NewsFlash.Library

variable {α β : Type*}

section Changes

variable [DecidableEq α]

/-- The reports that differ from the one before. -/
def changes (reports : List α) : List α := reports.destutter (· ≠ ·)

theorem destutter'_concat (a : α) (xs : List α) (x : α) :
    (xs ++ [x]).destutter' (· ≠ ·) a =
      if (a :: xs).getLast? = some x then xs.destutter' (· ≠ ·) a
      else xs.destutter' (· ≠ ·) a ++ [x] := by
  induction xs generalizing a with
  | nil =>
      change [x].destutter' (· ≠ ·) a = if some a = some x then [a] else [a, x]
      rw [List.destutter'_singleton]
      by_cases hax : a = x
      · rw [if_neg (not_not.mpr hax), if_pos (congrArg some hax)]
      · rw [if_pos hax, if_neg fun h => hax (Option.some.inj h)]
  | cons b xs ih =>
      rw [List.cons_append, List.getLast?_cons_cons]
      by_cases hab : a = b
      · subst hab
        rw [List.destutter'_cons_neg _ (not_not.mpr rfl), List.destutter'_cons_neg _ (not_not.mpr rfl)]
        exact ih a
      · rw [List.destutter'_cons_pos _ hab, List.destutter'_cons_pos _ hab, ih b]
        split
        · rfl
        · rfl

/-- The next report is a change exactly if it differs from the last one. -/
theorem changes_concat (reports : List α) (x : α) :
    changes (reports ++ [x]) =
      if reports.getLast? = some x then changes reports else changes reports ++ [x] := by
  cases reports with
  | nil => rfl
  | cons a xs => exact destutter'_concat a xs x

theorem getLast?_changes (reports : List α) : (changes reports).getLast? = reports.getLast? := by
  induction reports using List.reverseRecOn with
  | nil => rfl
  | append_singleton xs x ih =>
      rw [changes_concat]
      split
      · next hx => rw [ih, hx, List.getLast?_concat]
      · rw [List.getLast?_concat, List.getLast?_concat]

end Changes

/-- Every notice has read the change it is about or a later one, and none an earlier change than
the notice before. -/
def Heard (read : α → β) (changes : List α) (notices : List β) : Prop :=
  ∃ positions : List Nat, positions.Pairwise (· ≤ ·) ∧ positions.length = notices.length ∧
    ∀ k < notices.length, ∃ position < changes.length, positions[k]? = some position ∧
      k ≤ position ∧ notices[k]? = changes[position]?.map read

namespace Heard

variable {read : α → β} {changes : List α} {notices : List β} {x : α}

theorem nil : Heard read changes ([] : List β) :=
  ⟨[], List.Pairwise.nil, rfl, fun _ hk => absurd hk (Nat.not_lt_zero _)⟩

theorem change (h : Heard read changes notices) (x : α) :
    Heard read (changes ++ [x]) notices := by
  obtain ⟨positions, hsorted, hlength, hread⟩ := h
  refine ⟨positions, hsorted, hlength, fun k hk => ?_⟩
  obtain ⟨position, hlt, hposition, hle, hnotice⟩ := hread k hk
  refine ⟨position, ?_, hposition, hle, ?_⟩
  · rw [List.length_append]
    omega
  · rw [List.getElem?_append_left hlt]
    exact hnotice

theorem notice (h : Heard read changes notices) (hlate : notices.length < changes.length)
    (hlast : changes.getLast? = some x) : Heard read changes (notices ++ [read x]) := by
  obtain ⟨positions, hsorted, hlength, hread⟩ := h
  have hx : changes[changes.length - 1]? = some x := by
    rw [← List.getLast?_eq_getElem?]
    exact hlast
  refine ⟨positions ++ [changes.length - 1], ?_, ?_, fun k hk => ?_⟩
  · refine List.pairwise_append.mpr ⟨hsorted, List.pairwise_singleton _ _, ?_⟩
    intro position hmem last hlast
    obtain rfl := List.mem_singleton.mp hlast
    obtain ⟨k, hk⟩ := List.mem_iff_getElem?.mp hmem
    have hlt : k < positions.length := (List.getElem?_eq_some_iff.mp hk).1
    obtain ⟨position', hlt', hposition, -⟩ := hread k (by omega)
    obtain rfl := Option.some.inj (hk.symm.trans hposition)
    omega
  · rw [List.length_append, List.length_append, hlength]
    rfl
  · rw [List.length_append, List.length_singleton] at hk
    rcases Nat.lt_or_ge k notices.length with hlt | hge
    · obtain ⟨position, hlt', hposition, hle, hnotice⟩ := hread k hlt
      refine ⟨position, hlt', ?_, hle, ?_⟩
      · rw [List.getElem?_append_left (by omega)]
        exact hposition
      · rw [List.getElem?_append_left hlt]
        exact hnotice
    · obtain rfl : k = notices.length := by omega
      refine ⟨changes.length - 1, by omega, ?_, by omega, ?_⟩
      · rw [← hlength, List.getElem?_concat_length]
      · rw [List.getElem?_concat_length, hx]
        rfl

/-- Once every change has left its notice, the last notice has read the last change. -/
theorem latest (h : Heard read changes notices) (hlength : notices.length = changes.length) :
    notices.getLast? = changes.getLast?.map read := by
  obtain ⟨positions, -, -, hread⟩ := h
  rw [List.getLast?_eq_getElem?, List.getLast?_eq_getElem?]
  rcases Nat.eq_zero_or_pos notices.length with hzero | hpos
  · have hnotices : notices = [] := List.eq_nil_of_length_eq_zero hzero
    have hchanges : changes = [] := List.eq_nil_of_length_eq_zero (hlength.symm.trans hzero)
    rw [hnotices, hchanges]
    rfl
  · obtain ⟨position, hlt, -, hle, hnotice⟩ := hread (notices.length - 1) (by omega)
    obtain rfl : position = changes.length - 1 := by omega
    exact hnotice

end Heard

end NewsFlash.Library

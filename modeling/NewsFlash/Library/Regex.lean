import Mathlib.Data.List.TakeWhile

/-!
# Patterns with repetitions and look-aheads

A pattern is matched against a text by listing what may be left of the text after a match at
its front. Repetitions are of one class of characters, so the list is finite and the matcher
can be run; a text matches as a whole if nothing may be left of it.
-/

namespace NewsFlash.Library

/-- `stop` is where the end of the text, or one of the `ends`, is all that is left. -/
inductive Regex (α : Type*) where
  | rep (allowed : α → Bool) (min : Nat) (max : Option Nat)
  | seq (first second : Regex α)
  | lookahead (ahead : Regex α)
  | start
  | stop (ends : List (List α))

namespace Regex

variable {α : Type*}

def one (allowed : α → Bool) : Regex α := rep allowed 1 (some 1)

section Rests

variable [DecidableEq α]

/-- What may be left after a match at the front of a text; `n` is the length of the text that
is matched as a whole. -/
def rests (n : Nat) : Regex α → List α → List (List α)
  | rep allowed min max, text =>
      ((List.range ((text.takeWhile allowed).length + 1)).filter fun k =>
        decide (min ≤ k) && max.all fun max => decide (k ≤ max)).map fun k => text.drop k
  | seq first second, text => (rests n first text).flatMap (rests n second)
  | lookahead ahead, text => if rests n ahead text = [] then [] else [text]
  | start, text => if text.length = n then [text] else []
  | stop ends, text => if text = [] ∨ text ∈ ends then [text] else []

def FullMatch (r : Regex α) (text : List α) : Prop := [] ∈ r.rests text.length text

instance (r : Regex α) (text : List α) : Decidable (r.FullMatch text) :=
  inferInstanceAs (Decidable (_ ∈ _))

variable {n : Nat} {text rest : List α}

theorem mem_rests_rep {allowed : α → Bool} {min : Nat} {max : Option Nat} :
    rest ∈ (rep allowed min max).rests n text ↔
      ∃ word, text = word ++ rest ∧ (∀ c ∈ word, allowed c = true) ∧ min ≤ word.length ∧
        ∀ bound ∈ max, word.length ≤ bound := by
  have hbounds : ∀ k, (decide (min ≤ k) && max.all fun max => decide (k ≤ max)) = true ↔
      min ≤ k ∧ ∀ bound ∈ max, k ≤ bound := by
    intro k
    cases max <;> simp
  rw [rests, List.mem_map]
  simp only [List.mem_filter, List.mem_range, hbounds]
  constructor
  · rintro ⟨k, ⟨hk, hmin, hmax⟩, rfl⟩
    have hinitial : text.take k <+: text.takeWhile allowed :=
      List.prefix_of_prefix_length_le (List.take_prefix k text)
        (List.takeWhile_prefix allowed) (by rw [List.length_take]; omega)
    have hlength : (text.take k).length = k := by
      have hle := (List.takeWhile_prefix (l := text) allowed).length_le
      rw [List.length_take]
      omega
    refine ⟨text.take k, (List.take_append_drop k text).symm, fun c hc => ?_, ?_⟩
    · exact List.mem_takeWhile_imp (hinitial.subset hc)
    · rw [hlength]
      exact ⟨hmin, hmax⟩
  · rintro ⟨word, rfl, hall, hmin, hmax⟩
    refine ⟨word.length, ⟨?_, hmin, hmax⟩, List.drop_left⟩
    rw [List.takeWhile_append_of_pos hall, List.length_append]
    omega

theorem mem_rests_one {allowed : α → Bool} :
    rest ∈ (one allowed).rests n text ↔ ∃ c, text = c :: rest ∧ allowed c = true := by
  rw [one, mem_rests_rep]
  constructor
  · rintro ⟨word, rfl, hall, hmin, hmax⟩
    obtain ⟨c, rfl⟩ := List.length_eq_one_iff.mp (Nat.le_antisymm (hmax 1 rfl) hmin)
    exact ⟨c, rfl, hall c (List.mem_singleton_self c)⟩
  · rintro ⟨c, rfl, hc⟩
    refine ⟨[c], rfl, fun d hd => ?_, Nat.le_refl 1, fun bound hbound => ?_⟩
    · rwa [List.mem_singleton.mp hd]
    · exact Nat.le_of_eq (Option.some.inj hbound)

theorem mem_rests_seq {first second : Regex α} :
    rest ∈ (seq first second).rests n text ↔
      ∃ between ∈ first.rests n text, rest ∈ second.rests n between := by
  rw [rests, List.mem_flatMap]

theorem mem_rests_lookahead {ahead : Regex α} :
    rest ∈ (lookahead ahead).rests n text ↔ rest = text ∧ ∃ left, left ∈ ahead.rests n text := by
  rw [rests]
  split
  · next h => simp [h]
  · next h => simp [List.exists_mem_of_ne_nil _ h]

theorem mem_rests_start :
    rest ∈ (start : Regex α).rests n text ↔ rest = text ∧ text.length = n := by
  rw [rests]
  split <;> simp [*]

theorem nil_mem_rests_stop {ends : List (List α)} :
    [] ∈ (stop ends).rests n text ↔ text = [] := by
  rw [rests]
  split
  · rw [List.mem_singleton, eq_comm]
  · next h => exact iff_of_false List.not_mem_nil fun hnil => h (Or.inl hnil)

end Rests

end Regex

end NewsFlash.Library

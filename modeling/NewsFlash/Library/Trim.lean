import Mathlib.Data.List.DropRight

/-!
# Trimming a list

What is left of a list without the members of a class at both of its ends.
-/

namespace NewsFlash.Library

variable {α : Type*} {p : α → Bool}

def trim (p : α → Bool) (l : List α) : List α := (l.dropWhile p).rdropWhile p

theorem rdropWhile_append_of_forall {post : List α} (hpost : ∀ x ∈ post, p x = true)
    (l : List α) : (l ++ post).rdropWhile p = l.rdropWhile p := by
  have hreverse : ∀ x ∈ post.reverse, p x = true := fun x hx => hpost x (List.mem_reverse.mp hx)
  rw [List.rdropWhile, List.reverse_append, List.dropWhile_append_of_pos hreverse,
    List.rdropWhile]

theorem trim_pad {pre post : List α} (hpre : ∀ x ∈ pre, p x = true)
    (hpost : ∀ x ∈ post, p x = true) (l : List α) :
    trim p (pre ++ l ++ post) = trim p l := by
  rw [trim, List.append_assoc, List.dropWhile_append_of_pos hpre, trim]
  cases hdrop : l.dropWhile p with
  | nil =>
      -- nothing is left of the list, nor of what follows it
      have hall : ∀ x ∈ l ++ post, p x = true := by
        intro x hx
        rcases List.mem_append.mp hx with hx | hx
        · exact List.dropWhile_eq_nil_iff.mp hdrop x hx
        · exact hpost x hx
      rw [List.dropWhile_eq_nil_iff.mpr hall]
  | cons x rest =>
      rw [List.dropWhile_append, hdrop, if_neg (by simp), rdropWhile_append_of_forall hpost]

theorem trim_of_forall_not {l : List α} (h : ∀ x ∈ l, p x = false) : trim p l = l := by
  have hdrop : l.dropWhile p = l := by
    cases l with
    | nil => rfl
    | cons x l => exact List.dropWhile_cons_of_neg (by simp [h x List.mem_cons_self])
  rw [trim, hdrop, List.rdropWhile_eq_self_iff]
  intro hne hlast
  rw [h _ (List.getLast_mem hne)] at hlast
  cases hlast

end NewsFlash.Library

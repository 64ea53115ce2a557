import Mathlib.Data.List.Perm.Basic

/-!
# Requests in flight

Requests wait in a list in the order they were issued and may be answered in
any order. `pick` takes one of them out. When every answer edits one shared
list, by appending to it or by replacing it, `settle` is the list that the
answers leave once they have all arrived in the order of the requests. A
replacement hides everything issued before it, so what happens to the earlier
requests no longer matters.
-/

namespace NewsFlash.Library

variable {α : Type*}

/-- The item at index `i` and the remaining items. -/
def pick (l : List α) (i : Nat) : Option (α × List α) :=
  l[i]?.map fun x => (x, l.eraseIdx i)

/-- A picked item splits the list into what was issued before and after it. -/
theorem pick_split {l rest : List α} {i : Nat} {x : α} (h : pick l i = some (x, rest)) :
    ∃ pre post, l = pre ++ x :: post ∧ rest = pre ++ post ∧ pre.length = i := by
  rw [pick, Option.map_eq_some_iff] at h
  obtain ⟨y, hy, hpair⟩ := h
  obtain ⟨rfl, rfl⟩ := Prod.mk.inj hpair
  obtain ⟨hi, rfl⟩ := List.getElem?_eq_some_iff.mp hy
  refine ⟨l.take i, l.drop (i + 1), ?_, List.eraseIdx_eq_take_drop_succ l i, ?_⟩
  · rw [← List.drop_eq_getElem_cons hi, List.take_append_drop]
  · rw [List.length_take]
    omega

theorem pick_perm {l rest : List α} {i : Nat} {x : α} (h : pick l i = some (x, rest)) :
    l.Perm (x :: rest) := by
  obtain ⟨pre, post, rfl, rfl, _⟩ := pick_split h
  exact List.perm_middle

theorem mem_of_pick {l rest : List α} {i : Nat} {x : α} (h : pick l i = some (x, rest)) :
    x ∈ l := (pick_perm h).mem_iff.mpr List.mem_cons_self

theorem mem_of_mem_pick {l rest : List α} {i : Nat} {x y : α}
    (h : pick l i = some (x, rest)) (hy : y ∈ rest) : y ∈ l :=
  (pick_perm h).mem_iff.mpr (List.mem_cons_of_mem x hy)

theorem rest_eq_nil {l rest : List α} {i : Nat} {x y : α} (h : pick l i = some (x, rest))
    (hl : l = [y]) : rest = [] := by
  have hlength := (pick_perm h).length_eq
  rw [hl, List.length_cons, List.length_cons, List.length_nil] at hlength
  exact List.length_eq_zero_iff.mp (by omega)

@[simp] theorem pick_cons_succ (x : α) (l : List α) (i : Nat) :
    pick (x :: l) (i + 1) = (pick l i).map fun (y, rest) => (y, x :: rest) := by
  simp [pick, Function.comp_def]

theorem pick_concat (l : List α) (x : α) : pick (l ++ [x]) l.length = some (x, l) := by
  rw [pick, List.getElem?_concat_length, Option.map_some,
    List.eraseIdx_append_of_length_le (Nat.le_refl _), Nat.sub_self, List.eraseIdx_cons_zero,
    List.append_nil]

theorem pick_map {β : Type*} (f : α → β) (l : List α) (i : Nat) :
    pick (l.map f) i = (pick l i).map fun (x, rest) => (f x, rest.map f) := by
  simp [pick, List.eraseIdx_map, Function.comp_def]

theorem pick_forall₂ {β : Type*} {R : α → β → Prop} {l rest : List α} {l' rest' : List β}
    {i : Nat} {x : α} {y : β} (h : List.Forall₂ R l l') (hx : pick l i = some (x, rest))
    (hy : pick l' i = some (y, rest')) : R x y ∧ List.Forall₂ R rest rest' := by
  induction h generalizing i rest rest' with
  | nil => cases hx
  | cons hhead htail ih =>
      cases i with
      | zero =>
          obtain ⟨rfl, rfl⟩ := Prod.mk.inj (Option.some.inj hx)
          obtain ⟨rfl, rfl⟩ := Prod.mk.inj (Option.some.inj hy)
          exact ⟨hhead, htail⟩
      | succ i =>
          rw [pick_cons_succ, Option.map_eq_some_iff] at hx hy
          obtain ⟨⟨x', xs⟩, hx, heq⟩ := hx
          obtain ⟨⟨y', ys⟩, hy, heq'⟩ := hy
          obtain ⟨rfl, rfl⟩ := Prod.mk.inj heq
          obtain ⟨rfl, rfl⟩ := Prod.mk.inj heq'
          have hrest := ih hx hy
          exact ⟨hrest.1, .cons hhead hrest.2⟩

/-! ## Answers that edit one list -/

/-- What an answer does to the shared list. -/
inductive Edit (α : Type*) where
  | append (xs : List α)
  | replace (xs : List α)

namespace Edit

def apply : Edit α → List α → List α
  | append xs, l => l ++ xs
  | replace xs, _ => xs

def IsReplace : Edit α → Prop
  | append _ => False
  | replace _ => True

end Edit

/-- The list after the pending edits have arrived in order. -/
def settle (l : List α) (q : List (Edit α)) : List α :=
  q.foldl (fun l e => e.apply l) l

@[simp] theorem settle_nil (l : List α) : settle l [] = l := rfl

@[simp] theorem settle_cons (l : List α) (e : Edit α) (q : List (Edit α)) :
    settle l (e :: q) = settle (e.apply l) q := rfl

theorem settle_append (l : List α) (q r : List (Edit α)) :
    settle l (q ++ r) = settle (settle l q) r := List.foldl_append

theorem settle_concat_append (l : List α) (q : List (Edit α)) (xs : List α) :
    settle l (q ++ [.append xs]) = settle l q ++ xs := by
  rw [settle_append]
  rfl

theorem settle_concat_replace (l : List α) (q : List (Edit α)) (xs : List α) :
    settle l (q ++ [.replace xs]) = xs := by
  rw [settle_append]
  rfl

theorem settle_congr_of_replace {q : List (Edit α)} (h : ∃ e ∈ q, e.IsReplace)
    (l l' : List α) : settle l q = settle l' q := by
  induction q generalizing l l' with
  | nil =>
      obtain ⟨_, he, _⟩ := h
      cases he
  | cons e q ih =>
      cases e with
      | replace xs => rfl
      | append xs =>
          refine ih ?_ _ _
          obtain ⟨e', he', hrep⟩ := h
          rcases List.mem_cons.mp he' with rfl | he'
          · exact hrep.elim
          · exact ⟨e', he', hrep⟩

/-- An answer may arrive early, or never, while a replacement requested after it
is still pending. -/
theorem settle_overtaken {pre post : List (Edit α)} {e : Edit α}
    (h : ∃ r ∈ post, r.IsReplace) (l l' : List α) :
    settle l' (pre ++ post) = settle l (pre ++ e :: post) := by
  rw [settle_append, settle_append, settle_cons]
  exact settle_congr_of_replace h _ _

theorem settle_pick_zero {q rest : List (Edit α)} {e : Edit α} (h : pick q 0 = some (e, rest))
    (l : List α) : settle (e.apply l) rest = settle l q := by
  obtain ⟨pre, post, rfl, rfl, hlength⟩ := pick_split h
  rw [List.length_eq_zero_iff.mp hlength]
  rfl

theorem settle_pick_overtaken {q rest : List (Edit α)} {i : Nat} {e : Edit α}
    (h : pick q i = some (e, rest)) (hreplace : ∃ r ∈ q.drop (i + 1), r.IsReplace)
    (l l' : List α) : settle l' rest = settle l q := by
  obtain ⟨pre, post, rfl, rfl, rfl⟩ := pick_split h
  refine settle_overtaken ?_ l l'
  rwa [List.drop_length_add_append, List.drop_succ_cons, List.drop_zero] at hreplace

/-! ## Pages -/

def firstPages (page : Nat → List α) : Nat → List α
  | 0 => []
  | m + 1 => firstPages page m ++ page (m + 1)

@[simp] theorem firstPages_one (page : Nat → List α) : firstPages page 1 = page 1 := rfl

theorem firstPages_succ (page : Nat → List α) (m : Nat) :
    firstPages page (m + 1) = firstPages page m ++ page (m + 1) := rfl

end NewsFlash.Library

import Mathlib.Data.Set.Insert

/-!
# A local copy of a remote set

A client keeps a copy of a set that lives elsewhere. Additions land at the remote
side before the client learns of them; removals reach the copy before they
reach the remote side. `Tracks` relates the copy to the remote elements that no
pending removal will take away, given the additions that have landed but are not
yet known. Once nothing is pending the copy is the remote set.
-/

namespace NewsFlash.Library

variable {ι : Type*}

/-- The copy holds only standing elements, and all of them but for the landed ones. -/
structure Tracks (copy standing landed : Set ι) : Prop where
  sound : copy ⊆ standing
  complete : standing ⊆ copy ∪ landed

namespace Tracks

variable {copy standing landed : Set ι}

theorem of_eq (h : copy = standing) : Tracks copy standing landed :=
  ⟨h.subset, fun _ hx => Or.inl (h ▸ hx)⟩

theorem land (h : Tracks copy standing landed) (x : ι) :
    Tracks copy (insert x standing) (insert x landed) := by
  refine ⟨fun y hy => Or.inr (h.sound hy), ?_⟩
  rintro y (rfl | hy)
  · exact Or.inr (Or.inl rfl)
  · rcases h.complete hy with hc | hl
    · exact Or.inl hc
    · exact Or.inr (Or.inr hl)

theorem learn {x : ι} {landed' : Set ι} (h : Tracks copy standing landed)
    (hx : x ∈ standing) (hl : landed ⊆ insert x landed') :
    Tracks (insert x copy) standing landed' := by
  constructor
  · rintro y (rfl | hy)
    · exact hx
    · exact h.sound hy
  · intro y hy
    rcases h.complete hy with hc | hy
    · exact Or.inl (Or.inr hc)
    · rcases hl hy with rfl | hy
      · exact Or.inl (Or.inl rfl)
      · exact Or.inr hy

/-- The client drops elements while the removal of some of them is under way: other elements
keep standing, and a dropped one stands only where it has landed again. -/
theorem drop {dropped standing' : Set ι} (h : Tracks copy standing landed)
    (hsub : standing' ⊆ standing) (hkeep : ∀ y ∈ standing, y ∉ dropped → y ∈ standing')
    (hdropped : ∀ y ∈ standing', y ∈ dropped → y ∈ landed) :
    Tracks {y ∈ copy | y ∉ dropped} standing' landed := by
  constructor
  · rintro y ⟨hy, hkept⟩
    exact hkeep y (h.sound hy) hkept
  · intro y hy
    by_cases hyx : y ∈ dropped
    · exact Or.inr (hdropped y hy hyx)
    · rcases h.complete (hsub hy) with hc | hl
      · exact Or.inl ⟨hc, hyx⟩
      · exact Or.inr hl

/-- Once no addition is unknown to the client, the copy is exact. -/
theorem settled (h : Tracks copy standing ∅) : copy = standing := by
  apply Set.Subset.antisymm h.sound
  intro y hy
  rcases h.complete hy with hc | hl
  · exact hc
  · exact hl.elim

end Tracks

end NewsFlash.Library

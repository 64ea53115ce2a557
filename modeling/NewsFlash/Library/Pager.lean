import Mathlib.Data.List.Basic

/-!
# Lists that load as they are scrolled

A table draws the rows that come on screen, and drawing one may ask for pages. A scroll draws
some rows above the last one and then the last one. What the `k`-th of several scrolls asks
for, each made after the answers to the one before, follows from what one scroll does.
-/

namespace NewsFlash.Library

/-- `settle` is the arrival of all answers; a trap is `none`. -/
structure Pager (σ : Type*) where
  rows : σ → Nat
  draw : σ → Nat → Option σ
  inFlight : σ → List Nat
  settle : σ → Option σ

namespace Pager

variable {σ : Type*} (P : Pager σ)

/-- Of the rows `above`, those above the last row come on screen before it. -/
def scroll (above : List Nat) (s : σ) : Option σ :=
  (above.filter (· < P.rows s - 1) ++ [P.rows s - 1]).foldlM P.draw s

def scrollAndWait (above : List Nat) (s : σ) : Option σ := (P.scroll above s).bind P.settle

def requests (above : List Nat) (s : σ) : Option (List Nat) :=
  (P.scroll above s).map fun t => (P.inFlight t).drop (P.inFlight s).length

def scrolled (above : Nat → List Nat) (s : σ) : Nat → Option σ
  | 0 => some s
  | k + 1 => (scrolled above s k).bind (P.scrollAndWait (above (k + 1)))

def requestsOf (above : Nat → List Nat) (s : σ) (k : Nat) : Option (List Nat) :=
  (P.scrolled above s (k - 1)).bind (P.requests (above k))

variable {P} {s : σ}

theorem foldlM_some {α : Type*} {f : σ → α → Option σ} {J : σ → Prop} {l : List α}
    (hstep : ∀ s, J s → ∀ x ∈ l, ∃ t, f s x = some t ∧ J t) (h : J s) :
    ∃ t, l.foldlM f s = some t ∧ J t := by
  induction l generalizing s with
  | nil => exact ⟨s, rfl, h⟩
  | cons x l ih =>
      obtain ⟨t, hdraw, ht⟩ := hstep s h x List.mem_cons_self
      rw [List.foldlM_cons, hdraw]
      exact ih (fun s hs y hy => hstep s hs y (List.mem_cons_of_mem x hy)) ht

theorem scroll_some {J Q : σ → Prop} (h : J s)
    (habove : ∀ t, J t → ∀ row < P.rows s - 1, ∃ t', P.draw t row = some t' ∧ J t')
    (hlast : ∀ t, J t → ∃ t', P.draw t (P.rows s - 1) = some t' ∧ Q t') (above : List Nat) :
    ∃ t, P.scroll above s = some t ∧ Q t := by
  have hrows : ∀ t, J t → ∀ row ∈ above.filter (· < P.rows s - 1),
      ∃ t', P.draw t row = some t' ∧ J t' := by
    intro t ht row hrow
    exact habove t ht row (of_decide_eq_true (List.mem_filter.mp hrow).2)
  obtain ⟨t, hfold, ht⟩ := foldlM_some hrows h
  obtain ⟨t', hdraw, ht'⟩ := hlast t ht
  refine ⟨t', ?_, ht'⟩
  rw [scroll, List.foldlM_append, hfold]
  simp only [Option.bind_eq_bind, Option.bind_some, List.foldlM_cons, List.foldlM_nil, hdraw]
  rfl

/-- One scroll at a time: `I n` holds after `n` scrolls, and the next one asks for `f n`. -/
theorem requestsOf_eq {I : Nat → σ → Prop} {f : Nat → List Nat}
    (hscroll : ∀ n s, I n s → ∀ above, ∃ t, P.scroll above s = some t ∧
      (P.inFlight t).drop (P.inFlight s).length = f n ∧ ∃ s', P.settle t = some s' ∧ I (n + 1) s')
    (h : I 0 s) (above : Nat → List Nat) (k : Nat) :
    P.requestsOf above s (k + 1) = some (f k) := by
  have hscrolled : ∃ t, P.scrolled above s k = some t ∧ I k t := by
    induction k with
    | zero => exact ⟨s, rfl, h⟩
    | succ k ih =>
        obtain ⟨t, hrun, ht⟩ := ih
        obtain ⟨t', hscroll', -, s', hsettle, hs'⟩ := hscroll k t ht (above (k + 1))
        refine ⟨s', ?_, hs'⟩
        rw [scrolled, hrun, Option.bind_some, scrollAndWait, hscroll', Option.bind_some, hsettle]
  obtain ⟨t, hrun, ht⟩ := hscrolled
  obtain ⟨t', hscroll', hrequests, -⟩ := hscroll k t ht (above (k + 1))
  rw [requestsOf, Nat.add_sub_cancel, hrun, Option.bind_some, requests, hscroll', Option.map_some,
    hrequests]

end Pager

end NewsFlash.Library

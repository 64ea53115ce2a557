import Mathlib.Data.List.Basic

/-!
# Callback code

The body of an asynchronous operation, and each closure it hands to a request,
is straight-line code over a shared store. It may issue requests, call the
completion it was given, and trap at a forced unwrap or a forced cast. What was
written before a trap stays written, so a trapped run keeps its trace.
-/

namespace NewsFlash.Library

/-- The store that a piece of callback code leaves, with the requests it issued
and the completions it called, oldest first. -/
structure Trace (σ ρ α : Type) where
  store : σ
  issued : List ρ
  completed : List α
deriving DecidableEq, Repr

/-- Callback code over the store `σ`; it yields no result where it traps. -/
abbrev Callback (σ ρ α : Type) := OptionT (StateM (Trace σ ρ α))

namespace Callback

variable {σ ρ α β γ : Type}

def trap : Callback σ ρ α β := fun t => (none, t)

def send (r : ρ) : Callback σ ρ α Unit := fun t =>
  (some (), { t with issued := t.issued ++ [r] })

def complete (a : α) : Callback σ ρ α Unit := fun t =>
  (some (), { t with completed := t.completed ++ [a] })

def read (f : σ → β) : Callback σ ρ α β := fun t => (some (f t.store), t)

def write (f : σ → σ) : Callback σ ρ α Unit := fun t =>
  (some (), { t with store := f t.store })

/-- Trap unless the store is as it should be. -/
def check (p : σ → Bool) : Callback σ ρ α Unit := fun t =>
  (if p t.store then some () else none, t)

def forced : Option β → Callback σ ρ α β
  | some b => pure b
  | none => trap

def exec (c : Callback σ ρ α β) (s : σ) : Option β × Trace σ ρ α :=
  c ⟨s, [], []⟩

/-- Run the code, then the closures that answer the requests it issued. -/
def answered (answer : ρ → Callback σ ρ α Unit) (c : Callback σ ρ α Unit) :
    Callback σ ρ α Unit := fun t =>
  match c { t with issued := [] } with
  | (none, t') => (none, { t' with issued := t.issued ++ t'.issued })
  | (some (), t') => (forM t'.issued answer) { t' with issued := t.issued }

/-- The code ran to its end and called its completion exactly once. -/
def AnswersOnce (r : Option β × Trace σ ρ α) : Prop :=
  r.1.isSome ∧ r.2.completed.length = 1

instance (r : Option β × Trace σ ρ α) : Decidable (AnswersOnce r) :=
  inferInstanceAs (Decidable (_ ∧ _))

/-! ## Running the primitives -/

@[simp] theorem pure_apply (b : β) (t : Trace σ ρ α) :
    (pure b : Callback σ ρ α β) t = (some b, t) := rfl

@[simp] theorem trap_apply (t : Trace σ ρ α) :
    (trap : Callback σ ρ α β) t = (none, t) := rfl

@[simp] theorem send_apply (r : ρ) (t : Trace σ ρ α) :
    (send r : Callback σ ρ α Unit) t = (some (), { t with issued := t.issued ++ [r] }) := rfl

@[simp] theorem complete_apply (a : α) (t : Trace σ ρ α) :
    (complete a : Callback σ ρ α Unit) t =
      (some (), { t with completed := t.completed ++ [a] }) := rfl

@[simp] theorem read_apply (f : σ → β) (t : Trace σ ρ α) :
    (read f : Callback σ ρ α β) t = (some (f t.store), t) := rfl

@[simp] theorem write_apply (f : σ → σ) (t : Trace σ ρ α) :
    (write f : Callback σ ρ α Unit) t = (some (), { t with store := f t.store }) := rfl

@[simp] theorem check_apply (p : σ → Bool) (t : Trace σ ρ α) :
    (check p : Callback σ ρ α Unit) t = (if p t.store then some () else none, t) := rfl

@[simp] theorem forced_some (b : β) : (forced (some b) : Callback σ ρ α β) = pure b := rfl

@[simp] theorem forced_none : (forced none : Callback σ ρ α β) = trap := rfl

theorem forced_apply (o : Option β) (t : Trace σ ρ α) :
    (forced o : Callback σ ρ α β) t = (o, t) := by
  cases o <;> rfl

/-- A sequence runs its second part where the first one left off, unless the
first one trapped. -/
@[simp] theorem bind_apply (c : Callback σ ρ α β) (f : β → Callback σ ρ α γ)
    (t : Trace σ ρ α) :
    (c >>= f) t = match c t with
      | (some b, t') => f b t'
      | (none, t') => (none, t') := by
  change StateT.bind (m := Id) c (fun o => match o with
    | some b => f b
    | none => pure none) t = _
  simp only [StateT.bind]
  rcases c t with ⟨_ | b, t'⟩ <;> rfl

/-- A sequence that comes to its end goes on where its first part has ended. -/
theorem bind_ends {c : Callback σ ρ α β} {f : β → Callback σ ρ α γ} {t : Trace σ ρ α}
    (h : ((c >>= f) t).1.isSome) : ∃ b t', c t = (some b, t') ∧ (c >>= f) t = f b t' := by
  rw [bind_apply] at h ⊢
  rcases hc : c t with ⟨_ | b, t'⟩
  · rw [hc] at h
    cases h
  · exact ⟨b, t', rfl, rfl⟩

@[simp] theorem exec_apply (c : Callback σ ρ α β) (s : σ) : c.exec s = c ⟨s, [], []⟩ := rfl

theorem forM_send_apply (f : β → ρ) (xs : List β) (t : Trace σ ρ α) :
    (forM xs fun x => (send (f x) : Callback σ ρ α Unit)) t =
      (some (), { t with issued := t.issued ++ xs.map f }) := by
  induction xs generalizing t with
  | nil => simp
  | cons x xs ih =>
      rw [List.forM_cons, bind_apply, send_apply]
      simp only [ih, List.map_cons, List.append_assoc, List.cons_append, List.nil_append]

/-! ## Running code with its answers -/

section Answered

variable {answer : ρ → Callback σ ρ α Unit} {c : Callback σ ρ α Unit} {t u : Trace σ ρ α}

theorem answered_congr {c' : Callback σ ρ α Unit}
    (h : c { t with issued := [] } = c' { t with issued := [] }) :
    answered answer c t = answered answer c' t := by
  simp only [answered, h]

theorem answered_of_sent {r : ρ} (h : c { t with issued := [] } = (some (), u))
    (hr : u.issued = [r]) : answered answer c t = answer r { u with issued := t.issued } := by
  simp only [answered, h, hr, List.forM_cons, List.forM_nil, bind_apply]
  rcases answer r { u with issued := t.issued } with ⟨_ | _, _⟩ <;> rfl

theorem answered_of_silent (h : c { t with issued := [] } = (some (), u))
    (hr : u.issued = []) : answered answer c t = (some (), { u with issued := t.issued }) := by
  simp only [answered, h, hr, List.forM_nil]
  rfl

theorem answered_of_quiet (ht : t.issued = []) (h : (c t).2.issued = []) :
    answered answer c t = c t := by
  obtain ⟨store, issued, completed⟩ := t
  obtain rfl : issued = [] := ht
  simp only [answered]
  rcases hc : c ⟨store, [], completed⟩ with ⟨_ | _, u⟩
  · rfl
  · rw [hc] at h
    obtain ⟨store', issued', completed'⟩ := u
    obtain rfl : issued' = [] := h
    rfl

theorem answered_of_trap (h : (c { t with issued := [] }).1 = none) :
    (answered answer c t).1 = none := by
  rcases hc : c { t with issued := [] } with ⟨_ | _, u⟩
  · simp only [answered, hc]
  · rw [hc] at h
    cases h

end Answered

/-! ## Code that does not look -/

/-- The code does not look at what `f` edits: on an edited store it does the same and leaves the
edited result. -/
def Commutes (f : σ → σ) (c : Callback σ ρ α β) : Prop :=
  ∀ t, c { t with store := f t.store } = ((c t).1, { (c t).2 with store := f (c t).2.store })

section Commutes

variable {f : σ → σ}

theorem commutes_pure (b : β) : Commutes f (pure b : Callback σ ρ α β) := fun _ => rfl

theorem commutes_trap : Commutes f (trap : Callback σ ρ α β) := fun _ => rfl

theorem commutes_send (r : ρ) : Commutes f (send r : Callback σ ρ α Unit) := fun _ => rfl

theorem commutes_complete (a : α) : Commutes f (complete a : Callback σ ρ α Unit) := fun _ => rfl

theorem commutes_forced (o : Option β) : Commutes f (forced o : Callback σ ρ α β) := by
  cases o with
  | none => exact commutes_trap
  | some b => exact commutes_pure b

theorem commutes_write {g : σ → σ} (h : ∀ s, g (f s) = f (g s)) :
    Commutes f (write g : Callback σ ρ α Unit) := by
  intro t
  rw [write_apply, write_apply, h]

theorem commutes_check {p : σ → Bool} (h : ∀ s, p (f s) = p s) :
    Commutes f (check p : Callback σ ρ α Unit) := by
  intro t
  rw [check_apply, check_apply, h]

theorem commutes_bind {c : Callback σ ρ α β} {k : β → Callback σ ρ α γ} (hc : Commutes f c)
    (hk : ∀ b, Commutes f (k b)) : Commutes f (c >>= k) := by
  intro t
  rw [bind_apply, bind_apply, hc t]
  rcases c t with ⟨_ | b, t'⟩
  · rfl
  · exact hk b t'

theorem commutes_forM {xs : List γ} {c : γ → Callback σ ρ α Unit} (h : ∀ x, Commutes f (c x)) :
    Commutes f (forM xs c) := by
  induction xs with
  | nil => exact commutes_pure _
  | cons x xs ih => exact commutes_bind (h x) fun _ => ih

end Commutes

end Callback

end NewsFlash.Library

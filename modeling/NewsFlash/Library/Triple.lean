import NewsFlash.Library.Callback

/-!
# Triples for callback code

What a piece of callback code keeps of its store, what it only ever issues, and what it yields
where it does not trap. There is one rule for each primitive and one for a sequence, so a triple
is read off the code line by line.
-/

namespace NewsFlash.Library.Callback

variable {σ ρ α β γ : Type}

/-- From a store with the invariant and allowed requests the code leaves such a store and such
requests, where it traps as well. -/
def Triple (I : σ → Prop) (J : ρ → Prop) (c : Callback σ ρ α β) (Q : β → Prop) : Prop :=
  ∀ t : Trace σ ρ α, I t.store → (∀ r ∈ t.issued, J r) →
    I (c t).2.store ∧ (∀ r ∈ (c t).2.issued, J r) ∧ ∀ b ∈ (c t).1, Q b

namespace Triple

variable {I : σ → Prop} {J : ρ → Prop} {c : Callback σ ρ α β} {Q : β → Prop} {R : γ → Prop}

theorem pure {b : β} (hb : Q b) : Triple I J (pure b : Callback σ ρ α β) Q := by
  intro t hstore hissued
  refine ⟨hstore, hissued, fun b' hb' => ?_⟩
  obtain rfl := Option.some.inj hb'
  exact hb

theorem trap : Triple I J (Callback.trap : Callback σ ρ α β) Q := by
  intro t hstore hissued
  exact ⟨hstore, hissued, fun _ hb => by cases hb⟩

theorem bind {f : β → Callback σ ρ α γ} (hc : Triple I J c Q) (hf : ∀ b, Q b → Triple I J (f b) R) :
    Triple I J (c >>= f) R := by
  intro t hstore hissued
  obtain ⟨hstore', hissued', hyields⟩ := hc t hstore hissued
  rw [bind_apply]
  rcases hrun : c t with ⟨_ | b, t'⟩
  · rw [hrun] at hstore' hissued'
    exact ⟨hstore', hissued', fun _ hb => by cases hb⟩
  · rw [hrun] at hstore' hissued' hyields
    exact hf b (hyields b rfl) t' hstore' hissued'

theorem seq {c : Callback σ ρ α Unit} {d : Callback σ ρ α γ} (hc : Triple I J c fun _ => True)
    (hd : Triple I J d R) : Triple I J (do c; d) R :=
  bind hc fun _ _ => hd

theorem send {r : ρ} (hr : J r) :
    Triple I J (Callback.send r : Callback σ ρ α Unit) fun _ => True := by
  intro t hstore hissued
  refine ⟨hstore, fun r' hmem => ?_, fun _ _ => trivial⟩
  rcases List.mem_append.mp hmem with hmem | hmem
  · exact hissued r' hmem
  · obtain rfl := List.mem_singleton.mp hmem
    exact hr

theorem complete {a : α} :
    Triple I J (Callback.complete a : Callback σ ρ α Unit) fun _ => True := by
  intro t hstore hissued
  exact ⟨hstore, hissued, fun _ _ => trivial⟩

theorem check {p : σ → Bool} :
    Triple I J (Callback.check p : Callback σ ρ α Unit) fun _ => True := by
  intro t hstore hissued
  exact ⟨hstore, hissued, fun _ _ => trivial⟩

theorem read {f : σ → β} (hf : ∀ s, I s → Q (f s)) :
    Triple I J (Callback.read f : Callback σ ρ α β) Q := by
  intro t hstore hissued
  refine ⟨hstore, hissued, fun b hb => ?_⟩
  obtain rfl := Option.some.inj hb
  exact hf t.store hstore

theorem write {f : σ → σ} (hf : ∀ s, I s → I (f s)) :
    Triple I J (Callback.write f : Callback σ ρ α Unit) fun _ => True := by
  intro t hstore hissued
  exact ⟨hf t.store hstore, hissued, fun _ _ => trivial⟩

theorem forced {o : Option β} (ho : ∀ b ∈ o, Q b) :
    Triple I J (Callback.forced o : Callback σ ρ α β) Q := by
  cases o with
  | none => exact trap
  | some b => exact pure (ho b rfl)

theorem forM {f : β → Callback σ ρ α Unit} {xs : List β}
    (hf : ∀ x ∈ xs, Triple I J (f x) fun _ => True) :
    Triple I J (forM xs f) fun _ => True := by
  induction xs with
  | nil => exact pure trivial
  | cons x xs ih =>
      rw [List.forM_cons]
      exact seq (hf x List.mem_cons_self) (ih fun x' hx => hf x' (List.mem_cons_of_mem _ hx))

theorem exec (hc : Triple I J c Q) {s : σ} (hs : I s) :
    I (c.exec s).2.store ∧ ∀ r ∈ (c.exec s).2.issued, J r :=
  have hrun := hc ⟨s, [], []⟩ hs fun _ hr => absurd hr List.not_mem_nil
  ⟨hrun.1, hrun.2.1⟩

end Triple

end NewsFlash.Library.Callback

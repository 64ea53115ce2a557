import Mathlib.Data.List.Basic

/-!
# Turns

A server takes its clients from a queue, one at a time. A client may have left by the time its
turn comes; the turn is over then, and the server is idle until it is woken again, even if others
wait.
-/

namespace NewsFlash.Library

/-- `turns` are the clients whose turn has come, oldest first, and whether they were there. -/
structure Turns (α : Type*) where
  queue : List α := []
  busy : Bool := false
  turns : List (α × Bool) := []

namespace Turns

variable {α : Type*} (there : α → Bool)

def served (s : Turns α) : List α := (s.turns.filter Prod.snd).map Prod.fst

def next (s : Turns α) : Turns α :=
  if s.busy then s
  else match s.queue with
    | [] => s
    | x :: queue => { queue, busy := there x, turns := s.turns ++ [(x, there x)] }

def arrive (s : Turns α) (x : α) : Turns α := next there { s with queue := s.queue ++ [x] }

def release (s : Turns α) : Turns α := next there { s with busy := false }

/-- Whoever has arrived has had a turn or waits, in the order of the arrivals. -/
def Ordered (arrivals : List α) (s : Turns α) : Prop := arrivals = s.turns.map Prod.fst ++ s.queue

variable {there} {s : Turns α} {arrivals : List α}

theorem next_busy (h : s.busy = true) : s.next there = s := if_pos h

theorem next_empty (h : s.queue = []) : s.next there = s := by
  unfold next
  rw [h]
  exact ite_self s

theorem next_cons {x : α} {queue : List α} (hidle : s.busy = false) (h : s.queue = x :: queue) :
    s.next there = { queue, busy := there x, turns := s.turns ++ [(x, there x)] } := by
  unfold next
  rw [hidle, h]
  rfl

theorem Ordered.next (h : Ordered arrivals s) : Ordered arrivals (s.next there) := by
  cases hbusy : s.busy with
  | true => rwa [next_busy hbusy]
  | false =>
      cases hqueue : s.queue with
      | nil => rwa [next_empty hqueue]
      | cons x queue =>
          rw [next_cons hbusy hqueue]
          unfold Ordered at h ⊢
          rw [h, hqueue, List.map_append, List.append_assoc]
          rfl

theorem Ordered.arrive (h : Ordered arrivals s) (x : α) :
    Ordered (arrivals ++ [x]) (s.arrive there x) := by
  apply Ordered.next
  unfold Ordered at h ⊢
  rw [h, List.append_assoc]

theorem Ordered.release (h : Ordered arrivals s) : Ordered arrivals (s.release there) :=
  Ordered.next h

/-- Only those who had left are missing from those who have been served. -/
theorem next_missing {Q : α → Prop} (hthere : ∀ x, there x = false → Q x)
    (h : ∀ turn ∈ s.turns, turn.2 = false → Q turn.1) :
    ∀ turn ∈ (s.next there).turns, turn.2 = false → Q turn.1 := by
  cases hbusy : s.busy with
  | true => rwa [next_busy hbusy]
  | false =>
      cases hqueue : s.queue with
      | nil => rwa [next_empty hqueue]
      | cons x queue =>
          rw [next_cons hbusy hqueue]
          intro turn hturn hleft
          rcases List.mem_append.mp hturn with hturn | hturn
          · exact h turn hturn hleft
          · obtain rfl := List.mem_singleton.mp hturn
            exact hthere x hleft

theorem served_next_cons {x : α} {queue : List α} (hidle : s.busy = false)
    (h : s.queue = x :: queue) :
    (s.next there).served = s.served ++ if there x then [x] else [] := by
  rw [next_cons hidle h, served, List.filter_append, List.map_append]
  congr 1
  by_cases hx : there x
  · rw [hx, if_pos rfl]
    rfl
  · rw [if_neg hx, List.filter_singleton]
    simp [hx]

end Turns

end NewsFlash.Library

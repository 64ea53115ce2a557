import Mathlib.Data.List.Basic

/-!
# Caches of served values

A cache remembers, for some keys, a value that was served for the key. Entries
may be dropped at any time. An entry that was not served for its key cannot be
built, so what a lookup finds was served for the key.
-/

namespace NewsFlash.Library

variable {κ ν : Type*}

/-- Remembered values, at most one for a key; `Serves k v` if `v` may be served for `k`. -/
structure Memo (Serves : κ → ν → Prop) where
  entries : List (κ × ν) := []
  served : ∀ entry ∈ entries, Serves entry.1 entry.2 := by simp

namespace Memo

variable {Serves : κ → ν → Prop}

def empty : Memo Serves := {}

variable [DecidableEq κ]

def lookup (m : Memo Serves) (k : κ) : Option ν :=
  (m.entries.find? fun entry => entry.1 = k).map Prod.snd

def insert (m : Memo Serves) (k : κ) (v : ν) (h : Serves k v) : Memo Serves where
  entries := (k, v) :: m.entries.filter fun entry => entry.1 ≠ k
  served := by
    intro entry hentry
    rcases List.mem_cons.mp hentry with rfl | hentry
    · exact h
    · exact m.served entry (List.mem_of_mem_filter hentry)

omit [DecidableEq κ] in
def evict (m : Memo Serves) (kept : κ → Bool) : Memo Serves where
  entries := m.entries.filter fun entry => kept entry.1
  served := fun entry hentry => m.served entry (List.mem_of_mem_filter hentry)

theorem serves_of_lookup {m : Memo Serves} {k : κ} {v : ν} (h : m.lookup k = some v) :
    Serves k v := by
  obtain ⟨⟨k', v'⟩, hfind, rfl⟩ := Option.map_eq_some_iff.mp h
  have hkey : k' = k := by simpa using List.find?_some hfind
  have hserved := m.served _ (List.mem_of_find?_eq_some hfind)
  rw [hkey] at hserved
  exact hserved

end Memo

end NewsFlash.Library

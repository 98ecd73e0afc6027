import Mathlib

/-!
# Tables of Lua under natural keys

A table of Lua is a partial map. Its length is a border: a key that is there, or `0`, such
that the next one is not. `table.remove` takes a position up to the length, moves the later
entries down by one, and clears the last one; it takes the length itself as a position even
when that is `0`, and it takes the position after the length. Any other position is an error.
-/

namespace LuaTable

variable {α : Type}

/-- What the length operator may return. -/
def IsBorder (t : ℕ → Option α) (n : ℕ) : Prop :=
  (n = 0 ∨ (t n).isSome) ∧ t (n + 1) = none

/-- `table.remove(t, pos)` on a table of length `n`, or no value for an error. -/
def remove (t : ℕ → Option α) (n pos : ℕ) : Option (ℕ → Option α) :=
  if pos = n ∨ (1 ≤ pos ∧ pos ≤ n + 1) then
    some fun k => if pos ≤ k ∧ k < n then t (k + 1) else if k = max pos n then none else t k
  else
    none

/-- Removing at the length clears the entry there. -/
theorem remove_length (t : ℕ → Option α) (n : ℕ) :
  remove t n n = some (Function.update t n none)
  := by
  unfold remove
  rw [if_pos (Or.inl rfl)]
  congr 1
  funext k
  have hno : ¬ (n ≤ k ∧ k < n) := by omega
  rw [if_neg hno, max_self]
  by_cases hk : k = n
  · rw [if_pos hk, hk, Function.update_self]
  · rw [if_neg hk, Function.update_of_ne hk]

/-- Removing right after the length clears the entry there. -/
theorem remove_succ_length (t : ℕ → Option α) (n : ℕ) :
  remove t n (n + 1) = some (Function.update t (n + 1) none)
  := by
  unfold remove
  rw [if_pos (Or.inr ⟨by omega, le_rfl⟩)]
  congr 1
  funext k
  have hno : ¬ (n + 1 ≤ k ∧ k < n) := by omega
  rw [if_neg hno, max_eq_left (Nat.le_succ n)]
  by_cases hk : k = n + 1
  · rw [if_pos hk, hk, Function.update_self]
  · rw [if_neg hk, Function.update_of_ne hk]

/-- The key `0` is not a position of a table that has a length. -/
theorem remove_zero (t : ℕ → Option α) {n : ℕ} (hn : 0 < n) :
  remove t n 0 = none
  := by
  unfold remove
  apply if_neg
  omega

end LuaTable

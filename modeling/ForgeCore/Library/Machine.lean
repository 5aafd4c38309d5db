import Mathlib

/-!
# Machine integers

The 64-bit operations that report or clip an overflow.
-/

namespace ForgeCore.Machine

def u64Max : Nat := 2 ^ 64 - 1

/-- `u64::checked_add(1)`. -/
def checkedSucc (value : Nat) : Option Nat :=
  if value < u64Max then some (value + 1) else none

/-- `u64::saturating_add`. -/
def saturatingAdd (left right : Nat) : Nat :=
  min (left + right) u64Max

variable {value : Nat}

theorem checkedSucc_eq_some :
    checkedSucc value = some next ↔ value < u64Max ∧ next = value + 1 := by
  unfold checkedSucc
  split
  · next below => simp [below, eq_comm]
  · next above => simp [above]

theorem saturatingAdd_of_le (fits : left + right ≤ u64Max) :
    saturatingAdd left right = left + right :=
  Nat.min_eq_left fits

theorem lt_of_le_u64Max (bound : value ≤ u64Max) : value < 256 ^ 8 :=
  lt_of_le_of_lt bound (by decide)

end ForgeCore.Machine

import Mathlib.Order.MinMax
import Mathlib.Algebra.Order.BigOperators.Group.List

/-!
Sums that stay at a largest value.  However they are grouped, they are the sum cut off once.
-/

namespace AgentClaimNetwork.Library

namespace Saturating

def largest : Nat := 2 ^ 64 - 1

def add (left right : Nat) : Nat := min (left + right) largest

/-- `fold(0, saturating_add)`. -/
def sum (values : List Nat) : Nat := values.foldl add 0

theorem add_assoc (first second third : Nat) :
    add (add first second) third = add first (add second third) := by
  simp only [add, Nat.min_def]
  split_ifs <;> omega

end Saturating

end AgentClaimNetwork.Library

import Mathlib.Tactic.Common

/-!
# Clamped moves

An amount is taken from a balance, which stops at zero, and another amount is added. Two such moves one after the
other, and when their order does not matter.
-/

namespace PrimePool.General

structure Move where
  taken : Nat
  added : Nat

namespace Move

def apply (move : Move) (balance : Nat) : Nat := balance - move.taken + move.added

/-- The balance when nothing is lost at zero. -/
def net (first second : Move) (balance : Nat) : Nat :=
  balance + (first.added + second.added) - (first.taken + second.taken)

/-- What is left of the moves on an empty balance. -/
def least (first second : Move) : Nat := first.added - second.taken + second.added

theorem apply_apply (first second : Move) (balance : Nat) :
    second.apply (first.apply balance) = max (net first second balance) (least first second) := by
  simp only [apply, net, least]
  omega

theorem net_comm (first second : Move) (balance : Nat) : net first second balance = net second first balance := by
  rw [net, net, Nat.add_comm first.added, Nat.add_comm first.taken]

theorem commute_iff (first second : Move) (balance : Nat) :
    second.apply (first.apply balance) = first.apply (second.apply balance) ↔
      least first second = least second first ∨
        least first second ≤ net first second balance ∧ least second first ≤ net first second balance := by
  rw [apply_apply, apply_apply, net_comm second first]
  omega

end Move

end PrimePool.General

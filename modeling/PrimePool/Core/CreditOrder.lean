import PrimePool.Core.OrphanRefund

/-!
# The order of payout and credit

`UpdateBalances` adds the bonus of the block finder before the payout is taken off, and the share credits and the
remainder after that. Whether a payout reaches into what the same settlement credits.
-/

namespace PrimePool.Core

open PrimePool.General PrimePool.LLD Std

theorem deduct_eq_sub_min (nBalance nValue : UInt64) : deduct nBalance nValue = nBalance - min nBalance nValue := by
  rw [deduct]
  split
  · rename_i exceeds
    have least : min nBalance nValue = nBalance := if_pos (UInt64.le_of_lt exceeds)
    rw [least, UInt64.sub_self]
  · rename_i covered
    have least : min nBalance nValue = nValue := by
      by_cases under : nBalance ≤ nValue
      · exact (if_pos under).trans (UInt64.le_antisymm under (UInt64.not_lt.mp covered))
      · exact if_neg under
    rw [least]

namespace Movement

/-- The balance when the payout takes from the old balance only. -/
def keptBalance (m : Movement) : UInt64 :=
  m.balance - min m.balance m.output + (m.bonus + m.credit + m.remainder)

def CoversPayout (m : Movement) : Prop :=
  m.bonus = 0 ∨ m.output ≤ m.balance ∧ m.output ≤ m.balance + m.bonus

theorem settledBalance_eq_kept_iff (m : Movement) : m.settledBalance = m.keptBalance ↔ m.CoversPayout := by
  rw [keptBalance, ← deduct_eq_sub_min]
  have cancel : m.settledBalance = deduct m.balance m.output + (m.bonus + m.credit + m.remainder) ↔
      deduct (m.balance + m.bonus) m.output = deduct m.balance m.output + m.bonus := by
    rw [settledBalance]
    grind
  rw [cancel, CoversPayout]
  simp only [deduct]
  by_cases exceeds : m.output > m.balance
  · have positive : m.balance - m.output ≠ 0 := fun same => by
      rw [UInt64.sub_eq_iff_eq_add, UInt64.zero_add] at same
      exact UInt64.ne_of_lt exceeds same
    have uncovered : ¬ m.output ≤ m.balance := UInt64.not_le.mpr exceeds
    simp only [exceeds, uncovered, if_true, false_and, or_false]
    split
    · rw [UInt64.zero_add, eq_comm]
    · grind
  · have covered : m.output ≤ m.balance := UInt64.not_lt.mp exceeds
    simp only [exceeds, covered, if_false, true_and]
    by_cases wraps : m.output > m.balance + m.bonus
    · simp only [wraps, if_true]
      have different : m.output ≠ m.balance + m.bonus := (UInt64.ne_of_lt wraps).symm
      have paid : m.bonus ≠ 0 := by
        intro nothing
        rw [nothing, UInt64.add_zero] at wraps
        exact exceeds wraps
      have beyond : ¬ m.output ≤ m.balance + m.bonus := UInt64.not_le.mpr wraps
      refine iff_of_false (fun same => different ?_) (not_or.mpr ⟨paid, beyond⟩)
      grind
    · simp only [wraps, if_false]
      refine iff_of_true ?_ (Or.inr (UInt64.not_lt.mp wraps))
      grind

end Movement

variable {D : Type} [Double D] {databases : Databases} {round : Round D} {nReward : UInt64}

/-- Every account has its balance less the payout it covers, and all that is credited to it. -/
def KeepsCredit (round : Round D) (nReward : UInt64) (databases : Databases) : Prop :=
  ∀ (key : StdString) (cAccount : Account), databases.AccountDB[key]? = some cAccount →
    (run perform (updateBalances round nReward) databases).2.AccountDB[key]?.map Account.nAccountBalance =
      some (movement round nReward databases key cAccount).keptBalance

theorem bonus_movement_of_ne {key : StdString} (cAccount : Account) (other : key ≠ round.LAST_ROUND_BLOCKFINDER) :
    (movement round nReward databases key cAccount).bonus = 0 := if_neg other

/-- No payout consumes a credit exactly when the block finder's balance covers its own payout, or it has no bonus. -/
theorem keeps_credit_iff (wellKeyed : databases.AccountDB.WellKeyed)
    (finder : round.LAST_ROUND_BLOCKFINDER ∈ databases.AccountDB) :
    KeepsCredit round nReward databases ↔
      ∀ cAccount, databases.AccountDB[round.LAST_ROUND_BLOCKFINDER]? = some cAccount →
        (movement round nReward databases round.LAST_ROUND_BLOCKFINDER cAccount).CoversPayout := by
  have settled {key : StdString} {cAccount : Account} (found : databases.AccountDB[key]? = some cAccount) :
      (run perform (updateBalances round nReward) databases).2.AccountDB[key]?.map Account.nAccountBalance =
        some (movement round nReward databases key cAccount).settledBalance := by
    rw [run_updateBalances round nReward wellKeyed finder]
    dsimp only
    rw [Databases.getElem?_mapAccounts, found]
    rfl
  constructor
  · intro keeps cAccount found
    have kept := keeps _ cAccount found
    rw [settled found, Option.some.injEq] at kept
    exact (Movement.settledBalance_eq_kept_iff _).mp kept
  · intro covers key cAccount found
    rw [settled found, Option.some.injEq, Movement.settledBalance_eq_kept_iff]
    by_cases same : key = round.LAST_ROUND_BLOCKFINDER
    · subst same
      exact covers cAccount found
    · exact Or.inl (bonus_movement_of_ne cAccount same)

/-! ## A payout that takes the bonus -/

/-- The coinbase of `secondRound` pays its finder what the other accounts left of the reward. -/
def leftoverPayout : Databases where
  AccountDB := .ofList [(alice, { Account.new alice with nAccountBalance := 100 })]
  BlockDB := ∅
  acctDat := none
  blkDat := none

theorem leftoverPayout_takes_bonus : ¬ KeepsCredit secondRound 1000000 leftoverPayout := by
  intro keeps
  have found : leftoverPayout.AccountDB[alice]? = some { Account.new alice with nAccountBalance := 100 } := by
    decide +kernel
  have kept := keeps alice _ found
  exact absurd kept (by decide +kernel)

theorem leftoverPayout_keeps_iff :
    KeepsCredit secondRound 1000000 leftoverPayout ↔
      ∀ cAccount, leftoverPayout.AccountDB[secondRound.LAST_ROUND_BLOCKFINDER]? = some cAccount →
        (movement secondRound 1000000 leftoverPayout secondRound.LAST_ROUND_BLOCKFINDER cAccount).CoversPayout :=
  keeps_credit_iff (by decide +kernel) (by decide +kernel)

end PrimePool.Core

import Mathlib.Algebra.Order.BigOperators.Group.List
import PrimePool.Core.ExactAmounts

/-!
# The sum of the credits

What `UpdateBalances` adds to the balances of all accounts together, in exact arithmetic.
-/

namespace PrimePool.Core

open PrimePool.General PrimePool.LLD Std

variable {databases : Databases}

/-! ## The shares of the round -/

def roundShares (databases : Databases) : List Nat :=
  databases.AccountDB.keys.map fun key => (databases.account key).nRoundShares.toNat

theorem toNat_weightOf (fits : (roundShares databases).sum < 2 ^ 64) :
    (weightOf databases).toNat = (roundShares databases).sum := by
  rw [weightOf, toNat_foldl_add fun key => (databases.account key).nRoundShares, UInt64.toNat_zero, Nat.zero_add]
  exact Nat.mod_eq_of_lt fits

theorem shares_le_weightOf (fits : (roundShares databases).sum < 2 ^ 64) {key : StdString}
    (present : key ∈ databases.AccountDB) : (databases.account key).nRoundShares ≤ weightOf databases := by
  rw [UInt64.le_iff_toNat_le, toNat_weightOf fits]
  apply List.single_le_sum fun _ _ => Nat.zero_le _
  exact List.mem_map.mpr ⟨key, ExtTreeMap.mem_keys.mpr present, rfl⟩

/-! ## The credits of the round -/

section Credits

variable {D : Type} [Double D]

def shareCredits (round : Round D) (nReward : UInt64) (databases : Databases) : List Nat :=
  databases.AccountDB.keys.map fun key =>
    (creditFor D (weightOf databases) (sharedReward round nReward) (databases.account key).nRoundShares).toNat

theorem total_settled (nTotalWeight nReward : UInt64) (before : Credits × UInt64) (key : StdString)
    (cAccount : Account) :
    (settled D nTotalWeight nReward before key cAccount).2 =
      before.2 + creditFor D nTotalWeight nReward cAccount.nRoundShares := by
  simp only [settled, creditFor]
  split
  · rw [UInt64.add_zero]
  · rfl

theorem toNat_creditedBy (round : Round D) (nReward : UInt64) (databases : Databases) :
    (creditedBy round nReward databases).2.toNat = (shareCredits round nReward databases).sum % 2 ^ 64 := by
  have total (keys : List StdString) (before : Credits × UInt64) :
      (keys.foldl (fun before key => settled D (weightOf databases) (sharedReward round nReward) before key
          (databases.account key)) before).2 =
        keys.foldl (fun total key => total + creditFor D (weightOf databases) (sharedReward round nReward)
          (databases.account key).nRoundShares) before.2 := by
    induction keys generalizing before with
    | nil => rfl
    | cons key keys ih => rw [List.foldl_cons, List.foldl_cons, ih, total_settled]
  rw [creditedBy, total, toNat_foldl_add fun key => creditFor D (weightOf databases) (sharedReward round nReward)
    (databases.account key).nRoundShares, UInt64.toNat_zero, Nat.zero_add]
  rfl

end Credits

theorem creditFor_le {nRoundShares nTotalWeight : UInt64} (part : nRoundShares ≤ nTotalWeight) (nReward : UInt64) :
    (creditFor Rat nTotalWeight nReward nRoundShares).toNat ≤
      proportion nReward.toNat nTotalWeight.toNat nRoundShares.toNat := by
  rw [creditFor]
  split
  · exact Nat.zero_le _
  · rw [toNat_shareCredit part]
    exact Nat.mod_le _ _

theorem sum_shareCredits_le (round : Round Rat) (nReward : UInt64) (fits : (roundShares databases).sum < 2 ^ 64) :
    (shareCredits round nReward databases).sum ≤ (sharedReward round nReward).toNat := by
  have parts : (roundShares databases).sum ≤ (weightOf databases).toNat := Nat.le_of_eq (toNat_weightOf fits).symm
  apply Nat.le_trans _ (sum_proportion_le parts)
  rw [shareCredits, roundShares, List.map_map]
  apply List.sum_le_sum
  intro key member
  exact creditFor_le (shares_le_weightOf fits (ExtTreeMap.mem_keys.mp member)) _

/-! ## What is added to the balances -/

theorem Movement.toNat_settledBalance {m : Movement}
    (fits : m.balance.toNat + (m.bonus.toNat + m.credit.toNat + m.remainder.toNat) < 2 ^ 64) :
    m.settledBalance.toNat =
      m.balance.toNat + m.bonus.toNat - m.output.toNat + m.credit.toNat + m.remainder.toNat := by
  have sum : (m.balance + m.bonus).toNat = m.balance.toNat + m.bonus.toNat := by
    rw [UInt64.toNat_add]
    omega
  rw [settledBalance, UInt64.toNat_add, UInt64.toNat_add, toNat_deduct, sum]
  omega

def Movement.added (m : Movement) : Nat := m.bonus.toNat + m.credit.toNat + m.remainder.toNat

section Added

variable {D : Type} [Double D]

def additions (round : Round D) (nReward : UInt64) (databases : Databases) : List Nat :=
  databases.AccountDB.keys.map fun key => (movement round nReward databases key (databases.account key)).added

omit [Double D] in
theorem sum_forFinder (round : Round D) (nValue : UInt64)
    (finder : round.LAST_ROUND_BLOCKFINDER ∈ databases.AccountDB) :
    (databases.AccountDB.keys.map fun key => (forFinder round key nValue).toNat).sum = nValue.toNat := by
  have distinct : databases.AccountDB.keys.Nodup := ExtTreeMap.nodup_keys
  have once := sum_map_ite_eq distinct round.LAST_ROUND_BLOCKFINDER nValue.toNat
  rw [if_pos (ExtTreeMap.mem_keys.mpr finder)] at once
  rw [← once]
  congr 1
  apply List.map_congr_left
  intro key _
  rw [forFinder]
  split <;> rfl

theorem sum_additions (round : Round D) (nReward : UInt64)
    (finder : round.LAST_ROUND_BLOCKFINDER ∈ databases.AccountDB) :
    (additions round nReward databases).sum =
      (bonusOf round nReward).toNat + (shareCredits round nReward databases).sum +
        (remainderOf round nReward databases).toNat := by
  rw [← sum_forFinder round (bonusOf round nReward) finder,
    ← sum_forFinder round (remainderOf round nReward databases) finder, shareCredits, ← List.sum_map_add,
    ← List.sum_map_add]
  rfl

end Added

theorem bonusOf_le (round : Round Rat) (nReward : UInt64) :
    bonusOf round nReward ≤ lessPoolFee round.lfPoolFee nReward := by
  rw [bonusOf]
  split
  · rw [UInt64.le_iff_toNat_le]
    exact Nat.zero_le _
  · exact finderBonus_le _

theorem sum_additions_eq (round : Round Rat) (nReward : UInt64) (fits : (roundShares databases).sum < 2 ^ 64)
    (finder : round.LAST_ROUND_BLOCKFINDER ∈ databases.AccountDB) :
    (additions round nReward databases).sum = (lessPoolFee round.lfPoolFee nReward).toNat := by
  have within := sum_shareCredits_le round nReward fits
  have bound := (sharedReward round nReward).toNat_lt
  have credited : (creditedBy round nReward databases).2.toNat = (shareCredits round nReward databases).sum := by
    rw [toNat_creditedBy]
    exact Nat.mod_eq_of_lt (Nat.lt_of_le_of_lt within bound)
  have remainder : (remainderOf round nReward databases).toNat =
      (sharedReward round nReward).toNat - (shareCredits round nReward databases).sum := by
    rw [remainderOf, toNat_deduct, credited]
  have shared : (sharedReward round nReward).toNat =
      (lessPoolFee round.lfPoolFee nReward).toNat - (bonusOf round nReward).toNat :=
    UInt64.toNat_sub_of_le _ _ (bonusOf_le round nReward)
  have bonus := UInt64.le_iff_toNat_le.mp (bonusOf_le round nReward)
  rw [sum_additions round nReward finder, remainder]
  omega

/-- The share credits do not exceed what is left after fee and bonus, and what is added to the balances is the reward
without the fee. -/
theorem credits_conserved (round : Round Rat) (nReward : UInt64) (databases : Databases)
    (wellKeyed : databases.AccountDB.WellKeyed) (finder : round.LAST_ROUND_BLOCKFINDER ∈ databases.AccountDB)
    (fee : 0 ≤ round.lfPoolFee) (fits : (roundShares databases).sum < 2 ^ 64)
    (room : ∀ (key : StdString) (cAccount : Account), databases.AccountDB[key]? = some cAccount →
      cAccount.nAccountBalance.toNat + nReward.toNat < 2 ^ 64) :
    (shareCredits round nReward databases).sum ≤ (sharedReward round nReward).toNat ∧
      (additions round nReward databases).sum = (lessPoolFee round.lfPoolFee nReward).toNat ∧
      ∀ (key : StdString) (cAccount : Account), databases.AccountDB[key]? = some cAccount →
        let m := movement round nReward databases key cAccount
        ((run perform (updateBalances round nReward) databases).2.AccountDB[key]?.map fun cAccount =>
            cAccount.nAccountBalance.toNat) =
          some (m.balance.toNat + m.bonus.toNat - m.output.toNat + m.credit.toNat + m.remainder.toNat) := by
  refine ⟨sum_shareCredits_le round nReward fits, sum_additions_eq round nReward fits finder, ?_⟩
  intro key cAccount found m
  have least : m.added ≤ nReward.toNat := by
    have listed : m.added ∈ additions round nReward databases := by
      rw [additions, List.mem_map]
      refine ⟨key, ExtTreeMap.mem_keys.mpr (mem_of_getElem? found), ?_⟩
      rw [Databases.account_of_getElem? found]
    calc m.added ≤ (additions round nReward databases).sum := List.single_le_sum (fun _ _ => Nat.zero_le _) _ listed
      _ = (lessPoolFee round.lfPoolFee nReward).toNat := sum_additions_eq round nReward fits finder
      _ ≤ nReward.toNat := UInt64.le_iff_toNat_le.mp (lessPoolFee_le fee nReward)
  have fitting : m.balance.toNat + (m.bonus.toNat + m.credit.toNat + m.remainder.toNat) < 2 ^ 64 := by
    have balance : m.balance.toNat + nReward.toNat < 2 ^ 64 := room key cAccount found
    rw [Movement.added] at least
    omega
  rw [run_updateBalances round nReward wellKeyed finder]
  dsimp only
  rw [Databases.getElem?_mapAccounts, found, Option.map_some, Option.map_some, ← Movement.toNat_settledBalance fitting]
  rfl

def exactRound : Round Rat where
  lfPoolFee := 0.02
  cGlobalCoinbase := secondRound.cGlobalCoinbase
  nRoundReward := secondRound.nRoundReward
  hashBlockSubmission := secondRound.hashBlockSubmission
  LAST_ROUND_BLOCKFINDER := secondRound.LAST_ROUND_BLOCKFINDER
  nCurrentRound := secondRound.nCurrentRound

theorem equalShares_conserved : (additions exactRound 1000000 equalShares).sum = 980000 := by
  have room : ∀ entry ∈ equalShares.AccountDB.toList,
      entry.2.nAccountBalance.toNat + (1000000 : UInt64).toNat < 2 ^ 64 := by decide +kernel
  have conserved := credits_conserved exactRound 1000000 equalShares (by decide +kernel) (by decide +kernel)
    (by decide +kernel) (by decide +kernel)
    fun key cAccount found => room (key, cAccount) (ExtTreeMap.mem_toList_iff_getElem?_eq_some.mpr found)
  have net : (lessPoolFee exactRound.lfPoolFee 1000000).toNat = 980000 := by decide +kernel
  exact conserved.2.1.trans net

end PrimePool.Core

import PrimePool.Core.CreditSums
import PrimePool.Core.SettlementReads
import PrimePool.Core.SettlementStores

/-!
# Credits in proportion to shares

What `UpdateBalances` credits an account for its shares: what the record of the block remembers, without the bonus of
the finder. The finder may have no account; then the bonus makes one, before the shares are weighed.
-/

namespace PrimePool.Core

open PrimePool.General PrimePool.LLD Std

variable {D : Type} [Double D] {databases : Databases} {key : StdString}

/-! ## The loop over the accounts -/

theorem value_settleAccount (outputs : AmountMap) (nTotalWeight nReward : UInt64) (before : Credits × UInt64)
    (key : StdString) (databases : Databases) :
    (run perform (settleAccount D outputs nTotalWeight nReward before key) databases).1 =
      settled D nTotalWeight nReward before key (databases.account key) :=
  congrArg Prod.fst (run_settleAccount_amend outputs nTotalWeight nReward before key databases)

/-- The loop credits the shares that were weighed: what it stores is not read again. -/
theorem value_settleAccounts (filed : Filed databases) {keys : List StdString} (distinct : keys.Nodup)
    (named : keys.Pairwise fun _ later => later ≠ []) (outputs : AmountMap) (nTotalWeight nReward : UInt64)
    (before : Credits × UInt64) :
    (run perform (keys.foldlM (settleAccount D outputs nTotalWeight nReward) before) databases).1 =
      keys.foldl (fun before key => settled D nTotalWeight nReward before key (databases.account key)) before := by
  induction keys generalizing databases before with
  | nil => rfl
  | cons key keys ih =>
      rw [List.nodup_cons] at distinct
      rw [List.pairwise_cons] at named
      rw [List.foldlM_cons, run_bind, value_settleAccount, ih (filed.run _) distinct.2 named.2, List.foldl_cons]
      apply List.foldl_ext
      intro before other member
      have different : key ≠ other := fun same => distinct.1 (same ▸ member)
      rw [account_settleAccount_other filed (named.1 other member) different]

theorem named_keys (AccountDB : Records StdString Account) :
    AccountDB.keys.Pairwise fun _ later => later ≠ [] := by
  refine AccountDB.ordered_keys.imp ?_
  rintro first later less rfl
  cases first with
  | nil => cases less
  | cons head tail => cases less

/-! ## The credits of a settlement -/

/-- The store of accounts when the shares are weighed. -/
def afterBonus (round : Round D) (nReward : UInt64) (databases : Databases) : Databases :=
  (run perform (creditFinder D round.LAST_ROUND_BLOCKFINDER (lessPoolFee round.lfPoolFee nReward)) databases).2

def recordedCredits (round : Round D) (nReward : UInt64) (databases : Databases) : AmountMap :=
  let after := (run perform (updateBalances round nReward) databases).2
  (after.BlockDB.getRecord round.hashBlockSubmission).1.cCredits.mapCredits

def accountCredit (round : Round D) (nReward : UInt64) (databases : Databases) (key : StdString) : UInt64 :=
  (recordedCredits round nReward databases).getD key 0 - forFinder round key (bonusOf round nReward)

theorem value_creditAccounts (round : Round D) (nReward : UInt64) (wellKeyed : databases.AccountDB.WellKeyed) :
    let weighed := afterBonus round nReward databases
    (run perform (creditAccounts round nReward) databases).1 =
      (weighed.AccountDB.keys.foldl
        (fun before key => settled D (weightOf weighed) (sharedReward round nReward) before key (weighed.account key))
        (bonusCredits round nReward, 0)).1 := by
  intro weighed
  have filed : Filed weighed := (filed_of_wellKeyed wellKeyed).run _
  have loop := value_settleAccounts (D := D) filed ExtTreeMap.nodup_keys (named_keys weighed.AccountDB)
    round.cGlobalCoinbase.mapOutputs (weightOf weighed) (sharedReward round nReward) (bonusCredits round nReward, 0)
  have bonus : run perform (creditFinder D round.LAST_ROUND_BLOCKFINDER (lessPoolFee round.lfPoolFee nReward)) databases =
      ((bonusCredits round nReward, sharedReward round nReward), weighed) :=
    Prod.ext (by rw [run_creditFinder_amend]) rfl
  simp only [creditAccounts, accountKeys, run_bind, bonus, run_totalWeight, run_perform, perform, Records.getKeys]
  exact congrArg Prod.fst loop

theorem recordedCredits_eq (round : Round D) (nReward : UInt64) (databases : Databases) :
    recordedCredits round nReward databases = (run perform (creditAccounts round nReward) databases).1.mapCredits := by
  let cCredits := (run perform (creditAccounts round nReward) databases).1
  have recorded : (run perform (updateBalances round nReward) databases).2.BlockDB[round.hashBlockSubmission]? =
      some { newBlock round with cCredits } := by
    rw [updateBalances_eq, run_bind]
    exact (Records.getElem?_updateRecord _ _ _).trans (if_pos rfl)
  simp only [recordedCredits]
  rw [Records.getRecord_of_getElem? recorded]

theorem accountCredit_eq (round : Round D) (nReward : UInt64) (wellKeyed : databases.AccountDB.WellKeyed)
    (present : key ∈ (afterBonus round nReward databases).AccountDB) :
    accountCredit round nReward databases key =
      creditFor D (weightOf (afterBonus round nReward databases)) (sharedReward round nReward)
        ((afterBonus round nReward databases).account key).nRoundShares := by
  rw [accountCredit, recordedCredits_eq, value_creditAccounts round nReward wellKeyed,
    getD_foldl_settled _ _ _ ExtTreeMap.nodup_keys, getD_bonusCredits, if_pos (ExtTreeMap.mem_keys.mpr present),
    UInt64.add_comm, UInt64.add_sub_cancel]

theorem afterBonus_eq (round : Round D) (nReward : UInt64) (wellKeyed : databases.AccountDB.WellKeyed)
    (finder : round.LAST_ROUND_BLOCKFINDER ∈ databases.AccountDB) :
    afterBonus round nReward databases = databases.mapAccounts (payBonus round nReward) := by
  rw [afterBonus, run_creditFinder round nReward wellKeyed finder, change_deposit]
  rfl

/-- Where the finder has an account, the shares are those of the store before, and the credit is part of the balance. -/
theorem balance_updateBalances (round : Round D) (nReward : UInt64) (wellKeyed : databases.AccountDB.WellKeyed)
    (finder : round.LAST_ROUND_BLOCKFINDER ∈ databases.AccountDB) {cAccount : Account}
    (found : databases.AccountDB[key]? = some cAccount) :
    ((afterBonus round nReward databases).account key).nRoundShares = cAccount.nRoundShares ∧
      (run perform (updateBalances round nReward) databases).2.AccountDB[key]?.map Account.nAccountBalance =
        some (deduct (cAccount.nAccountBalance + forFinder round key (bonusOf round nReward))
            (round.cGlobalCoinbase.mapOutputs.getD key 0) + accountCredit round nReward databases key +
          forFinder round key (remainderOf round nReward databases)) := by
  have weighed : (afterBonus round nReward databases).AccountDB[key]? = some (payBonus round nReward key cAccount) := by
    rw [afterBonus_eq round nReward wellKeyed finder, Databases.getElem?_mapAccounts, found, Option.map_some]
  have present : key ∈ (afterBonus round nReward databases).AccountDB :=
    mem_of_getElem? weighed
  have weight : weightOf (afterBonus round nReward databases) = weightOf databases := by
    rw [afterBonus_eq round nReward wellKeyed finder]
    exact weightOf_mapAccounts fun _ _ => rfl
  have shares : ((afterBonus round nReward databases).account key).nRoundShares = cAccount.nRoundShares := by
    rw [Databases.account_of_getElem? weighed]
    rfl
  refine ⟨shares, ?_⟩
  rw [accountCredit_eq round nReward wellKeyed present, weight, shares, run_updateBalances round nReward wellKeyed finder]
  dsimp only
  rw [Databases.getElem?_mapAccounts, found]
  rfl

/-! ## Proportional credits -/

structure Proportional (round : Round Rat) (nReward : UInt64) (databases : Databases) : Prop where
  exact (key : StdString) : let weighed := afterBonus round nReward databases
    key ∈ weighed.AccountDB → (weighed.account key).nRoundShares ≠ 0 →
      (accountCredit round nReward databases key).toNat =
        proportion (sharedReward round nReward).toNat (roundShares weighed).sum (weighed.account key).nRoundShares.toNat
  monotone (less more : StdString) : let weighed := afterBonus round nReward databases
    less ∈ weighed.AccountDB → more ∈ weighed.AccountDB →
      (weighed.account less).nRoundShares ≤ (weighed.account more).nRoundShares →
        accountCredit round nReward databases less ≤ accountCredit round nReward databases more

theorem proportional_iff (round : Round Rat) (nReward : UInt64) (databases : Databases)
    (wellKeyed : databases.AccountDB.WellKeyed)
    (fits : (roundShares (afterBonus round nReward databases)).sum < 2 ^ 64) :
    Proportional round nReward databases ↔
      let weighed := afterBonus round nReward databases
      ∀ key ∈ weighed.AccountDB,
        proportion (sharedReward round nReward).toNat (roundShares weighed).sum
          (weighed.account key).nRoundShares.toNat < 2 ^ 32 := by
  let weighed := afterBonus round nReward databases
  let part (key : StdString) : Nat := proportion (sharedReward round nReward).toNat (roundShares weighed).sum
    (weighed.account key).nRoundShares.toNat
  have credited (key : StdString) (present : key ∈ weighed.AccountDB) :
      (accountCredit round nReward databases key).toNat = part key % 2 ^ 32 := by
    rw [accountCredit_eq round nReward wellKeyed present, creditFor]
    split
    · rename_i none
      have nothing : part key = 0 := by
        show proportion _ _ (weighed.account key).nRoundShares.toNat = 0
        rw [none, proportion, UInt64.toNat_zero, Nat.mul_zero, Nat.zero_div]
      rw [nothing]
      rfl
    · rw [toNat_shareCredit (shares_le_weightOf fits present), toNat_weightOf fits]
  constructor
  · intro proportional weighed key present
    by_cases none : (weighed.account key).nRoundShares = 0
    · rw [none, proportion, UInt64.toNat_zero, Nat.mul_zero, Nat.zero_div]
      exact Nat.two_pow_pos 32
    · rw [← proportional.exact key present none, credited key present]
      exact Nat.mod_lt _ (Nat.two_pow_pos 32)
  · intro small
    have exact (key : StdString) (present : key ∈ weighed.AccountDB) :
        (accountCredit round nReward databases key).toNat = part key := by
      rw [credited key present]
      exact Nat.mod_eq_of_lt (small key present)
    refine ⟨fun key present _ => exact key present, fun less more present present' le => ?_⟩
    rw [UInt64.le_iff_toNat_le, exact less present, exact more present']
    exact proportion_mono _ _ (UInt64.le_iff_toNat_le.mp le)

/-! ## A credit that does not fit -/

def soleMiner : Databases where
  AccountDB := .ofList [(alice, Account.new alice), (bob, { Account.new bob with nRoundShares := 1 })]
  BlockDB := ∅
  acctDat := none
  blkDat := none

theorem soleMiner_not_proportional : ¬ Proportional exactRound 5000000000 soleMiner := by
  intro proportional
  have present : bob ∈ (afterBonus exactRound 5000000000 soleMiner).AccountDB := by decide +kernel
  have exact := proportional.exact bob present (by decide +kernel)
  exact absurd exact (by decide +kernel)

def unequalShares : Databases :=
  { equalShares with
    AccountDB :=
      (equalShares.AccountDB.insert bob { Account.new bob with nRoundShares := 2 }).insert carol
        { Account.new carol with nRoundShares := 4 } }

theorem unequalShares_proportional_iff :
    Proportional exactRound 1000000 unequalShares ↔
      let weighed := afterBonus exactRound 1000000 unequalShares
      ∀ key ∈ weighed.AccountDB,
        proportion (sharedReward exactRound 1000000).toNat (roundShares weighed).sum
          (weighed.account key).nRoundShares.toNat < 2 ^ 32 :=
  proportional_iff exactRound 1000000 unequalShares (by decide +kernel) (by decide +kernel)

end PrimePool.Core

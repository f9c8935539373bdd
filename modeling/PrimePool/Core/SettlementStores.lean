import PrimePool.Core.SettlementEffect

/-!
# Settlements on any store

What the parts of `UpdateBalances`, `ClearShares` and `RefundPayouts` do to a store of accounts with records that are
missing or under other keys.
-/

namespace PrimePool.Core

open PrimePool.General PrimePool.LLD Std

variable {D : Type} [Double D] {databases : Databases}

def amend (AccountDB : Records StdString Account) (key : StdString) (f : Account → Account) :
    Records StdString Account :=
  let (cAccount, AccountDB) := AccountDB.getRecord key
  AccountDB.updateRecord (f cAccount)

def refundedAccounts (cBlock : Block) (AccountDB : Records StdString Account) : Records StdString Account :=
  let AccountDB := cBlock.cCredits.mapCredits.toList.foldl
    (fun AccountDB credit => amend AccountDB credit.1 (withdraw credit.2)) AccountDB
  cBlock.cCoinbase.mapOutputs.toList.foldl
    (fun AccountDB output => amend AccountDB output.1 (deposit output.2)) AccountDB

def awardedAccounts (round : Round D) (nReward : UInt64) (AccountDB : Records StdString Account) :
    Records StdString Account :=
  if round.LAST_ROUND_BLOCKFINDER = [] then AccountDB
  else amend AccountDB round.LAST_ROUND_BLOCKFINDER (deposit (bonusOf round nReward))

def settleRecord (D : Type) [Double D] (outputs : AmountMap) (nTotalWeight nReward : UInt64)
    (before : (Credits × UInt64) × Records StdString Account) (key : StdString) :
    (Credits × UInt64) × Records StdString Account :=
  let (cAccount, AccountDB) := before.2.getRecord key
  let paid := withdraw (outputs.getD key 0) cAccount
  let AccountDB := if key ∈ outputs then AccountDB.updateRecord paid else AccountDB
  let AccountDB :=
    if cAccount.nRoundShares = 0 then AccountDB
    else AccountDB.updateRecord (deposit (creditFor D nTotalWeight nReward cAccount.nRoundShares) paid)
  (settled D nTotalWeight nReward before.1 key cAccount, AccountDB)

theorem run_deductPayout_amend (outputs : AmountMap) (key : StdString) (cAccount : Account) (databases : Databases) :
    run perform (deductPayout outputs key cAccount) databases =
      (withdraw (outputs.getD key 0) cAccount,
        { databases with
          AccountDB :=
            if key ∈ outputs then databases.AccountDB.updateRecord (withdraw (outputs.getD key 0) cAccount)
            else databases.AccountDB }) := by
  rw [deductPayout, ExtTreeMap.getD_eq_getD_getElem?]
  cases output : outputs[key]? with
  | none =>
      have missing : key ∉ outputs := by simpa using output
      rw [if_neg missing, Option.getD_none, withdraw_zero]
      rfl
  | some nValue =>
      have listed : key ∈ outputs := mem_of_getElem? output
      rw [if_pos listed, Option.getD_some]
      rfl

theorem run_settleAccount_amend (outputs : AmountMap) (nTotalWeight nReward : UInt64)
    (before : Credits × UInt64) (key : StdString) (databases : Databases) :
    run perform (settleAccount D outputs nTotalWeight nReward before key) databases =
      ((settleRecord D outputs nTotalWeight nReward (before, databases.AccountDB) key).1,
        { databases with
          AccountDB := (settleRecord D outputs nTotalWeight nReward (before, databases.AccountDB) key).2 }) := by
  simp only [settleAccount, run_bind, getAccount, run_perform, perform, run_deductPayout_amend, settleRecord]
  generalize (databases.AccountDB.getRecord key).1 = cAccount
  by_cases shares : cAccount.nRoundShares = 0
  · simp only [creditAccount, settled, withdraw, shares, if_true]
    rfl
  · simp only [creditAccount, settled, creditFor, withdraw, shares, if_false]
    rfl

def settledAccounts (round : Round D) (nReward : UInt64) (AccountDB : Records StdString Account) :
    Credits × Records StdString Account :=
  let AccountDB := awardedAccounts round nReward AccountDB
  let nTotalWeight := AccountDB.keys.foldl
    (fun nWeight key => nWeight + (AccountDB.getRecord key).1.nRoundShares) 0
  let ((cCredits, nTotalReward), AccountDB) := AccountDB.keys.foldl
    (settleRecord D round.cGlobalCoinbase.mapOutputs nTotalWeight (sharedReward round nReward))
    ((bonusCredits round nReward, 0), AccountDB)
  let remainder := deduct (sharedReward round nReward) nTotalReward
  (cCredits, if remainder = 0 then AccountDB else amend AccountDB round.LAST_ROUND_BLOCKFINDER (deposit remainder))

def clearedAccounts (AccountDB : Records StdString Account) : Records StdString Account :=
  AccountDB.keys.foldl (fun AccountDB key => amend AccountDB key fun a => { a with nRoundShares := 0 }) AccountDB

theorem run_foldlM_effect {β ι : Type} {body : β → ι → DatabaseProgram β}
    (effect : β × Records StdString Account → ι → β × Records StdString Account)
    (runs : ∀ b i (databases : Databases), run perform (body b i) databases =
      ((effect (b, databases.AccountDB) i).1,
        { databases with AccountDB := (effect (b, databases.AccountDB) i).2 }))
    (items : List ι) (b : β) (databases : Databases) :
    run perform (items.foldlM body b) databases =
      ((items.foldl effect (b, databases.AccountDB)).1,
        { databases with AccountDB := (items.foldl effect (b, databases.AccountDB)).2 }) := by
  induction items generalizing b databases with
  | nil => rfl
  | cons i items ih => rw [List.foldlM_cons, run_bind, runs, ih]; rfl

theorem run_foldlM_amend {ι : Type} (body : Unit → ι → DatabaseProgram Unit) (keyOf : ι → StdString)
    (f : ι → Account → Account)
    (runs : ∀ i (databases : Databases), run perform (body () i) databases =
      ((), { databases with AccountDB := amend databases.AccountDB (keyOf i) (f i) }))
    (items : List ι) (databases : Databases) :
    run perform (items.foldlM body ()) databases =
      ((), { databases with
        AccountDB := items.foldl (fun AccountDB i => amend AccountDB (keyOf i) (f i)) databases.AccountDB }) := by
  induction items generalizing databases with
  | nil => rfl
  | cons i items ih => rw [List.foldlM_cons, run_bind, runs, ih]; rfl

theorem run_clearShares_amend (databases : Databases) :
    run perform clearShares databases =
      ((), { databases with AccountDB := clearedAccounts databases.AccountDB }) := by
  simp only [clearShares, accountKeys, run_bind, run_perform, perform, Records.getKeys]
  exact run_foldlM_amend _ (fun key => key) (fun _ a => { a with nRoundShares := 0 }) (fun _ _ => rfl) _ _

theorem run_creditFinder_amend (round : Round D) (nReward : UInt64) (databases : Databases) :
    run perform (creditFinder D round.LAST_ROUND_BLOCKFINDER (lessPoolFee round.lfPoolFee nReward)) databases =
      ((bonusCredits round nReward, sharedReward round nReward),
        { databases with AccountDB := awardedAccounts round nReward databases.AccountDB }) := by
  simp only [creditFinder, bonusCredits, sharedReward, bonusOf, awardedAccounts]
  split
  · rw [UInt64.sub_zero]
    rfl
  · rfl

theorem run_giveRemainder_amend (finder : StdString) (nReward nTotalReward : UInt64) (databases : Databases) :
    run perform (giveRemainder finder nReward nTotalReward) databases =
      ((), { databases with
        AccountDB :=
          if deduct nReward nTotalReward = 0 then databases.AccountDB
          else amend databases.AccountDB finder (deposit (deduct nReward nTotalReward)) }) := by
  rw [giveRemainder]
  by_cases more : nReward > nTotalReward
  · have left : deduct nReward nTotalReward ≠ 0 := fun nothing => (deduct_eq_zero_iff _ _).mp nothing more
    have enough : ¬ nTotalReward > nReward := UInt64.not_lt.mpr (UInt64.le_of_lt more)
    rw [if_pos more, if_neg left, deduct, if_neg enough]
    rfl
  · rw [if_neg more, if_pos ((deduct_eq_zero_iff _ _).mpr more)]
    rfl

theorem run_settleAccounts_amend (outputs : AmountMap) (nTotalWeight nReward : UInt64) (vKeys : List StdString)
    (before : Credits × UInt64) (databases : Databases) :
    run perform (vKeys.foldlM (settleAccount D outputs nTotalWeight nReward) before) databases =
      let settled := vKeys.foldl (settleRecord D outputs nTotalWeight nReward) (before, databases.AccountDB)
      (settled.1, { databases with AccountDB := settled.2 }) :=
  run_foldlM_effect _ (run_settleAccount_amend outputs nTotalWeight nReward) _ _ _

theorem run_creditAccounts (round : Round D) (nReward : UInt64) (databases : Databases) :
    run perform (creditAccounts round nReward) databases =
      ((settledAccounts round nReward databases.AccountDB).1,
        { databases with AccountDB := (settledAccounts round nReward databases.AccountDB).2 }) := by
  simp only [creditAccounts, run_bind, run_creditFinder_amend, run_totalWeight, accountKeys, run_perform,
    perform, Records.getKeys, run_settleAccounts_amend, run_giveRemainder_amend]
  rfl

/-! On a store with every record under its own key these are changes of each account on its own. -/

theorem settledAccounts_of_wellKeyed {round : Round D} (nReward : UInt64) (wellKeyed : databases.AccountDB.WellKeyed)
    (present : round.LAST_ROUND_BLOCKFINDER ∈ databases.AccountDB) :
    (settledAccounts round nReward databases.AccountDB).2 =
      databases.AccountDB.map (settleBalance round nReward databases) := by
  have settled := run_updateBalances round nReward wellKeyed present
  rw [updateBalances_eq, run_bind, run_creditAccounts] at settled
  exact congrArg (fun result => result.2.AccountDB) settled

theorem clearedAccounts_of_wellKeyed (wellKeyed : databases.AccountDB.WellKeyed) :
    clearedAccounts databases.AccountDB = databases.AccountDB.map fun _ a => { a with nRoundShares := 0 } := by
  have cleared := run_clearShares wellKeyed
  rw [run_clearShares_amend] at cleared
  exact congrArg (fun result => result.2.AccountDB) cleared

end PrimePool.Core

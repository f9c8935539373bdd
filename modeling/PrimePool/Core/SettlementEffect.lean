import PrimePool.Core.AccountLoops
import PrimePool.Core.SettlementCalls

/-!
# The effect of a settlement

What `UpdateBalances`, `ClearShares` and `RefundPayouts` do to a store of accounts in which every record
is under its own key and every account they name has a record.
-/

namespace PrimePool.Core

open PrimePool.General PrimePool.LLD Std

variable {databases : Databases} {key : StdString}

/-! ## Clearing and weighing the shares -/

theorem run_clearShares (wellKeyed : databases.AccountDB.WellKeyed) :
    run perform clearShares databases =
      ((), databases.mapAccounts fun _ a => { a with nRoundShares := 0 }) := by
  simp only [clearShares, accountKeys, run_bind, run_perform, perform, Records.getKeys]
  apply run_foldlM_keys (fun b _ _ => b) (fun _ a => { a with nRoundShares := 0 }) _
    (fun _ _ => rfl) () wellKeyed
  intro b key databases wellKeyed present
  simp only [run_bind, run_getAccount _ present]
  exact run_updateAccount_change _ wellKeyed present (f := fun a => { a with nRoundShares := 0 }) fun _ => rfl

def weightOf (databases : Databases) : UInt64 :=
  databases.AccountDB.keys.foldl (fun nWeight key => nWeight + (databases.account key).nRoundShares) 0

theorem run_totalWeight (databases : Databases) :
    run perform totalWeight databases = (weightOf databases, databases) := by
  have loop (keys : List StdString) (listed : ∀ key ∈ keys, key ∈ databases.AccountDB) (nWeight : UInt64) :
      run perform (keys.foldlM (fun nWeight key => do
          let cAccount ← getAccount .totalWeight key
          return nWeight + cAccount.nRoundShares) nWeight) databases =
        (keys.foldl (fun nWeight key => nWeight + (databases.account key).nRoundShares) nWeight, databases) := by
    induction keys generalizing nWeight with
    | nil => rfl
    | cons key keys ih =>
        have present := listed key List.mem_cons_self
        simp only [List.foldlM_cons, run_bind, run_getAccount _ present]
        exact ih (fun other member => listed other (List.mem_cons_of_mem key member)) _
  simp only [totalWeight, accountKeys, run_bind, run_perform, perform, Records.getKeys]
  exact loop _ (fun key member => ExtTreeMap.mem_keys.mp member) 0

/-! ## Refunding -/

@[simp] theorem deduct_zero (nBalance : UInt64) : deduct nBalance 0 = nBalance := by
  simp [deduct]

theorem toNat_deduct (nBalance nValue : UInt64) :
    (deduct nBalance nValue).toNat = nBalance.toNat - nValue.toNat := by
  rw [deduct]
  split
  · rename_i more
    rw [gt_iff_lt, UInt64.lt_iff_toNat_lt] at more
    rw [UInt64.toNat_zero]
    omega
  · rename_i enough
    exact UInt64.toNat_sub_of_le _ _ (UInt64.not_lt.mp enough)

theorem deduct_eq_zero_iff (nBalance nValue : UInt64) : deduct nBalance nValue = 0 ↔ ¬ nBalance > nValue := by
  rw [← UInt64.toNat_inj, toNat_deduct, gt_iff_lt, UInt64.lt_iff_toNat_lt, UInt64.toNat_zero]
  omega

def withdraw (nValue : UInt64) (cAccount : Account) : Account :=
  { cAccount with nAccountBalance := deduct cAccount.nAccountBalance nValue }

def deposit (nValue : UInt64) (cAccount : Account) : Account :=
  { cAccount with nAccountBalance := cAccount.nAccountBalance + nValue }

theorem withdraw_zero : withdraw 0 = id := by
  funext cAccount
  simp [withdraw]

theorem deposit_zero : deposit 0 = id := by
  funext cAccount
  simp [deposit]

theorem run_removeCredit (wellKeyed : databases.AccountDB.WellKeyed) (entry : StdString × UInt64)
    (present : entry.1 ∈ databases.AccountDB) :
    run perform (removeCredit () entry) databases = ((), databases.change entry.1 (withdraw entry.2)) := by
  simp only [removeCredit, run_bind, run_getAccount _ present]
  exact run_updateAccount_change _ wellKeyed present (f := withdraw entry.2) fun _ => rfl

theorem run_refundOutput (wellKeyed : databases.AccountDB.WellKeyed) (entry : StdString × UInt64)
    (present : entry.1 ∈ databases.AccountDB) :
    run perform (refundOutput () entry) databases = ((), databases.change entry.1 (deposit entry.2)) := by
  simp only [refundOutput, run_bind, run_getAccount _ present]
  exact run_updateAccount_change _ wellKeyed present (f := deposit entry.2) fun _ => rfl

def refundAccount (cBlock : Block) (key : StdString) (cAccount : Account) : Account :=
  deposit (cBlock.cCoinbase.mapOutputs.getD key 0)
    (withdraw (cBlock.cCredits.mapCredits.getD key 0) cAccount)

theorem run_refundPayouts_of_zero {hashBlock : Uint1024}
    (processed : (databases.BlockDB.getRecord hashBlock).1.nCoinbaseValue = 0) :
    run perform (refundPayouts hashBlock) databases =
      ((), { databases with BlockDB := (databases.BlockDB.getRecord hashBlock).2 }) := by
  simp only [refundPayouts, getBlock, run_bind, run_perform, perform, processed, if_true]
  rfl

theorem run_refundLoops {cBlock : Block} (wellKeyed : databases.AccountDB.WellKeyed)
    (credits : ∀ key ∈ cBlock.cCredits.mapCredits, key ∈ databases.AccountDB)
    (outputs : ∀ key ∈ cBlock.cCoinbase.mapOutputs, key ∈ databases.AccountDB) :
    run perform (refundLoops cBlock) databases = ((), databases.mapAccounts (refundAccount cBlock)) := by
  have removed := run_foldlM_entries (f := withdraw) (fun entry _ wellKeyed => run_removeCredit wellKeyed entry)
    (fun _ _ => rfl) withdraw_zero wellKeyed credits
  have wellKeyed' : (databases.mapAccounts fun key =>
      withdraw (cBlock.cCredits.mapCredits.getD key 0)).AccountDB.WellKeyed := wellKeyed.map fun _ _ => rfl
  have refunded := run_foldlM_entries (f := deposit) (fun entry _ wellKeyed => run_refundOutput wellKeyed entry)
    (fun _ _ => rfl) deposit_zero wellKeyed' (by simpa using outputs)
  rw [Databases.mapAccounts_mapAccounts] at refunded
  rw [refundLoops, run_bind, removed, refunded]
  rfl

theorem run_refundPayouts {hashBlock : Uint1024} {cBlock : Block} (wellKeyed : databases.AccountDB.WellKeyed)
    (recorded : databases.BlockDB[hashBlock]? = some cBlock) (unprocessed : cBlock.nCoinbaseValue ≠ 0)
    (credits : ∀ key ∈ cBlock.cCredits.mapCredits, key ∈ databases.AccountDB)
    (outputs : ∀ key ∈ cBlock.cCoinbase.mapOutputs, key ∈ databases.AccountDB) :
    let BlockDB := databases.BlockDB.updateRecord { cBlock with nCoinbaseValue := 0 }
    run perform (refundPayouts hashBlock) databases =
      ((), { databases with
        AccountDB := databases.AccountDB.map (refundAccount cBlock)
        BlockDB
        blkDat := some (Database.fileOf BlockDB) }) := by
  intro BlockDB
  rw [refundPayouts_eq, run_bind, getBlock, run_perform, perform, Records.getRecord_of_getElem? recorded, refundBlock,
    if_neg unprocessed, run_bind, run_refundLoops wellKeyed credits outputs]
  rfl

/-! ## Updating the balances -/

variable {D : Type} [Double D]

def bonusOf (round : Round D) (nReward : UInt64) : UInt64 :=
  if round.LAST_ROUND_BLOCKFINDER = [] then 0 else finderBonus D (lessPoolFee round.lfPoolFee nReward)

def sharedReward (round : Round D) (nReward : UInt64) : UInt64 :=
  lessPoolFee round.lfPoolFee nReward - bonusOf round nReward

def creditFor (D : Type) [Double D] (nTotalWeight nReward nRoundShares : UInt64) : UInt64 :=
  if nRoundShares = 0 then 0 else shareCredit D nRoundShares nTotalWeight nReward

def settle (D : Type) [Double D] (outputs : AmountMap) (nTotalWeight nReward : UInt64) (key : StdString)
    (cAccount : Account) : Account :=
  deposit (creditFor D nTotalWeight nReward cAccount.nRoundShares) (withdraw (outputs.getD key 0) cAccount)

def settled (D : Type) [Double D] (nTotalWeight nReward : UInt64) (before : Credits × UInt64) (key : StdString)
    (cAccount : Account) : Credits × UInt64 :=
  if cAccount.nRoundShares = 0 then before
  else
    let nCredit := shareCredit D cAccount.nRoundShares nTotalWeight nReward
    (before.1.addCredit key nCredit, before.2 + nCredit)

theorem run_deductPayout (outputs : AmountMap) (wellKeyed : databases.AccountDB.WellKeyed)
    (present : key ∈ databases.AccountDB) :
    let paid := databases.change key (withdraw (outputs.getD key 0))
    run perform (deductPayout outputs key (databases.account key)) databases = (paid.account key, paid) := by
  intro paid
  have account : paid.account key = withdraw (outputs.getD key 0) (databases.account key) :=
    databases.account_change present _
  rw [account, deductPayout, ExtTreeMap.getD_eq_getD_getElem?]
  cases output : outputs[key]? with
  | none =>
      have unchanged : paid = databases := by
        apply Databases.change_eq_self present
        rw [ExtTreeMap.getD_eq_getD_getElem?, output, Option.getD_none, withdraw_zero, id]
      rw [unchanged, Option.getD_none, withdraw_zero]
      rfl
  | some nValue =>
      have stored := run_updateAccount_change .creditLoop wellKeyed present (f := withdraw nValue) fun _ => rfl
      rw [withdraw] at stored
      simp only [run_bind, stored, paid, ExtTreeMap.getD_eq_getD_getElem?, output]
      rfl

theorem run_creditAccount (nTotalWeight nReward : UInt64) (before : Credits × UInt64)
    (wellKeyed : databases.AccountDB.WellKeyed) (present : key ∈ databases.AccountDB) :
    run perform (creditAccount D nTotalWeight nReward before key (databases.account key)) databases =
      (settled D nTotalWeight nReward before key (databases.account key),
        databases.change key fun a => deposit (creditFor D nTotalWeight nReward a.nRoundShares) a) := by
  simp only [creditAccount, settled]
  by_cases shares : (databases.account key).nRoundShares = 0
  · simp only [shares, if_true]
    rw [Databases.change_eq_self present]
    · rfl
    · rw [shares, creditFor, if_pos rfl, deposit_zero, id]
  · simp only [shares, if_false, run_bind]
    apply congrArg (Prod.mk _)
    have stored := run_updateAccount_change .creditLoop wellKeyed present
      (f := deposit (shareCredit D (databases.account key).nRoundShares nTotalWeight nReward)) fun _ => rfl
    rw [deposit] at stored
    rw [stored]
    apply Databases.change_congr present
    rw [creditFor, if_neg shares]

theorem run_settleAccount (outputs : AmountMap) (nTotalWeight nReward : UInt64) (before : Credits × UInt64)
    (wellKeyed : databases.AccountDB.WellKeyed) (present : key ∈ databases.AccountDB) :
    run perform (settleAccount D outputs nTotalWeight nReward before key) databases =
      (settled D nTotalWeight nReward before key (databases.account key),
        databases.change key (settle D outputs nTotalWeight nReward key)) := by
  have wellKeyed' : (databases.change key (withdraw (outputs.getD key 0))).AccountDB.WellKeyed :=
    wellKeyed.modify key fun _ => rfl
  have present' := (databases.mem_change key key (withdraw (outputs.getD key 0))).mpr present
  simp only [settleAccount, run_bind, run_getAccount _ present, run_deductPayout outputs wellKeyed present]
  rw [run_creditAccount nTotalWeight nReward before wellKeyed' present', Databases.change_change,
    databases.account_change present]
  rfl

def bonusCredits (round : Round D) (nReward : UInt64) : Credits :=
  if round.LAST_ROUND_BLOCKFINDER = [] then .new
  else Credits.new.addCredit round.LAST_ROUND_BLOCKFINDER (bonusOf round nReward)

theorem run_creditFinder (round : Round D) (nReward : UInt64) (wellKeyed : databases.AccountDB.WellKeyed)
    (present : round.LAST_ROUND_BLOCKFINDER ∈ databases.AccountDB) :
    run perform (creditFinder D round.LAST_ROUND_BLOCKFINDER (lessPoolFee round.lfPoolFee nReward)) databases =
      ((bonusCredits round nReward, sharedReward round nReward),
        databases.change round.LAST_ROUND_BLOCKFINDER (deposit (bonusOf round nReward))) := by
  rw [creditFinder, bonusCredits, sharedReward, bonusOf]
  split
  · rw [deposit_zero, UInt64.sub_zero, Databases.change_eq_self present rfl]
    rfl
  · have stored := run_updateAccount_change .finderBonus wellKeyed present
      (f := deposit (finderBonus D (lessPoolFee round.lfPoolFee nReward))) fun _ => rfl
    rw [deposit] at stored
    simp only [run_bind, run_getAccount _ present, stored]
    rfl

theorem run_giveRemainder (finder : StdString) (nReward nTotalReward : UInt64)
    (wellKeyed : databases.AccountDB.WellKeyed) (present : finder ∈ databases.AccountDB) :
    run perform (giveRemainder finder nReward nTotalReward) databases =
      ((), databases.change finder (deposit (deduct nReward nTotalReward))) := by
  rw [giveRemainder]
  split
  · rename_i more
    have less : ¬ nTotalReward > nReward := UInt64.not_lt.mpr (UInt64.le_of_lt more)
    have stored := run_updateAccount_change .remainder wellKeyed present
      (f := deposit (nReward - nTotalReward)) fun _ => rfl
    rw [deposit] at stored
    simp only [run_bind, run_getAccount _ present, stored, deduct, less, if_false]
  · rename_i notMore
    have nothing : deduct nReward nTotalReward = 0 := by
      rw [deduct]
      split
      · rfl
      · rename_i notLess
        rw [UInt64.le_antisymm (UInt64.not_lt.mp notLess) (UInt64.not_lt.mp notMore), UInt64.sub_self]
    rw [nothing, deposit_zero, Databases.change_eq_self present rfl]
    rfl

def creditedBy (round : Round D) (nReward : UInt64) (databases : Databases) : Credits × UInt64 :=
  databases.AccountDB.keys.foldl
    (fun before key => settled D (weightOf databases) (sharedReward round nReward) before key (databases.account key))
    (bonusCredits round nReward, 0)

def remainderOf (round : Round D) (nReward : UInt64) (databases : Databases) : UInt64 :=
  deduct (sharedReward round nReward) (creditedBy round nReward databases).2

def forFinder (round : Round D) (key : StdString) (nValue : UInt64) : UInt64 :=
  if key = round.LAST_ROUND_BLOCKFINDER then nValue else 0

def payBonus (round : Round D) (nReward : UInt64) (key : StdString) : Account → Account :=
  deposit (forFinder round key (bonusOf round nReward))

def settleBalance (round : Round D) (nReward : UInt64) (databases : Databases) (key : StdString)
    (cAccount : Account) : Account :=
  deposit (forFinder round key (remainderOf round nReward databases))
    (settle D round.cGlobalCoinbase.mapOutputs (weightOf databases) (sharedReward round nReward) key
      (payBonus round nReward key cAccount))

def settledBlock (round : Round D) (nReward : UInt64) (databases : Databases) : Block :=
  { newBlock round with cCredits := (creditedBy round nReward databases).1 }

theorem weightOf_mapAccounts {f : StdString → Account → Account}
    (keeps : ∀ key a, (f key a).nRoundShares = a.nRoundShares) :
    weightOf (databases.mapAccounts f) = weightOf databases :=
  foldl_keys_mapAccounts (fun nWeight _ a => nWeight + a.nRoundShares) f
    (fun nWeight key a => by rw [keeps]) 0

omit [Double D] in
theorem change_deposit (round : Round D) (nValue : UInt64) :
    databases.change round.LAST_ROUND_BLOCKFINDER (deposit nValue) =
      databases.mapAccounts fun key => deposit (forFinder round key nValue) := by
  rw [Databases.change_eq_mapAccounts]
  congr 1
  funext key
  rw [forFinder]
  split
  · rfl
  · rw [deposit_zero]

theorem run_updateBalances (round : Round D) (nReward : UInt64) (wellKeyed : databases.AccountDB.WellKeyed)
    (present : round.LAST_ROUND_BLOCKFINDER ∈ databases.AccountDB) :
    let after := databases.mapAccounts (settleBalance round nReward databases)
    let BlockDB := databases.BlockDB.updateRecord (settledBlock round nReward databases)
    run perform (updateBalances round nReward) databases =
      ((), { after with
        acctDat := some (Database.fileOf after.AccountDB)
        BlockDB
        blkDat := some (Database.fileOf BlockDB) }) := by
  intro after BlockDB
  have bonus := run_creditFinder round nReward wellKeyed present
  rw [change_deposit] at bonus
  change _ = (_, databases.mapAccounts (payBonus round nReward)) at bonus
  have wellKeyed₁ : (databases.mapAccounts (payBonus round nReward)).AccountDB.WellKeyed :=
    wellKeyed.map fun _ _ => rfl
  have weight := run_totalWeight (databases.mapAccounts (payBonus round nReward))
  rw [weightOf_mapAccounts (f := payBonus round nReward) fun _ _ => rfl] at weight
  have loop := run_foldlM_keys _ _ (fun before key _ wellKeyed present => run_settleAccount (D := D)
    round.cGlobalCoinbase.mapOutputs (weightOf databases) (sharedReward round nReward) before wellKeyed present)
    (fun _ _ => rfl) (bonusCredits round nReward, 0) wellKeyed₁
  rw [foldl_keys_mapAccounts (settled D (weightOf databases) (sharedReward round nReward))
    (payBonus round nReward) fun _ _ _ => rfl, Databases.mapAccounts_mapAccounts] at loop
  have wellKeyed₂ : (databases.mapAccounts fun key a =>
      settle D round.cGlobalCoinbase.mapOutputs (weightOf databases) (sharedReward round nReward) key
        (payBonus round nReward key a)).AccountDB.WellKeyed := wellKeyed.map fun _ _ => rfl
  have remainder := run_giveRemainder round.LAST_ROUND_BLOCKFINDER (sharedReward round nReward)
    (creditedBy round nReward databases).2 wellKeyed₂ (by simpa using present)
  rw [change_deposit, Databases.mapAccounts_mapAccounts] at remainder
  simp only [updateBalances, accountKeys, updateBlock, writeBlocks, writeAccounts, run_bind, bonus, weight,
    run_perform, perform, Records.getKeys, loop]
  rw [creditedBy] at remainder
  rw [remainder]
  rfl

end PrimePool.Core

import PrimePool.Core.StatsTables
import PrimePool.Core.OrphanRefund

/-!
# The rows of a settlement

What `NewRound` and `RefundPayouts` write into the statistics tables, on a store of accounts in which every record is
under its own key and every account they name has a record.
-/

namespace PrimePool.Core

open PrimePool.General PrimePool.LLD Std Program

namespace Recorded

variable {D : Type} [Double D] {databases : Databases} {key : StdString}

/-! ## New rounds -/

def bonusRows (round : Round D) (nBestHeight : UInt32) (nReward : UInt64) : List TableCall :=
  if round.LAST_ROUND_BLOCKFINDER = [] then []
  else [earning round nBestHeight round.LAST_ROUND_BLOCKFINDER 0 (bonusOf round nReward)]

def payoutRows (round : Round D) (nBestHeight : UInt32) (key : StdString) : List TableCall :=
  round.cGlobalCoinbase.mapOutputs[key]?.toList.map (payment round nBestHeight key)

def creditRows (round : Round D) (nBestHeight : UInt32) (nTotalWeight nReward : UInt64) (key : StdString)
    (nRoundShares : UInt64) : List TableCall :=
  if nRoundShares = 0 then []
  else [earning round nBestHeight key nRoundShares (shareCredit D nRoundShares nTotalWeight nReward)]

def accountRows (round : Round D) (nBestHeight : UInt32) (nTotalWeight nReward : UInt64) (key : StdString)
    (nRoundShares : UInt64) : List TableCall :=
  payoutRows round nBestHeight key ++ creditRows round nBestHeight nTotalWeight nReward key nRoundShares

def remainderRows (round : Round D) (nBestHeight : UInt32) (nReward nTotalReward : UInt64) : List TableCall :=
  if nReward > nTotalReward then
    [earning round nBestHeight round.LAST_ROUND_BLOCKFINDER 0 (nReward - nTotalReward)]
  else []

def roundRow (round : Round D) (nBestHeight : UInt32) (databases : Databases) : RoundData where
  nRound := round.nCurrentRound
  nBlockNumber := nBestHeight
  hashBlock := round.hashBlockSubmission
  nRoundReward := round.nRoundReward
  nTotalShares := weightOf databases
  strBlockFinder := round.LAST_ROUND_BLOCKFINDER
  bOrphan := false

/-- The calls of `UpdateBalances`. -/
def balanceRows (round : Round D) (nBestHeight : UInt32) (nReward : UInt64) (databases : Databases) : List TableCall :=
  bonusRows round nBestHeight nReward ++
    databases.AccountDB.keys.flatMap (fun key =>
      accountRows round nBestHeight (weightOf databases) (sharedReward round nReward) key
        (databases.account key).nRoundShares) ++
    remainderRows round nBestHeight (sharedReward round nReward) (creditedBy round nReward databases).2

theorem notes_creditFinder (round : Round D) (nBestHeight : UInt32) (nReward : UInt64) :
    notes perform (creditFinder round nBestHeight (lessPoolFee round.lfPoolFee nReward)) databases =
      bonusRows round nBestHeight nReward := by
  rw [creditFinder, notes_bind, notes_quiet, List.nil_append, bonusRows, bonusOf]
  dsimp only
  by_cases nobody : round.LAST_ROUND_BLOCKFINDER = []
  · rw [if_pos nobody, if_neg (not_not.mpr nobody)]
    rfl
  · rw [if_neg nobody, if_pos nobody, if_neg nobody]
    rfl

omit [Double D] in
theorem notes_deductPayout (round : Round D) (nBestHeight : UInt32) (cAccount : Account) :
    notes perform (deductPayout round nBestHeight key cAccount) databases = payoutRows round nBestHeight key := by
  rw [deductPayout, notes_bind, notes_quiet, List.nil_append, payoutRows]
  cases round.cGlobalCoinbase.mapOutputs[key]? with
  | none => rfl
  | some nValue => rfl

theorem notes_creditAccount (round : Round D) (nBestHeight : UInt32) (nTotalWeight nReward : UInt64)
    (credited : Credits × UInt64) (cAccount : Account) :
    notes perform (creditAccount round nBestHeight nTotalWeight nReward credited key cAccount) databases =
      creditRows round nBestHeight nTotalWeight nReward key cAccount.nRoundShares := by
  rw [creditAccount, notes_bind, notes_quiet, List.nil_append, creditRows]
  dsimp only
  by_cases none : cAccount.nRoundShares = 0
  · rw [if_pos none, if_neg (not_not.mpr none)]
    rfl
  · rw [if_neg none, if_pos none]
    rfl

theorem notes_settleAccount (round : Round D) (nBestHeight : UInt32) (nTotalWeight nReward : UInt64)
    (credited : Credits × UInt64) (wellKeyed : databases.AccountDB.WellKeyed) (present : key ∈ databases.AccountDB) :
    notes perform (settleAccount round nBestHeight nTotalWeight nReward credited key) databases =
      accountRows round nBestHeight nTotalWeight nReward key (databases.account key).nRoundShares := by
  have paid := run_deductPayout round.cGlobalCoinbase.mapOutputs wellKeyed present
  have shares : ((databases.change key (withdraw (round.cGlobalCoinbase.mapOutputs.getD key 0))).account key).nRoundShares =
      (databases.account key).nRoundShares := by
    rw [databases.account_change present]
    rfl
  rw [settleAccount, notes_bind, notes_quiet, List.nil_append, erase_quiet, run_getAccount _ present, notes_bind,
    notes_deductPayout, erase_deductPayout, paid, notes_creditAccount, shares, accountRows]

theorem account_change_other {other : StdString} (different : key ≠ other) (f : Account → Account) :
    (databases.change key f).account other = databases.account other := by
  rw [Databases.account, ExtTreeMap.getD_eq_getD_getElem?, Databases.getElem?_change, if_neg different,
    ← ExtTreeMap.getD_eq_getD_getElem?, Databases.account]

theorem notes_settleAccounts (round : Round D) (nBestHeight : UInt32) (nTotalWeight nReward : UInt64)
    {vKeys : List StdString} (distinct : vKeys.Nodup) (wellKeyed : databases.AccountDB.WellKeyed)
    (present : ∀ key ∈ vKeys, key ∈ databases.AccountDB) (credited : Credits × UInt64) :
    notes perform (vKeys.foldlM (settleAccount round nBestHeight nTotalWeight nReward) credited) databases =
      vKeys.flatMap fun key =>
        accountRows round nBestHeight nTotalWeight nReward key (databases.account key).nRoundShares := by
  induction vKeys generalizing databases credited with
  | nil => rfl
  | cons key vKeys ih =>
      rw [List.nodup_cons] at distinct
      have here := present key List.mem_cons_self
      have settled := run_settleAccount (D := D) round.cGlobalCoinbase.mapOutputs nTotalWeight nReward credited wellKeyed here
      have wellKeyed' : (databases.change key
          (settle D round.cGlobalCoinbase.mapOutputs nTotalWeight nReward key)).AccountDB.WellKeyed :=
        wellKeyed.modify key fun _ => rfl
      rw [List.foldlM_cons, notes_bind, notes_settleAccount round nBestHeight _ _ _ wellKeyed here, erase_settleAccount,
        settled, ih distinct.2 wellKeyed', List.flatMap_cons]
      · congr 1
        refine List.flatMap_congr fun other member => ?_
        have different : key ≠ other := fun same => distinct.1 (same ▸ member)
        rw [account_change_other different]
      · intro other member
        exact (databases.mem_change key other _).mpr (present other (List.mem_cons_of_mem key member))

omit [Double D] in
theorem notes_giveRemainder (round : Round D) (nBestHeight : UInt32) (nReward nTotalReward : UInt64) :
    notes perform (giveRemainder round nBestHeight nReward nTotalReward) databases =
      remainderRows round nBestHeight nReward nTotalReward := by
  rw [giveRemainder, notes_bind, notes_quiet, List.nil_append, remainderRows]
  split <;> rfl

theorem shares_mapAccounts {f : StdString → Account → Account} (keeps : ∀ key a, (f key a).nRoundShares = a.nRoundShares)
    (present : key ∈ databases.AccountDB) :
    ((databases.mapAccounts f).account key).nRoundShares = (databases.account key).nRoundShares := by
  obtain ⟨cAccount, found⟩ := getElem?_of_mem present
  have mapped : (databases.mapAccounts f).account key = f key cAccount := by
    apply Databases.account_of_getElem?
    rw [Databases.getElem?_mapAccounts, found, Option.map_some]
  rw [mapped, keeps, Databases.account_of_getElem? found]

theorem notes_updateBalances (round : Round D) (nBestHeight : UInt32) (nReward : UInt64)
    (wellKeyed : databases.AccountDB.WellKeyed) (present : round.LAST_ROUND_BLOCKFINDER ∈ databases.AccountDB) :
    notes perform (updateBalances round nBestHeight nReward) databases =
      balanceRows round nBestHeight nReward databases := by
  have bonus := run_creditFinder round nReward wellKeyed present
  rw [change_deposit] at bonus
  change _ = (_, databases.mapAccounts (payBonus round nReward)) at bonus
  have keys : (databases.mapAccounts (payBonus round nReward)).AccountDB.keys = databases.AccountDB.keys :=
    ExtTreeMap.keys_map
  have wellKeyed' : (databases.mapAccounts (payBonus round nReward)).AccountDB.WellKeyed := wellKeyed.map fun _ _ => rfl
  have weight := run_totalWeight (databases.mapAccounts (payBonus round nReward))
  rw [weightOf_mapAccounts (f := payBonus round nReward) fun _ _ => rfl] at weight
  have loop := run_foldlM_keys _ _ (fun before key _ wellKeyed present => run_settleAccount (D := D)
    round.cGlobalCoinbase.mapOutputs (weightOf databases) (sharedReward round nReward) before wellKeyed present)
    (fun _ _ => rfl) (bonusCredits round nReward, 0) wellKeyed'
  rw [foldl_keys_mapAccounts (settled D (weightOf databases) (sharedReward round nReward))
    (payBonus round nReward) fun _ _ _ => rfl] at loop
  have rows : notes perform ((databases.mapAccounts (payBonus round nReward)).AccountDB.keys.foldlM
        (settleAccount round nBestHeight (weightOf databases) (sharedReward round nReward)) (bonusCredits round nReward, 0))
        (databases.mapAccounts (payBonus round nReward)) =
      databases.AccountDB.keys.flatMap fun key =>
        accountRows round nBestHeight (weightOf databases) (sharedReward round nReward) key
          (databases.account key).nRoundShares := by
    rw [notes_settleAccounts round nBestHeight _ _ ExtTreeMap.nodup_keys wellKeyed'
      (fun key member => ExtTreeMap.mem_keys.mp member), keys]
    refine List.flatMap_congr fun key member => ?_
    have shares : ∀ key a, (payBonus round nReward key a).nRoundShares = a.nRoundShares := fun _ _ => rfl
    rw [shares_mapAccounts shares (ExtTreeMap.mem_keys.mp member)]
  rw [updateBalances]
  simp only [notes_bind, notes_quiet, notes_creditFinder, erase_creditFinder, bonus, erase_quiet, weight, accountKeys,
    run_perform, perform, Records.getKeys, rows, erase_foldlM (erase_settleAccount _ _ _ _), loop, notes_giveRemainder,
    List.nil_append, List.append_nil]
  rw [balanceRows, creditedBy, List.append_assoc]

omit [Double D] in
theorem run_saveCurrentRound (round : Round D) (nBestHeight : UInt32) (databases : Databases) :
    run perform (saveCurrentRound round nBestHeight).erase databases = ((), databases) ∧
      notes perform (saveCurrentRound round nBestHeight) databases =
        [.addRoundData (roundRow round nBestHeight databases)] := by
  constructor
  · rw [saveCurrentRound, erase_bind, erase_quiet, run_bind, run_totalWeight]
    rfl
  · rw [saveCurrentRound, notes_bind, notes_quiet, List.nil_append, erase_quiet, run_totalWeight]
    rfl

theorem run_newRound (round : Round D) (nBestHeight : UInt32) (databases : Databases) :
    run perform (newRound round nBestHeight).erase databases = run perform (Core.newRound round) databases := by
  rw [newRound, erase_bind, run_bind, (run_saveCurrentRound round nBestHeight databases).1, erase_bind,
    erase_updateBalances, erase_quiet, Core.newRound]

theorem notes_newRound (round : Round D) (nBestHeight : UInt32) (wellKeyed : databases.AccountDB.WellKeyed)
    (present : round.LAST_ROUND_BLOCKFINDER ∈ databases.AccountDB) :
    notes perform (newRound round nBestHeight) databases =
      .addRoundData (roundRow round nBestHeight databases) ::
        balanceRows round nBestHeight round.nRoundReward databases := by
  obtain ⟨ran, saved⟩ := run_saveCurrentRound round nBestHeight databases
  rw [newRound, notes_bind, saved, ran, notes_bind, notes_updateBalances round nBestHeight _ wellKeyed present, notes_quiet,
    List.append_nil, List.singleton_append]

/-! ## Refunds -/

def refundRows (cBlock : Block) : List TableCall :=
  .flagRoundAsOrphan cBlock.nRound ::
    (cBlock.cCredits.mapCredits.keys.map (.deleteAccountEarnings · cBlock.nRound) ++
      cBlock.cCoinbase.mapOutputs.keys.map (.deleteAccountPayment · cBlock.nRound))

theorem notes_refundPayouts (hashBlock : Uint1024) (databases : Databases) :
    notes perform (refundPayouts hashBlock) databases =
      let cBlock := (databases.BlockDB.getRecord hashBlock).1
      if cBlock.nCoinbaseValue = 0 then [] else refundRows cBlock := by
  have credits (nRound : UInt32) (b : Unit) (credit : StdString × UInt64) (s : Databases) :
      notes perform (removeCredit nRound b credit) s = [.deleteAccountEarnings credit.1 nRound] := by
    rw [removeCredit, notes_bind, notes_quiet]
    rfl
  have outputs (nRound : UInt32) (b : Unit) (output : StdString × UInt64) (s : Databases) :
      notes perform (refundOutput nRound b output) s = [.deleteAccountPayment output.1 nRound] := by
    rw [refundOutput, notes_bind, notes_quiet]
    rfl
  have each (amounts : AmountMap) (call : StdString → TableCall) :
      (amounts.toList.flatMap fun entry => [call entry.1]) = amounts.keys.map call := by
    rw [← ExtTreeMap.map_fst_toList_eq_keys, List.map_map]
    exact List.map_eq_flatMap.symm
  rw [refundPayouts, notes_bind, notes_quiet, List.nil_append, erase_quiet, getBlock, run_perform]
  generalize read : perform (.getBlock hashBlock) databases = found
  have same : (databases.BlockDB.getRecord hashBlock).1 = found.1 := by
    rw [← read]
    rfl
  dsimp only
  rw [same]
  by_cases processed : found.1.nCoinbaseValue = 0
  · rw [if_pos processed, if_pos processed]
    rfl
  · rw [if_neg processed, if_neg processed]
    simp only [notes_bind, notes_note, notes_quiet, notes_foldlM (credits _), notes_foldlM (outputs _), List.append_nil,
      List.singleton_append]
    rw [refundRows, each _ (.deleteAccountEarnings · found.1.nRound), each _ (.deleteAccountPayment · found.1.nRound)]

end Recorded

end PrimePool.Core

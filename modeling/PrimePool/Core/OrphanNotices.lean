import PrimePool.Core.FiledAccounts
import PrimePool.Core.OrphanRefund
import PrimePool.Core.Pool
import PrimePool.CoinbaseAmounts
import PrimePool.General.ClampedMoves
import PrimePool.General.Repeats

/-!
# Orphan notices

The orphan thread asks about the blocks of the last rounds every 20 seconds, so that a notice may arrive more than once,
and the notices of several blocks in any order.
-/

namespace PrimePool.Core

open PrimePool.General PrimePool.LLD Std

variable {databases : Databases} {hashBlock : Uint1024} {key : StdString}

/-! ## Repeated notices -/

def RecordedUnderHash (databases : Databases) : Prop :=
  ∀ (hashBlock : Uint1024) (cBlock : Block), databases.BlockDB[hashBlock]? = some cBlock →
    cBlock.nCoinbaseValue ≠ 0 → cBlock.cKey = hashBlock

def Refunded (databases : Databases) (hashBlock : Uint1024) : Prop :=
  ∃ cBlock, databases.BlockDB[hashBlock]? = some cBlock ∧ cBlock.nCoinbaseValue = 0

theorem blockDB_refundLoops (cBlock : Block) (databases : Databases) :
    (run perform (refundLoops cBlock) databases).2.BlockDB = databases.BlockDB := by
  apply (makes_refundLoops cBlock).view_run perform Databases.BlockDB
  intro op called databases
  cases op with
  | accountKeys | getAccount _ _ | updateAccount _ _ => rfl
  | _ => exact called.elim

theorem blockDB_refundPayouts (hashBlock : Uint1024) (databases : Databases) :
    (run perform (refundPayouts hashBlock) databases).2.BlockDB =
      let cBlock := (databases.BlockDB.getRecord hashBlock).1
      if cBlock.nCoinbaseValue = 0 then (databases.BlockDB.getRecord hashBlock).2
      else (databases.BlockDB.getRecord hashBlock).2.updateRecord { cBlock with nCoinbaseValue := 0 } := by
  let cBlock := (databases.BlockDB.getRecord hashBlock).1
  let read := (perform (.getBlock hashBlock) databases).2
  have result : run perform (refundPayouts hashBlock) databases = run perform (refundBlock cBlock) read := by
    rw [refundPayouts_eq, run_bind]
    rfl
  rw [result, refundBlock]
  by_cases processed : cBlock.nCoinbaseValue = 0
  · rw [if_pos processed]
    exact (if_pos processed).symm
  · rw [if_neg processed, run_bind]
    have loops := blockDB_refundLoops cBlock read
    refine Eq.trans ?_ (if_neg processed).symm
    exact congrArg (fun BlockDB => Records.updateRecord BlockDB { cBlock with nCoinbaseValue := 0 }) loops

theorem blockDB_notice {D : Type} (pool : Pool D) (hashOrphan : Uint1024) :
    (pool.orphanPacket (.orphanBlock hashOrphan)).databases.BlockDB =
      let (cBlock, BlockDB) := pool.databases.BlockDB.getRecord hashOrphan
      if cBlock.nCoinbaseValue = 0 then BlockDB else BlockDB.updateRecord { cBlock with nCoinbaseValue := 0 } := by
  have read : (pool.databases.BlockDB.getRecord hashOrphan).2.getRecord hashOrphan =
      pool.databases.BlockDB.getRecord hashOrphan :=
    Records.getRecord_of_getElem? (Records.getElem?_getRecord_self _ _)
  have refunded := blockDB_refundPayouts hashOrphan (perform (.getBlock hashOrphan) pool.databases).2
  simp only [perform, read] at refunded
  exact refunded

theorem found_of_valued {records : Records Uint1024 Block} (valued : (records.getRecord hashBlock).1.nCoinbaseValue ≠ 0) :
    records[hashBlock]? = some (records.getRecord hashBlock).1 := by
  rcases Records.eq_blank_or_of_getRecord (Records.getElem?_getRecord_self records hashBlock) with blank | found
  · rw [blank] at valued
    exact absurd rfl valued
  · exact found

section Notices

variable {D : Type} {pool : Pool D}

theorem recordedUnderHash_notice (recorded : RecordedUnderHash pool.databases) (hashOrphan : Uint1024) :
    RecordedUnderHash (pool.orphanPacket (.orphanBlock hashOrphan)).databases := by
  intro hashBlock cBlock found valued
  have before (found : (pool.databases.BlockDB.getRecord hashOrphan).2[hashBlock]? = some cBlock) :
      cBlock.cKey = hashBlock := by
    rcases Records.eq_blank_or_of_getRecord found with blank | found
    · rw [blank] at valued
      exact absurd rfl valued
    · exact recorded hashBlock cBlock found valued
  rw [blockDB_notice] at found
  dsimp only at found
  split at found
  · exact before found
  · rw [Records.getElem?_updateRecord] at found
    split at found
    · cases found
      exact absurd rfl valued
    · exact before found

theorem refunded_notice (recorded : RecordedUnderHash pool.databases) (hashOrphan : Uint1024) :
    Refunded (pool.orphanPacket (.orphanBlock hashOrphan)).databases hashOrphan := by
  rw [Refunded, blockDB_notice]
  dsimp only
  split
  · rename_i processed
    exact ⟨_, Records.getElem?_getRecord_self _ _, processed⟩
  · rename_i valued
    have own := recorded hashOrphan _ (found_of_valued valued) valued
    refine ⟨_, (Records.getElem?_updateRecord _ _ _).trans (if_pos own), rfl⟩

theorem Refunded.notice {hashBlock : Uint1024} (refunded : Refunded pool.databases hashBlock) (hashOrphan : Uint1024) :
    Refunded (pool.orphanPacket (.orphanBlock hashOrphan)).databases hashBlock := by
  obtain ⟨cBlock, found, processed⟩ := refunded
  have read : (pool.databases.BlockDB.getRecord hashOrphan).2[hashBlock]? = some cBlock :=
    Records.getElem?_getRecord_of_some found
  rw [Refunded, blockDB_notice]
  dsimp only
  split
  · exact ⟨cBlock, read, processed⟩
  · rw [Records.getElem?_updateRecord]
    split
    · exact ⟨_, rfl, rfl⟩
    · exact ⟨cBlock, read, processed⟩

theorem notice_of_refunded {hashOrphan : Uint1024} (refunded : Refunded pool.databases hashOrphan)
    (pending : pool.globals.fCoinbasePending = true) : pool.orphanPacket (.orphanBlock hashOrphan) = pool := by
  obtain ⟨cBlock, found, processed⟩ := refunded
  have read := Records.getRecord_of_getElem? found
  have same : (perform (.getBlock hashOrphan) pool.databases).2 = pool.databases := by
    simp only [perform, read]
  have idle : run perform (refundPayouts hashOrphan) pool.databases = ((), pool.databases) := by
    rw [run_refundPayouts_of_zero (by rw [read]; exact processed), read]
  simp only [Pool.orphanPacket, Pool.runProgram, getBlock, run_bind, run_perform, same, idle]
  rw [← pending]

theorem marks_notice :
    Marks (fun (pool : Pool D) hashOrphan => pool.orphanPacket (.orphanBlock hashOrphan))
      (fun pool => RecordedUnderHash pool.databases)
      (fun pool hashBlock => Refunded pool.databases hashBlock ∧ pool.globals.fCoinbasePending = true) where
  keeps hashOrphan recorded := recordedUnderHash_notice recorded hashOrphan
  marks hashOrphan recorded := ⟨refunded_notice recorded hashOrphan, rfl⟩
  stays hashOrphan _ _ done := ⟨done.1.notice hashOrphan, rfl⟩
  idle _ done := notice_of_refunded done.1 done.2

theorem orphan_notices_idempotent (pool : Pool D) (recorded : RecordedUnderHash pool.databases) (hashes : List Uint1024) :
    (hashes.foldl (fun pool hashOrphan => pool.orphanPacket (.orphanBlock hashOrphan)) pool).databases =
      (hashes.eraseDups.foldl (fun pool hashOrphan => pool.orphanPacket (.orphanBlock hashOrphan)) pool).databases := by
  rw [marks_notice.foldl_eraseDups hashes recorded]

end Notices

def repeatedNotices : List Uint1024 := [orphanHash, .ofUInt64 8, orphanHash, .ofUInt64 8]

theorem atRest_notices_idempotent :
    (repeatedNotices.foldl (fun pool hashOrphan => pool.orphanPacket (.orphanBlock hashOrphan))
        (Pool.start atRest (0.02 : Float) 1)).databases =
      (repeatedNotices.eraseDups.foldl (fun pool hashOrphan => pool.orphanPacket (.orphanBlock hashOrphan))
        (Pool.start atRest (0.02 : Float) 1)).databases := by
  have recorded : ∀ entry ∈ atRest.BlockDB.toList, entry.2.cKey = entry.1 := by decide +kernel
  exact orphan_notices_idempotent _
    (fun hashBlock cBlock found _ =>
      recorded (hashBlock, cBlock) (ExtTreeMap.mem_toList_iff_getElem?_eq_some.mpr found)) repeatedNotices

/-! ## The amount of a refund -/

theorem refundAccount_of_not_mem {cBlock : Block} (credits : key ∉ cBlock.cCredits.mapCredits)
    (outputs : key ∉ cBlock.cCoinbase.mapOutputs) : refundAccount cBlock key = id := by
  funext cAccount
  rw [refundAccount, ExtTreeMap.getD_eq_fallback credits, ExtTreeMap.getD_eq_fallback outputs, withdraw_zero,
    deposit_zero]
  rfl

theorem toNat_refundAccount (cBlock : Block) (key : StdString) (cAccount : Account) :
    (refundAccount cBlock key cAccount).nAccountBalance.toNat =
      (cAccount.nAccountBalance.toNat - cBlock.cCredits.mapCredits.amount key +
        cBlock.cCoinbase.mapOutputs.amount key) % 2 ^ 64 := by
  show (deduct cAccount.nAccountBalance (cBlock.cCredits.mapCredits.getD key 0) +
    cBlock.cCoinbase.mapOutputs.getD key 0).toNat = _
  rw [UInt64.toNat_add, toNat_deduct]
  rfl

/-- A refund takes the credit from the balance, which stops at zero, and then gives the payout back. -/
theorem refund_amount (databases : Databases) (hashBlock : Uint1024) (cBlock : Block)
    (wellKeyed : databases.AccountDB.WellKeyed) (recorded : databases.BlockDB[hashBlock]? = some cBlock)
    (unprocessed : cBlock.nCoinbaseValue ≠ 0)
    (credits : ∀ key ∈ cBlock.cCredits.mapCredits, key ∈ databases.AccountDB)
    (outputs : ∀ key ∈ cBlock.cCoinbase.mapOutputs, key ∈ databases.AccountDB) (key : StdString) :
    let after := (run perform (refundPayouts hashBlock) databases).2
    (key ∈ cBlock.cCredits.mapCredits ∨ key ∈ cBlock.cCoinbase.mapOutputs →
        (after.AccountDB[key]?.map fun cAccount => cAccount.nAccountBalance.toNat) =
          databases.AccountDB[key]?.map fun cAccount =>
            (cAccount.nAccountBalance.toNat - cBlock.cCredits.mapCredits.amount key +
              cBlock.cCoinbase.mapOutputs.amount key) % 2 ^ 64) ∧
      (key ∉ cBlock.cCredits.mapCredits → key ∉ cBlock.cCoinbase.mapOutputs →
        after.AccountDB[key]? = databases.AccountDB[key]?) := by
  intro after
  have stored : after.AccountDB = databases.AccountDB.map (refundAccount cBlock) := by
    have result := run_refundPayouts wellKeyed recorded unprocessed credits outputs
    exact congrArg (fun result => result.2.AccountDB) result
  rw [stored, ExtTreeMap.getElem?_map]
  refine ⟨fun _ => ?_, fun credits outputs => ?_⟩
  · rw [Option.map_map]
    congr 1
    funext cAccount
    exact toNat_refundAccount cBlock key cAccount
  · rw [refundAccount_of_not_mem credits outputs, Option.map_id]
    rfl

def orphanBlock : Block :=
  { Block.new orphanHash with
    nCoinbaseValue := 1000
    cCredits := Credits.new.addCredit alice 100
    cCoinbase := Coinbase.new.addOutput alice 50 }

/-- What the block credited is paid out already. -/
def paidOut : Databases where
  AccountDB := .ofList [(alice, Account.new alice)]
  BlockDB := .ofList [(orphanHash, orphanBlock)]
  acctDat := none
  blkDat := none

theorem credits_paidOut (key : StdString) (member : key ∈ orphanBlock.cCredits.mapCredits) :
    key ∈ paidOut.AccountDB := by
  have listed : ∀ key ∈ orphanBlock.cCredits.mapCredits.keys, key ∈ paidOut.AccountDB := by decide +kernel
  exact listed key (ExtTreeMap.mem_keys.mpr member)

theorem outputs_paidOut (key : StdString) (member : key ∈ orphanBlock.cCoinbase.mapOutputs) :
    key ∈ paidOut.AccountDB := by
  have listed : ∀ key ∈ orphanBlock.cCoinbase.mapOutputs.keys, key ∈ paidOut.AccountDB := by decide +kernel
  exact listed key (ExtTreeMap.mem_keys.mpr member)

theorem paidOut_refund_amount :
    ((run perform (refundPayouts orphanHash) paidOut).2.AccountDB[alice]?.map fun cAccount =>
        cAccount.nAccountBalance.toNat) = some 50 := by
  have amount := refund_amount paidOut orphanHash orphanBlock (by decide +kernel) (by decide +kernel) (by decide)
    credits_paidOut outputs_paidOut alice
  exact (amount.1 (by decide +kernel)).trans (by decide +kernel)

theorem paidOut_not_net :
    ¬ ∀ (databases : Databases) (hashBlock : Uint1024) (cBlock : Block), databases.AccountDB.WellKeyed →
      databases.BlockDB[hashBlock]? = some cBlock → cBlock.nCoinbaseValue ≠ 0 →
      (∀ key ∈ cBlock.cCredits.mapCredits, key ∈ databases.AccountDB) →
      (∀ key ∈ cBlock.cCoinbase.mapOutputs, key ∈ databases.AccountDB) →
      ∀ key : StdString, key ∈ cBlock.cCredits.mapCredits ∨ key ∈ cBlock.cCoinbase.mapOutputs →
        ((run perform (refundPayouts hashBlock) databases).2.AccountDB[key]?.map fun cAccount =>
            cAccount.nAccountBalance.toNat) =
          databases.AccountDB[key]?.map fun cAccount =>
            cAccount.nAccountBalance.toNat + cBlock.cCoinbase.mapOutputs.amount key -
              cBlock.cCredits.mapCredits.amount key := by
  intro net
  have amount := net paidOut orphanHash orphanBlock (by decide +kernel) (by decide +kernel) (by decide)
    credits_paidOut outputs_paidOut alice (by decide +kernel)
  exact absurd amount (by decide +kernel)

/-! ## Notices in another order -/

def refundBoth (first second : Uint1024) : DatabaseProgram Unit := do
  refundPayouts first
  refundPayouts second

def Recorded (databases : Databases) (hashBlock : Uint1024) (cBlock : Block) : Prop :=
  databases.BlockDB[hashBlock]? = some cBlock ∧ cBlock.cKey = hashBlock

theorem getRecord_refundPayouts {first second : Uint1024} {cBlock cBlock' : Block} (different : first ≠ second)
    (recorded : Recorded databases first cBlock) (recorded' : Recorded databases second cBlock') :
    ((run perform (refundPayouts first) databases).2.BlockDB.getRecord second).1 = cBlock' := by
  have kept : (run perform (refundPayouts first) databases).2.BlockDB[second]? = some cBlock' := by
    rw [blockDB_refundPayouts, Records.getRecord_of_getElem? recorded.1]
    dsimp only
    split
    · exact recorded'.1
    · rw [Records.getElem?_updateRecord]
      exact (if_neg fun same => different (recorded.2.symm.trans same)).trans recorded'.1
  rw [Records.getRecord_of_getElem? kept]

def refundBalance (cBlock : Block) (key : StdString) (nBalance : UInt64) : UInt64 :=
  deduct nBalance (cBlock.cCredits.mapCredits.getD key 0) + cBlock.cCoinbase.mapOutputs.getD key 0

theorem balance_refundPayouts (filed : Filed databases) {hashBlock : Uint1024} {cBlock : Block}
    (recorded : (databases.BlockDB.getRecord hashBlock).1 = cBlock) (apart : key = [] → NamesOwned databases cBlock) :
    ((run perform (refundPayouts hashBlock) databases).2.account key).nAccountBalance =
        (if cBlock.nCoinbaseValue ≠ 0 ∧ Owned databases key then
          refundBalance cBlock key (databases.account key).nAccountBalance
        else (databases.account key).nAccountBalance) ∧
      (Owned (run perform (refundPayouts hashBlock) databases).2 key ↔ Owned databases key) := by
  have account := account_refundPayouts filed hashBlock (recorded.symm ▸ apart)
  rw [recorded] at account
  dsimp only at account
  have owner : Owned (run perform (refundPayouts hashBlock) databases).2 key ↔
      ((run perform (refundPayouts hashBlock) databases).2.account key).cKey = key := Iff.rfl
  rw [owner, account]
  split
  · exact ⟨rfl, Iff.rfl⟩
  · exact ⟨rfl, Iff.rfl⟩

theorem namesOwned_refundPayouts (filed : Filed databases) {hashBlock : Uint1024} {cBlock other : Block}
    (recorded : (databases.BlockDB.getRecord hashBlock).1 = cBlock) (named : NamesOwned databases cBlock)
    (namedOther : NamesOwned databases other) : NamesOwned (run perform (refundPayouts hashBlock) databases).2 other := by
  have owned {name : StdString} (before : Owned databases name) :
      Owned (run perform (refundPayouts hashBlock) databases).2 name :=
    (balance_refundPayouts filed recorded fun _ => named).2.mpr before
  exact ⟨fun name member => owned (namedOther.1 name member), fun name member => owned (namedOther.2 name member)⟩

/-- The record under the empty key is also that of every account without one, so that it is compared only where both
blocks name no such account. -/
def Compared (databases : Databases) (cBlock cBlock' : Block) (key : StdString) : Prop :=
  key = [] → NamesOwned databases cBlock ∧ NamesOwned databases cBlock'

theorem balance_refundBoth (filed : Filed databases) {first second : Uint1024} {cBlock cBlock' : Block}
    (different : first ≠ second) (recorded : Recorded databases first cBlock)
    (recorded' : Recorded databases second cBlock') (compared : Compared databases cBlock cBlock' key) :
    ((run perform (refundBoth first second) databases).2.account key).nAccountBalance =
      let nBalance := (databases.account key).nAccountBalance
      let nBalance := if cBlock.nCoinbaseValue ≠ 0 ∧ Owned databases key then refundBalance cBlock key nBalance else nBalance
      if cBlock'.nCoinbaseValue ≠ 0 ∧ Owned databases key then refundBalance cBlock' key nBalance else nBalance := by
  have found : (databases.BlockDB.getRecord first).1 = cBlock := by rw [Records.getRecord_of_getElem? recorded.1]
  obtain ⟨balance, owned⟩ := balance_refundPayouts filed found fun empty => (compared empty).1
  have apart : key = [] → NamesOwned (run perform (refundPayouts first) databases).2 cBlock' :=
    fun empty => namesOwned_refundPayouts filed found (compared empty).1 (compared empty).2
  obtain ⟨balance', -⟩ := balance_refundPayouts (filed.run (refundPayouts first))
    (getRecord_refundPayouts different recorded recorded') apart
  rw [refundBoth, run_bind, balance', balance]
  simp only [owned]

/-! The order of two refunds of one account. -/

def refundMove (cBlock : Block) (key : StdString) : Move where
  taken := cBlock.cCredits.mapCredits.amount key
  added := cBlock.cCoinbase.mapOutputs.amount key

theorem toNat_refundBalance {cBlock : Block} {nBalance : UInt64}
    (fits : nBalance.toNat + (refundMove cBlock key).added < 2 ^ 64) :
    (refundBalance cBlock key nBalance).toNat = (refundMove cBlock key).apply nBalance.toNat := by
  rw [refundBalance, UInt64.toNat_add, toNat_deduct]
  apply Nat.mod_eq_of_lt
  apply Nat.lt_of_le_of_lt _ fits
  exact Nat.add_le_add_right (Nat.sub_le _ _) _

/-- The order makes no difference to sums that wrap around: by which of the subtractions stop at zero. -/
def WrappedCommute (nTaken nAdded nTaken' nAdded' nBalance : UInt64) : Prop :=
  if nTaken' > deduct nBalance nTaken + nAdded then
    if nTaken > deduct nBalance nTaken' + nAdded' then nAdded = nAdded'
    else if nTaken' > nBalance then nAdded = nTaken
    else nBalance + nAdded = nTaken + nTaken'
  else if nTaken > deduct nBalance nTaken' + nAdded' then
    if nTaken > nBalance then nAdded' = nTaken' else nBalance + nAdded' = nTaken + nTaken'
  else nTaken > nBalance ∨ nTaken' > nBalance → nTaken = nTaken'

theorem wrappedCommute_iff (nTaken nAdded nTaken' nAdded' nBalance : UInt64) :
    deduct (deduct nBalance nTaken + nAdded) nTaken' + nAdded' =
        deduct (deduct nBalance nTaken' + nAdded') nTaken + nAdded ↔
      WrappedCommute nTaken nAdded nTaken' nAdded' nBalance := by
  have all {nBalance nValue : UInt64} (more : nValue > nBalance) : deduct nBalance nValue = 0 := if_pos more
  have rest {nBalance nValue : UInt64} (enough : ¬ nValue > nBalance) : deduct nBalance nValue = nBalance - nValue :=
    if_neg enough
  rw [WrappedCommute]
  by_cases later : nTaken' > deduct nBalance nTaken + nAdded
  · rw [if_pos later, all later]
    by_cases later' : nTaken > deduct nBalance nTaken' + nAdded'
    · rw [if_pos later', all later']
      grind
    · rw [if_neg later', rest later', deduct]
      split <;> grind
  · rw [if_neg later, rest later]
    by_cases later' : nTaken > deduct nBalance nTaken' + nAdded'
    · rw [if_pos later', all later', deduct]
      split <;> grind
    · rw [if_neg later', rest later', deduct, deduct]
      split <;> split <;> grind

/-- The order makes no difference: the least balances that the two orders leave are the same, or nothing is lost at
zero in either. -/
def RefundsCommute (first second : Block) (key : StdString) (nBalance : UInt64) : Prop :=
  let one := refundMove first key
  let two := refundMove second key
  (nBalance.toNat + one.added + two.added < 2 ^ 64 →
    Move.least one two = Move.least two one ∨
      Move.least one two ≤ Move.net one two nBalance.toNat ∧ Move.least two one ≤ Move.net one two nBalance.toNat) ∧
  (¬ nBalance.toNat + one.added + two.added < 2 ^ 64 →
    WrappedCommute (first.cCredits.mapCredits.getD key 0) (first.cCoinbase.mapOutputs.getD key 0)
      (second.cCredits.mapCredits.getD key 0) (second.cCoinbase.mapOutputs.getD key 0) nBalance)

theorem refundBalance_comm_iff (first second : Block) (key : StdString) (nBalance : UInt64) :
    refundBalance second key (refundBalance first key nBalance) =
        refundBalance first key (refundBalance second key nBalance) ↔
      RefundsCommute first second key nBalance := by
  by_cases fits : nBalance.toNat + (refundMove first key).added + (refundMove second key).added < 2 ^ 64
  · have both {one two : Block}
        (fits : nBalance.toNat + (refundMove one key).added + (refundMove two key).added < 2 ^ 64) :
        (refundBalance two key (refundBalance one key nBalance)).toNat =
          (refundMove two key).apply ((refundMove one key).apply nBalance.toNat) := by
      have single : (refundBalance one key nBalance).toNat = (refundMove one key).apply nBalance.toNat :=
        toNat_refundBalance (by omega)
      rw [toNat_refundBalance, single]
      rw [single, Move.apply]
      omega
    rw [← UInt64.toNat_inj, both fits, both (by omega), Move.commute_iff]
    simp only [RefundsCommute, fits, forall_const, not_true_eq_false, false_implies, and_true]
  · simp only [RefundsCommute, fits, false_implies, not_false_eq_true, forall_const, true_and]
    exact wrappedCommute_iff _ _ _ _ nBalance

/-- Two orphan notices leave the same balances in either order exactly when the order makes no difference for each
account that has a record. -/
theorem refunds_commute_iff (databases : Databases) (first second : Uint1024) (cBlock cBlock' : Block)
    (filed : Filed databases) (different : first ≠ second) (recorded : Recorded databases first cBlock)
    (recorded' : Recorded databases second cBlock') :
    (∀ key : StdString, Compared databases cBlock cBlock' key →
        ((run perform (refundBoth first second) databases).2.account key).nAccountBalance =
          ((run perform (refundBoth second first) databases).2.account key).nAccountBalance) ↔
      ∀ key : StdString, Compared databases cBlock cBlock' key →
        cBlock.nCoinbaseValue ≠ 0 → cBlock'.nCoinbaseValue ≠ 0 → Owned databases key →
          RefundsCommute cBlock cBlock' key (databases.account key).nAccountBalance := by
  refine forall_congr' fun key => forall_congr' fun compared => ?_
  rw [balance_refundBoth filed different recorded recorded' compared,
    balance_refundBoth filed different.symm recorded' recorded fun empty => (compared empty).symm]
  dsimp only
  by_cases owned : Owned databases key
  · by_cases processed : cBlock.nCoinbaseValue = 0
    · simp [processed]
    · by_cases processed' : cBlock'.nCoinbaseValue = 0
      · simp [processed']
      · simp only [owned, processed, processed', ne_eq, not_false_eq_true, and_self, if_true, forall_const]
        exact refundBalance_comm_iff cBlock cBlock' key _
  · simp [owned]

def paidOrphan : Block :=
  { Block.new (.ofUInt64 8) with nCoinbaseValue := 1000, cCoinbase := Coinbase.new.addOutput alice 100 }

/-- The first block takes a credit from an empty balance, and the second one gives a payout back. -/
def twoOrphans : Databases where
  AccountDB := .ofList [(alice, Account.new alice)]
  BlockDB := .ofList [(orphanHash, orphanBlock), (.ofUInt64 8, paidOrphan)]
  acctDat := none
  blkDat := none

theorem twoOrphans_order_matters :
    ¬ ∀ (databases : Databases) (first second : Uint1024) (cBlock cBlock' : Block), first ≠ second →
      Recorded databases first cBlock → Recorded databases second cBlock' → ∀ key : StdString,
        ((run perform (refundBoth first second) databases).2.account key).nAccountBalance =
          ((run perform (refundBoth second first) databases).2.account key).nAccountBalance := by
  intro commutes
  have recorded : Recorded twoOrphans orphanHash orphanBlock := ⟨by decide +kernel, rfl⟩
  have recorded' : Recorded twoOrphans (.ofUInt64 8) paidOrphan := ⟨by decide +kernel, rfl⟩
  have same := commutes twoOrphans orphanHash (.ofUInt64 8) orphanBlock paidOrphan (by decide) recorded recorded' alice
  exact absurd same (by decide +kernel)

theorem twoOrphans_commute_iff :
    (∀ key : StdString, Compared twoOrphans orphanBlock paidOrphan key →
        ((run perform (refundBoth orphanHash (.ofUInt64 8)) twoOrphans).2.account key).nAccountBalance =
          ((run perform (refundBoth (.ofUInt64 8) orphanHash) twoOrphans).2.account key).nAccountBalance) ↔
      ∀ key : StdString, Compared twoOrphans orphanBlock paidOrphan key →
        orphanBlock.nCoinbaseValue ≠ 0 → paidOrphan.nCoinbaseValue ≠ 0 → Owned twoOrphans key →
          RefundsCommute orphanBlock paidOrphan key (twoOrphans.account key).nAccountBalance :=
  refunds_commute_iff twoOrphans orphanHash (.ofUInt64 8) orphanBlock paidOrphan
    (filed_of_wellKeyed (by decide +kernel)) (by decide) ⟨by decide +kernel, rfl⟩ ⟨by decide +kernel, rfl⟩

/-- Without a credit in either block: two accounts that have no record share the blank one, and a record under the key
of another account replaces it. -/
theorem unfiled_order_matters :
    let paid (nKey : UInt64) (address : StdString) (nValue : UInt64) : Block :=
      { Block.new (.ofUInt64 nKey) with nCoinbaseValue := 1000, cCoinbase := Coinbase.new.addOutput address nValue }
    let missing : Databases :=
      { twoOrphans with
        AccountDB := ∅, BlockDB := .ofList [(orphanHash, paid 7 alice 5), (.ofUInt64 8, paid 8 bob 7)] }
    let misfiled : Databases :=
      { missing with AccountDB := .ofList [(alice, Account.new bob), (bob, Account.new bob)] }
    ((run perform (refundBoth orphanHash (.ofUInt64 8)) missing).2.account []).nAccountBalance ≠
        ((run perform (refundBoth (.ofUInt64 8) orphanHash) missing).2.account []).nAccountBalance ∧
      ((run perform (refundBoth orphanHash (.ofUInt64 8)) misfiled).2.account bob).nAccountBalance ≠
        ((run perform (refundBoth (.ofUInt64 8) orphanHash) misfiled).2.account bob).nAccountBalance := by
  decide +kernel

end PrimePool.Core

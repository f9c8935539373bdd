import PrimePool.Core.SettlementStores

/-!
# Crash consistency

What a restart reads when the pool stops between two steps of `NewRound` or `RefundPayouts`.
-/

namespace PrimePool.Core

open PrimePool.General PrimePool.LLD Std

variable {D : Type} [Double D] {databases : Databases}

/-! ## Restarting -/

def readBack {Key R : Type} [Ord Key] [TransOrd Key] [Record Key R] (mapRecords : Records Key R) :
    Option (Records Key R) :=
  (Database.new (some (Database.fileOf mapRecords))).map Database.mapRecords

def restart (databases : Databases) : Option (Records StdString Account) × Option (Records Uint1024 Block) :=
  ((Database.new databases.acctDat).map Database.mapRecords, (Database.new databases.blkDat).map Database.mapRecords)

def committed (databases : Databases) : Option (Records StdString Account) × Option (Records Uint1024 Block) :=
  (readBack databases.AccountDB, readBack databases.BlockDB)

/-- Wherever the operation stops, a restart reads the stores from before it or those with all of it. -/
def CrashConsistent (operation : DatabaseProgram Unit) (databases : Databases) : Prop :=
  ∀ crash : Nat,
    restart (progress perform crash (operation, databases)).2 = restart databases ∨
      restart (progress perform crash (operation, databases)).2 = committed (run perform operation databases).2

theorem crashConsistent_iff_seen (operation : DatabaseProgram Unit) (databases : Databases) :
    CrashConsistent operation databases ↔
      ∀ stores, Seen perform restart operation databases stores →
        stores = restart databases ∨ stores = committed (run perform operation databases).2 := by
  constructor
  · rintro consistent stores ⟨crash, rfl⟩
    exact consistent crash
  · intro each crash
    exact each _ ⟨crash, rfl⟩

/-! ## Calls that leave the files alone -/

def InMemory : DatabaseCall → Prop
  | .writeAccounts | .writeBlocks => False
  | _ => True

theorem restart_perform (op : DatabaseCall) (inMemory : InMemory op) (databases : Databases) :
    restart (perform op databases).2 = restart databases := by
  cases op with
  | writeAccounts => exact inMemory.elim
  | writeBlocks => exact inMemory.elim
  | _ => rfl

theorem Crediting.inMemory (op : DatabaseCall) (crediting : Crediting op) : InMemory op := by
  cases op with
  | writeAccounts => exact crediting
  | writeBlocks => exact crediting
  | _ => trivial

theorem CalledBy.inMemory {caller : Caller} (op : DatabaseCall) (called : CalledBy caller op) : InMemory op := by
  cases op with
  | writeAccounts => exact called
  | writeBlocks => exact called
  | _ => trivial

theorem seen_inMemory {α : Type} {p : DatabaseProgram α} (makes : Makes InMemory p) (databases : Databases)
    (stores : Option (Records StdString Account) × Option (Records Uint1024 Block)) :
    Seen perform restart p databases stores ↔ restart databases = stores :=
  makes.seen restart restart_perform databases stores

omit [Double D] in
theorem seen_commitBlock (round : Round D) (cCredits : Credits) (databases : Databases)
    (stores : Option (Records StdString Account) × Option (Records Uint1024 Block)) :
    Seen perform restart (commitBlock round cCredits) databases stores ↔
      restart databases = stores ∨
      ((restart databases).1, readBack (databases.BlockDB.updateRecord { newBlock round with cCredits })) = stores ∨
      (readBack databases.AccountDB,
        readBack (databases.BlockDB.updateRecord { newBlock round with cCredits })) = stores := by
  have calls : commitBlock round cCredits =
      .call (.updateBlock { newBlock round with cCredits }) fun _ =>
        .call .writeBlocks fun _ => .call .writeAccounts .done := rfl
  rw [calls, seen_call, seen_call, seen_call, seen_done]
  exact or_self_left

/-! ## Stopping `NewRound` -/

def settledStores (round : Round D) (databases : Databases) :
    Records StdString Account × Records Uint1024 Block :=
  let (cCredits, AccountDB) := settledAccounts round round.nRoundReward databases.AccountDB
  (AccountDB, databases.BlockDB.updateRecord { newBlock round with cCredits })

theorem seen_newRound (round : Round D) (databases : Databases)
    (stores : Option (Records StdString Account) × Option (Records Uint1024 Block)) :
    let settled := settledStores round databases
    Seen perform restart (newRound round) databases stores ↔
      restart databases = stores ∨ ((restart databases).1, readBack settled.2) = stores ∨
        (readBack settled.1, readBack settled.2) = stores := by
  intro settled
  have commit := seen_commitBlock round (settledAccounts round round.nRoundReward databases.AccountDB).1
    { databases with AccountDB := settled.1 } stores
  rw [newRound, seen_bind, updateBalances_eq, seen_bind,
    seen_inMemory ((makes_creditAccounts round _).mono Crediting.inMemory), seen_inMemory (makes_clearShares.mono CalledBy.inMemory), run_bind, run_creditAccounts]
  constructor
  · rintro ((seen | seen) | seen)
    · exact Or.inl seen
    · exact commit.mp seen
    · exact Or.inr (Or.inr seen)
  · intro seen
    exact Or.inl (Or.inr (commit.mpr seen))

theorem committed_newRound (round : Round D) (databases : Databases) :
    committed (run perform (newRound round) databases).2 =
      (readBack (clearedAccounts (settledStores round databases).1), readBack (settledStores round databases).2) := by
  rw [newRound, run_bind, updateBalances_eq, run_bind, run_creditAccounts, run_clearShares_amend]
  rfl

/-- Stopping `NewRound` is safe where the files already hold what it would write. -/
structure NewRoundSafe (round : Round D) (databases : Databases) : Prop where
  betweenWrites :
    (restart databases).2 = readBack (settledStores round databases).2 ∨
      (restart databases).1 = readBack (clearedAccounts (settledStores round databases).1)
  afterWrites :
    readBack (settledStores round databases).1 = readBack (clearedAccounts (settledStores round databases).1) ∨
      restart databases = (readBack (settledStores round databases).1, readBack (settledStores round databases).2)

theorem crashConsistent_newRound_iff (round : Round D) (databases : Databases) :
    CrashConsistent (newRound round) databases ↔ NewRoundSafe round databases := by
  rw [crashConsistent_iff_seen, committed_newRound]
  simp only [seen_newRound, or_imp, forall_and, forall_eq', Prod.mk.injEq, true_or, true_and, and_true]
  constructor
  · rintro ⟨between, after⟩
    refine ⟨between.imp_left fun same => (congrArg Prod.snd same).symm, ?_⟩
    exact after.symm.imp_right Eq.symm
  · rintro ⟨between, after⟩
    refine ⟨between.imp_left fun same => ?_, after.symm.imp_left Eq.symm⟩
    rw [← same]

/-! ## Stopping `RefundPayouts` -/

def flaggedBlocks (hashBlock : Uint1024) (BlockDB : Records Uint1024 Block) : Records Uint1024 Block :=
  let (cBlock, BlockDB) := BlockDB.getRecord hashBlock
  BlockDB.updateRecord { cBlock with nCoinbaseValue := 0 }

theorem run_refundLoops_amend (cBlock : Block) (databases : Databases) :
    run perform (refundLoops cBlock) databases =
      ((), { databases with AccountDB := refundedAccounts cBlock databases.AccountDB }) := by
  have removed := run_foldlM_amend removeCredit Prod.fst (fun credit => withdraw credit.2) fun _ _ => rfl
  have refunded := run_foldlM_amend refundOutput Prod.fst (fun output => deposit output.2) fun _ _ => rfl
  rw [refundLoops, run_bind, removed, refunded]
  rfl

theorem refundedAccounts_of_wellKeyed {cBlock : Block} (wellKeyed : databases.AccountDB.WellKeyed)
    (credits : ∀ key ∈ cBlock.cCredits.mapCredits, key ∈ databases.AccountDB)
    (outputs : ∀ key ∈ cBlock.cCoinbase.mapOutputs, key ∈ databases.AccountDB) :
    refundedAccounts cBlock databases.AccountDB = databases.AccountDB.map (refundAccount cBlock) := by
  have refunded := run_refundLoops wellKeyed credits outputs
  rw [run_refundLoops_amend] at refunded
  exact congrArg (fun result => result.2.AccountDB) refunded

theorem seen_refundBlock {cBlock : Block} (unprocessed : cBlock.nCoinbaseValue ≠ 0) (databases : Databases)
    (stores : Option (Records StdString Account) × Option (Records Uint1024 Block)) :
    Seen perform restart (refundBlock cBlock) databases stores ↔
      restart databases = stores ∨
        ((restart databases).1, readBack (databases.BlockDB.updateRecord { cBlock with nCoinbaseValue := 0 })) =
          stores := by
  have calls : refundBlock cBlock = refundLoops cBlock >>= fun _ =>
      .call (.updateBlock { cBlock with nCoinbaseValue := 0 }) fun _ => .call .writeBlocks .done := by
    rw [refundBlock, if_neg unprocessed]
    rfl
  rw [calls, seen_bind, seen_inMemory ((makes_refundLoops cBlock).mono CalledBy.inMemory), run_refundLoops_amend,
    seen_call, seen_call, seen_done]
  constructor
  · rintro (seen | seen | seen | seen)
    · exact Or.inl seen
    · exact Or.inl seen
    · exact Or.inl seen
    · exact Or.inr seen
  · rintro (seen | seen)
    · exact Or.inl seen
    · exact Or.inr (Or.inr (Or.inr seen))

theorem committed_refundBlock {cBlock : Block} (unprocessed : cBlock.nCoinbaseValue ≠ 0) (databases : Databases) :
    committed (run perform (refundBlock cBlock) databases).2 =
      (readBack (refundedAccounts cBlock databases.AccountDB),
        readBack (databases.BlockDB.updateRecord { cBlock with nCoinbaseValue := 0 })) := by
  rw [refundBlock, if_neg unprocessed, run_bind, run_refundLoops_amend]
  rfl

/-- Stopping `RefundPayouts` is safe where there is nothing to refund or one of the files already holds
what it would write there. -/
def RefundSafe (hashBlock : Uint1024) (databases : Databases) : Prop :=
  (databases.BlockDB.getRecord hashBlock).1.nCoinbaseValue = 0 ∨
  (restart databases).2 = readBack (flaggedBlocks hashBlock databases.BlockDB) ∨
  (restart databases).1 =
    readBack (refundedAccounts (databases.BlockDB.getRecord hashBlock).1 databases.AccountDB)

theorem crashConsistent_refundPayouts_iff (hashBlock : Uint1024) (databases : Databases) :
    CrashConsistent (refundPayouts hashBlock) databases ↔ RefundSafe hashBlock databases := by
  have reads : refundPayouts hashBlock = .call (.getBlock hashBlock) refundBlock := refundPayouts_eq hashBlock
  rw [crashConsistent_iff_seen, reads, RefundSafe, flaggedBlocks]
  simp only [seen_call, run_call, perform]
  cases databases.BlockDB.getRecord hashBlock with
  | mk cBlock BlockDB =>
      have files : restart { databases with BlockDB } = restart databases := rfl
      by_cases processed : cBlock.nCoinbaseValue = 0
      · have nothing : refundBlock cBlock = .done () := by
          rw [refundBlock, if_pos processed]
          rfl
        simp only [processed, nothing, seen_done, files, or_self, true_or, iff_true]
        rintro stores rfl
        exact Or.inl rfl
      · simp only [processed, false_or, seen_refundBlock processed, committed_refundBlock processed, files, or_imp,
          forall_and, forall_eq', true_or, true_and, Prod.mk.injEq, and_true]
        refine or_congr ⟨fun same => (congrArg Prod.snd same).symm, fun same => ?_⟩ Iff.rfl
        rw [← same]

/-- Where the two operations can be stopped. -/
theorem crashConsistent_iff (round : Round D) (hashBlock : Uint1024) (databases : Databases) :
    (CrashConsistent (newRound round) databases ↔ NewRoundSafe round databases) ∧
      (CrashConsistent (refundPayouts hashBlock) databases ↔ RefundSafe hashBlock databases) :=
  ⟨crashConsistent_newRound_iff round databases, crashConsistent_refundPayouts_iff hashBlock databases⟩

/-! ## A refund that is lost -/

def remembered (stores : Option (Records StdString Account) × Option (Records Uint1024 Block)) :
    Option UInt64 × Option UInt64 :=
  ((stores.1.bind fun AccountDB => AccountDB[minerAddress]?).map Account.nAccountBalance,
    (stores.2.bind fun BlockDB => BlockDB[orphanHash]?).map Block.nCoinbaseValue)

theorem atRest_not_crashConsistent : ¬ CrashConsistent (refundPayouts orphanHash) atRest := by
  intro consistent
  have crashed : remembered (restart (progress perform 5 (refundPayouts orphanHash, atRest)).2) = (some 100, some 0) := by
    decide +kernel
  have before : remembered (restart atRest) = (some 100, some 1000) := by decide +kernel
  have after : remembered (committed (run perform (refundPayouts orphanHash) atRest).2) = (some 0, some 0) := by
    decide +kernel
  rcases consistent 5 with same | same
  · rw [same, before] at crashed
    exact absurd crashed (by decide)
  · rw [same, after] at crashed
    exact absurd crashed (by decide)

end PrimePool.Core

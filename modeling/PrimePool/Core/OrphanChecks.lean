import PrimePool.Core.ExactAmounts
import PrimePool.Core.OrphanNotices
import PrimePool.Core.SettlementStores

/-!
# Orphan checks

`core.cpp`: every 20 seconds the orphan thread checks the last five blocks that are not processed. A block counts as
processed when its coinbase value is zero.
-/

namespace PrimePool.Core

open PrimePool.General PrimePool.LLD Std

/-- The difference wraps around below zero. -/
def checksBlock (nCurrentRound : UInt32) (cBlock : Block) : Bool :=
  cBlock.nRound ≥ nCurrentRound - 5 && cBlock.nCoinbaseValue > 0

def checkBlocks (nCurrentRound : UInt32) (BlockDB : Records Uint1024 Block) : List Uint1024 × Records Uint1024 Block :=
  BlockDB.getKeys.foldl
    (fun (checked, BlockDB) hashBlock =>
      let (cBlock, BlockDB) := BlockDB.getRecord hashBlock
      (if checksBlock nCurrentRound cBlock then checked ++ [hashBlock] else checked, BlockDB))
    ([], BlockDB)

inductive StoreEvent (D : Type) where
  | settle (round : Round D) (nReward : UInt64)
  | refund (hashBlock : Uint1024)
  /-- The log line reads the block. -/
  | goodBlock (hashBlock : Uint1024)

variable {D : Type}

section Store

variable [Double D]

def StoreEvent.program : StoreEvent D → DatabaseProgram Unit
  | .settle round nReward => updateBalances round nReward
  | .refund hashBlock => refundPayouts hashBlock
  | .goodBlock hashBlock => do
      let _ ← getBlock hashBlock
      return ()

def storeAfter (databases : Databases) (events : List (StoreEvent D)) : Databases :=
  events.foldl (fun databases event => (run perform event.program databases).2) { databases with BlockDB := ∅ }

end Store

/-! ## The blocks that stand -/

/-- The rounds whose blocks were recorded and not refunded since. -/
def StoreEvent.note (unrefunded : Uint1024 → Option (Round D)) : StoreEvent D → Uint1024 → Option (Round D)
  | .settle round _ => Function.update unrefunded round.hashBlockSubmission (some round)
  | .refund hashBlock => Function.update unrefunded hashBlock none
  | .goodBlock _ => unrefunded

def unrefundedAfter (events : List (StoreEvent D)) : Uint1024 → Option (Round D) :=
  events.foldl StoreEvent.note fun _ => none

def Round.nCoinbaseValue (round : Round D) : UInt64 := round.cGlobalCoinbase.nMaxValue + round.cGlobalCoinbase.nPoolFee

/-- The block is to be checked: it stands, and its round is one of the last five. -/
def Recent (nCurrentRound : UInt32) (unrefunded : Uint1024 → Option (Round D)) (hashBlock : Uint1024) : Prop :=
  ∃ round, unrefunded hashBlock = some round ∧ nCurrentRound.toNat ≤ round.nCurrentRound.toNat + 5

def ChecksRecent [Double D] (databases : Databases) (events : List (StoreEvent D)) (nCurrentRound : UInt32) : Prop :=
  ∀ hashBlock, hashBlock ∈ (checkBlocks nCurrentRound (storeAfter databases events).BlockDB).1 ↔
    Recent nCurrentRound (unrefundedAfter events) hashBlock

/-! ## The loop -/

theorem checkBlocks_eq (nCurrentRound : UInt32) (BlockDB : Records Uint1024 Block) :
    checkBlocks nCurrentRound BlockDB =
      (BlockDB.keys.filter fun hashBlock => checksBlock nCurrentRound (BlockDB.getRecord hashBlock).1, BlockDB) := by
  have loop (vKeys : List Uint1024) (listed : ∀ hashBlock ∈ vKeys, hashBlock ∈ BlockDB) (checked : List Uint1024) :
      vKeys.foldl
          (fun (checked, BlockDB) hashBlock =>
            let (cBlock, BlockDB) := BlockDB.getRecord hashBlock
            (if checksBlock nCurrentRound cBlock then checked ++ [hashBlock] else checked, BlockDB))
          (checked, BlockDB) =
        (checked ++ vKeys.filter fun hashBlock => checksBlock nCurrentRound (BlockDB.getRecord hashBlock).1,
          BlockDB) := by
    induction vKeys generalizing checked with
    | nil => simp
    | cons hashBlock vKeys ih =>
        have kept := Records.getRecord_of_mem (listed hashBlock List.mem_cons_self)
        rw [List.foldl_cons]
        dsimp only
        rw [kept, ih fun other member => listed other (List.mem_cons_of_mem hashBlock member), List.filter_cons]
        split
        · rw [List.append_assoc, List.singleton_append]
        · rfl
  exact loop _ (fun hashBlock member => ExtTreeMap.mem_keys.mp member) []

theorem checksBlock_iff (nCurrentRound : UInt32) (cBlock : Block) :
    checksBlock nCurrentRound cBlock = true ↔ nCurrentRound - 5 ≤ cBlock.nRound ∧ cBlock.nCoinbaseValue ≠ 0 := by
  simp only [checksBlock, Bool.and_eq_true, decide_eq_true_eq, gt_iff_lt, ge_iff_le, UInt64.pos_iff_ne_zero]

theorem mem_checkBlocks (nCurrentRound : UInt32) (BlockDB : Records Uint1024 Block) (hashBlock : Uint1024) :
    hashBlock ∈ (checkBlocks nCurrentRound BlockDB).1 ↔
      ∃ cBlock, BlockDB[hashBlock]? = some cBlock ∧ checksBlock nCurrentRound cBlock = true := by
  rw [checkBlocks_eq, List.mem_filter, ExtTreeMap.mem_keys]
  constructor
  · rintro ⟨present, checks⟩
    obtain ⟨cBlock, found⟩ := getElem?_of_mem present
    rw [Records.getRecord_of_getElem? found] at checks
    exact ⟨cBlock, found, checks⟩
  · rintro ⟨cBlock, found, checks⟩
    rw [Records.getRecord_of_getElem? found]
    exact ⟨mem_of_getElem? found, checks⟩

/-! ## The store and the blocks that stand -/

structure Tracks (unrefunded : Uint1024 → Option (Round D)) (BlockDB : Records Uint1024 Block) : Prop where
  recorded : ∀ {hashBlock : Uint1024} {round : Round D}, unrefunded hashBlock = some round →
    round.hashBlockSubmission = hashBlock ∧ ∃ cCredits, BlockDB[hashBlock]? = some { newBlock round with cCredits }
  processed : ∀ {hashBlock : Uint1024} {cBlock : Block}, unrefunded hashBlock = none →
    BlockDB[hashBlock]? = some cBlock → cBlock.nCoinbaseValue = 0

namespace Tracks

variable {unrefunded : Uint1024 → Option (Round D)} {BlockDB : Records Uint1024 Block}

theorem empty : Tracks (fun _ => (none : Option (Round D))) ∅ where
  recorded stands := by cases stands
  processed _ found := by simp at found

theorem settle (tracks : Tracks unrefunded BlockDB) (round : Round D) (cCredits : Credits) :
    Tracks (Function.update unrefunded round.hashBlockSubmission (some round))
      (BlockDB.updateRecord { newBlock round with cCredits }) where
  recorded {hashBlock other} stands := by
    rw [Function.update_apply] at stands
    rw [Records.getElem?_updateRecord]
    split at stands
    · rename_i same
      cases stands
      exact ⟨same.symm, cCredits, if_pos same.symm⟩
    · rename_i different
      obtain ⟨keyed, others, found⟩ := tracks.recorded stands
      exact ⟨keyed, others, (if_neg fun same => different same.symm).trans found⟩
  processed {hashBlock cBlock} stands found := by
    rw [Function.update_apply] at stands
    rw [Records.getElem?_updateRecord] at found
    split at stands
    · cases stands
    · rename_i different
      rw [if_neg fun same => different same.symm] at found
      exact tracks.processed stands found

theorem getRecord (tracks : Tracks unrefunded BlockDB) (hashBlock : Uint1024) :
    Tracks unrefunded (BlockDB.getRecord hashBlock).2 where
  recorded stands := by
    obtain ⟨keyed, cCredits, found⟩ := tracks.recorded stands
    exact ⟨keyed, cCredits, Records.getElem?_getRecord_of_some found⟩
  processed stands found := by
    rcases Records.eq_blank_or_of_getRecord found with blank | found
    · rw [blank]
      rfl
    · exact tracks.processed stands found

theorem cKey_of_valued (tracks : Tracks unrefunded BlockDB) {hashBlock : Uint1024} {cBlock : Block}
    (found : BlockDB[hashBlock]? = some cBlock) (valued : cBlock.nCoinbaseValue ≠ 0) : cBlock.cKey = hashBlock := by
  cases stands : unrefunded hashBlock with
  | none => exact absurd (tracks.processed stands found) valued
  | some round =>
      obtain ⟨keyed, cCredits, recorded⟩ := tracks.recorded stands
      cases found.symm.trans recorded
      exact keyed

theorem mark (tracks : Tracks unrefunded BlockDB) {hashBlock : Uint1024} {cBlock : Block} (keyed : cBlock.cKey = hashBlock) :
    Tracks (Function.update unrefunded hashBlock none) (BlockDB.updateRecord { cBlock with nCoinbaseValue := 0 }) where
  recorded {other round} stands := by
    rw [Function.update_apply] at stands
    split at stands
    · cases stands
    · rename_i different
      obtain ⟨keyed', cCredits, found⟩ := tracks.recorded stands
      rw [Records.getElem?_updateRecord]
      exact ⟨keyed', cCredits, (if_neg fun same => different (same.symm.trans keyed)).trans found⟩
  processed {other record} stands found := by
    rw [Records.getElem?_updateRecord] at found
    split at found
    · cases found
      rfl
    · rename_i different
      rw [Function.update_apply, if_neg fun same => different (keyed.trans same.symm)] at stands
      exact tracks.processed stands found

theorem pass (tracks : Tracks unrefunded BlockDB) {hashBlock : Uint1024}
    (processed : ∀ cBlock, BlockDB[hashBlock]? = some cBlock → cBlock.nCoinbaseValue = 0) :
    Tracks (Function.update unrefunded hashBlock none) BlockDB where
  recorded {other round} stands := by
    rw [Function.update_apply] at stands
    split at stands
    · cases stands
    · exact tracks.recorded stands
  processed {other record} stands found := by
    rw [Function.update_apply] at stands
    split at stands
    · rename_i same
      exact processed record (same ▸ found)
    · exact tracks.processed stands found

theorem refund {databases : Databases} (tracks : Tracks unrefunded databases.BlockDB) (hashBlock : Uint1024) :
    Tracks (Function.update unrefunded hashBlock none)
      (run perform (refundPayouts hashBlock) databases).2.BlockDB := by
  have read := Records.getElem?_getRecord_self databases.BlockDB hashBlock
  rw [blockDB_refundPayouts]
  dsimp only
  split
  · rename_i processed
    apply (tracks.getRecord hashBlock).pass
    intro cBlock found
    cases read.symm.trans found
    exact processed
  · rename_i valued
    exact (tracks.getRecord hashBlock).mark ((tracks.getRecord hashBlock).cKey_of_valued read valued)

theorem mem_checkBlocks (tracks : Tracks unrefunded BlockDB) (nCurrentRound : UInt32) (hashBlock : Uint1024) :
    hashBlock ∈ (checkBlocks nCurrentRound BlockDB).1 ↔
      ∃ round, unrefunded hashBlock = some round ∧ nCurrentRound - 5 ≤ round.nCurrentRound ∧
        round.nCoinbaseValue ≠ 0 := by
  rw [Core.mem_checkBlocks]
  constructor
  · rintro ⟨cBlock, found, checks⟩
    rw [checksBlock_iff] at checks
    cases stands : unrefunded hashBlock with
    | none => exact absurd (tracks.processed stands found) checks.2
    | some round =>
        obtain ⟨-, cCredits, recorded⟩ := tracks.recorded stands
        cases found.symm.trans recorded
        exact ⟨round, rfl, checks⟩
  · rintro ⟨round, stands, checks⟩
    obtain ⟨-, cCredits, recorded⟩ := tracks.recorded stands
    exact ⟨_, recorded, (checksBlock_iff _ _).mpr checks⟩

end Tracks

/-! ## Settlements and refunds -/

section Events

variable [Double D]

theorem blockDB_updateBalances (round : Round D) (nReward : UInt64) (databases : Databases) :
    (run perform (updateBalances round nReward) databases).2.BlockDB =
      databases.BlockDB.updateRecord
        { newBlock round with cCredits := (settledAccounts round nReward databases.AccountDB).1 } := by
  rw [updateBalances_eq, run_bind, run_creditAccounts]
  rfl

theorem Tracks.step {unrefunded : Uint1024 → Option (Round D)} {databases : Databases}
    (tracks : Tracks unrefunded databases.BlockDB) (event : StoreEvent D) :
    Tracks (event.note unrefunded) (run perform event.program databases).2.BlockDB := by
  cases event with
  | settle round nReward =>
      rw [StoreEvent.program, blockDB_updateBalances]
      exact tracks.settle round _
  | refund hashBlock => exact tracks.refund hashBlock
  | goodBlock hashBlock => exact tracks.getRecord hashBlock

theorem tracks_storeAfter (databases : Databases) (events : List (StoreEvent D)) :
    Tracks (unrefundedAfter events) (storeAfter databases events).BlockDB := by
  have follow (events : List (StoreEvent D)) (unrefunded : Uint1024 → Option (Round D)) (databases : Databases)
      (tracks : Tracks unrefunded databases.BlockDB) :
      Tracks (events.foldl StoreEvent.note unrefunded)
        (events.foldl (fun databases event => (run perform event.program databases).2) databases).BlockDB := by
    induction events generalizing unrefunded databases with
    | nil => exact tracks
    | cons event events ih => exact ih _ _ (tracks.step event)
  exact follow events _ _ Tracks.empty

theorem sub_five_le_iff (nCurrentRound nRound : UInt32) :
    nCurrentRound - 5 ≤ nRound ↔
      nCurrentRound.toNat ≤ nRound.toNat + 5 ∧
        (5 ≤ nCurrentRound.toNat ∨ nCurrentRound.toNat + 2 ^ 32 ≤ nRound.toNat + 5) := by
  have current := nCurrentRound.toNat_lt
  have recorded := nRound.toNat_lt
  rw [UInt32.le_iff_toNat_le, UInt32.toNat_sub]
  have five : (5 : UInt32).toNat = 5 := rfl
  omega

theorem checks_recent_iff (databases : Databases) (events : List (StoreEvent D)) (nCurrentRound : UInt32) :
    ChecksRecent databases events nCurrentRound ↔
      ∀ hashBlock round, unrefundedAfter events hashBlock = some round →
        nCurrentRound.toNat ≤ round.nCurrentRound.toNat + 5 →
        round.nCoinbaseValue ≠ 0 ∧
          (5 ≤ nCurrentRound.toNat ∨ nCurrentRound.toNat + 2 ^ 32 ≤ round.nCurrentRound.toNat + 5) := by
  have tracks := tracks_storeAfter databases events
  constructor
  · intro checks hashBlock round stands recent
    have checked := (checks hashBlock).mpr ⟨round, stands, recent⟩
    obtain ⟨same, found, last, valued⟩ := (tracks.mem_checkBlocks _ _).mp checked
    cases stands.symm.trans found
    exact ⟨valued, ((sub_five_le_iff _ _).mp last).2⟩
  · intro exact hashBlock
    rw [tracks.mem_checkBlocks]
    constructor
    · rintro ⟨round, stands, last, -⟩
      exact ⟨round, stands, ((sub_five_le_iff _ _).mp last).1⟩
    · rintro ⟨round, stands, recent⟩
      obtain ⟨valued, window⟩ := exact hashBlock round stands recent
      exact ⟨round, stands, (sub_five_le_iff _ _).mpr ⟨recent, window⟩, valued⟩

end Events

def earlyRound (nMaxValue : UInt64) : Round Rat where
  lfPoolFee := 0
  cGlobalCoinbase := { Coinbase.new with nMaxValue }
  nRoundReward := 1000
  hashBlockSubmission := orphanHash
  LAST_ROUND_BLOCKFINDER := []
  nCurrentRound := 2

theorem recent_earlyRound (nMaxValue : UInt64) {nCurrentRound : UInt32} (last : nCurrentRound.toNat ≤ 7) :
    Recent nCurrentRound (unrefundedAfter [.settle (earlyRound nMaxValue) 1000]) orphanHash := by
  refine ⟨earlyRound nMaxValue, ?_, last⟩
  simp [unrefundedAfter, StoreEvent.note, earlyRound]

/-- A block of one of the first rounds, and a block of a round without a coinbase. -/
theorem early_block_unchecked :
    ¬ ChecksRecent atRest [.settle (earlyRound 1000) 1000] 3 ∧ ¬ ChecksRecent atRest [.settle (earlyRound 0) 1000] 6 := by
  constructor
  · intro checks
    have checked := (checks orphanHash).mpr (recent_earlyRound 1000 (by decide))
    exact absurd checked (by decide +kernel)
  · intro checks
    have checked := (checks orphanHash).mpr (recent_earlyRound 0 (by decide))
    exact absurd checked (by decide +kernel)

end PrimePool.Core

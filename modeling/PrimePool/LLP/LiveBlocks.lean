import Mathlib.Data.List.Nodup
import PrimePool.General.Machine
import PrimePool.General.TreeMap
import PrimePool.LLP.PoolConnection

/-!
# The submitted block

Whether `SUBMISSION_BLOCK` points to a block of `MAP_BLOCKS`. The pool thread sets the pointer, the daemon thread
takes it, and a generic event after a new block deletes what it points to.
-/

namespace PrimePool.LLP

open PrimePool.Core PrimePool.General Std

structure LiveState where
  connection : PoolConnection
  nObjects : Nat

/-- What the threads do to the connection of a client that is logged in. The globals that decide a step are part of its
event. -/
inductive BlockEvent where
  | newBlock
  | getBlock
  | blockData (BLOCK : CBlock)
  | generic (fSubmittingBlock : Bool)
  | submitShare (hashPrimeOrigin : Uint1024) (nNonce : UInt64) (nBestHeight : UInt32) (fBlock : Bool)
  | scan

namespace LiveState

def start : LiveState := { connection := .new, nObjects := 0 }

variable (getHash : CBlock → Uint1024)

def step (s : LiveState) : BlockEvent → Option LiveState
  | .newBlock => some { s with connection.fNewBlock := true }
  | .getBlock => some { s with connection := s.connection.getBlock }
  | .blockData BLOCK =>
      some { connection := s.connection.addBlock { object := s.nObjects, BLOCK }, nObjects := s.nObjects + 1 }
  | .generic fSubmittingBlock => some { s with connection := s.connection.generic getHash fSubmittingBlock }
  | .submitShare hashPrimeOrigin nNonce nBestHeight fBlock =>
      if (s.connection.findBlock nBestHeight hashPrimeOrigin).isSome ∧ fBlock then
        some { s with connection := s.connection.submitBlock hashPrimeOrigin nNonce }
      else some s
  | .scan => some { s with connection := s.connection.scan }

end LiveState

namespace PoolConnection

def objectAt (connection : PoolConnection) (hashBlock : Uint1024) : Option Nat :=
  connection.MAP_BLOCKS[hashBlock]?.map HeapBlock.object

def Live (connection : PoolConnection) : Prop :=
  ∀ object ∈ connection.SUBMISSION_BLOCK, ∃ hashBlock, connection.objectAt hashBlock = some object

theorem mem_of_objectAt {connection : PoolConnection} {hashBlock : Uint1024} {object : Nat}
    (held : connection.objectAt hashBlock = some object) : hashBlock ∈ connection.MAP_BLOCKS := by
  obtain ⟨BLOCK, found, -⟩ := Option.map_eq_some_iff.mp held
  exact mem_of_getElem? found

instance (connection : PoolConnection) : Decidable connection.Live :=
  decidable_of_iff
    (∀ object ∈ connection.SUBMISSION_BLOCK, ∃ hashBlock ∈ connection.MAP_BLOCKS.keys,
      connection.objectAt hashBlock = some object)
    ⟨fun live object pending => (live object pending).imp fun _ held => held.2, fun live object pending =>
      (live object pending).imp fun _ held => ⟨ExtTreeMap.mem_keys.mpr (mem_of_objectAt held), held⟩⟩

/-- Nothing is allocated twice, and no block is on the stack and in the map, or in the map twice. -/
structure Apart (connection : PoolConnection) (nObjects : Nat) : Prop where
  allocated (BLOCK : HeapBlock) : BLOCK ∈ connection.NEW_BLOCKS → BLOCK.object < nObjects
  distinct : (connection.NEW_BLOCKS.map HeapBlock.object).Nodup
  held (hashBlock : Uint1024) (object : Nat) : connection.objectAt hashBlock = some object →
    object < nObjects ∧ ∀ BLOCK ∈ connection.NEW_BLOCKS, BLOCK.object ≠ object
  once (first second : Uint1024) (object : Nat) : connection.objectAt first = some object →
    connection.objectAt second = some object → first = second
  pending (object : Nat) : object ∈ connection.SUBMISSION_BLOCK →
    object < nObjects ∧ ∀ BLOCK ∈ connection.NEW_BLOCKS, BLOCK.object ≠ object

variable {connection after : PoolConnection} {nObjects : Nat}

theorem apart_new : Apart .new 0 where
  allocated _ pushed := nomatch pushed
  distinct := List.nodup_nil
  held _ _ held := by simp [objectAt, new] at held
  once _ _ _ held := by simp [objectAt, new] at held
  pending _ pending := nomatch pending

theorem Apart.of_same (apart : connection.Apart nObjects) (objects : after.objectAt = connection.objectAt)
    (stack : after.NEW_BLOCKS = connection.NEW_BLOCKS)
    (submission : ∀ object ∈ after.SUBMISSION_BLOCK,
      object ∈ connection.SUBMISSION_BLOCK ∨ ∃ hashBlock, connection.objectAt hashBlock = some object) :
    after.Apart nObjects where
  allocated := stack ▸ apart.allocated
  distinct := stack ▸ apart.distinct
  held := objects ▸ stack ▸ apart.held
  once := objects ▸ apart.once
  pending object pending := by
    rw [stack]
    rcases submission object pending with before | ⟨hashBlock, held⟩
    · exact apart.pending object before
    · exact apart.held hashBlock object held

theorem Live.of_same (live : connection.Live) (objects : after.objectAt = connection.objectAt)
    (submission : ∀ object ∈ after.SUBMISSION_BLOCK,
      object ∈ connection.SUBMISSION_BLOCK ∨ ∃ hashBlock, connection.objectAt hashBlock = some object) :
    after.Live := by
  intro object pending
  rw [objects]
  rcases submission object pending with before | held
  · exact live object before
  · exact held

variable {getHash : CBlock → Uint1024}

theorem objectAt_sendBlocks (getHash : CBlock → Uint1024) (connection : PoolConnection) (hashBlock : Uint1024) :
    (∃ BLOCK ∈ connection.NEW_BLOCKS, getHash BLOCK.BLOCK = hashBlock ∧
        (connection.sendBlocks getHash).objectAt hashBlock = some BLOCK.object) ∨
      (∀ BLOCK ∈ connection.NEW_BLOCKS, getHash BLOCK.BLOCK ≠ hashBlock) ∧
        (connection.sendBlocks getHash).objectAt hashBlock = connection.objectAt hashBlock := by
  simp only [objectAt, sendBlocks]
  rcases getElem?_foldl_insert (fun BLOCK : HeapBlock => getHash BLOCK.BLOCK) connection.NEW_BLOCKS
    connection.MAP_BLOCKS hashBlock with ⟨BLOCK, pushed, same, found⟩ | ⟨others, found⟩
  · exact Or.inl ⟨BLOCK, pushed, same, by rw [found]; rfl⟩
  · exact Or.inr ⟨others, by rw [found]⟩

theorem Apart.sendBlocks (apart : connection.Apart nObjects) (getHash : CBlock → Uint1024) :
    (connection.sendBlocks getHash).Apart nObjects where
  allocated _ pushed := nomatch pushed
  distinct := List.nodup_nil
  held hashBlock object held := by
    refine ⟨?_, fun _ pushed => nomatch pushed⟩
    rcases objectAt_sendBlocks getHash connection hashBlock with ⟨BLOCK, pushed, -, found⟩ | ⟨-, found⟩
    · rw [found] at held
      exact Option.some.inj held ▸ apart.allocated BLOCK pushed
    · exact (apart.held hashBlock object (found ▸ held)).1
  once first second object heldFirst heldSecond := by
    rcases objectAt_sendBlocks getHash connection first with ⟨one, pushedOne, hashOne, foundOne⟩ | ⟨-, foundOne⟩
    · rcases objectAt_sendBlocks getHash connection second with ⟨two, pushedTwo, hashTwo, foundTwo⟩ | ⟨-, foundTwo⟩
      · have same : one.object = two.object :=
          Option.some.inj ((foundOne.symm.trans heldFirst).trans (heldSecond.symm.trans foundTwo))
        rw [← hashOne, ← hashTwo, List.inj_on_of_nodup_map apart.distinct pushedOne pushedTwo same]
      · rw [foundOne] at heldFirst
        have apartTwo := (apart.held second object (foundTwo ▸ heldSecond)).2 one pushedOne
        exact absurd (Option.some.inj heldFirst) apartTwo
    · rcases objectAt_sendBlocks getHash connection second with ⟨two, pushedTwo, -, foundTwo⟩ | ⟨-, foundTwo⟩
      · rw [foundTwo] at heldSecond
        have apartOne := (apart.held first object (foundOne ▸ heldFirst)).2 two pushedTwo
        exact absurd (Option.some.inj heldSecond) apartOne
      · exact apart.once first second object (foundOne ▸ heldFirst) (foundTwo ▸ heldSecond)
  pending object pending := ⟨(apart.pending object pending).1, fun _ pushed => nomatch pushed⟩

theorem live_sendBlocks_iff (getHash : CBlock → Uint1024) (apart : connection.Apart nObjects) (live : connection.Live) :
    (connection.sendBlocks getHash).Live ↔ ∀ object ∈ connection.SUBMISSION_BLOCK,
      ∀ BLOCK ∈ connection.NEW_BLOCKS, connection.objectAt (getHash BLOCK.BLOCK) ≠ some object := by
  constructor
  · intro after object pending BLOCK pushed held
    obtain ⟨hashBlock, stillHeld⟩ := after object pending
    rcases objectAt_sendBlocks getHash connection hashBlock with ⟨other, otherPushed, -, found⟩ | ⟨others, found⟩
    · rw [found] at stillHeld
      exact (apart.pending object pending).2 other otherPushed (Option.some.inj stillHeld)
    · rw [found] at stillHeld
      exact others BLOCK pushed (apart.once _ _ object held stillHeld)
  · intro keeps object pending
    obtain ⟨hashBlock, held⟩ := live object pending
    rcases objectAt_sendBlocks getHash connection hashBlock with ⟨BLOCK, pushed, same, -⟩ | ⟨-, found⟩
    · exact absurd (same ▸ held) (keeps object pending BLOCK pushed)
    · exact ⟨hashBlock, found.trans held⟩

theorem Apart.clear (apart : connection.Apart nObjects) : connection.clear.Apart nObjects where
  allocated _ pushed := nomatch pushed
  distinct := List.nodup_nil
  held _ _ held := by simp [objectAt, PoolConnection.clear] at held
  once _ _ _ held := by simp [objectAt, PoolConnection.clear] at held
  pending object pending := ⟨(apart.pending object pending).1, fun _ pushed => nomatch pushed⟩

theorem live_clear_iff : connection.clear.Live ↔ connection.SUBMISSION_BLOCK = none := by
  constructor
  · intro live
    cases pending : connection.SUBMISSION_BLOCK with
    | none => rfl
    | some object =>
        obtain ⟨hashBlock, held⟩ := live object pending
        simp [objectAt, PoolConnection.clear] at held
  · intro nothing object pending
    rw [show connection.clear.SUBMISSION_BLOCK = none from nothing] at pending
    cases pending

theorem Apart.addBlock (apart : connection.Apart nObjects) (BLOCK : CBlock) :
    (connection.addBlock { object := nObjects, BLOCK }).Apart (nObjects + 1) where
  allocated other pushed := by
    rcases List.mem_cons.mp pushed with rfl | before
    · exact Nat.lt_succ_self nObjects
    · exact Nat.lt_succ_of_lt (apart.allocated other before)
  distinct := by
    refine List.nodup_cons.mpr ⟨fun member => ?_, apart.distinct⟩
    obtain ⟨other, pushed, same⟩ := List.mem_map.mp member
    exact Nat.ne_of_lt (apart.allocated other pushed) same
  held hashBlock object held := by
    obtain ⟨before, others⟩ := apart.held hashBlock object held
    refine ⟨Nat.lt_succ_of_lt before, fun other pushed => ?_⟩
    rcases List.mem_cons.mp pushed with rfl | earlier
    · exact Nat.ne_of_gt before
    · exact others other earlier
  once := apart.once
  pending object pending := by
    obtain ⟨before, others⟩ := apart.pending object pending
    refine ⟨Nat.lt_succ_of_lt before, fun other pushed => ?_⟩
    rcases List.mem_cons.mp pushed with rfl | earlier
    · exact Nat.ne_of_gt before
    · exact others other earlier

theorem objectAt_submitBlock (connection : PoolConnection) (hashPrimeOrigin : Uint1024) (nNonce : UInt64) :
    (connection.submitBlock hashPrimeOrigin nNonce).objectAt = connection.objectAt := by
  funext hashBlock
  simp only [objectAt, submitBlock, ExtTreeMap.getElem?_modify]
  split
  · rename_i same
    rw [LawfulEqCmp.compare_eq_iff_eq.mp same, Option.map_map]
    rfl
  · rfl

theorem submission_submitBlock {hashPrimeOrigin : Uint1024} {nNonce : UInt64} {object : Nat}
    (pending : object ∈ (connection.submitBlock hashPrimeOrigin nNonce).SUBMISSION_BLOCK) :
    object ∈ connection.SUBMISSION_BLOCK ∨ ∃ hashBlock, connection.objectAt hashBlock = some object := by
  simp only [submitBlock] at pending
  split at pending
  · rename_i before found
    rw [found]
    exact Or.inl pending
  · exact Or.inr ⟨hashPrimeOrigin, pending⟩

end PoolConnection

namespace LiveState

open PoolConnection

variable {getHash : CBlock → Uint1024} {s after : LiveState}

/-- A pending block survives the event: it is not cleared away, and no block from the stack takes its place. -/
def KeepsPending (getHash : CBlock → Uint1024) (s : LiveState) : BlockEvent → Prop
  | .generic fSubmittingBlock =>
      ∀ object ∈ s.connection.SUBMISSION_BLOCK,
        (s.connection.fNewBlock = true → fSubmittingBlock = true) ∧
          (s.connection.fNewBlock = false → ∀ BLOCK ∈ s.connection.NEW_BLOCKS,
            s.connection.objectAt (getHash BLOCK.BLOCK) ≠ some object)
  | _ => True

def Apart (s : LiveState) : Prop := s.connection.Apart s.nObjects

theorem apart_generic (apart : s.Apart) (fSubmittingBlock : Bool) :
    (s.connection.generic getHash fSubmittingBlock).Apart s.nObjects := by
  unfold generic
  split
  · split
    · exact apart
    · have cleared : PoolConnection.Apart { s.connection.clear with fNewBlock := false } s.nObjects :=
        (PoolConnection.Apart.clear apart).of_same rfl rfl fun _ pending => Or.inl pending
      exact cleared.sendBlocks getHash
  · exact PoolConnection.Apart.sendBlocks apart getHash

theorem live_generic_iff (apart : s.Apart) (live : s.connection.Live) (fSubmittingBlock : Bool) :
    (s.connection.generic getHash fSubmittingBlock).Live ↔ KeepsPending getHash s (.generic fSubmittingBlock) := by
  unfold generic
  cases flag : s.connection.fNewBlock with
  | false =>
      have sends := live_sendBlocks_iff getHash apart live
      simp only [KeepsPending, flag, Bool.false_eq_true, false_implies, true_and, true_implies, if_false]
      exact sends
  | true =>
      cases fSubmittingBlock with
      | true =>
          simp only [KeepsPending, flag, if_true, implies_true, Bool.true_eq_false, false_implies, and_true, iff_true]
          exact live
      | false =>
          simp only [KeepsPending, flag, if_true, Bool.false_eq_true, if_false, forall_const,
            Bool.true_eq_false, false_implies, and_true]
          have cleared : ({ s.connection.clear with fNewBlock := false }.sendBlocks getHash).Live ↔
              s.connection.SUBMISSION_BLOCK = none := live_clear_iff
          exact cleared.trans Option.eq_none_iff_forall_not_mem

theorem step_exact (event : BlockEvent) (apart : s.Apart) (live : s.connection.Live)
    (taken : s.step getHash event = some after) :
    after.Apart ∧ (after.connection.Live ↔ KeepsPending getHash s event) := by
  cases event with
  | newBlock | getBlock =>
      cases taken
      exact ⟨PoolConnection.Apart.of_same apart rfl rfl fun _ pending => Or.inl pending, iff_of_true live trivial⟩
  | blockData BLOCK =>
      cases taken
      exact ⟨PoolConnection.Apart.addBlock apart BLOCK, iff_of_true live trivial⟩
  | generic fSubmittingBlock =>
      cases taken
      exact ⟨apart_generic apart fSubmittingBlock, live_generic_iff apart live fSubmittingBlock⟩
  | submitShare hashPrimeOrigin nNonce nBestHeight fBlock =>
      simp only [step] at taken
      split at taken
      · cases taken
        have objects := objectAt_submitBlock s.connection hashPrimeOrigin nNonce
        exact ⟨PoolConnection.Apart.of_same apart objects rfl fun _ => submission_submitBlock,
          iff_of_true (live.of_same objects fun _ => submission_submitBlock) trivial⟩
      · cases taken
        exact ⟨apart, iff_of_true live trivial⟩
  | scan =>
      cases taken
      have submission : ∀ object ∈ s.connection.scan.SUBMISSION_BLOCK, object ∈ s.connection.SUBMISSION_BLOCK ∨
          ∃ hashBlock, s.connection.objectAt hashBlock = some object := by
        intro object pending
        unfold scan at pending
        split at pending
        · cases pending
        · exact Or.inl pending
      have objects : s.connection.scan.objectAt = s.connection.objectAt := by
        unfold scan
        split
        · rfl
        · rfl
      have stack : s.connection.scan.NEW_BLOCKS = s.connection.NEW_BLOCKS := by
        unfold scan
        split
        · rfl
        · rfl
      exact ⟨PoolConnection.Apart.of_same apart objects stack submission,
        iff_of_true (live.of_same objects submission) trivial⟩

/-- The submitted block is live in every state of a run exactly when every generic event of the run leaves the
block pending at that time in its place. -/
theorem live_iff (getHash : CBlock → Uint1024) (events : List BlockEvent) :
    EachStep (step getHash) (fun _ _ s => s.connection.Live) events start ↔
      EachStep (step getHash) (fun s event _ => KeepsPending getHash s event) events start :=
  EachStep.iff_of_exact_under Apart (fun s => s.connection.Live)
    (fun _ event _ apart live taken => step_exact event apart live taken) apart_new nofun

theorem submitted_block_deleted :
    ¬ EachStep (step sampleHash) (fun _ _ s => s.connection.Live)
      [.getBlock, .scan, .blockData (sampleBlock 5 7), .generic false,
        .submitShare (sampleHash (sampleBlock 5 7)) 1 5 true, .newBlock, .generic false] start := by
  decide +kernel

end LiveState

end PrimePool.LLP

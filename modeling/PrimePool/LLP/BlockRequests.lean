import PrimePool.General.Machine
import PrimePool.LLP.PoolConnection
import Mathlib.Algebra.BigOperators.Group.List.Basic
import Mathlib.Algebra.Order.Ring.Nat

/-!
# Block requests

The requests a daemon handle sends for its connections, and `nBlocksWaiting`, which counts the answers each of them
is owed. The daemon thread tests the counter and decrements it in two steps, and the threads of the connections may
act in between; `CONNECTION_MUTEX` keeps connections from coming and going there. A `GET_BLOCK` counts as answered
when its `BLOCK_DATA` has been handled. Only clients that are logged in get blocks.
-/

namespace PrimePool.LLP

open PrimePool.Core PrimePool.General

/-- Where the daemon thread is in its handler of `BLOCK_DATA`. -/
inductive Handling where
  | idle
  | testing (BLOCK : HeapBlock) (nIndex : Nat)
  | adding (BLOCK : HeapBlock) (nIndex : Nat)

structure DaemonHandle where
  CONNECTIONS : List (Option PoolConnection)
  nUnanswered : Nat
  handling : Handling
  nObjects : Nat

inductive RequestEvent where
  | connect
  | disconnect (nID : Nat)
  | getBlock (nID : Nat)
  | generic (nID : Nat) (fSubmittingBlock : Bool)
  | newBlock
  | requestBlocks (nID : Nat)
  | blockData (BLOCK : CBlock) (nBestHeight : UInt32)
  | test
  | addBlock
  | reconnect

namespace DaemonHandle

def start : DaemonHandle := { CONNECTIONS := [], nUnanswered := 0, handling := .idle, nObjects := 0 }

def isIdle (handle : DaemonHandle) : Bool :=
  match handle.handling with
  | .idle => true
  | _ => false

def connection (handle : DaemonHandle) (nID : Nat) : Option PoolConnection := handle.CONNECTIONS[nID]?.join

def setConnection (handle : DaemonHandle) (nID : Nat) (connection : Option PoolConnection) : DaemonHandle :=
  { handle with CONNECTIONS := handle.CONNECTIONS.set nID connection }

def assignConnection (handle : DaemonHandle) (connection : PoolConnection) : DaemonHandle :=
  { handle with
    CONNECTIONS :=
      match handle.CONNECTIONS.findIdx? Option.isNone with
      | some nID => handle.CONNECTIONS.set nID (some connection)
      | none => handle.CONNECTIONS ++ [some connection] }

variable (getHash : CBlock → Uint1024)

def step (handle : DaemonHandle) : RequestEvent → Option DaemonHandle
  | .connect => if handle.isIdle then some (handle.assignConnection .new) else none
  | .disconnect nID => if handle.isIdle then some (handle.setConnection nID none) else none
  | .getBlock nID => do
      let connection ← handle.connection nID
      return handle.setConnection nID (some connection.getBlock)
  | .generic nID fSubmittingBlock => do
      let connection ← handle.connection nID
      return handle.setConnection nID (some (connection.generic getHash fSubmittingBlock))
  | .newBlock =>
      if handle.isIdle then
        some { handle with
          CONNECTIONS := handle.CONNECTIONS.map (Option.map fun connection => { connection with fNewBlock := true }) }
      else none
  | .requestBlocks nID => do
      let connection ← handle.connection nID
      if handle.isIdle then
        let handle := { handle with nUnanswered := handle.nUnanswered + connection.nBlockRequests.toNat }
        return handle.setConnection nID (some connection.requestBlocks)
      else none
  | .blockData BLOCK nBestHeight =>
      if handle.isIdle ∧ 0 < handle.nUnanswered then
        if BLOCK.nHeight = nBestHeight then
          some { handle with
            handling := .testing { object := handle.nObjects, BLOCK } 0
            nObjects := handle.nObjects + 1 }
        -- the answer is obsolete, and another block is requested in its place
        else some handle
      else none
  | .test =>
      match handle.handling with
      | .testing BLOCK nIndex =>
          if nIndex < handle.CONNECTIONS.length then
            if (handle.connection nIndex).any fun connection => 0 < connection.nBlocksWaiting then
              some { handle with handling := .adding BLOCK nIndex }
            else some { handle with handling := .testing BLOCK (nIndex + 1) }
          else some { handle with handling := .idle, nUnanswered := handle.nUnanswered - 1 }
      | _ => none
  | .addBlock =>
      match handle.handling with
      | .adding BLOCK nIndex => do
          let connection ← handle.connection nIndex
          let handle := { handle with handling := .idle, nUnanswered := handle.nUnanswered - 1 }
          return handle.setConnection nIndex (some (connection.addBlock BLOCK))
      | _ => none
  | .reconnect => if handle.isIdle then some { handle with nUnanswered := 0 } else none

def waiting (connection : Option PoolConnection) : Nat :=
  match connection with
  | none => 0
  | some connection => connection.nBlocksWaiting.toNat

def nWaiting (handle : DaemonHandle) : Nat := (handle.CONNECTIONS.map waiting).sum

/-- The decrement of `AddBlock` does not wrap. -/
def NoWrap (handle : DaemonHandle) : RequestEvent → Prop
  | .addBlock =>
      ∀ BLOCK nIndex, handle.handling = .adding BLOCK nIndex →
        ∀ connection ∈ handle.connection nIndex, connection.nBlocksWaiting ≠ 0
  | _ => True

/-- No connection is cleared between its test and its `AddBlock`, and the link is not replaced while answers are
owed. -/
def Undisturbed (handle : DaemonHandle) : RequestEvent → Prop
  | .generic nID fSubmittingBlock =>
      ∀ BLOCK, handle.handling = .adding BLOCK nID →
        ∀ connection ∈ handle.connection nID, connection.fNewBlock = true → fSubmittingBlock = true
  | .reconnect => handle.nWaiting = 0
  | _ => True

structure Owed (handle : DaemonHandle) : Prop where
  bounded : handle.nWaiting ≤ handle.nUnanswered
  answering : handle.isIdle = false → 0 < handle.nUnanswered
  tested (BLOCK : HeapBlock) (nIndex : Nat) : handle.handling = .testing BLOCK nIndex →
    ∀ nID < nIndex, waiting (handle.connection nID) = 0
  found (BLOCK : HeapBlock) (nIndex : Nat) : handle.handling = .adding BLOCK nIndex →
    0 < waiting (handle.connection nIndex)

variable {handle after : DaemonHandle} {connection changed : PoolConnection} {nID : Nat}

theorem sum_map_set (connections : List (Option PoolConnection)) {nID : Nat} (inside : nID < connections.length)
    (changed : Option PoolConnection) :
    ((connections.set nID changed).map waiting).sum + waiting connections[nID] =
      (connections.map waiting).sum + waiting changed := by
  induction connections generalizing nID with
  | nil => cases inside
  | cons connection connections ih =>
      cases nID with
      | zero =>
          simp only [List.set_cons_zero, List.map_cons, List.sum_cons, List.getElem_cons_zero]
          omega
      | succ nID =>
          have rest := ih (Nat.lt_of_succ_lt_succ inside)
          simp only [List.set_cons_succ, List.map_cons, List.sum_cons, List.getElem_cons_succ]
          omega

theorem nWaiting_setConnection (found : handle.connection nID = some connection) (changed : Option PoolConnection) :
    (handle.setConnection nID changed).nWaiting + connection.nBlocksWaiting.toNat =
      handle.nWaiting + waiting changed := by
  obtain ⟨inside, stored⟩ := List.getElem?_eq_some_iff.mp (Option.join_eq_some_iff.mp found)
  have sum := sum_map_set handle.CONNECTIONS inside changed
  rw [stored] at sum
  exact sum

theorem connection_setConnection (found : handle.connection nID = some connection) (other : Nat)
    (changed : Option PoolConnection) :
    (handle.setConnection nID changed).connection other =
      if nID = other then changed else handle.connection other := by
  obtain ⟨inside, -⟩ := List.getElem?_eq_some_iff.mp (Option.join_eq_some_iff.mp found)
  simp only [DaemonHandle.connection, setConnection, List.getElem?_set]
  split
  · rename_i same
    subst same
    rfl
  · rfl

/-- A thread of a connection may lower the counter, except the one `AddBlock` is about to decrement. -/
theorem Owed.setConnection (owed : handle.Owed) (found : handle.connection nID = some connection)
    (fewer : changed.nBlocksWaiting.toNat ≤ connection.nBlocksWaiting.toNat)
    (keeps : ∀ BLOCK, handle.handling = .adding BLOCK nID → 0 < changed.nBlocksWaiting.toNat) :
    (handle.setConnection nID (some changed)).Owed where
  bounded := by
    have sum := nWaiting_setConnection found (some changed)
    have bounded := owed.bounded
    simp only [waiting] at sum
    have same : (handle.setConnection nID (some changed)).nUnanswered = handle.nUnanswered := rfl
    omega
  answering := owed.answering
  tested BLOCK nIndex testing other before := by
    have none := owed.tested BLOCK nIndex testing other before
    rw [connection_setConnection found]
    split
    · rename_i same
      subst same
      rw [found] at none
      exact Nat.eq_zero_of_le_zero (fewer.trans (Nat.le_of_eq none))
    · exact none
  found BLOCK nIndex adding := by
    rw [connection_setConnection found]
    split
    · rename_i same
      subst same
      exact keeps BLOCK adding
    · exact owed.found BLOCK nIndex adding

theorem nBlocksWaiting_generic (getHash : CBlock → Uint1024) (connection : PoolConnection) (fSubmittingBlock : Bool) :
    (connection.generic getHash fSubmittingBlock).nBlocksWaiting =
      if connection.fNewBlock = true ∧ fSubmittingBlock = false then 0 else connection.nBlocksWaiting := by
  cases flag : connection.fNewBlock <;> cases fSubmittingBlock <;>
    simp [PoolConnection.generic, flag, PoolConnection.sendBlocks, PoolConnection.clear]

theorem handling_of_isIdle (idle : handle.isIdle = true) : handle.handling = .idle := by
  unfold isIdle at idle
  split at idle
  · assumption
  · cases idle

theorem Owed.of_idle (idle : handle.isIdle = true) (bounded : handle.nWaiting ≤ handle.nUnanswered) : handle.Owed where
  bounded := bounded
  answering busy := by
    rw [idle] at busy
    cases busy
  tested BLOCK nIndex testing := by
    rw [handling_of_isIdle idle] at testing
    cases testing
  found BLOCK nIndex adding := by
    rw [handling_of_isIdle idle] at adding
    cases adding

theorem nWaiting_assignConnection (handle : DaemonHandle) :
    (handle.assignConnection .new).nWaiting = handle.nWaiting := by
  simp only [nWaiting, assignConnection]
  split
  · rename_i nID vacant
    obtain ⟨inside, empty, -⟩ := List.findIdx?_eq_some_iff_getElem.mp vacant
    have sum := sum_map_set handle.CONNECTIONS inside (some .new)
    rw [Option.isNone_iff_eq_none.mp empty] at sum
    exact sum
  · rw [List.map_append, List.sum_append]
    rfl

theorem nWaiting_setConnection_none_le (handle : DaemonHandle) (nID : Nat) :
    (handle.setConnection nID none).nWaiting ≤ handle.nWaiting := by
  by_cases inside : nID < handle.CONNECTIONS.length
  · have sum := sum_map_set handle.CONNECTIONS inside none
    exact Nat.le_of_add_right_le (Nat.le_of_eq sum)
  · have same : handle.CONNECTIONS.set nID none = handle.CONNECTIONS :=
      List.set_eq_of_length_le (Nat.le_of_not_lt inside)
    exact Nat.le_of_eq (congrArg (fun connections => (connections.map waiting).sum) same)

theorem nWaiting_newBlock (handle : DaemonHandle) :
    ((handle.CONNECTIONS.map (Option.map fun connection => { connection with fNewBlock := true })).map waiting).sum =
      handle.nWaiting := by
  rw [List.map_map, nWaiting]
  congr 1
  apply List.map_congr_left
  intro connection member
  cases connection with
  | none => rfl
  | some connection => rfl

theorem nWaiting_eq_zero (none : ∀ nID, waiting (handle.connection nID) = 0) : handle.nWaiting = 0 := by
  apply List.sum_eq_zero
  intro count member
  obtain ⟨connection, stored, rfl⟩ := List.mem_map.mp member
  obtain ⟨nID, inside, rfl⟩ := List.getElem_of_mem stored
  have empty := none nID
  rwa [DaemonHandle.connection, List.getElem?_eq_getElem inside] at empty

theorem Owed.requestBlocks (owed : handle.Owed) (idle : handle.isIdle = true)
    (found : handle.connection nID = some connection) :
    Owed ({ handle with nUnanswered := handle.nUnanswered + connection.nBlockRequests.toNat }.setConnection nID
      (some connection.requestBlocks)) := by
  refine Owed.of_idle idle ?_
  have sum := nWaiting_setConnection found (some connection.requestBlocks)
  have bounded := owed.bounded
  have added : connection.requestBlocks.nBlocksWaiting.toNat ≤
      connection.nBlocksWaiting.toNat + connection.nBlockRequests.toNat := by
    simp only [PoolConnection.requestBlocks, UInt32.toNat_add]
    exact Nat.mod_le _ _
  simp only [waiting] at sum
  have nWaiting : ({ handle with nUnanswered := handle.nUnanswered + connection.nBlockRequests.toNat }.setConnection
      nID (some connection.requestBlocks)).nWaiting =
      (handle.setConnection nID (some connection.requestBlocks)).nWaiting := rfl
  have nUnanswered : ({ handle with nUnanswered := handle.nUnanswered + connection.nBlockRequests.toNat }.setConnection
      nID (some connection.requestBlocks)).nUnanswered =
      handle.nUnanswered + connection.nBlockRequests.toNat := rfl
  omega

theorem waiting_pos_iff (connection : Option PoolConnection) :
    0 < waiting connection ↔ (connection.any fun connection => 0 < connection.nBlocksWaiting) = true := by
  cases connection with
  | none => exact ⟨fun positive => absurd positive (Nat.lt_irrefl 0), nofun⟩
  | some connection => simp [waiting, UInt32.lt_iff_toNat_lt]

theorem Owed.test (getHash : CBlock → Uint1024) (owed : handle.Owed)
    (taken : handle.step getHash .test = some after) : after.Owed := by
  simp only [step] at taken
  split at taken
  · rename_i BLOCK nIndex testing
    have busy : handle.isIdle = false := by rw [isIdle, testing]
    have before := owed.tested BLOCK nIndex testing
    split at taken
    · split at taken
      · rename_i waits
        cases taken
        refine ⟨owed.bounded, fun _ => owed.answering busy, nofun, fun other nID adding => ?_⟩
        cases adding
        exact (waiting_pos_iff _).mpr waits
      · rename_i satisfied
        cases taken
        refine ⟨owed.bounded, fun _ => owed.answering busy, fun other nID next => ?_, nofun⟩
        cases next
        intro nID earlier
        rcases Nat.lt_or_eq_of_le (Nat.le_of_lt_succ earlier) with less | rfl
        · exact before nID less
        · exact Nat.eq_zero_of_not_pos fun positive => satisfied ((waiting_pos_iff _).mp positive)
    · rename_i outside
      cases taken
      -- every counter was zero when it was tested, and the threads of the connections only lower them
      have none : handle.nWaiting = 0 := by
        apply nWaiting_eq_zero
        intro nID
        by_cases earlier : nID < nIndex
        · exact before nID earlier
        · rw [DaemonHandle.connection, List.getElem?_eq_none (by omega)]
          rfl
      exact Owed.of_idle rfl (Nat.le_trans (Nat.le_of_eq none) (Nat.zero_le _))
  · cases taken

theorem Owed.addBlock (getHash : CBlock → Uint1024) (owed : handle.Owed)
    (taken : handle.step getHash .addBlock = some after) : after.Owed := by
  simp only [step] at taken
  split at taken
  · rename_i BLOCK nIndex adding
    obtain ⟨connection, found, made⟩ := Option.bind_eq_some_iff.mp taken
    cases made
    have positive := owed.found BLOCK nIndex adding
    rw [found] at positive
    have sum := nWaiting_setConnection found (some (connection.addBlock BLOCK))
    have bounded := owed.bounded
    have fewer : (connection.addBlock BLOCK).nBlocksWaiting.toNat = connection.nBlocksWaiting.toNat - 1 := by
      simp only [waiting] at positive
      rw [PoolConnection.addBlock, UInt32.toNat_sub_of_le]
      · rfl
      · rw [UInt32.le_iff_toNat_le]
        exact positive
    apply Owed.of_idle rfl
    simp only [waiting] at sum positive
    have nWaiting : ({ handle with handling := .idle, nUnanswered := handle.nUnanswered - 1 }.setConnection nIndex
        (some (connection.addBlock BLOCK))).nWaiting =
        (handle.setConnection nIndex (some (connection.addBlock BLOCK))).nWaiting := rfl
    have nUnanswered : ({ handle with handling := .idle, nUnanswered := handle.nUnanswered - 1 }.setConnection nIndex
        (some (connection.addBlock BLOCK))).nUnanswered = handle.nUnanswered - 1 := rfl
    omega
  · cases taken

theorem Owed.step (getHash : CBlock → Uint1024) (event : RequestEvent) (owed : handle.Owed)
    (taken : handle.step getHash event = some after) (undisturbed : handle.Undisturbed event) :
    after.Owed := by
  cases event with
  | connect =>
      obtain ⟨idle, made⟩ := Option.ite_none_right_eq_some.mp taken
      cases made
      exact Owed.of_idle idle (Nat.le_trans (Nat.le_of_eq (nWaiting_assignConnection handle)) owed.bounded)
  | disconnect nID =>
      obtain ⟨idle, made⟩ := Option.ite_none_right_eq_some.mp taken
      cases made
      exact Owed.of_idle idle (Nat.le_trans (nWaiting_setConnection_none_le handle nID) owed.bounded)
  | getBlock nID =>
      obtain ⟨connection, found, made⟩ := Option.bind_eq_some_iff.mp taken
      cases made
      refine owed.setConnection found (Nat.le_refl _) fun BLOCK adding => ?_
      have positive := owed.found BLOCK nID adding
      rwa [found] at positive
  | generic nID fSubmittingBlock =>
      obtain ⟨connection, found, made⟩ := Option.bind_eq_some_iff.mp taken
      cases made
      have counter := nBlocksWaiting_generic getHash connection fSubmittingBlock
      refine owed.setConnection found ?_ fun BLOCK adding => ?_
      · rw [counter]
        split
        · exact Nat.zero_le _
        · exact Nat.le_refl _
      · have positive := owed.found BLOCK nID adding
        rw [found] at positive
        rw [counter, if_neg]
        · exact positive
        · rintro ⟨cleared, free⟩
          rw [undisturbed BLOCK adding connection found cleared] at free
          cases free
  | newBlock =>
      obtain ⟨idle, made⟩ := Option.ite_none_right_eq_some.mp taken
      cases made
      exact Owed.of_idle idle (Nat.le_trans (Nat.le_of_eq (nWaiting_newBlock handle)) owed.bounded)
  | requestBlocks nID =>
      obtain ⟨connection, found, made⟩ := Option.bind_eq_some_iff.mp taken
      obtain ⟨idle, made⟩ := Option.ite_none_right_eq_some.mp made
      cases made
      exact owed.requestBlocks idle found
  | blockData BLOCK nBestHeight =>
      obtain ⟨⟨idle, positive⟩, made⟩ := Option.ite_none_right_eq_some.mp taken
      split at made
      · cases made
        refine ⟨owed.bounded, fun _ => positive, fun other nIndex testing => ?_, nofun⟩
        cases testing
        exact fun nID before => absurd before (Nat.not_lt_zero nID)
      · cases made
        exact owed
  | test => exact owed.test getHash taken
  | addBlock => exact owed.addBlock getHash taken
  | reconnect =>
      obtain ⟨idle, made⟩ := Option.ite_none_right_eq_some.mp taken
      cases made
      exact Owed.of_idle idle (Nat.le_of_eq undisturbed)

theorem noWrap_of_owed (owed : handle.Owed) (event : RequestEvent) : handle.NoWrap event := by
  cases event with
  | addBlock =>
      intro BLOCK nIndex adding connection found none
      have positive := owed.found BLOCK nIndex adding
      rw [found, waiting, none] at positive
      exact absurd positive (Nat.lt_irrefl 0)
  | _ => trivial

/-- In a run without such a disturbance no decrement wraps, and no more answers are awaited than are owed. -/
theorem requests_accounted (getHash : CBlock → Uint1024) (events : List RequestEvent)
    (undisturbed : EachStep (step getHash) (fun handle event _ => handle.Undisturbed event) events start) :
    EachStep (step getHash) (fun handle event after => handle.NoWrap event ∧ after.nWaiting ≤ after.nUnanswered)
      events start := by
  refine EachStep.of_invariant Owed ?_ (Owed.of_idle rfl (Nat.le_refl 0)) undisturbed
  intro handle event after owed taken meets
  have next := owed.step getHash event taken meets
  exact ⟨next, noWrap_of_owed owed event, next.bounded⟩

theorem requests_accounted_single :
    EachStep (step sampleHash) (fun handle event after => handle.NoWrap event ∧ after.nWaiting ≤ after.nUnanswered)
      [.connect, .getBlock 0, .requestBlocks 0, .generic 0 false, .blockData (sampleBlock 5 7) 5, .test, .addBlock,
        .reconnect] start :=
  requests_accounted sampleHash _
    ⟨trivial, trivial, trivial, nofun, trivial, trivial, trivial, rfl, trivial⟩

theorem cleared_before_addBlock :
    ¬ EachStep (step sampleHash) (fun handle event after => handle.NoWrap event ∧ after.nWaiting ≤ after.nUnanswered)
      [.connect, .getBlock 0, .requestBlocks 0, .newBlock, .blockData (sampleBlock 5 7) 5, .test, .generic 0 false,
        .addBlock] start := by
  intro accounted
  have sums := EachStep.of_invariant (Q := fun _ _ after => after.nWaiting ≤ after.nUnanswered) (fun _ => True)
    (fun _ _ _ _ _ met => ⟨trivial, met.2⟩) trivial accounted
  exact absurd sums (by decide +kernel)

end DaemonHandle

end PrimePool.LLP

import PrimePool.Core.SubmissionAnswer

/-!
# The block finder

`LAST_ROUND_BLOCKFINDER` and `nLastBlockFound` are set when a `SUBMIT_BLOCK` is sent and not when it is answered, so
that a request that fails leaves its own finder behind.
-/

namespace PrimePool.Core

open PrimePool.General PrimePool.LLD

abbrev Finder : Type := StdString × UInt32

def Submission.finder (submission : Submission) : Finder := (submission.ADDRESS, submission.BLOCK.nHeight)

def Globals.finder {D : Type} (globals : Globals D) : Finder := (globals.LAST_ROUND_BLOCKFINDER, globals.nLastBlockFound)

/-- The pool with the submission that was sent last and the one that was answered `GOOD` last. -/
structure Submitted (D : Type) where
  pool : Pool D
  sent : Finder
  good : Finder

namespace Pool

variable {D : Type}

/-- The submission that a scan of the handle sends. -/
def sends (pool : Pool D) (nDaemon : Nat) : Option Finder := do
  let handle ← pool.DAEMON_CONNECTIONS[nDaemon]?
  let (ADDRESS, BLOCK) ← pickedUp pool.globals handle
  if BLOCK.nHeight = pool.globals.nBestHeight then return (ADDRESS, BLOCK.nHeight) else none

end Pool

namespace Submitted

variable {D : Type} {getHash : CBlock → Uint1024} {s after : Submitted D}

def start (databases : Databases) (lfPoolFee : D) (nMaxDaemons : Nat) : Submitted D where
  pool := .start databases lfPoolFee nMaxDaemons
  sent := (Pool.firstBlockfinder, 0)
  good := (Pool.firstBlockfinder, 0)

def note (s : Submitted D) (event : Event) (pool : Pool D) : Submitted D :=
  match event with
  | .daemonScan nDaemon => { s with pool, sent := (s.pool.sends nDaemon).getD s.sent }
  | .daemonPacket nDaemon .good =>
      { s with pool, good := ((s.pool.oldestSubmission nDaemon).map Submission.finder).getD s.good }
  | _ => { s with pool }

def step [Double D] (getHash : CBlock → Uint1024) (s : Submitted D) (event : Event) : Option (Submitted D) :=
  (Pool.step getHash s.pool event).map (s.note event)

def FinderOfLastGood (s : Submitted D) : Prop := s.pool.inFlight = [] → s.pool.globals.finder = s.good

instance (s : Submitted D) : Decidable s.FinderOfLastGood := inferInstanceAs (Decidable (_ → _))

/-- Where the step takes the last request in flight, the submission sent last has the finder of the last one that was
answered `GOOD`, which the step may be the answer to. -/
def LastSentIsGood (s : Submitted D) : Event → Prop
  | .daemonPacket nDaemon .good =>
      s.pool.inFlight.length = 1 → ∀ submission ∈ s.pool.oldestSubmission nDaemon, s.sent = submission.finder
  | .daemonPacket _ .fail => s.pool.inFlight.length = 1 → s.sent = s.good
  | .daemonReconnect nDaemon =>
      ∀ handle ∈ s.pool.DAEMON_CONNECTIONS[nDaemon]?,
        s.pool.inFlight.length = handle.CLIENT.submissions.length → s.sent = s.good
  | _ => True

def SentFinder (s : Submitted D) : Prop := s.pool.globals.finder = s.sent

/-! ## Requests that are taken from a handle -/

section Requests

variable {pool : Pool D} {nDaemon : Nat} {handle : DaemonHandle}

theorem inFlight_setHandle_eq_nil_iff (found : pool.DAEMON_CONNECTIONS[nDaemon]? = some handle) (handle' : DaemonHandle) :
    (pool.setHandle nDaemon handle').inFlight = [] ↔
      handle'.CLIENT.submissions = [] ∧ pool.inFlight.length = handle.CLIENT.submissions.length := by
  obtain ⟨before, behind, all, set⟩ := Pool.inFlight_split found
  rw [set, all]
  simp only [List.length_append, ← List.length_eq_zero_iff]
  omega

theorem inFlight_answer_eq_nil_iff (found : pool.DAEMON_CONNECTIONS[nDaemon]? = some handle)
    (waiting : handle.CLIENT.submissions ≠ []) :
    (pool.setHandle nDaemon { handle with CLIENT := handle.CLIENT.answerSubmission }).inFlight = [] ↔
      pool.inFlight.length = 1 := by
  have some := List.length_pos_iff.mpr waiting
  obtain ⟨before, behind, all, -⟩ := Pool.inFlight_split found
  rw [inFlight_setHandle_eq_nil_iff found, DaemonConnection.answerSubmission, ← List.length_eq_zero_iff,
    List.length_tail, all]
  simp only [List.length_append]
  omega

theorem finder_masterPacket {pool' : Pool D} {packet : MasterPacket} [Double D]
    (handled : pool.masterPacket packet = some pool') : pool'.globals.finder = pool.globals.finder := by
  cases packet with
  | blockHeight _ | newRound =>
      cases handled
      rfl
  | coinbaseSet =>
      obtain ⟨-, same⟩ := Option.ite_none_left_eq_some.mp handled
      cases same
      rfl
  | coinbaseFail =>
      obtain ⟨-, same⟩ := Option.ite_none_left_eq_some.mp handled
      cases same
      rfl
  | blockReward nReward vAccounts =>
      have kept : (blockReward pool.globals pool.databases.AccountDB vAccounts nReward).finder = pool.globals.finder := by
        rw [blockReward]
        split <;> rfl
      obtain ⟨-, built⟩ := Option.ite_none_right_eq_some.mp handled
      split at built
      · cases built
        exact kept
      · cases built
        exact kept

end Requests

/-! ## Steps -/

theorem exact_of_same {event : Event} (sentFinder : s.SentFinder) (holds : s.FinderOfLastGood)
    (finder : after.pool.globals.finder = s.pool.globals.finder) (inFlight : after.pool.inFlight = s.pool.inFlight)
    (sent : after.sent = s.sent) (good : after.good = s.good) (free : s.LastSentIsGood event) :
    after.SentFinder ∧ (after.FinderOfLastGood ↔ s.LastSentIsGood event) := by
  refine ⟨finder.trans (sentFinder.trans sent.symm), iff_of_true (fun none => ?_) free⟩
  rw [finder, good]
  exact holds (inFlight.symm.trans none)

theorem exact_of_last {event : Event} {last : Prop} (sentFinder : s.SentFinder)
    (finder : after.pool.globals.finder = s.pool.globals.finder) (sent : after.sent = s.sent)
    (empties : after.pool.inFlight = [] ↔ last) (condition : s.LastSentIsGood event ↔ (last → s.sent = after.good)) :
    after.SentFinder ∧ (after.FinderOfLastGood ↔ s.LastSentIsGood event) := by
  have same : after.pool.globals.finder = s.sent := finder.trans sentFinder
  refine ⟨same.trans sent.symm, ?_⟩
  rw [condition, FinderOfLastGood, empties, same]

theorem exact_scan {pool : Pool D} {nDaemon : Nat} {handle : DaemonHandle} (sentFinder : s.SentFinder)
    (holds : s.FinderOfLastGood) (found : s.pool.DAEMON_CONNECTIONS[nDaemon]? = some handle)
    (scanned : pool = s.pool.afterScan getHash nDaemon handle) :
    let after := { s with pool, sent := (s.pool.sends nDaemon).getD s.sent }
    after.SentFinder ∧ (after.FinderOfLastGood ↔ s.LastSentIsGood (.daemonScan nDaemon)) := by
  intro after
  have sends : s.pool.sends nDaemon = (Pool.pickedUp s.pool.globals handle).bind fun found =>
      if found.2.nHeight = s.pool.globals.nBestHeight then some (found.1, found.2.nHeight) else none := by
    rw [Pool.sends, found]
    rfl
  subst scanned
  cases Pool.scanEffect_afterScan getHash found with
  | idle picked globals inFlight =>
      have silent : after.sent = s.sent := by
        simp only [after, sends, picked, Option.bind_none, Option.getD_none]
      exact exact_of_same sentFinder holds (congrArg Globals.finder globals) inFlight silent rfl trivial
  | stale ADDRESS BLOCK picked height globals inFlight =>
      have silent : after.sent = s.sent := by
        simp only [after, sends, picked, Option.bind_some, height, if_false, Option.getD_none]
      exact exact_of_same sentFinder holds (congrArg Globals.finder globals :) inFlight silent rfl trivial
  | sent ADDRESS BLOCK picked height globals before behind inFlight inFlight' =>
      have told : after.sent = (ADDRESS, BLOCK.nHeight) := by
        simp only [after, sends, picked, Option.bind_some, height, if_true, Option.getD_some]
      refine ⟨(congrArg Globals.finder globals).trans told.symm, iff_of_true (fun none => ?_) trivial⟩
      rw [inFlight'] at none
      exact absurd none (by simp)

variable [Double D]

theorem exact_daemonPacket {pool : Pool D} {nDaemon : Nat} {handle : DaemonHandle} {packet : DaemonPacket}
    (sentFinder : s.SentFinder) (holds : s.FinderOfLastGood)
    (found : s.pool.DAEMON_CONNECTIONS[nDaemon]? = some handle)
    (handled : s.pool.daemonPacket nDaemon handle packet = some pool)
    (noted : s.note (.daemonPacket nDaemon packet) pool = after) :
    after.SentFinder ∧ (after.FinderOfLastGood ↔ s.LastSentIsGood (.daemonPacket nDaemon packet)) := by
  subst noted
  cases packet with
  | good =>
      obtain ⟨waiting, same⟩ := Option.ite_none_left_eq_some.mp handled
      cases same
      have last := inFlight_answer_eq_nil_iff found waiting
      obtain ⟨submission, rest, queue⟩ := List.exists_cons_of_ne_nil waiting
      have oldest : s.pool.oldestSubmission nDaemon = some submission := by
        rw [Pool.oldestSubmission, found]
        simp [queue]
      refine exact_of_last sentFinder rfl rfl last ?_
      simp only [LastSentIsGood, note, oldest, Option.mem_some, forall_eq', Option.map_some, Option.getD_some]
  | fail =>
      obtain ⟨waiting, same⟩ := Option.ite_none_left_eq_some.mp handled
      cases same
      exact exact_of_last sentFinder rfl rfl (inFlight_answer_eq_nil_iff found waiting) Iff.rfl
  | coinbaseSet =>
      obtain ⟨-, same⟩ := Option.ite_none_left_eq_some.mp handled
      cases same
      exact exact_of_same sentFinder holds rfl (Pool.inFlight_setHandle found rfl) rfl rfl trivial
  | coinbaseFail =>
      obtain ⟨-, same⟩ := Option.ite_none_left_eq_some.mp handled
      cases same
      have inFlight : (s.pool.setHandle nDaemon { handle with
          CLIENT := handle.CLIENT.answerCoinbase, fNewBlock := false, fCoinbasePending := false }).inFlight =
          s.pool.inFlight := Pool.inFlight_setHandle found rfl
      exact exact_of_same sentFinder holds rfl inFlight rfl rfl trivial
  | blockData BLOCK =>
      rw [Pool.daemonPacket] at handled
      split at handled
      · cases handled
        exact exact_of_same sentFinder holds rfl (Pool.inFlight_setHandle found rfl) rfl rfl trivial
      · cases handled
        exact exact_of_same sentFinder holds rfl rfl rfl rfl trivial

theorem exact_step {event : Event} (sentFinder : s.SentFinder) (holds : s.FinderOfLastGood)
    (taken : s.step getHash event = some after) :
    after.SentFinder ∧ (after.FinderOfLastGood ↔ s.LastSentIsGood event) := by
  obtain ⟨pool, stepped, rfl⟩ := Option.map_eq_some_iff.mp taken
  have leads := Pool.leads_of_step stepped
  cases event with
  | masterReconnect =>
      obtain ⟨-, rfl⟩ := leads
      exact exact_of_same sentFinder holds rfl rfl rfl rfl trivial
  | masterPacket packet =>
      obtain ⟨inFlight, -⟩ := Pool.inFlight_masterPacket leads.2
      exact exact_of_same sentFinder holds (finder_masterPacket leads.2) inFlight rfl rfl trivial
  | orphanReconnect =>
      cases leads
      exact exact_of_same sentFinder holds rfl rfl rfl rfl trivial
  | orphanPacket packet =>
      cases leads
      cases packet with
      | orphanBlock hashOrphan | goodBlock hashOrphan => exact exact_of_same sentFinder holds rfl rfl rfl rfl trivial
  | daemonReconnect nDaemon =>
      obtain ⟨handle, found, rfl⟩ := leads
      have empties := inFlight_setHandle_eq_nil_iff found
        { handle with CLIENT := .connect, fNewBlock := false, fCoinbasePending := false }
      refine exact_of_last sentFinder rfl rfl (empties.trans (and_iff_right rfl)) ?_
      simp only [LastSentIsGood, found, Option.mem_some, forall_eq']
      rfl
  | daemonPacket nDaemon packet =>
      obtain ⟨handle, found, handled⟩ := leads
      exact exact_daemonPacket sentFinder holds found handled rfl
  | daemonScan nDaemon =>
      obtain ⟨handle, found, scanned⟩ := leads
      exact exact_scan sentFinder holds found scanned
  | minerConnect =>
      obtain ⟨globals, -, inFlight⟩ := Pool.minerConnect_frame leads
      exact exact_of_same sentFinder holds (congrArg Globals.finder globals) inFlight rfl rfl trivial
  | miner nDaemon nID event =>
      obtain ⟨handle, connection, found, rfl⟩ := leads
      obtain ⟨globals, inFlight⟩ := Pool.miner_frame found nID connection event
      exact exact_of_same sentFinder holds (congrArg Globals.finder globals) inFlight rfl rfl trivial

/-- With no request in flight the globals are those of the last `GOOD`, in every run in which the submission that was
sent last is the one that is answered `GOOD` last, and in no other. -/
theorem finder_of_last_good_iff (getHash : CBlock → Uint1024) (databases : Databases) (lfPoolFee : D) (nMaxDaemons : Nat)
    (events : List Event) :
    EachStep (step getHash) (fun _ _ after => after.FinderOfLastGood) events (start databases lfPoolFee nMaxDaemons) ↔
      EachStep (step getHash) (fun s event _ => s.LastSentIsGood event) events
        (start databases lfPoolFee nMaxDaemons) := by
  apply EachStep.iff_of_exact_under SentFinder FinderOfLastGood
  · exact fun _ _ _ sentFinder holds taken => exact_step sentFinder holds taken
  · exact (rfl : (start databases lfPoolFee nMaxDaemons).pool.globals.finder = _)
  · exact fun _ => rfl

/-! ## A rejected block -/

def rejectedBlock : List Event :=
  [.masterReconnect, .orphanReconnect, .daemonReconnect 0, .masterPacket (.blockHeight 1),
    .masterPacket (.blockReward 1000000 [minerAddress]), .daemonScan 0, .minerConnect,
    .miner 0 0 (.login minerAddress true false), .miner 0 0 .getBlock, .daemonScan 0,
    .daemonPacket 0 (.blockData (sampleBlock 1 0)), .miner 0 0 (.submitShare (sampleBlock 1 0) 10 true),
    .daemonScan 0, .daemonPacket 0 .fail]

theorem rejectedBlock_keeps_finder :
    ¬ EachStep (step sampleHash) (fun _ _ after => after.FinderOfLastGood) rejectedBlock
      (start oneAccount (0.02 : Float) 1) := by
  decide +kernel

end Submitted

end PrimePool.Core

import PrimePool.Core.Pool

/-!
# The steps of the pool

What a step of the pool does to the globals, the accounts and the `SUBMIT_BLOCK` requests that wait for an
answer.
-/

namespace PrimePool.Core

open PrimePool.General PrimePool.LLD

namespace Pool

variable {D : Type} {pool after : Pool D} {nDaemon nID : Nat} {handle handle' : DaemonHandle}

def inFlight (pool : Pool D) : List Submission :=
  pool.DAEMON_CONNECTIONS.flatMap fun handle => handle.CLIENT.submissions

/-! ## One daemon handle changes -/

theorem inFlight_split (found : pool.DAEMON_CONNECTIONS[nDaemon]? = some handle) :
    ∃ before behind, pool.inFlight = before ++ handle.CLIENT.submissions ++ behind ∧
      ∀ handle', (pool.setHandle nDaemon handle').inFlight = before ++ handle'.CLIENT.submissions ++ behind := by
  obtain ⟨inside, same⟩ := List.getElem?_eq_some_iff.mp found
  have cut := List.take_append_drop nDaemon pool.DAEMON_CONNECTIONS
  rw [List.drop_eq_getElem_cons inside, same] at cut
  refine ⟨(pool.DAEMON_CONNECTIONS.take nDaemon).flatMap fun handle => handle.CLIENT.submissions,
    (pool.DAEMON_CONNECTIONS.drop (nDaemon + 1)).flatMap fun handle => handle.CLIENT.submissions, ?_, ?_⟩
  · conv_lhs => rw [inFlight, ← cut]
    simp
  · intro handle'
    rw [inFlight, setHandle, List.set_eq_take_append_cons_drop, if_pos inside]
    simp

theorem inFlight_setHandle (found : pool.DAEMON_CONNECTIONS[nDaemon]? = some handle)
    (same : handle'.CLIENT.submissions = handle.CLIENT.submissions) :
    (pool.setHandle nDaemon handle').inFlight = pool.inFlight := by
  obtain ⟨before, behind, all, set⟩ := inFlight_split found
  rw [set, same, all]

theorem inFlight_subset (found : pool.DAEMON_CONNECTIONS[nDaemon]? = some handle)
    (fewer : handle'.CLIENT.submissions ⊆ handle.CLIENT.submissions) :
    (pool.setHandle nDaemon handle').inFlight ⊆ pool.inFlight := by
  obtain ⟨before, behind, all, set⟩ := inFlight_split found
  rw [set, all]
  intro submission member
  simp only [List.mem_append] at member ⊢
  rcases member with (member | member) | member
  · exact Or.inl (Or.inl member)
  · exact Or.inl (Or.inr (fewer member))
  · exact Or.inr member

theorem inFlight_setHandle_of_lt (found : pool.DAEMON_CONNECTIONS[nDaemon]? = some handle)
    (one : pool.inFlight.length ≤ 1)
    (fewer : handle'.CLIENT.submissions.length < handle.CLIENT.submissions.length) :
    (pool.setHandle nDaemon handle').inFlight = [] := by
  obtain ⟨before, behind, all, set⟩ := inFlight_split found
  rw [all, List.length_append, List.length_append] at one
  rw [set, ← List.length_eq_zero_iff, List.length_append, List.length_append]
  omega

theorem inFlight_start (databases : Databases) (lfPoolFee : D) (nMaxDaemons : Nat) :
    (start databases lfPoolFee nMaxDaemons).inFlight = [] := by
  refine List.flatMap_eq_nil_iff.mpr fun handle member => ?_
  rw [List.eq_of_mem_replicate member]
  rfl

theorem inFlight_resetDaemons (pool : Pool D) : pool.resetDaemons.inFlight = pool.inFlight := by
  rw [inFlight, resetDaemons, List.flatMap_map]
  rfl

/-! ## Miners -/

theorem minerConnect_frame (connected : pool.minerConnect = some after) :
    after.globals = pool.globals ∧ after.databases = pool.databases ∧ after.inFlight = pool.inFlight := by
  obtain ⟨handle, found, same⟩ := Option.bind_eq_some_iff.mp connected
  cases same
  exact ⟨rfl, rfl, inFlight_setHandle found rfl⟩

theorem miner_frame (found : pool.DAEMON_CONNECTIONS[nDaemon]? = some handle) (nID : Nat) (connection : PoolConnection)
    (event : MinerEvent) :
    (pool.miner nDaemon nID handle connection event).globals = pool.globals ∧
      (pool.miner nDaemon nID handle connection event).inFlight = pool.inFlight := by
  have kept (databases : Databases) (connection : PoolConnection) :
      ({ pool with databases }.setConnection nDaemon nID handle connection).inFlight = pool.inFlight :=
    inFlight_setHandle found rfl
  cases event with
  | disconnect => exact ⟨rfl, inFlight_setHandle found rfl⟩
  | generic =>
      rw [miner]
      split
      · exact ⟨rfl, kept _ _⟩
      · exact ⟨rfl, rfl⟩
  | login ADDRESS fValid fBanned =>
      simp only [miner]
      split
      · exact ⟨rfl, rfl⟩
      · split
        · exact ⟨rfl, kept _ _⟩
        · exact ⟨rfl, kept _ _⟩
  | getBlock =>
      rw [miner]
      split
      · exact ⟨rfl, kept _ _⟩
      · exact ⟨rfl, rfl⟩
  | submitShare BLOCK nWeight fBlock =>
      simp only [miner]
      split
      · split
        · exact ⟨rfl, kept _ _⟩
        · exact ⟨rfl, rfl⟩
      · exact ⟨rfl, rfl⟩

/-! ## Scans -/

def pickedUp (globals : Globals D) (handle : DaemonHandle) : Option (StdString × CBlock) :=
  if daemonWaits globals handle || handle.fNewBlock && globals.nCurrentRound > 1 then none
  else (scanConnections handle.CONNECTIONS).1

theorem scanConnections_newBlock (CONNECTIONS : List (Option PoolConnection)) :
    (scanConnections (CONNECTIONS.map (Option.map fun connection => { connection with fNewBlock := true }))).1 =
      (scanConnections CONNECTIONS).1 := by
  induction CONNECTIONS with
  | nil => rfl
  | cons connection CONNECTIONS ih =>
      cases connection with
      | none => exact ih
      | some connection =>
          simp only [List.map_cons, Option.map_some, scanConnections]
          cases connection.SUBMISSION_BLOCK with
          | none => exact ih
          | some BLOCK => rfl

theorem daemonWaits_of_pickedUp {globals : Globals D} {found : StdString × CBlock}
    (picked : pickedUp globals handle = some found) : daemonWaits globals handle = false := by
  rw [pickedUp, Option.ite_none_left_eq_some, Bool.or_eq_true, not_or] at picked
  exact Bool.eq_false_iff.mpr picked.1.1

variable (getHash : CBlock → Uint1024)

def Scanned (globals : Globals D) (CLIENT : DaemonConnection) :
    Option (StdString × CBlock) → Globals D × DaemonConnection → Prop
  | none, scanned => scanned.1 = globals ∧ scanned.2.submissions = CLIENT.submissions
  | some (ADDRESS, BLOCK), scanned => scanned = pickUp getHash globals CLIENT ADDRESS BLOCK

theorem scanned_scanSubmissions (globals : Globals D) (handle : DaemonHandle) :
    let scanned := scanSubmissions getHash globals handle
    Scanned getHash globals handle.CLIENT (scanConnections handle.CONNECTIONS).1 (scanned.1, scanned.2.CLIENT) := by
  simp only [scanSubmissions]
  cases (scanConnections handle.CONNECTIONS).1 with
  | none => exact ⟨rfl, rfl⟩
  | some found => rfl

theorem scanned_daemonScan (globals : Globals D) (handle : DaemonHandle) :
    let scanned := daemonScan getHash globals handle
    Scanned getHash globals handle.CLIENT (pickedUp globals handle) (scanned.1, scanned.2.CLIENT) := by
  simp only [daemonScan, pickedUp]
  cases daemonWaits globals handle with
  | true => exact ⟨rfl, rfl⟩
  | false =>
      cases fresh : handle.fNewBlock with
      | false => exact scanned_scanSubmissions getHash globals handle
      | true =>
          by_cases later : globals.nCurrentRound > 1
          · simp only [later, decide_true, Bool.and_true, Bool.or_true, if_true]
            exact ⟨rfl, rfl⟩
          · simp only [later, decide_false, Bool.and_false, Bool.or_false, if_false, if_true, Bool.false_eq_true]
            rw [← scanConnections_newBlock]
            exact scanned_scanSubmissions getHash globals { handle with fNewBlock := false }.newBlock

def afterScan (pool : Pool D) (nDaemon : Nat) (handle : DaemonHandle) : Pool D :=
  let scanned := daemonScan getHash pool.globals handle
  { pool with globals := scanned.1 }.setHandle nDaemon scanned.2

inductive ScanEffect (pool after : Pool D) (handle : DaemonHandle) : Prop where
  | idle (picked : pickedUp pool.globals handle = none) (globals : after.globals = pool.globals)
      (inFlight : after.inFlight = pool.inFlight)
  | stale (ADDRESS : StdString) (BLOCK : CBlock) (picked : pickedUp pool.globals handle = some (ADDRESS, BLOCK))
      (height : BLOCK.nHeight ≠ pool.globals.nBestHeight)
      (globals : after.globals = { pool.globals with fSubmittingBlock := true, hashBlockSubmission := getHash BLOCK })
      (inFlight : after.inFlight = pool.inFlight)
  | sent (ADDRESS : StdString) (BLOCK : CBlock) (picked : pickedUp pool.globals handle = some (ADDRESS, BLOCK))
      (height : BLOCK.nHeight = pool.globals.nBestHeight)
      (globals : after.globals = { pool.globals with
        fSubmittingBlock := true
        hashBlockSubmission := getHash BLOCK
        LAST_ROUND_BLOCKFINDER := ADDRESS
        nLastBlockFound := BLOCK.nHeight })
      (before behind : List Submission) (inFlight : pool.inFlight = before ++ behind)
      (inFlight' : after.inFlight = before ++
        { BLOCK, ADDRESS, cGlobalCoinbase := pool.globals.cGlobalCoinbase, nRoundReward := pool.globals.nRoundReward } ::
          behind)

theorem scanEffect_afterScan (found : pool.DAEMON_CONNECTIONS[nDaemon]? = some handle) :
    ScanEffect getHash pool (pool.afterScan getHash nDaemon handle) handle := by
  obtain ⟨before, behind, all, set⟩ := inFlight_split found
  have scanned := scanned_daemonScan getHash pool.globals handle
  have inFlight : (pool.afterScan getHash nDaemon handle).inFlight =
      before ++ (daemonScan getHash pool.globals handle).2.CLIENT.submissions ++ behind := set _
  have globals : (pool.afterScan getHash nDaemon handle).globals = (daemonScan getHash pool.globals handle).1 := rfl
  cases picked : pickedUp pool.globals handle with
  | none =>
      rw [picked] at scanned
      rw [scanned.2, ← all] at inFlight
      exact .idle picked (globals.trans scanned.1) inFlight
  | some pair =>
      obtain ⟨ADDRESS, BLOCK⟩ := pair
      rw [picked] at scanned
      have requests := congrArg (fun scanned => scanned.2.submissions) scanned
      have became := globals.trans (congrArg (fun scanned => scanned.1) scanned)
      by_cases height : BLOCK.nHeight = pool.globals.nBestHeight
      · simp only [pickUp, height, if_true, DaemonConnection.submitBlock] at requests became
        rw [requests] at inFlight
        refine .sent ADDRESS BLOCK picked height (height ▸ became) (before ++ handle.CLIENT.submissions) behind all ?_
        rw [inFlight]
        simp
      · simp only [pickUp, height, if_false] at requests became
        rw [requests, ← all] at inFlight
        exact .stale ADDRESS BLOCK picked height became inFlight

/-! ## Packets on a daemon handle -/

section DaemonPackets

/-- The oldest request of a handle is answered. -/
structure Answered (pool after : Pool D) : Prop where
  waiting : pool.inFlight ≠ []
  fewer : after.inFlight ⊆ pool.inFlight
  last : pool.inFlight.length ≤ 1 → after.inFlight = []

theorem answered_setHandle (found : pool.DAEMON_CONNECTIONS[nDaemon]? = some handle)
    (waiting : handle.CLIENT.submissions ≠ []) :
    Answered pool (pool.setHandle nDaemon { handle with CLIENT := handle.CLIENT.answerSubmission }) where
  waiting := by
    obtain ⟨before, behind, all, -⟩ := inFlight_split found
    rw [all]
    simp [waiting]
  fewer := inFlight_subset found fun _ => List.mem_of_mem_tail
  last one := by
    apply inFlight_setHandle_of_lt found one
    rw [DaemonConnection.answerSubmission, List.length_tail]
    exact Nat.sub_lt (List.length_pos_iff.mpr waiting) Nat.one_pos

variable [Double D]

inductive DaemonEffect (pool after : Pool D) : DaemonPacket → Prop
  | good (answered : Answered pool after)
      (databases : after.databases = (run perform (Core.newRound pool.globals.toRound) pool.databases).2)
      (globals : after.globals = { pool.globals with
        nCurrentRound := pool.globals.nCurrentRound + 1
        fCoinbasePending := true
        fNewRound := false
        fSubmittingBlock := false }) : DaemonEffect pool after .good
  | fail (answered : Answered pool after) (databases : after.databases = pool.databases)
      (globals : after.globals = { pool.globals with fSubmittingBlock := false }) : DaemonEffect pool after .fail
  | coinbaseSet (inFlight : after.inFlight = pool.inFlight) (databases : after.databases = pool.databases)
      (globals : after.globals = pool.globals) : DaemonEffect pool after .coinbaseSet
  | coinbaseFail (inFlight : after.inFlight = pool.inFlight) (databases : after.databases = pool.databases)
      (globals : after.globals = { pool.globals with
        fCoinbasePending := true
        fNewRound := false
        fSubmittingBlock := false }) : DaemonEffect pool after .coinbaseFail
  | blockData (BLOCK : CBlock) (inFlight : after.inFlight = pool.inFlight)
      (databases : after.databases = pool.databases) (globals : after.globals = pool.globals) :
      DaemonEffect pool after (.blockData BLOCK)

theorem daemonEffect_of_daemonPacket {packet : DaemonPacket} (found : pool.DAEMON_CONNECTIONS[nDaemon]? = some handle)
    (handled : pool.daemonPacket nDaemon handle packet = some after) : DaemonEffect pool after packet := by
  cases packet with
  | good =>
      obtain ⟨waiting, same⟩ := Option.ite_none_left_eq_some.mp handled
      cases same
      obtain ⟨waits, fewer, last⟩ := answered_setHandle found waiting
      exact .good ⟨waits, fewer, last⟩ rfl rfl
  | fail =>
      obtain ⟨waiting, same⟩ := Option.ite_none_left_eq_some.mp handled
      cases same
      obtain ⟨waits, fewer, last⟩ := answered_setHandle found waiting
      exact .fail ⟨waits, fewer, last⟩ rfl rfl
  | coinbaseSet =>
      obtain ⟨-, same⟩ := Option.ite_none_left_eq_some.mp handled
      cases same
      exact .coinbaseSet (inFlight_setHandle found rfl) rfl rfl
  | coinbaseFail =>
      obtain ⟨-, same⟩ := Option.ite_none_left_eq_some.mp handled
      cases same
      have kept (CLIENT : DaemonConnection) (same : CLIENT.submissions = handle.CLIENT.submissions) :
          (pool.setHandle nDaemon { handle with CLIENT, fNewBlock := false, fCoinbasePending := false }).inFlight =
            pool.inFlight := inFlight_setHandle found same
      exact .coinbaseFail (kept _ rfl) rfl rfl
  | blockData BLOCK =>
      rw [daemonPacket] at handled
      split at handled
      · cases handled
        exact .blockData BLOCK (inFlight_setHandle found rfl) rfl rfl
      · cases handled
        exact .blockData BLOCK rfl rfl rfl

end DaemonPackets

/-! ## Steps -/

variable {getHash} [Double D]

def Leads (getHash : CBlock → Uint1024) (pool after : Pool D) : Event → Prop
  | .masterReconnect => pool.masterIdles = false ∧ after = pool.masterReconnect
  | .masterPacket packet => pool.masterIdles = false ∧ pool.masterPacket packet = some after
  | .orphanReconnect => after = pool.orphanReconnect
  | .orphanPacket packet => after = pool.orphanPacket packet
  | .daemonReconnect nDaemon =>
      ∃ handle, pool.DAEMON_CONNECTIONS[nDaemon]? = some handle ∧ after = pool.daemonReconnect nDaemon handle
  | .daemonPacket nDaemon packet =>
      ∃ handle, pool.DAEMON_CONNECTIONS[nDaemon]? = some handle ∧ pool.daemonPacket nDaemon handle packet = some after
  | .daemonScan nDaemon =>
      ∃ handle, pool.DAEMON_CONNECTIONS[nDaemon]? = some handle ∧ after = pool.afterScan getHash nDaemon handle
  | .minerConnect => pool.minerConnect = some after
  | .miner nDaemon nID event =>
      ∃ handle connection, pool.DAEMON_CONNECTIONS[nDaemon]? = some handle ∧
        after = pool.miner nDaemon nID handle connection event

theorem leads_of_step {event : Event} (taken : step getHash pool event = some after) : Leads getHash pool after event := by
  cases event with
  | masterReconnect =>
      simp only [step, Option.ite_none_left_eq_some, Option.some.injEq] at taken
      exact ⟨Bool.eq_false_iff.mpr taken.1, taken.2.symm⟩
  | masterPacket packet =>
      simp only [step, Option.ite_none_left_eq_some, Bool.or_eq_true, not_or] at taken
      exact ⟨Bool.eq_false_iff.mpr taken.1.1, taken.2⟩
  | orphanReconnect => exact (Option.some.inj taken).symm
  | orphanPacket packet =>
      simp only [step, Option.ite_none_right_eq_some, Option.some.injEq] at taken
      exact taken.2.symm
  | daemonReconnect nDaemon =>
      obtain ⟨handle, found, same⟩ := Option.bind_eq_some_iff.mp taken
      exact ⟨handle, found, (Option.some.inj same).symm⟩
  | daemonPacket nDaemon packet =>
      obtain ⟨handle, found, handled⟩ := Option.bind_eq_some_iff.mp taken
      exact ⟨handle, found, (Option.ite_none_right_eq_some.mp handled).2⟩
  | daemonScan nDaemon =>
      obtain ⟨handle, found, scanned⟩ := Option.bind_eq_some_iff.mp taken
      exact ⟨handle, found, (Option.some.inj (Option.ite_none_right_eq_some.mp scanned).2).symm⟩
  | minerConnect => exact taken
  | miner nDaemon nID event =>
      obtain ⟨handle, found, rest⟩ := Option.bind_eq_some_iff.mp taken
      obtain ⟨connection, -, same⟩ := Option.bind_eq_some_iff.mp rest
      exact ⟨handle, connection, found, (Option.some.inj same).symm⟩

theorem inFlight_masterPacket {packet : MasterPacket} (handled : pool.masterPacket packet = some after) :
    after.inFlight = pool.inFlight ∧ after.globals.fSubmittingBlock = pool.globals.fSubmittingBlock := by
  cases packet with
  | blockHeight _ | newRound =>
      cases handled
      exact ⟨rfl, rfl⟩
  | coinbaseSet =>
      simp only [masterPacket, Option.ite_none_left_eq_some, Option.some.injEq] at handled
      obtain ⟨-, rfl⟩ := handled
      exact ⟨inFlight_resetDaemons _, rfl⟩
  | coinbaseFail =>
      simp only [masterPacket, Option.ite_none_left_eq_some, Option.some.injEq] at handled
      obtain ⟨-, rfl⟩ := handled
      exact ⟨rfl, rfl⟩
  | blockReward nReward vAccounts =>
      have flag : (blockReward pool.globals pool.databases.AccountDB vAccounts nReward).fSubmittingBlock =
          pool.globals.fSubmittingBlock := by
        rw [blockReward]
        split <;> rfl
      simp only [masterPacket, Option.ite_none_right_eq_some] at handled
      obtain ⟨-, handled⟩ := handled
      split at handled
      · cases handled
        exact ⟨rfl, flag⟩
      · cases handled
        exact ⟨inFlight_resetDaemons _, flag⟩

end Pool

end PrimePool.Core

import PrimePool.General.Grid
import PrimePool.LLP.DuplicateShares
import PrimePool.LLP.LiveBlocks
import PrimePool.LLP.MalformedPackets
import PrimePool.LLP.ProcessPacket
import PrimePool.LLP.Replay

/-!
# Views of a connection

`LLP/ProcessPacket` handles whole packets. The other models of a pool connection keep a part of that: its blocks, the
steps between which other threads act, or the flags and counters that a daemon thread looks at. What they do with a
share is one function, and `Core/Pool` takes at most one step where a packet is handled.
-/

namespace PrimePool.LLP

open PrimePool.Core PrimePool.General Std

/-! ## Shares -/

structure ShareEffect where
  PRIMES_MAP : ExtTreeSet Uint1024
  connection : PoolConnection
  /-- The prime that the account of the client is credited for. -/
  credited : Option Uint1024

namespace ShareEffect

variable (verification : Verification)

def databases (effect : ShareEffect) (ADDRESS : StdString) (databases : Databases) : Databases :=
  match effect.credited with
  | none => databases
  | some hashPrime => (run perform (Core.acceptShare ADDRESS (verification.nWeight hashPrime)) databases).2

end ShareEffect

def shareEffect (verification : Verification) (PRIMES_MAP : ExtTreeSet Uint1024) (nBestHeight : UInt32)
    (connection : PoolConnection) (hashPrimeOrigin : Uint1024) (nNonce : UInt64) : ShareEffect :=
  let hashPrime := hashPrimeOf hashPrimeOrigin nNonce
  match connection.findBlock nBestHeight hashPrimeOrigin with
  | none => { PRIMES_MAP, connection, credited := none }
  | some BLOCK =>
      if hashPrime ∈ PRIMES_MAP then { PRIMES_MAP, connection, credited := none }
      else if verification.fAccepted hashPrime then
        { PRIMES_MAP := PRIMES_MAP.insert hashPrime
          connection :=
            if verification.fBlock hashPrime BLOCK.BLOCK.nBits then connection.submitBlock hashPrimeOrigin nNonce
            else connection
          credited := some hashPrime }
      else { PRIMES_MAP, connection, credited := none }

variable {verification : Verification} {PRIMES_MAP : ExtTreeSet Uint1024} {nBestHeight : UInt32}
  {connection : PoolConnection} {hashPrimeOrigin : Uint1024} {nNonce : UInt64}

theorem shareEffect_of_none (missing : connection.findBlock nBestHeight hashPrimeOrigin = none) :
    shareEffect verification PRIMES_MAP nBestHeight connection hashPrimeOrigin nNonce =
      { PRIMES_MAP, connection, credited := none } := by
  rw [shareEffect, missing]

theorem shareEffect_of_seen (seen : hashPrimeOf hashPrimeOrigin nNonce ∈ PRIMES_MAP) :
    shareEffect verification PRIMES_MAP nBestHeight connection hashPrimeOrigin nNonce =
      { PRIMES_MAP, connection, credited := none } := by
  rw [shareEffect]
  cases connection.findBlock nBestHeight hashPrimeOrigin with
  | none => rfl
  | some BLOCK => exact if_pos seen

theorem shareEffect_of_refused (refused : verification.fAccepted (hashPrimeOf hashPrimeOrigin nNonce) = false) :
    shareEffect verification PRIMES_MAP nBestHeight connection hashPrimeOrigin nNonce =
      { PRIMES_MAP, connection, credited := none } := by
  rw [shareEffect]
  cases connection.findBlock nBestHeight hashPrimeOrigin with
  | none => rfl
  | some BLOCK => simp [refused]

theorem shareEffect_of_accepted {BLOCK : HeapBlock}
    (found : connection.findBlock nBestHeight hashPrimeOrigin = some BLOCK)
    (unseen : hashPrimeOf hashPrimeOrigin nNonce ∉ PRIMES_MAP)
    (accepted : verification.fAccepted (hashPrimeOf hashPrimeOrigin nNonce) = true) :
    shareEffect verification PRIMES_MAP nBestHeight connection hashPrimeOrigin nNonce =
      { PRIMES_MAP := PRIMES_MAP.insert (hashPrimeOf hashPrimeOrigin nNonce)
        connection :=
          if verification.fBlock (hashPrimeOf hashPrimeOrigin nNonce) BLOCK.BLOCK.nBits then
            connection.submitBlock hashPrimeOrigin nNonce
          else connection
        credited := some (hashPrimeOf hashPrimeOrigin nNonce) } := by
  rw [shareEffect, found]
  dsimp only
  rw [if_neg unseen, if_pos accepted]

/-! ## The handler -/

/-- The verification that `ProcessPacket` computes. -/
def verificationOf (settings : Settings) (GmpVerification : Uint1024 → Rat) (rounded : Rat → Rat)
    (pow : Rat → Rat → Rat) : Verification where
  fAccepted hashPrime := settings.nMinimumShare ≤ (SetBits rounded (GmpVerification hashPrime)).toUInt64
  nWeight hashPrime := (pow 25 (GmpVerification hashPrime - 3)).floor.toNat.toUInt64
  fBlock hashPrime nBits := getDifficulty rounded nBits ≤ GmpVerification hashPrime

/-- A handled share leaves this behind. -/
structure Handled.Shares (verification : Verification) (s : PoolServer) (client : Client) (effect : ShareEffect)
    (handled : Handled) : Prop where
  PRIMES_MAP : handled.server.thread.PRIMES_MAP = effect.PRIMES_MAP
  nBestHeight : handled.server.thread.nBestHeight = s.thread.nBestHeight
  databases : handled.server.databases = effect.databases verification client.ADDRESS s.databases
  client : handled.client = { client with connection := effect.connection }
  nWeight : handled.nWeight = effect.credited.map verification.nWeight

namespace PoolServer

variable {settings : Settings} {GmpVerification : Uint1024 → Rat} {rounded : Rat → Rat} {pow : Rat → Rat → Rat}
  {s : PoolServer} {client : Client}

theorem counted_frame {thread counted : PoolThread} {nDifficulty : Rat}
    (counts : (if nDifficulty < 8 then thread.countDifficulty nDifficulty else some thread) = some counted) :
    counted.PRIMES_MAP = thread.PRIMES_MAP ∧ counted.nBestHeight = thread.nBestHeight := by
  split at counts
  · rw [PoolThread.countDifficulty] at counts
    split at counts
    · cases counts
      exact ⟨rfl, rfl⟩
    · cases counts
  · cases counts
    exact ⟨rfl, rfl⟩

theorem acceptShare_shares {BLOCK : HeapBlock} (thread : PoolThread)
    (found : client.connection.findBlock thread.nBestHeight hashPrimeOrigin = some BLOCK)
    (unseen : hashPrimeOf hashPrimeOrigin nNonce ∉ thread.PRIMES_MAP) {handled : Handled}
    (accepts : { s with thread }.acceptShare settings GmpVerification rounded pow client hashPrimeOrigin nNonce
      BLOCK.BLOCK.nBits = handled) (stays : handled.result ≠ none) :
    handled.Shares (verificationOf settings GmpVerification rounded pow) { s with thread } client
      (shareEffect (verificationOf settings GmpVerification rounded pow) thread.PRIMES_MAP thread.nBestHeight
        client.connection hashPrimeOrigin nNonce) := by
  unfold acceptShare at accepts
  dsimp only at accepts
  split at accepts
  · rename_i minimum
    rw [shareEffect_of_accepted found unseen (decide_eq_true minimum)]
    split at accepts
    · cases accepts
      exact absurd rfl stays
    · rename_i counted counts
      obtain ⟨primes, height⟩ := counted_frame counts
      split at accepts
      · rename_i block
        cases accepts
        exact ⟨primes, height, rfl,
          congrArg (fun connection => { client with connection }) (if_pos (decide_eq_true block)).symm, rfl⟩
      · rename_i block
        cases accepts
        have other : ¬ (verificationOf settings GmpVerification rounded pow).fBlock
            (hashPrimeOf hashPrimeOrigin nNonce) BLOCK.BLOCK.nBits = true :=
          fun same => block (of_decide_eq_true same)
        exact ⟨primes, height, rfl, congrArg (fun connection => { client with connection }) (if_neg other).symm, rfl⟩
  · rename_i below
    rw [shareEffect_of_refused (decide_eq_false below)]
    cases accepts
    exact ⟨rfl, rfl, rfl, rfl, rfl⟩

/-- The whole packet handler does to a share what `shareEffect` says. -/
theorem submitShare_shares {DATA : Bytes} (origin : decodeOrigin DATA = some hashPrimeOrigin)
    (nonce : decodeNonce DATA = some nNonce)
    (stays : (s.submitShare settings GmpVerification rounded pow client DATA).result ≠ none) :
    (s.submitShare settings GmpVerification rounded pow client DATA).Shares
      (verificationOf settings GmpVerification rounded pow) s client
      (shareEffect (verificationOf settings GmpVerification rounded pow) s.thread.PRIMES_MAP s.thread.nBestHeight
        client.connection hashPrimeOrigin nNonce) := by
  cases found : client.connection.findBlock s.thread.nBestHeight hashPrimeOrigin with
  | none =>
      obtain ⟨verdict, -, answered⟩ := submitShare_of_none settings GmpVerification rounded pow s client origin found
      rw [answered, shareEffect_of_none found]
      exact ⟨rfl, rfl, rfl, rfl, rfl⟩
  | some BLOCK =>
      have handles := submitShare_of_some settings GmpVerification rounded pow s client origin found
      dsimp only at handles
      rw [nonce] at handles
      dsimp only at handles
      split at handles
      · rename_i known
        have seen : hashPrimeOf hashPrimeOrigin nNonce ∈ s.thread.PRIMES_MAP := known
        rw [handles, shareEffect_of_seen seen]
        exact ⟨rfl, rfl, rfl, rfl, rfl⟩
      · rename_i unseen
        obtain ⟨primes, height, databases, changed, nWeight⟩ :=
          acceptShare_shares (s.thread.record (.share DATA.length)) found unseen handles.symm stays
        exact ⟨primes, height, databases, changed, nWeight⟩

end PoolServer

/-! ## The other models -/

theorem LiveState.submitShare_eq {getHash : CBlock → Uint1024} (verification : Verification)
    (PRIMES_MAP : ExtTreeSet Uint1024) (s : LiveState) (hashPrimeOrigin : Uint1024) (nNonce : UInt64) (nBestHeight : UInt32) :
    ∃ fBlock, s.step getHash (.submitShare hashPrimeOrigin nNonce nBestHeight fBlock) =
      some { s with
        connection := (shareEffect verification PRIMES_MAP nBestHeight s.connection hashPrimeOrigin nNonce).connection } := by
  have nothing : ∃ fBlock, s.step getHash (.submitShare hashPrimeOrigin nNonce nBestHeight fBlock) = some s :=
    ⟨false, if_neg fun both => Bool.false_ne_true both.2⟩
  cases found : s.connection.findBlock nBestHeight hashPrimeOrigin with
  | none =>
      rw [shareEffect_of_none found]
      exact nothing
  | some BLOCK =>
      by_cases seen : hashPrimeOf hashPrimeOrigin nNonce ∈ PRIMES_MAP
      · rw [shareEffect_of_seen seen]
        exact nothing
      · cases accepted : verification.fAccepted (hashPrimeOf hashPrimeOrigin nNonce) with
        | false =>
            rw [shareEffect_of_refused accepted]
            exact nothing
        | true =>
            rw [shareEffect_of_accepted found seen accepted]
            cases block : verification.fBlock (hashPrimeOf hashPrimeOrigin nNonce) BLOCK.BLOCK.nBits with
            | false =>
                rw [if_neg Bool.false_ne_true]
                exact nothing
            | true =>
                refine ⟨true, ?_⟩
                rw [if_pos rfl]
                exact if_pos ⟨by rw [found]; rfl, rfl⟩

theorem ShareServer.modify_eq {s : ShareServer} {nConnection : Nat} {connection : PoolConnection}
    (found : s.connections[nConnection]? = some connection) (change : PoolConnection → PoolConnection) :
    s.modify nConnection change = { s with connections := s.connections.set nConnection (change connection) } := by
  rw [ShareServer.modify, List.modify_eq_set_getElem?, found]
  rfl

theorem ShareServer.submitShare_eq {s : ShareServer} {nConnection : Nat} {connection : PoolConnection}
    (found : s.connections[nConnection]? = some connection) (verification : Verification) (hashPrimeOrigin : Uint1024)
    (nNonce : UInt64) :
    let effect := shareEffect verification s.PRIMES_MAP s.nBestHeight connection hashPrimeOrigin nNonce
    s.submitShare verification nConnection hashPrimeOrigin nNonce =
      some { s with
        PRIMES_MAP := effect.PRIMES_MAP
        connections := s.connections.set nConnection effect.connection
        credited := s.credited ++ effect.credited.toList } := by
  intro effect
  have unchanged : s.connections.set nConnection connection = s.connections := set_same found
  simp only [ShareServer.submitShare, found, Option.bind_eq_bind, Option.bind_some, effect, shareEffect]
  cases connection.findBlock s.nBestHeight hashPrimeOrigin with
  | none => simp [unchanged]
  | some BLOCK =>
      dsimp only
      split
      · simp [unchanged]
      · split
        · split
          · rw [ShareServer.modify_eq (by exact found)]
            rfl
          · simp [unchanged]
        · simp [unchanged]

namespace ShareThreads

variable {s : ShareThreads} {nConnection : Nat}

theorem step_next (verification : Verification) {processing : Processing}
    (found : s.connections[nConnection]? = some processing) :
    s.step verification (.next nConnection) = s.next verification nConnection processing := by
  rw [step, found]
  rfl

theorem connections_setConnection {before : Processing} (found : s.connections[nConnection]? = some before)
    (processing : Processing) : (s.setConnection nConnection processing).connections[nConnection]? = some processing := by
  obtain ⟨inside, -⟩ := List.getElem?_eq_some_iff.mp found
  exact List.getElem?_set_self inside

theorem setConnection_setConnection (first second : Processing) :
    (s.setConnection nConnection first).setConnection nConnection second = s.setConnection nConnection second :=
  congrArg (fun connections => { s with connections }) (List.set_set ..)

theorem setConnection_same {processing : Processing} (found : s.connections[nConnection]? = some processing) :
    s.setConnection nConnection processing = s :=
  congrArg (fun connections => { s with connections }) (set_same found)

/-- Where no other thread acts in between, the steps of a share are the handler. -/
theorem submitShare_eq (idle : s.connections[nConnection]? = some .idle) (verification : Verification)
    (ADDRESS : StdString) {BLOCK : HeapBlock} (found : connection.findBlock nBestHeight hashPrimeOrigin = some BLOCK)
    (nNonce : UInt64) :
    let effect := shareEffect verification s.PRIMES_MAP nBestHeight connection hashPrimeOrigin nNonce
    ∃ nSteps, (.submitShare nConnection ADDRESS hashPrimeOrigin nNonce :: List.replicate nSteps (.next nConnection)).foldlM
        (step verification) s =
      some { s with
        PRIMES_MAP := effect.PRIMES_MAP
        databases := effect.databases verification ADDRESS s.databases
        credited := s.credited ++ effect.credited.toList } := by
  intro effect
  by_cases seen : hashPrimeOf hashPrimeOrigin nNonce ∈ s.PRIMES_MAP
  · refine ⟨0, ?_⟩
    have tested : s.step verification (.submitShare nConnection ADDRESS hashPrimeOrigin nNonce) = some s := by
      simp only [step, idle, Option.bind_eq_bind, Option.bind_some, if_pos seen]
      rfl
    simp only [effect, shareEffect_of_seen seen, List.replicate_zero, List.foldlM_cons, tested]
    simp [ShareEffect.databases]
  have tested : s.step verification (.submitShare nConnection ADDRESS hashPrimeOrigin nNonce) =
      some (s.setConnection nConnection (.verify ADDRESS (hashPrimeOf hashPrimeOrigin nNonce))) := by
    simp only [step, idle, Option.bind_eq_bind, Option.bind_some, if_neg seen]
    rfl
  have verified := step_next verification
    (connections_setConnection idle (.verify ADDRESS (hashPrimeOf hashPrimeOrigin nNonce)))
  cases accepted : verification.fAccepted (hashPrimeOf hashPrimeOrigin nNonce) with
  | false =>
      refine ⟨1, ?_⟩
      simp only [next, accepted, Bool.false_eq_true, if_false, setConnection_setConnection, setConnection_same idle]
        at verified
      simp only [effect, shareEffect_of_refused accepted, List.replicate, List.foldlM_cons, tested, Option.bind_eq_bind,
        Option.bind_some, verified]
      simp [ShareEffect.databases]
  | true =>
      refine ⟨4, ?_⟩
      simp only [next, accepted, if_true, setConnection_setConnection] at verified
      let entering : ShareThreads := { s with PRIMES_MAP := s.PRIMES_MAP.insert (hashPrimeOf hashPrimeOrigin nNonce) }
      have idle' : entering.connections[nConnection]? = some .idle := idle
      have entered : (s.setConnection nConnection (.insert ADDRESS (hashPrimeOf hashPrimeOrigin nNonce))).step verification
          (.next nConnection) =
            some (entering.setConnection nConnection (.getRecord ADDRESS (hashPrimeOf hashPrimeOrigin nNonce))) := by
        have unseen : hashPrimeOf hashPrimeOrigin nNonce ∉
            (s.setConnection nConnection (.insert ADDRESS (hashPrimeOf hashPrimeOrigin nNonce))).PRIMES_MAP := seen
        rw [step_next verification (connections_setConnection idle _)]
        simp only [next, if_neg unseen]
        exact congrArg some (entering.setConnection_setConnection _ _)
      have credits : ((entering.setConnection nConnection (.getRecord ADDRESS (hashPrimeOf hashPrimeOrigin nNonce))).step
          verification (.next nConnection)).bind (fun s => s.step verification (.next nConnection)) =
            some { entering with
              databases := (run perform (Core.acceptShare ADDRESS (verification.nWeight (hashPrimeOf hashPrimeOrigin nNonce)))
                s.databases).2
              credited := s.credited ++ [hashPrimeOf hashPrimeOrigin nNonce] } := by
        rw [credit_eq_acceptShare (connections_setConnection idle' _)]
        simp only [setConnection, List.set_set, set_same idle']
        rfl
      simp only [effect, shareEffect_of_accepted found seen accepted, List.replicate, List.foldlM_cons, tested,
        Option.bind_eq_bind, Option.bind_some, verified, entered, List.foldlM_nil, Option.pure_def, Option.bind_fun_some]
      exact credits

end ShareThreads

/-! ## The pool -/

/-- What `Core/Pool` keeps of a connection. -/
structure Mirrors (client : Client) (mirror : Core.PoolConnection) : Prop where
  ADDRESS : mirror.ADDRESS = client.ADDRESS
  fLoggedIn : mirror.fLoggedIn = client.fLoggedIn
  fNewBlock : mirror.fNewBlock = client.connection.fNewBlock
  nBlockRequests : mirror.nBlockRequests = client.connection.nBlockRequests
  nBlocksWaiting : mirror.nBlocksWaiting = client.connection.nBlocksWaiting
  SUBMISSION_BLOCK : mirror.SUBMISSION_BLOCK.isSome = client.connection.SUBMISSION_BLOCK.isSome

def Client.onConnection (client : Client) (change : PoolConnection → PoolConnection) : Client :=
  { client with connection := change client.connection }

namespace Mirrors

variable {client : Client} {mirror : Core.PoolConnection}

theorem new : Mirrors .new .new := ⟨rfl, rfl, rfl, rfl, rfl, rfl⟩

theorem newBlock (mirrors : Mirrors client mirror) :
    Mirrors (client.onConnection fun connection => { connection with fNewBlock := true })
      { mirror with fNewBlock := true } :=
  { mirrors with fNewBlock := rfl }

theorem addBlock (mirrors : Mirrors client mirror) (BLOCK : HeapBlock) :
    Mirrors (client.onConnection fun connection => connection.addBlock BLOCK)
      { mirror with nBlocksWaiting := mirror.nBlocksWaiting - 1 } :=
  { mirrors with nBlocksWaiting := congrArg (· - 1) mirrors.nBlocksWaiting }

theorem requestBlocks (mirrors : Mirrors client mirror) :
    Mirrors (client.onConnection PoolConnection.requestBlocks) mirror.requestBlocks :=
  { mirrors with
    nBlockRequests := rfl
    nBlocksWaiting := congrArg₂ (· + ·) mirrors.nBlocksWaiting mirrors.nBlockRequests }

theorem scan (mirrors : Mirrors client mirror) :
    ∃ found mirror', Pool.scanConnections [some mirror] = (found, [some mirror']) ∧
      Mirrors (client.onConnection PoolConnection.scan) mirror' := by
  have same := mirrors.SUBMISSION_BLOCK
  rw [Pool.scanConnections]
  cases pending : mirror.SUBMISSION_BLOCK with
  | none =>
      have none' : client.connection.SUBMISSION_BLOCK = none := by
        rw [pending, Option.isSome_none] at same
        exact Option.isNone_iff_eq_none.mp (Option.isSome_eq_false_iff.mp same.symm)
      refine ⟨none, mirror.requestBlocks, rfl, ?_⟩
      have unscanned : client.onConnection PoolConnection.scan = client.onConnection PoolConnection.requestBlocks := by
        rw [Client.onConnection, PoolConnection.scan, none']
        rfl
      rw [unscanned]
      exact mirrors.requestBlocks
  | some BLOCK =>
      obtain ⟨object, some'⟩ : ∃ object, client.connection.SUBMISSION_BLOCK = some object := by
        rw [pending, Option.isSome_some] at same
        exact Option.isSome_iff_exists.mp same.symm
      refine ⟨some (mirror.ADDRESS, BLOCK), { mirror with SUBMISSION_BLOCK := none }, rfl, ?_⟩
      have scanned : client.onConnection PoolConnection.scan =
          client.onConnection fun connection => { connection with SUBMISSION_BLOCK := none } := by
        rw [Client.onConnection, PoolConnection.scan, some']
        rfl
      rw [scanned]
      exact { mirrors with SUBMISSION_BLOCK := rfl }

end Mirrors

section

variable {D : Type}

def connectionAt (pool : Pool D) (nDaemon nID : Nat) : Option Core.PoolConnection := do
  let handle ← pool.DAEMON_CONNECTIONS[nDaemon]?
  handle.CONNECTIONS[nID]?.join

/-- The pool shows what the handler works on, for the connection of the client. -/
structure Shows (pool : Pool D) (nDaemon nID : Nat) (s : PoolServer) (client : Client) : Prop where
  databases : pool.databases = s.databases
  nBestHeight : pool.globals.nBestHeight = s.thread.nBestHeight
  connection : ∃ mirror, connectionAt pool nDaemon nID = some mirror ∧ Mirrors client mirror

theorem Shows.unchanged {pool : Pool D} {nDaemon nID : Nat} {s : PoolServer} {client : Client}
    (shows : Shows pool nDaemon nID s client) : { pool with databases := s.databases } = pool := by
  rw [← shows.databases]

theorem shows_minerConnect {pool connected : Pool D} {s : PoolServer} (databases : pool.databases = s.databases)
    (nBestHeight : pool.globals.nBestHeight = s.thread.nBestHeight) (connects : pool.minerConnect = some connected) :
    ∃ nDaemon nID, Shows connected nDaemon nID s .new := by
  obtain ⟨handle, held, rest⟩ := Option.bind_eq_some_iff.mp connects
  obtain ⟨inside, -⟩ := List.getElem?_eq_some_iff.mp held
  cases rest
  have assigned : ∃ nID : Nat, (handle.assignConnection .new).CONNECTIONS[nID]? = some (some Core.PoolConnection.new) := by
    unfold Core.DaemonHandle.assignConnection
    cases free : handle.findConnection with
    | none => exact ⟨handle.CONNECTIONS.length, List.getElem?_concat_length⟩
    | some nID => exact ⟨nID, List.getElem?_set_self (List.findIdx?_eq_some_iff_findIdx_eq.mp free).1⟩
  obtain ⟨nID, stored⟩ := assigned
  refine ⟨findDaemon pool.DAEMON_CONNECTIONS, nID, databases, nBestHeight, .new, ?_, .new⟩
  rw [connectionAt, Pool.setHandle, List.getElem?_set_self inside, Option.bind_eq_bind, Option.bind_some, stored]
  rfl

variable [Double D]

/-- The pool shows the result already, or after a step of the connection. -/
def Follows (getHash : CBlock → Uint1024) (pool : Pool D) (nDaemon nID : Nat) (s : PoolServer) (client : Client) :
    Prop :=
  Shows pool nDaemon nID s client ∨
    ∃ event after, pool.step getHash (.miner nDaemon nID event) = some after ∧ Shows after nDaemon nID s client

variable {getHash : CBlock → Uint1024} {pool : Pool D} {nDaemon nID : Nat} {s after : PoolServer}
  {client client' : Client} {mirror : Core.PoolConnection}

theorem step_miner (getHash : CBlock → Uint1024) (found : connectionAt pool nDaemon nID = some mirror)
    (event : MinerEvent) :
    ∃ handle, pool.step getHash (.miner nDaemon nID event) = some (pool.miner nDaemon nID handle mirror event) ∧
      ∀ (databases : Databases) (mirror' : Core.PoolConnection),
        connectionAt ({ pool with databases }.setConnection nDaemon nID handle mirror') nDaemon nID = some mirror' := by
  obtain ⟨handle, held, here⟩ := Option.bind_eq_some_iff.mp found
  refine ⟨handle, ?_, fun databases mirror' => ?_⟩
  · rw [Pool.step, held, Option.bind_eq_bind, Option.bind_some, here]
    rfl
  · obtain ⟨inside, -⟩ := List.getElem?_eq_some_iff.mp held
    obtain ⟨inside', -⟩ := List.getElem?_eq_some_iff.mp (Option.join_eq_some_iff.mp here)
    rw [connectionAt, Pool.setConnection, Pool.setHandle, List.getElem?_set_self inside, Option.bind_eq_bind,
      Option.bind_some, List.getElem?_set_self inside']
    rfl

theorem Shows.stays (shows : Shows pool nDaemon nID s client) (databases : after.databases = s.databases)
    (nBestHeight : after.thread.nBestHeight = s.thread.nBestHeight)
    (mirrors : ∀ mirror, Mirrors client mirror → Mirrors client' mirror) :
    Follows getHash pool nDaemon nID after client' := by
  obtain ⟨mirror, found, mirrored⟩ := shows.connection
  exact Or.inl ⟨shows.databases.trans databases.symm, shows.nBestHeight.trans nBestHeight.symm, mirror, found,
    mirrors mirror mirrored⟩

/-- A step of the connection that stores the new mirror. -/
theorem Shows.moves (shows : Shows pool nDaemon nID s client) (event : MinerEvent)
    (nBestHeight : after.thread.nBestHeight = s.thread.nBestHeight)
    (stores : ∀ handle mirror, Mirrors client mirror → ∃ mirror', Mirrors client' mirror' ∧
      (pool.miner nDaemon nID handle mirror event =
          { pool with databases := after.databases }.setConnection nDaemon nID handle mirror' ∨
        pool.miner nDaemon nID handle mirror event = { pool with databases := after.databases } ∧ mirror' = mirror)) :
    Follows getHash pool nDaemon nID after client' := by
  obtain ⟨mirror, found, mirrored⟩ := shows.connection
  obtain ⟨handle, taken, stored⟩ := step_miner getHash found event
  obtain ⟨mirror', mirrored', moved⟩ := stores handle mirror mirrored
  refine Or.inr ⟨event, _, taken, ?_⟩
  rcases moved with moved | ⟨moved, rfl⟩
  · rw [moved]
    exact ⟨rfl, shows.nBestHeight.trans nBestHeight.symm, mirror', stored _ mirror', mirrored'⟩
  · rw [moved]
    exact ⟨rfl, shows.nBestHeight.trans nBestHeight.symm, mirror', found, mirrored'⟩

/-! ## Packets -/

section Packets

variable {settings : Settings} {SK256 : Bytes → Vector UInt8 32} {GmpVerification : Uint1024 → Rat}
  {rounded : Rat → Rat} {pow : Rat → Rat → Rat}

theorem PoolServer.login_of_isValid {DATA : Bytes} (loggedOut : client.fLoggedIn = false)
    (valid : (NexusAddress.setString SK256 DATA).isValid settings.fTestNet = true) :
    let handled := s.login settings SK256 client DATA
    handled.server.databases =
        (if s.databases.AccountDB.hasKey DATA then s.databases
        else (run perform (updateAccount .processPacket (.new DATA)) s.databases).2) ∧
      handled.server.thread.nBestHeight = s.thread.nBestHeight ∧
      handled.client =
        { client with ADDRESS := DATA, fLoggedIn := !isBannedAccount settings.BANNED_ACCOUNTS DATA } := by
  intro handled
  simp only [handled, PoolServer.login, loggedOut, valid, Bool.false_eq_true, Bool.true_eq_false, if_false]
  cases isBannedAccount settings.BANNED_ACCOUNTS DATA <;> exact ⟨rfl, rfl, rfl⟩

theorem Shows.login (shows : Shows pool nDaemon nID s client) (DATA : Bytes) :
    let handled := s.login settings SK256 client DATA
    Follows getHash pool nDaemon nID handled.server handled.client := by
  intro handled
  cases loggedIn : client.fLoggedIn with
  | true =>
      have same : handled = s.respond client [] := by simp only [handled, PoolServer.login, loggedIn, if_true]
      rw [same]
      exact shows.stays rfl rfl fun _ => id
  | false =>
      have out {mirror : Core.PoolConnection} (mirrors : Mirrors client mirror) : mirror.fLoggedIn = false :=
        mirrors.fLoggedIn.trans loggedIn
      cases valid : (NexusAddress.setString SK256 DATA).isValid settings.fTestNet with
      | false =>
          have same : handled = { s with thread.fBanned := s.thread.fBanned || settings.fDDOS }.disconnect
              { client with ADDRESS := DATA } := by
            simp only [handled, PoolServer.login, loggedIn, valid, Bool.false_eq_true, if_false, if_true]
          rw [same]
          refine shows.moves (.login DATA false false) rfl fun handle mirror mirrors => ?_
          refine ⟨{ mirror with ADDRESS := DATA }, { mirrors with ADDRESS := rfl }, Or.inl ?_⟩
          simp only [Pool.miner, out mirrors, Bool.false_eq_true, if_false, not_false_eq_true, if_true]
          exact congrArg (fun pool : Pool D => pool.setConnection nDaemon nID handle _) shows.unchanged.symm
      | true =>
          obtain ⟨databases, nBestHeight, changed⟩ := PoolServer.login_of_isValid loggedIn valid
          refine shows.moves (.login DATA true (isBannedAccount settings.BANNED_ACCOUNTS DATA)) nBestHeight
            fun handle mirror mirrors => ?_
          refine ⟨{ mirror with ADDRESS := DATA, fLoggedIn := !isBannedAccount settings.BANNED_ACCOUNTS DATA }, ?_,
            Or.inl ?_⟩
          · rw [changed]
            exact { mirrors with ADDRESS := rfl, fLoggedIn := rfl }
          · simp only [Pool.miner, out mirrors, Bool.false_eq_true, if_false, not_true_eq_false, shows.databases, handled,
              databases]

theorem Shows.getBlock (shows : Shows pool nDaemon nID s client) (loggedIn : client.fLoggedIn = true) :
    Follows getHash pool nDaemon nID s (client.onConnection PoolConnection.getBlock) := by
  refine shows.moves .getBlock rfl fun handle mirror mirrors => ?_
  refine ⟨{ mirror with nBlockRequests := mirror.nBlockRequests + 1 },
    { mirrors with nBlockRequests := congrArg (· + 1) mirrors.nBlockRequests }, Or.inl ?_⟩
  have inside : mirror.fLoggedIn = true := mirrors.fLoggedIn.trans loggedIn
  simp only [Pool.miner, inside, if_true]
  exact congrArg (fun pool : Pool D => pool.setConnection nDaemon nID handle _) shows.unchanged.symm

theorem Shows.generic (shows : Shows pool nDaemon nID s client)
    (fSubmittingBlock : pool.globals.fSubmittingBlock = s.thread.fSubmittingBlock) :
    Follows getHash pool nDaemon nID s
      (client.onConnection fun connection => connection.generic getHash s.thread.fSubmittingBlock) := by
  by_cases clears : client.connection.fNewBlock = true ∧ ¬ s.thread.fSubmittingBlock = true
  · refine shows.moves .generic rfl fun handle mirror mirrors => ?_
    refine ⟨{ mirror.clear with fNewBlock := false }, ?_, Or.inl ?_⟩
    · have cleared : client.connection.generic getHash s.thread.fSubmittingBlock =
          PoolConnection.sendBlocks getHash { client.connection.clear with fNewBlock := false } := by
        rw [PoolConnection.generic, if_pos clears.1, if_neg clears.2]
      rw [Client.onConnection, cleared]
      exact { mirrors with fNewBlock := rfl, nBlockRequests := rfl, nBlocksWaiting := rfl }
    · rw [Pool.miner, if_pos ⟨mirrors.fNewBlock.trans clears.1, fSubmittingBlock ▸ clears.2⟩]
      exact congrArg (fun pool : Pool D => pool.setConnection nDaemon nID handle _) shows.unchanged.symm
  · refine shows.stays rfl rfl fun mirror mirrors => ?_
    rw [Client.onConnection, PoolConnection.generic]
    split
    · rename_i flagged
      rw [if_pos (not_not.mp fun submitting => clears ⟨flagged, submitting⟩)]
      exact mirrors
    · exact { mirrors with }

theorem Mirrors.submitBlock (mirrors : Mirrors client mirror) {nBestHeight : UInt32} {hashPrimeOrigin : Uint1024}
    {BLOCK : HeapBlock} (found : client.connection.findBlock nBestHeight hashPrimeOrigin = some BLOCK) (nNonce : UInt64) :
    Mirrors (client.onConnection fun connection => connection.submitBlock hashPrimeOrigin nNonce)
      (if mirror.SUBMISSION_BLOCK.isNone then { mirror with SUBMISSION_BLOCK := some BLOCK.BLOCK } else mirror) := by
  have stored := (Option.filter_eq_some_iff.mp found).1
  have same := mirrors.SUBMISSION_BLOCK
  cases pending : client.connection.SUBMISSION_BLOCK with
  | none =>
      have none' : mirror.SUBMISSION_BLOCK.isNone = true := by
        rw [pending] at same
        simpa using same
      rw [if_pos none']
      refine { mirrors with SUBMISSION_BLOCK := ?_ }
      simp [Client.onConnection, PoolConnection.submitBlock, pending, stored]
  | some object =>
      have some' : ¬ mirror.SUBMISSION_BLOCK.isNone = true := by
        rw [pending] at same
        simpa [Option.isSome_iff_ne_none] using same
      rw [if_neg some']
      refine { mirrors with SUBMISSION_BLOCK := ?_ }
      rw [same]
      simp [Client.onConnection, PoolConnection.submitBlock, pending]

theorem Shows.credits (shows : Shows pool nDaemon nID s client) (loggedIn : client.fLoggedIn = true)
    {hashPrimeOrigin hashPrime : Uint1024} {nNonce : UInt64} {BLOCK : HeapBlock} {PRIMES_MAP : ExtTreeSet Uint1024}
    (found : client.connection.findBlock s.thread.nBestHeight hashPrimeOrigin = some BLOCK) {verification : Verification}
    {handled : Handled}
    (shares : handled.Shares verification s client
      { PRIMES_MAP
        connection :=
          if verification.fBlock hashPrime BLOCK.BLOCK.nBits then client.connection.submitBlock hashPrimeOrigin nNonce
          else client.connection
        credited := some hashPrime }) : Follows getHash pool nDaemon nID handled.server handled.client := by
  refine shows.moves
    (.submitShare BLOCK.BLOCK (verification.nWeight hashPrime) (verification.fBlock hashPrime BLOCK.BLOCK.nBits))
    shares.nBestHeight fun handle mirror mirrors => ?_
  have current : BLOCK.BLOCK.nHeight = pool.globals.nBestHeight :=
    (of_decide_eq_true (Option.filter_eq_some_iff.mp found).2).trans shows.nBestHeight.symm
  have guards : mirror.fLoggedIn = true ∧ BLOCK.BLOCK.nHeight = pool.globals.nBestHeight :=
    ⟨mirrors.fLoggedIn.trans loggedIn, current⟩
  have credited : pool.runProgram (Core.acceptShare mirror.ADDRESS (verification.nWeight hashPrime)) =
      { pool with databases := handled.server.databases } := by
    rw [Pool.runProgram, shares.databases, mirrors.ADDRESS, shows.databases]
    rfl
  rw [Pool.miner, if_pos guards, credited, shares.client]
  cases verification.fBlock hashPrime BLOCK.BLOCK.nBits with
  | false => exact ⟨mirror, mirrors, Or.inr ⟨if_neg fun both => Bool.false_ne_true both.1, rfl⟩⟩
  | true =>
      refine ⟨_, mirrors.submitBlock found nNonce, ?_⟩
      by_cases none : mirror.SUBMISSION_BLOCK.isNone = true
      · rw [if_pos none]
        exact Or.inl (if_pos ⟨rfl, none⟩)
      · rw [if_neg none]
        exact Or.inr ⟨if_neg fun both => none both.2, rfl⟩

theorem Shows.submitShare (shows : Shows pool nDaemon nID s client) (loggedIn : client.fLoggedIn = true) {DATA : Bytes}
    (stays : (s.submitShare settings GmpVerification rounded pow client DATA).result ≠ none) :
    let handled := s.submitShare settings GmpVerification rounded pow client DATA
    Follows getHash pool nDaemon nID handled.server handled.client := by
  intro handled
  cases origin : decodeOrigin DATA with
  | none =>
      have left : handled.result = none := by
        simp only [handled, PoolServer.submitShare, origin]
        rfl
      exact absurd left stays
  | some hashPrimeOrigin =>
      cases found : client.connection.findBlock s.thread.nBestHeight hashPrimeOrigin with
      | none =>
          obtain ⟨verdict, -, answered⟩ :=
            PoolServer.submitShare_of_none settings GmpVerification rounded pow s client origin found
          have same : handled = _ := answered
          rw [same]
          exact shows.stays rfl rfl fun _ => id
      | some BLOCK =>
          cases nonce : decodeNonce DATA with
          | none =>
              have left : handled.result = none := by
                simp only [handled, PoolServer.submitShare_of_some settings GmpVerification rounded pow s client origin found,
                  nonce]
                rfl
              exact absurd left stays
          | some nNonce =>
              have shares : handled.Shares _ s client _ := PoolServer.submitShare_shares origin nonce stays
              by_cases seen : hashPrimeOf hashPrimeOrigin nNonce ∈ s.thread.PRIMES_MAP
              · rw [shareEffect_of_seen seen] at shares
                exact shows.stays shares.databases shares.nBestHeight fun _ mirrors => shares.client ▸ mirrors
              cases accepted : (verificationOf settings GmpVerification rounded pow).fAccepted
                (hashPrimeOf hashPrimeOrigin nNonce) with
              | false =>
                  rw [shareEffect_of_refused accepted] at shares
                  exact shows.stays shares.databases shares.nBestHeight fun _ mirrors => shares.client ▸ mirrors
              | true =>
                  rw [shareEffect_of_accepted found seen accepted] at shares
                  exact shows.credits loggedIn found shares

/-- Where a packet is handled, the pool takes a step of the connection or none. -/
theorem Shows.processPacket (shows : Shows pool nDaemon nID s client)
    (known : client.fLoggedIn = true → client.ADDRESS ∈ s.databases.AccountDB)
    (stays : (s.processPacket settings SK256 GmpVerification rounded pow client).result ≠ none) :
    let handled := s.processPacket settings SK256 GmpVerification rounded pow client
    Follows getHash pool nDaemon nID handled.server handled.client := by
  unfold PoolServer.processPacket at stays ⊢
  dsimp only at stays ⊢
  split
  · exact shows.login _
  split
  · exact shows.stays rfl rfl fun _ => id
  rename_i loggedIn
  have loggedIn := Bool.not_eq_false _ ▸ loggedIn
  split
  · exact shows.getBlock loggedIn
  split
  · rename_i login out getBlock share
    rw [if_neg login, if_neg out, if_neg getBlock, if_pos share] at stays
    exact shows.submitShare loggedIn stays
  split
  · have read : (run perform (getAccount .processPacket client.ADDRESS) s.databases).2 = s.databases :=
      congrArg Prod.snd (run_getAccount .processPacket (known loggedIn))
    exact shows.stays read rfl fun _ => id
  split
  · exact shows.stays rfl rfl fun _ => id
  split
  · exact shows.stays rfl rfl fun _ => id
  split
  · unfold PoolServer.submitPPS
    dsimp only
    split
    · exact shows.stays rfl rfl fun _ => id
    · exact shows.stays rfl rfl fun _ => id
  · exact shows.stays rfl rfl fun _ => id

end Packets

end

end PrimePool.LLP

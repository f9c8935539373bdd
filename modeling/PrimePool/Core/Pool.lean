import PrimePool.Core.Reward
import PrimePool.Core.ShareAcceptance

/-!
# The threads of the pool

`core.cpp`, `LLP/daemon.cpp` and `LLP/pool.cpp`: the master thread, the orphan thread, the threads of the
daemon handles and those of the pool connections, on the globals they share. A step is one handler of a
loop, with the flags that the loop tests on its way there. The daemon servers answer requests: a `GOOD` or
`FAIL` a `SUBMIT_BLOCK`, a `COINBASE_SET` or `COINBASE_FAIL` a `SET_COINBASE`; all else they may send at
any time.
-/

namespace PrimePool.Core

open PrimePool.General PrimePool.LLD

/-! ## Connections -/

structure CBlock where
  nVersion : UInt32
  hashPrevBlock : Uint1024
  hashMerkleRoot : Uint512
  nChannel : UInt32
  nHeight : UInt32
  nBits : UInt32
  nNonce : UInt64
deriving DecidableEq

/-- A pool connection without the blocks it holds: an event names the block a share is for. -/
structure PoolConnection where
  ADDRESS : StdString
  fLoggedIn : Bool
  fNewBlock : Bool
  nBlockRequests : UInt32
  nBlocksWaiting : UInt32
  SUBMISSION_BLOCK : Option CBlock

namespace PoolConnection

def new : PoolConnection where
  ADDRESS := []
  fLoggedIn := false
  fNewBlock := false
  nBlockRequests := 0
  nBlocksWaiting := 0
  SUBMISSION_BLOCK := none

def requestBlocks (connection : PoolConnection) : PoolConnection :=
  { connection with
    nBlockRequests := 0
    nBlocksWaiting := connection.nBlocksWaiting + connection.nBlockRequests }

def clear (connection : PoolConnection) : PoolConnection :=
  { connection with nBlockRequests := 0, nBlocksWaiting := 0 }

end PoolConnection

/-- A `SUBMIT_BLOCK`, with the globals when it was sent. -/
structure Submission where
  BLOCK : CBlock
  ADDRESS : StdString
  cGlobalCoinbase : Coinbase
  nRoundReward : UInt64

structure DaemonConnection where
  CONNECTED : Bool
  submissions : List Submission
  nCoinbases : Nat

namespace DaemonConnection

def new : DaemonConnection := { CONNECTED := false, submissions := [], nCoinbases := 0 }

def connect : DaemonConnection := { DaemonConnection.new with CONNECTED := true }

def setCoinbase (CLIENT : DaemonConnection) : DaemonConnection :=
  { CLIENT with nCoinbases := CLIENT.nCoinbases + 1 }

def submitBlock (CLIENT : DaemonConnection) (submission : Submission) : DaemonConnection :=
  { CLIENT with submissions := CLIENT.submissions ++ [submission] }

def answerSubmission (CLIENT : DaemonConnection) : DaemonConnection :=
  { CLIENT with submissions := CLIENT.submissions.tail }

def answerCoinbase (CLIENT : DaemonConnection) : DaemonConnection :=
  { CLIENT with nCoinbases := CLIENT.nCoinbases - 1 }

end DaemonConnection

structure DaemonHandle where
  CLIENT : DaemonConnection
  CONNECTIONS : List (Option PoolConnection)
  nTotalConnections : UInt32
  fNewBlock : Bool
  fCoinbasePending : Bool

namespace DaemonHandle

def new : DaemonHandle where
  CLIENT := .new
  CONNECTIONS := []
  nTotalConnections := 0
  fNewBlock := false
  fCoinbasePending := false

def findConnection (handle : DaemonHandle) : Option Nat := handle.CONNECTIONS.findIdx? Option.isNone

def assignConnection (handle : DaemonHandle) (connection : PoolConnection) : DaemonHandle :=
  { handle with
    CONNECTIONS :=
      match handle.findConnection with
      | some nID => handle.CONNECTIONS.set nID (some connection)
      | none => handle.CONNECTIONS ++ [some connection]
    nTotalConnections := handle.nTotalConnections + 1 }

def removeConnection (handle : DaemonHandle) (nIndex : Nat) : DaemonHandle :=
  { handle with
    CONNECTIONS := handle.CONNECTIONS.set nIndex none
    nTotalConnections := handle.nTotalConnections - 1 }

def newBlock (handle : DaemonHandle) : DaemonHandle :=
  { handle with
    CONNECTIONS := handle.CONNECTIONS.map (Option.map fun connection => { connection with fNewBlock := true }) }

def addBlock (handle : DaemonHandle) : DaemonHandle :=
  { handle with
    CONNECTIONS :=
      match handle.CONNECTIONS.findIdx? fun connection => connection.any fun connection => connection.nBlocksWaiting > 0 with
      | some nIndex =>
          handle.CONNECTIONS.modify nIndex
            (Option.map fun connection => { connection with nBlocksWaiting := connection.nBlocksWaiting - 1 })
      | none => handle.CONNECTIONS }

end DaemonHandle

def findDaemon (handles : List DaemonHandle) : Nat :=
  let least := handles.zipIdx.foldl
    (fun least handle => if handle.1.nTotalConnections < least.1 then (handle.1.nTotalConnections, handle.2) else least)
    ((handles.headD .new).nTotalConnections, 0)
  least.2

structure Pool (D : Type) where
  globals : Globals D
  databases : Databases
  master : DaemonConnection
  orphan : DaemonConnection
  DAEMON_CONNECTIONS : List DaemonHandle

/-! ## Events -/

/-- `vAccounts` is the order in which `std::sort` leaves the accounts. -/
inductive MasterPacket where
  | blockHeight (nHeight : UInt32)
  | newRound
  | coinbaseSet
  | coinbaseFail
  | blockReward (nReward : UInt64) (vAccounts : List StdString)

inductive OrphanPacket where
  | orphanBlock (hashOrphan : Uint1024)
  | goodBlock (hashBlock : Uint1024)

inductive DaemonPacket where
  | good
  | fail
  | coinbaseSet
  | coinbaseFail
  | blockData (BLOCK : CBlock)

inductive MinerEvent where
  | disconnect
  | generic
  | login (ADDRESS : StdString) (fValid fBanned : Bool)
  | getBlock
  /-- A share whose difficulty is high enough; `fBlock` says whether it is a block. -/
  | submitShare (BLOCK : CBlock) (nWeight : UInt64) (fBlock : Bool)

inductive Event where
  | masterReconnect
  | masterPacket (packet : MasterPacket)
  | orphanReconnect
  | orphanPacket (packet : OrphanPacket)
  | daemonReconnect (nDaemon : Nat)
  | daemonPacket (nDaemon : Nat) (packet : DaemonPacket)
  | daemonScan (nDaemon : Nat)
  | minerConnect
  | miner (nDaemon nID : Nat) (event : MinerEvent)

namespace Pool

variable {D : Type} [Double D]

def setHandle (pool : Pool D) (nDaemon : Nat) (handle : DaemonHandle) : Pool D :=
  { pool with DAEMON_CONNECTIONS := pool.DAEMON_CONNECTIONS.set nDaemon handle }

def runProgram (pool : Pool D) (program : DatabaseProgram Unit) : Pool D :=
  { pool with databases := (run perform program pool.databases).2 }

def resetDaemons (pool : Pool D) : Pool D :=
  { pool with
    DAEMON_CONNECTIONS := pool.DAEMON_CONNECTIONS.map fun handle => { handle with fNewBlock := true } }

def newRound (pool : Pool D) : Pool D :=
  let pool := { pool with globals.fNewRound := true, globals.fCoinbasePending := true }
  let pool := pool.runProgram (Core.newRound pool.globals.toRound)
  { pool with globals.nCurrentRound := pool.globals.nCurrentRound + 1, globals.fNewRound := false }

/-! ## The master thread -/

def masterIdles (pool : Pool D) : Bool := pool.globals.fNewRound || pool.globals.fSubmittingBlock

def masterReconnect (pool : Pool D) : Pool D :=
  { pool with
    master := .connect
    globals.fNewRound := false
    globals.fSubmittingBlock := false
    globals.fCoinbasePending := true }

instance (AccountDB : Records StdString Account) (vAccounts : List StdString) :
    Decidable (SortedAccounts AccountDB vAccounts) :=
  inferInstanceAs (Decidable (_ ∧ _))

def Builds (globals : Globals D) : Prop := globals.nCurrentRound > 1 ∧ globals.fCoinbasePending = true

instance (globals : Globals D) : Decidable (Builds globals) := inferInstanceAs (Decidable (_ ∧ _))

def masterPacket (pool : Pool D) : MasterPacket → Option (Pool D)
  | .blockHeight nHeight =>
      some { pool with
        globals.fCoinbasePending := pool.globals.fCoinbasePending || nHeight > pool.globals.nBestHeight
        globals.nBestHeight := nHeight }
  | .newRound => some { pool with globals.fCoinbasePending := true }
  | .coinbaseSet =>
      if pool.master.nCoinbases = 0 then none
      else
        let pool := { pool with master := pool.master.answerCoinbase, globals.fCoinbasePending := false }
        some (pool.resetDaemons.runProgram writeAccounts)
  | .coinbaseFail =>
      if pool.master.nCoinbases = 0 then none
      else some { pool with master := pool.master.answerCoinbase, globals.fCoinbasePending := true }
  | .blockReward nReward vAccounts =>
      if SortedAccounts pool.databases.AccountDB vAccounts then
        let globals := blockReward pool.globals pool.databases.AccountDB vAccounts nReward
        if Builds pool.globals then some { pool with globals, master := pool.master.setCoinbase }
        else some { pool with globals }.resetDaemons
      else none

/-! ## The orphan thread -/

def orphanReconnect (pool : Pool D) : Pool D :=
  { pool with
    orphan := .connect
    globals.fSubmittingBlock := false
    globals.fNewRound := false }

def orphanPacket (pool : Pool D) : OrphanPacket → Pool D
  | .orphanBlock hashOrphan =>
      -- the log line reads the record of the block first
      let pool := pool.runProgram do
        let _ ← getBlock hashOrphan
        refundPayouts hashOrphan
      { pool with globals.fCoinbasePending := true }
  | .goodBlock hashBlock =>
      pool.runProgram do
        let _ ← getBlock hashBlock
        return ()

/-! ## The daemon handles -/

def daemonReconnect (pool : Pool D) (nDaemon : Nat) (handle : DaemonHandle) : Pool D :=
  let pool := pool.setHandle nDaemon { handle with CLIENT := .connect, fNewBlock := false, fCoinbasePending := false }
  { pool with
    globals.fNewRound := false
    globals.fSubmittingBlock := false
    globals.fCoinbasePending := true }

def daemonPacket (pool : Pool D) (nDaemon : Nat) (handle : DaemonHandle) : DaemonPacket → Option (Pool D)
  | .good =>
      if handle.CLIENT.submissions = [] then none
      else
        let pool := pool.setHandle nDaemon { handle with CLIENT := handle.CLIENT.answerSubmission }
        some { pool.newRound with globals.fSubmittingBlock := false }
  | .fail =>
      if handle.CLIENT.submissions = [] then none
      else
        let pool := pool.setHandle nDaemon { handle with CLIENT := handle.CLIENT.answerSubmission }
        some { pool with globals.fSubmittingBlock := false }
  | .coinbaseSet =>
      if handle.CLIENT.nCoinbases = 0 then none
      else some (pool.setHandle nDaemon { handle with CLIENT := handle.CLIENT.answerCoinbase, fCoinbasePending := false })
  | .coinbaseFail =>
      if handle.CLIENT.nCoinbases = 0 then none
      else
        let pool := pool.setHandle nDaemon
          { handle with CLIENT := handle.CLIENT.answerCoinbase, fNewBlock := false, fCoinbasePending := false }
        some { pool with
          globals.fNewRound := false
          globals.fSubmittingBlock := false
          globals.fCoinbasePending := true }
  | .blockData BLOCK =>
      if BLOCK.nHeight = pool.globals.nBestHeight then some (pool.setHandle nDaemon handle.addBlock)
      else some pool

variable (getHash : CBlock → Uint1024)

def scanConnections : List (Option PoolConnection) → Option (StdString × CBlock) × List (Option PoolConnection)
  | [] => (none, [])
  | none :: connections =>
      let (found, connections) := scanConnections connections
      (found, none :: connections)
  | some connection :: connections =>
      match connection.SUBMISSION_BLOCK with
      | some BLOCK => (some (connection.ADDRESS, BLOCK), some { connection with SUBMISSION_BLOCK := none } :: connections)
      | none =>
          let (found, connections) := scanConnections connections
          (found, some connection.requestBlocks :: connections)

def pickUp (globals : Globals D) (CLIENT : DaemonConnection) (ADDRESS : StdString) (BLOCK : CBlock) :
    Globals D × DaemonConnection :=
  let globals := { globals with fSubmittingBlock := true, hashBlockSubmission := getHash BLOCK }
  if BLOCK.nHeight = globals.nBestHeight then
    let submission :=
      { BLOCK, ADDRESS, cGlobalCoinbase := globals.cGlobalCoinbase, nRoundReward := globals.nRoundReward }
    ({ globals with LAST_ROUND_BLOCKFINDER := ADDRESS, nLastBlockFound := BLOCK.nHeight },
      CLIENT.submitBlock submission)
  else (globals, CLIENT)

def scanSubmissions (globals : Globals D) (handle : DaemonHandle) : Globals D × DaemonHandle :=
  let (found, CONNECTIONS) := scanConnections handle.CONNECTIONS
  match found with
  | none => (globals, { handle with CONNECTIONS })
  | some (ADDRESS, BLOCK) =>
      let (globals, CLIENT) := pickUp getHash globals handle.CLIENT ADDRESS BLOCK
      (globals, { handle with CONNECTIONS, CLIENT })

def daemonWaits (globals : Globals D) (handle : DaemonHandle) : Bool :=
  globals.fCoinbasePending || globals.fSubmittingBlock || globals.fNewRound || handle.fCoinbasePending

def daemonScan (globals : Globals D) (handle : DaemonHandle) : Globals D × DaemonHandle :=
  if daemonWaits globals handle then (globals, handle)
  else if handle.fNewBlock then
    let handle := { handle with fNewBlock := false }.newBlock
    if globals.nCurrentRound > 1 then
      (globals, { handle with fCoinbasePending := true, CLIENT := handle.CLIENT.setCoinbase })
    else scanSubmissions getHash globals handle
  else scanSubmissions getHash globals handle

/-! ## The pool connections -/

def minerConnect (pool : Pool D) : Option (Pool D) := do
  let nDaemon := findDaemon pool.DAEMON_CONNECTIONS
  let handle ← pool.DAEMON_CONNECTIONS[nDaemon]?
  return pool.setHandle nDaemon (handle.assignConnection .new)

def setConnection (pool : Pool D) (nDaemon nID : Nat) (handle : DaemonHandle) (connection : PoolConnection) : Pool D :=
  pool.setHandle nDaemon { handle with CONNECTIONS := handle.CONNECTIONS.set nID (some connection) }

def miner (pool : Pool D) (nDaemon nID : Nat) (handle : DaemonHandle) (connection : PoolConnection) :
    MinerEvent → Pool D
  | .disconnect => pool.setHandle nDaemon (handle.removeConnection nID)
  | .generic =>
      if connection.fNewBlock ∧ ¬ pool.globals.fSubmittingBlock then
        pool.setConnection nDaemon nID handle { connection.clear with fNewBlock := false }
      else pool
  | .login ADDRESS fValid fBanned =>
      if connection.fLoggedIn then pool
      else
        let connection := { connection with ADDRESS }
        if ¬ fValid then pool.setConnection nDaemon nID handle connection
        else
          let databases :=
            if pool.databases.AccountDB.hasKey ADDRESS then pool.databases
            else (run perform (updateAccount .processPacket (.new ADDRESS)) pool.databases).2
          { pool with databases }.setConnection nDaemon nID handle { connection with fLoggedIn := !fBanned }
  | .getBlock =>
      if connection.fLoggedIn then
        pool.setConnection nDaemon nID handle { connection with nBlockRequests := connection.nBlockRequests + 1 }
      else pool
  | .submitShare BLOCK nWeight fBlock =>
      if connection.fLoggedIn ∧ BLOCK.nHeight = pool.globals.nBestHeight then
        let pool := pool.runProgram (acceptShare connection.ADDRESS nWeight)
        if fBlock ∧ connection.SUBMISSION_BLOCK.isNone then
          pool.setConnection nDaemon nID handle { connection with SUBMISSION_BLOCK := some BLOCK }
        else pool
      else pool

/-! ## Steps -/

def step (pool : Pool D) : Event → Option (Pool D)
  | .masterReconnect => if pool.masterIdles then none else some pool.masterReconnect
  | .masterPacket packet =>
      if pool.masterIdles || !pool.master.CONNECTED then none else pool.masterPacket packet
  | .orphanReconnect => some pool.orphanReconnect
  | .orphanPacket packet => if pool.orphan.CONNECTED then some (pool.orphanPacket packet) else none
  | .daemonReconnect nDaemon => do
      let handle ← pool.DAEMON_CONNECTIONS[nDaemon]?
      return pool.daemonReconnect nDaemon handle
  | .daemonPacket nDaemon packet => do
      let handle ← pool.DAEMON_CONNECTIONS[nDaemon]?
      if handle.CLIENT.CONNECTED then pool.daemonPacket nDaemon handle packet else none
  | .daemonScan nDaemon => do
      let handle ← pool.DAEMON_CONNECTIONS[nDaemon]?
      if handle.CLIENT.CONNECTED then
        let (globals, handle) := daemonScan getHash pool.globals handle
        return { pool with globals }.setHandle nDaemon handle
      else none
  | .minerConnect => pool.minerConnect
  | .miner nDaemon nID event => do
      let handle ← pool.DAEMON_CONNECTIONS[nDaemon]?
      let connection ← handle.CONNECTIONS[nID]?.join
      return pool.miner nDaemon nID handle connection event

def startRound (BlockDB : Records Uint1024 Block) : UInt32 :=
  BlockDB.values.foldl (fun nCurrentRound cBlock => if cBlock.nRound ≥ nCurrentRound then cBlock.nRound + 1 else nCurrentRound) 1

def firstBlockfinder : StdString :=
  "2S4PPSznWfPVLtPJNpi8Ly46Wft3wGbayGkhaGzKLVcepmrhKTP".toList.map fun c => c.val.toUInt8

/-- `StartPool`, once the databases are loaded. -/
def start (databases : Databases) (lfPoolFee : D) (nMaxDaemons : Nat) : Pool D where
  globals :=
    { lfPoolFee
      cGlobalCoinbase := .new
      nRoundReward := 0
      hashBlockSubmission := .ofUInt64 0
      LAST_ROUND_BLOCKFINDER := firstBlockfinder
      nCurrentRound := startRound databases.BlockDB
      nBestHeight := 0
      nLastBlockFound := 0
      fCoinbasePending := false
      fNewRound := false
      fSubmittingBlock := false }
  databases
  master := .new
  orphan := .new
  DAEMON_CONNECTIONS := List.replicate nMaxDaemons .new

end Pool

/-! ## A small pool -/

def sampleBlock (nHeight : UInt32) (merkle : UInt64) : CBlock where
  nVersion := 1
  hashPrevBlock := .ofUInt64 0
  hashMerkleRoot := .ofUInt64 merkle
  nChannel := 1
  nHeight
  nBits := 0
  nNonce := 0

def sampleHash (BLOCK : CBlock) : Uint1024 := ⟨BLOCK.hashMerkleRoot.pn ++ BLOCK.hashMerkleRoot.pn⟩

def oneAccount : Databases where
  AccountDB := .ofList [(minerAddress, Account.new minerAddress)]
  BlockDB := ∅
  acctDat := none
  blkDat := none

end PrimePool.Core

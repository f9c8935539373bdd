import PrimePool.General.Least
import PrimePool.General.TreeMap
import PrimePool.LLP.DDOSScore

/-!
# The server

`LLP/server.h` and the filters of `LLP/types.h`: the listening thread, which gives each connection to the data thread
that has the fewest, the loops of the data threads over their connections, and the meter. What a connection reads and
what its protocol does of it is given with the turn. Times are in seconds and do not decrease.
-/

namespace PrimePool.LLP

open PrimePool.General Std

/-! ## Filters -/

/-- Before the first ban the timer is not started, and `BANTIME` is 0. -/
structure DDOSFilter where
  TIMER : Nat
  BANTIME : UInt32
  TOTALBANS : UInt32
  rSCORE : DDOSScore Int32
  cSCORE : DDOSScore Int32

/-- What the server and the protocol do with a filter. -/
inductive FilterCall where
  | ban
  | addRequests (nScore : Int32)
  | addConnection

/-- What a run is watched for. -/
inductive Deed where
  | banned (ADDRESS : UInt32) (time : Nat) (BANTIME : UInt32)
  | accepted (ADDRESS : UInt32) (time : Nat)
  | served (ADDRESS : UInt32) (time : Nat)

namespace DDOSFilter

def new (nTimespan now : Nat) : DDOSFilter where
  TIMER := 0
  BANTIME := 0
  TOTALBANS := 0
  rSCORE := .new scores nTimespan now
  cSCORE := .new scores nTimespan now

def banned (filter : DDOSFilter) (now : Nat) : Bool := (now - filter.TIMER).toUInt32 < filter.BANTIME

def bantime (filter : DDOSFilter) : UInt32 :=
  let TOTALBANS := filter.TOTALBANS + 1
  max (TOTALBANS * (filter.rSCORE.score + 1).toUInt32 * (filter.cSCORE.score + 1).toUInt32) (TOTALBANS * 1200)

def ban (filter : DDOSFilter) (now : Nat) : DDOSFilter :=
  if filter.banned now then filter
  else
    { TIMER := now
      BANTIME := filter.bantime
      TOTALBANS := filter.TOTALBANS + 1
      rSCORE := filter.rSCORE.flush scores now
      cSCORE := filter.cSCORE.flush scores now }

def call (now : Nat) (filter : DDOSFilter) : FilterCall → DDOSFilter
  | .ban => filter.ban now
  | .addRequests nScore => { filter with rSCORE := filter.rSCORE.add scores now nScore }
  | .addConnection => { filter with cSCORE := filter.cSCORE.add scores now 1 }

/-- The bans among the calls. -/
def deeds (ADDRESS : UInt32) (now : Nat) : DDOSFilter → List FilterCall → List Deed
  | _, [] => []
  | filter, .ban :: calls =>
      (if filter.banned now then [] else [.banned ADDRESS now (filter.ban now).BANTIME]) ++
        deeds ADDRESS now (filter.ban now) calls
  | filter, call :: calls => deeds ADDRESS now (filter.call now call) calls

end DDOSFilter

/-! ## Data threads -/

variable {Pointer : Type}

/-- A connection is a pointer to it and the address of its filter. -/
structure DataThread (Pointer : Type) where
  CONNECTIONS : List (Option (Pointer × UInt32))
  nConnections : UInt32
  REQUESTS : UInt32

namespace DataThread

def new : DataThread Pointer := { CONNECTIONS := [], nConnections := 0, REQUESTS := 0 }

def findSlot (thread : DataThread Pointer) : Nat := thread.CONNECTIONS.findIdx Option.isNone

def addConnection (thread : DataThread Pointer) (connection : Pointer × UInt32) : DataThread Pointer :=
  let nSlot := thread.findSlot
  let CONNECTIONS :=
    if nSlot = thread.CONNECTIONS.length then thread.CONNECTIONS ++ [none] else thread.CONNECTIONS
  { thread with CONNECTIONS := CONNECTIONS.set nSlot (some connection), nConnections := thread.nConnections + 1 }

def removeConnection (thread : DataThread Pointer) (index : Nat) : DataThread Pointer :=
  { thread with CONNECTIONS := thread.CONNECTIONS.set index none, nConnections := thread.nConnections - 1 }

end DataThread

/-- What a connection does after its generic event: the calls of the filter, and what `ProcessPacket` returns where a
packet is complete and nothing is thrown. -/
structure Work where
  calls : List FilterCall
  result : Option Bool

inductive Turn where
  /-- Timed out, or with an error. -/
  | failed
  /-- Not yet connected. -/
  | waiting
  | working (work : Work)

/-! ## The server -/

structure ServerSettings where
  fDDOS : Bool
  DDOS_rSCORE : UInt32
  DDOS_cSCORE : UInt32

structure Server (Pointer : Type) where
  DDOS_MAP : ExtTreeMap UInt32 DDOSFilter
  DATA_THREADS : List (DataThread Pointer)
  nGlobalConnections : UInt32
  /-- What `FindThread` chose, while the listener waits. -/
  nThread : Option Nat
  now : Nat

inductive ServerEvent (Pointer : Type) where
  | findThread
  | accept (ADDRESS : UInt32) (pConnection : Pointer) (fBannedIP : Bool) (time : Nat)
  | turn (nThread nIndex : Nat) (turn : Turn) (time : Nat)
  | meter
  | clearRequests

namespace Server

variable (settings : ServerSettings)

def start (nMaxThreads : Nat) : Server Pointer where
  DDOS_MAP := ∅
  DATA_THREADS := List.replicate nMaxThreads .new
  nGlobalConnections := 0
  nThread := none
  now := 0

def findThread (server : Server Pointer) : Nat := leastIndex (server.DATA_THREADS.map DataThread.nConnections)

def setFilter (server : Server Pointer) (ADDRESS : UInt32) (filter : DDOSFilter) : Server Pointer :=
  { server with DDOS_MAP := server.DDOS_MAP.insert ADDRESS filter }

def setThread (server : Server Pointer) (nThread : Nat) (thread : DataThread Pointer) : Server Pointer :=
  { server with DATA_THREADS := server.DATA_THREADS.set nThread thread }

def filterAt (server : Server Pointer) (ADDRESS : UInt32) (now : Nat) : DDOSFilter :=
  server.DDOS_MAP.getD ADDRESS (.new 30 now)

/-- The loop of the listening thread, from `accept` on. -/
def accept (server : Server Pointer) (nThread : Nat) (thread : DataThread Pointer) (ADDRESS : UInt32)
    (pConnection : Pointer) (fBannedIP : Bool) (now : Nat) : Server Pointer × List Deed :=
  let filter := server.filterAt ADDRESS now
  let calls := if settings.fDDOS && fBannedIP then [FilterCall.ban] else []
  let deeds := filter.deeds ADDRESS now calls
  let filter := calls.foldl (.call now) filter
  if settings.fDDOS && filter.banned now then (server.setFilter ADDRESS filter, deeds)
  else
    let filter := if settings.fDDOS then filter.call now .addConnection else filter
    ((server.setFilter ADDRESS filter).setThread nThread (thread.addConnection (pConnection, ADDRESS)),
      deeds ++ [.accepted ADDRESS now])

def exceeds (filter : DDOSFilter) : Bool :=
  filter.rSCORE.score.toUInt32 > settings.DDOS_rSCORE || filter.cSCORE.score.toUInt32 > settings.DDOS_cSCORE

/-- From the generic event on. -/
def serve (server : Server Pointer) (nThread nIndex : Nat) (thread : DataThread Pointer) (ADDRESS : UInt32)
    (filter : DDOSFilter) (work : Work) (now : Nat) : Server Pointer × List Deed :=
  let deeds := .served ADDRESS now :: filter.deeds ADDRESS now work.calls
  let filter := work.calls.foldl (.call now) filter
  match work.result with
  | none => (server.setFilter ADDRESS filter, deeds)
  | some false => ((server.setFilter ADDRESS filter).setThread nThread (thread.removeConnection nIndex), deeds)
  | some true =>
      let filter := if settings.fDDOS then filter.call now (.addRequests 1) else filter
      ((server.setFilter ADDRESS filter).setThread nThread { thread with REQUESTS := thread.REQUESTS + 1 }, deeds)

/-- One turn of a data thread's loop over its connections. -/
def turn (server : Server Pointer) (nThread nIndex : Nat) (thread : DataThread Pointer) (ADDRESS : UInt32) (now : Nat) :
    Turn → Server Pointer × List Deed
  | .failed => (server.setThread nThread (thread.removeConnection nIndex), [])
  | .waiting => (server, [])
  | .working work =>
      let filter := server.filterAt ADDRESS now
      let calls := if settings.fDDOS && exceeds settings filter then [FilterCall.ban] else []
      let deeds := filter.deeds ADDRESS now calls
      let filter := calls.foldl (.call now) filter
      if settings.fDDOS && filter.banned now then
        ((server.setFilter ADDRESS filter).setThread nThread (thread.removeConnection nIndex), deeds)
      else
        let (server, more) := server.serve settings nThread nIndex thread ADDRESS filter work now
        (server, deeds ++ more)

def connectionAt (server : Server Pointer) (nThread nIndex : Nat) : Option (DataThread Pointer × Pointer × UInt32) := do
  let thread ← server.DATA_THREADS[nThread]?
  let connection ← thread.CONNECTIONS[nIndex]?.join
  return (thread, connection)

def advance (server : Server Pointer) (time : Nat) : Option (Server Pointer) :=
  if time < server.now then none else some { server with now := time }

def step (server : Server Pointer) : ServerEvent Pointer → Option (Server Pointer × List Deed)
  | .findThread => some ({ server with nThread := some server.findThread }, [])
  | .accept ADDRESS pConnection fBannedIP time => do
      let server ← server.advance time
      let nThread ← server.nThread
      let thread ← server.DATA_THREADS[nThread]?
      return { server with nThread := none }.accept settings nThread thread ADDRESS pConnection fBannedIP time
  | .turn nThread nIndex turn time => do
      let server ← server.advance time
      let (thread, _, ADDRESS) ← server.connectionAt nThread nIndex
      return server.turn settings nThread nIndex thread ADDRESS time turn
  | .meter =>
      let nGlobalConnections := server.DATA_THREADS.foldl (fun connections thread => connections + thread.nConnections) 0
      some ({ server with nGlobalConnections }, [])
  | .clearRequests =>
      some ({ server with DATA_THREADS := server.DATA_THREADS.map fun thread => { thread with REQUESTS := 0 } }, [])

end Server

/-! ## Watched runs -/

structure WatchedServer (Pointer : Type) where
  server : Server Pointer
  /-- The deeds so far, the first one first. -/
  deeds : List Deed

namespace WatchedServer

def start (nMaxThreads : Nat) : WatchedServer Pointer := { server := .start nMaxThreads, deeds := [] }

def step (settings : ServerSettings) (s : WatchedServer Pointer) (event : ServerEvent Pointer) :
    Option (WatchedServer Pointer) :=
  (s.server.step settings event).map fun (server, deeds) => { server, deeds := s.deeds ++ deeds }

end WatchedServer

end PrimePool.LLP

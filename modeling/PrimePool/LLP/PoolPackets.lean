import PrimePool.Core.Base58
import PrimePool.General.Machine
import PrimePool.LLP.Packet
import PrimePool.LLP.PoolConnection

/-!
# The packets of a client

`LLP/pool.cpp` and the loop of `LLP/server.h` for one connection: the DDOS filter at the header of a packet, and what
`ProcessPacket` decodes. A finite `double` is the rational it denotes; `rounded` is the rounding of a product or a
quotient. Answers, log lines, scores and the databases are left out.
-/

namespace PrimePool.Core

/-! ## Difficulties -/

variable (rounded : Rat → Rat)

def SetBits (nDiff : Rat) : UInt32 := (rounded (10000000 * nDiff)).floor.toNat.toUInt32

def getDifficulty (nBits : UInt32) : Rat := rounded (nBits.toNat / 10000000)

end PrimePool.Core

namespace PrimePool.LLP

open PrimePool.Core PrimePool.General Std

/-! ## Headers -/

def LOGIN : UInt8 := 0

def BLOCK_DATA : UInt8 := 1

def SUBMIT_SHARE : UInt8 := 2

def ACCOUNT_BALANCE : UInt8 := 3

def PENDING_PAYOUT : UInt8 := 4

def SUBMIT_PPS : UInt8 := 5

def GET_BLOCK : UInt8 := 129

def GET_BALANCE : UInt8 := 131

def GET_PAYOUT : UInt8 := 132

def ACCEPT : UInt8 := 200

def REJECT : UInt8 := 201

def BLOCK : UInt8 := 202

def STALE : UInt8 := 203

def PING : UInt8 := 253

/-- What the DDOS filter bans for when the header of a packet has been read. -/
def Packet.banned (PACKET : Packet) : Bool :=
  136 < PACKET.LENGTH || (PACKET.HEADER = SUBMIT_SHARE && PACKET.LENGTH ≠ 136) ||
    (PACKET.HEADER = LOGIN && 55 < PACKET.LENGTH) || (PACKET.HEADER = SUBMIT_PPS && PACKET.LENGTH ≠ 16) ||
    [BLOCK_DATA, ACCOUNT_BALANCE, PENDING_PAYOUT, ACCEPT, REJECT, BLOCK, STALE].contains PACKET.HEADER

/-! ## Decoding -/

/-- The vector between two iterators, given by their distances from `begin()`. -/
def iterators (DATA : Bytes) (first last : Int) : Option Bytes :=
  if 0 ≤ first ∧ 0 ≤ last then slice DATA first.toNat last.toNat else none

def decodeOrigin (DATA : Bytes) : Option Uint1024 :=
  (iterators DATA 0 (DATA.length - 8)).bind (BaseUint.setBytes 32)

def decodeNonce (DATA : Bytes) : Option UInt64 :=
  (iterators DATA (DATA.length - 8) DATA.length).map fun BYTES => bytes2uint64 BYTES 0

/-- The two doubles, as their bits. -/
def decodePPS (DATA : Bytes) : Option (UInt64 × UInt64) := do
  let PPS ← iterators DATA 0 (DATA.length - 8)
  let WPS ← iterators DATA 8 DATA.length
  return (bytes2uint64 PPS 0, bytes2uint64 WPS 0)

/-- What is recorded of the decoding: the data given to a decoder, and what it does wrong. -/
inductive Decoding where
  | share (nBytes : Nat)
  | pps (nBytes : Nat)
  | outsideData
  | outsideBuckets

namespace Decoding

def Harmless : Decoding → Prop
  | .share nBytes => nBytes = 136
  | .pps nBytes => nBytes = 16
  | .outsideData => False
  | .outsideBuckets => False

instance (decoding : Decoding) : Decidable decoding.Harmless := by
  cases decoding with
  | share nBytes => exact inferInstanceAs (Decidable (nBytes = 136))
  | pps nBytes => exact inferInstanceAs (Decidable (nBytes = 16))
  | outsideData => exact inferInstanceAs (Decidable False)
  | outsideBuckets => exact inferInstanceAs (Decidable False)

end Decoding

/-! ## The data thread -/

structure Settings where
  fDDOS : Bool
  fTestNet : Bool
  nMinimumShare : UInt64
  BANNED_ACCOUNTS : List StdString

structure Client where
  stream : Connection
  connection : PoolConnection
  ADDRESS : StdString
  fLoggedIn : Bool

structure PoolThread where
  client : Option Client
  /-- Whether the filter of the client's IP address says `Banned`. -/
  fBanned : Bool
  nBestHeight : UInt32
  fSubmittingBlock : Bool
  PRIMES_MAP : ExtTreeSet Uint1024
  nDifficultyShares : Vector UInt32 5
  decodings : List Decoding

/-- Where `ProcessPacket` returns nothing, it has left its data or its array, or thrown. -/
structure Processed where
  thread : PoolThread
  client : Client
  result : Option Bool

namespace PoolThread

variable (settings : Settings) (SK256 : Bytes → Vector UInt8 32) (getHash : CBlock → Uint1024)
  (GmpVerification : Uint1024 → Rat) (rounded : Rat → Rat) (available : Nat → Nat)

def record (s : PoolThread) (decoding : Decoding) : PoolThread :=
  { s with decodings := s.decodings ++ [decoding] }

def countDifficulty (s : PoolThread) (nDifficulty : Rat) : Option PoolThread :=
  let nIndex := (nDifficulty - 3).floor
  if inside : 0 ≤ nIndex ∧ nIndex < 5 then
    have inside : nIndex.toNat < 5 := by omega
    some { s with
      nDifficultyShares := s.nDifficultyShares.set nIndex.toNat (s.nDifficultyShares[nIndex.toNat] + 1) }
  else none

def login (s : PoolThread) (client : Client) (DATA : Bytes) : Processed :=
  if client.fLoggedIn then { thread := s, client, result := some true }
  else
    let client := { client with ADDRESS := DATA }
    if (NexusAddress.setString SK256 client.ADDRESS).isValid settings.fTestNet = false then
      { thread := { s with fBanned := s.fBanned || settings.fDDOS }, client, result := some false }
    else if isBannedAccount settings.BANNED_ACCOUNTS client.ADDRESS then
      { thread := { s with fBanned := true }, client, result := some true }
    else { thread := s, client := { client with fLoggedIn := true }, result := some true }

/-- The part of `SUBMIT_SHARE` that the verification of the prime leads to. -/
def acceptShare (s : PoolThread) (client : Client) (hashPrimeOrigin : Uint1024) (nNonce : UInt64) (nBits : UInt32) :
    Processed :=
  let hashPrime := hashPrimeOf hashPrimeOrigin nNonce
  let nDifficulty := GmpVerification hashPrime
  if settings.nMinimumShare ≤ (SetBits rounded nDifficulty).toUInt64 then
    let s := { s with PRIMES_MAP := s.PRIMES_MAP.insert hashPrime }
    match if nDifficulty < 8 then s.countDifficulty nDifficulty else some s with
    | none => { thread := s.record .outsideBuckets, client, result := none }
    | some s =>
        if getDifficulty rounded nBits ≤ nDifficulty then
          { thread := s
            client := { client with connection := client.connection.submitBlock hashPrimeOrigin nNonce }
            result := some true }
        else { thread := s, client, result := some true }
  else { thread := s, client, result := some true }

def submitShare (s : PoolThread) (client : Client) (DATA : Bytes) : Processed :=
  let s := s.record (.share DATA.length)
  match decodeOrigin DATA with
  | none => { thread := s.record .outsideData, client, result := none }
  | some hashPrimeOrigin =>
      match client.connection.findBlock s.nBestHeight hashPrimeOrigin with
      | none => { thread := s, client, result := some true }
      | some BLOCK =>
          match decodeNonce DATA with
          | none => { thread := s.record .outsideData, client, result := none }
          | some nNonce =>
              if hashPrimeOf hashPrimeOrigin nNonce ∈ s.PRIMES_MAP then { thread := s, client, result := some true }
              else s.acceptShare settings GmpVerification rounded client hashPrimeOrigin nNonce BLOCK.BLOCK.nBits

def submitPPS (s : PoolThread) (client : Client) (DATA : Bytes) : Processed :=
  let s := s.record (.pps DATA.length)
  match decodePPS DATA with
  | none => { thread := s.record .outsideData, client, result := none }
  | some _ => { thread := s, client, result := some true }

def processPacket (s : PoolThread) (client : Client) : Processed :=
  let PACKET := client.stream.INCOMING
  if PACKET.HEADER = LOGIN then s.login settings SK256 client PACKET.DATA
  else if client.fLoggedIn = false then { thread := s, client, result := some false }
  else if PACKET.HEADER = GET_BLOCK then
    { thread := s, client := { client with connection := client.connection.getBlock }, result := some true }
  else if PACKET.HEADER = SUBMIT_SHARE then s.submitShare settings GmpVerification rounded client PACKET.DATA
  else if PACKET.HEADER = GET_BALANCE ∨ PACKET.HEADER = GET_PAYOUT ∨ PACKET.HEADER = PING then
    { thread := s, client, result := some true }
  else if PACKET.HEADER = SUBMIT_PPS then s.submitPPS client PACKET.DATA
  else { thread := s, client, result := some false }

/-- The loop up to `ReadPacket`; a connection that timed out or is banned is removed instead. -/
def receive (s : PoolThread) (client : Client) (arrivals : Arrivals) (fTimeout fScore : Bool) :
    PoolThread × Option Client :=
  if fTimeout then (s, none)
  else
    let s := { s with fBanned := s.fBanned || (settings.fDDOS && fScore) }
    if settings.fDDOS && s.fBanned then (s, none)
    else
      let connection := client.connection.generic getHash s.fSubmittingBlock
      let (stream, events) := client.stream.readPacket available arrivals
      let fBan := settings.fDDOS && events.contains .EVENT_HEADER && stream.INCOMING.banned
      ({ s with fBanned := s.fBanned || fBan }, some { client with stream, connection })

/-- The rest of the loop. An exception is caught, and the packet stays. -/
def finish (s : PoolThread) (client : Client) : PoolThread :=
  if client.stream.INCOMING.complete then
    let processed := s.processPacket settings SK256 GmpVerification rounded client
    match processed.result with
    | none => { processed.thread with client := some processed.client }
    | some false => { processed.thread with client := none }
    | some true =>
        { processed.thread with
          client := some { processed.client with stream := processed.client.stream.resetPacket } }
  else { s with client := some client }

def iteration (s : PoolThread) (arrivals : Arrivals) (fTimeout fScore : Bool) : Option PoolThread := do
  let client ← s.client
  match s.receive settings getHash available client arrivals fTimeout fScore with
  | (s, none) => return { s with client := none }
  | (s, some client) => return s.finish settings SK256 GmpVerification rounded client

end PoolThread

end PrimePool.LLP

import PrimePool.Core.ShareAcceptance
import PrimePool.LLP.PoolPackets

/-!
# Answers

`ProcessPacket` of `LLP/pool.cpp` with what `LLP/PoolPackets` leaves out: the packets it answers with, and what it
reads and writes in the databases and the coinbase. `pow` is that of `math.h`.
-/

namespace PrimePool.LLP

open PrimePool.Core PrimePool.General Std

def NEW_BLOCK : UInt8 := 130

def getPacket (HEADER : UInt8) : Packet := { HEADER, LENGTH := 0, DATA := [] }

structure PoolServer where
  thread : PoolThread
  databases : Databases
  cGlobalCoinbase : Coinbase

structure Handled where
  server : PoolServer
  client : Client
  result : Option Bool
  responses : List Packet
  /-- The weight that was added to the account of the client. -/
  nWeight : Option UInt64

def Handled.processed (handled : Handled) : Processed where
  thread := handled.server.thread
  client := handled.client
  result := handled.result

namespace PoolServer

variable (settings : Settings) (SK256 : Bytes → Vector UInt8 32) (GmpVerification : Uint1024 → Rat)
  (rounded : Rat → Rat) (pow : Rat → Rat → Rat)

def respond (s : PoolServer) (client : Client) (responses : List Packet) : Handled :=
  { server := s, client, result := some true, responses, nWeight := none }

def disconnect (s : PoolServer) (client : Client) : Handled :=
  { server := s, client, result := some false, responses := [], nWeight := none }

/-- The handler leaves its data or its array. -/
def leave (s : PoolServer) (client : Client) (decoding : Decoding) : Handled :=
  { server := { s with thread := s.thread.record decoding }
    client
    result := none
    responses := []
    nWeight := none }

def login (s : PoolServer) (client : Client) (DATA : Bytes) : Handled :=
  if client.fLoggedIn then s.respond client []
  else
    let client := { client with ADDRESS := DATA }
    if (NexusAddress.setString SK256 client.ADDRESS).isValid settings.fTestNet = false then
      { s with thread.fBanned := s.thread.fBanned || settings.fDDOS }.disconnect client
    else
      let databases :=
        if s.databases.AccountDB.hasKey client.ADDRESS then s.databases
        else (run perform (updateAccount .processPacket (.new client.ADDRESS)) s.databases).2
      if isBannedAccount settings.BANNED_ACCOUNTS client.ADDRESS then
        { s with databases, thread.fBanned := true }.respond client []
      else { s with databases }.respond { client with fLoggedIn := true } []

def acceptShare (s : PoolServer) (client : Client) (hashPrimeOrigin : Uint1024) (nNonce : UInt64) (nBits : UInt32) :
    Handled :=
  let hashPrime := hashPrimeOf hashPrimeOrigin nNonce
  let nDifficulty := GmpVerification hashPrime
  if settings.nMinimumShare ≤ (SetBits rounded nDifficulty).toUInt64 then
    let thread := { s.thread with PRIMES_MAP := s.thread.PRIMES_MAP.insert hashPrime }
    match if nDifficulty < 8 then thread.countDifficulty nDifficulty else some thread with
    | none => { s with thread }.leave client .outsideBuckets
    | some thread =>
        let nWeight := (pow 25 (nDifficulty - 3)).floor.toNat.toUInt64
        let databases := (run perform (Core.acceptShare client.ADDRESS nWeight) s.databases).2
        let s := { s with thread, databases }
        if getDifficulty rounded nBits ≤ nDifficulty then
          { server := s
            client := { client with connection := client.connection.submitBlock hashPrimeOrigin nNonce }
            result := some true
            responses := if client.connection.SUBMISSION_BLOCK.isNone then [getPacket BLOCK] else []
            nWeight := some nWeight }
        else { server := s, client, result := some true, responses := [getPacket ACCEPT], nWeight := some nWeight }
  else s.respond client [getPacket REJECT]

def submitShare (s : PoolServer) (client : Client) (DATA : Bytes) : Handled :=
  let s := { s with thread := s.thread.record (.share DATA.length) }
  match decodeOrigin DATA with
  | none => s.leave client .outsideData
  | some hashPrimeOrigin =>
      match client.connection.MAP_BLOCKS[hashPrimeOrigin]? with
      | none => s.respond client [getPacket REJECT, getPacket NEW_BLOCK]
      | some BLOCK =>
          if BLOCK.BLOCK.nHeight ≠ s.thread.nBestHeight then s.respond client [getPacket STALE, getPacket NEW_BLOCK]
          else
            match decodeNonce DATA with
            | none => s.leave client .outsideData
            | some nNonce =>
                if hashPrimeOf hashPrimeOrigin nNonce ∈ s.thread.PRIMES_MAP then s.respond client [getPacket REJECT]
                else s.acceptShare settings GmpVerification rounded pow client hashPrimeOrigin nNonce BLOCK.BLOCK.nBits

def getBalance (s : PoolServer) (client : Client) : Handled :=
  let (cAccount, databases) := run perform (getAccount .processPacket client.ADDRESS) s.databases
  { s with databases }.respond client
    [{ HEADER := ACCOUNT_BALANCE, LENGTH := 8, DATA := uint2bytes64 cAccount.nAccountBalance }]

def getPayout (s : PoolServer) (client : Client) : Handled :=
  let nPendingPayout := s.cGlobalCoinbase.mapOutputs.getD client.ADDRESS 0
  s.respond client [{ HEADER := PENDING_PAYOUT, LENGTH := 8, DATA := uint2bytes64 nPendingPayout }]

def submitPPS (s : PoolServer) (client : Client) (DATA : Bytes) : Handled :=
  let s := { s with thread := s.thread.record (.pps DATA.length) }
  match decodePPS DATA with
  | none => s.leave client .outsideData
  | some _ => s.respond client [getPacket PING]

def processPacket (s : PoolServer) (client : Client) : Handled :=
  let PACKET := client.stream.INCOMING
  if PACKET.HEADER = LOGIN then s.login settings SK256 client PACKET.DATA
  else if client.fLoggedIn = false then s.disconnect client
  else if PACKET.HEADER = GET_BLOCK then s.respond { client with connection := client.connection.getBlock } []
  else if PACKET.HEADER = SUBMIT_SHARE then
    s.submitShare settings GmpVerification rounded pow client PACKET.DATA
  else if PACKET.HEADER = GET_BALANCE then s.getBalance client
  else if PACKET.HEADER = GET_PAYOUT then s.getPayout client
  else if PACKET.HEADER = PING then s.respond client [getPacket PING]
  else if PACKET.HEADER = SUBMIT_PPS then s.submitPPS client PACKET.DATA
  else s.disconnect client

/-! ## Without the answers -/

variable (s : PoolServer) (client : Client)

theorem processed_login (DATA : Bytes) :
    (s.login settings SK256 client DATA).processed = s.thread.login settings SK256 client DATA := by
  unfold login PoolThread.login
  split
  · rfl
  · dsimp only
    split
    · rfl
    · split <;> rfl

theorem processed_acceptShare (hashPrimeOrigin : Uint1024) (nNonce : UInt64) (nBits : UInt32) :
    (s.acceptShare settings GmpVerification rounded pow client hashPrimeOrigin nNonce nBits).processed =
      s.thread.acceptShare settings GmpVerification rounded client hashPrimeOrigin nNonce nBits := by
  unfold acceptShare PoolThread.acceptShare
  dsimp only
  split
  · generalize (if GmpVerification (hashPrimeOf hashPrimeOrigin nNonce) < 8 then _ else _ : Option PoolThread) = counted
    cases counted with
    | none => rfl
    | some thread =>
        dsimp only
        split <;> rfl
  · rfl

variable {hashPrimeOrigin : Uint1024} {DATA : Bytes}

theorem submitShare_of_none (origin : decodeOrigin DATA = some hashPrimeOrigin)
    (missing : client.connection.findBlock s.thread.nBestHeight hashPrimeOrigin = none) :
    ∃ verdict, (verdict = REJECT ∨ verdict = STALE) ∧
      s.submitShare settings GmpVerification rounded pow client DATA =
        { s with thread := s.thread.record (.share DATA.length) }.respond client
          [getPacket verdict, getPacket NEW_BLOCK] := by
  unfold submitShare
  rw [origin]
  dsimp only
  cases stored : client.connection.MAP_BLOCKS[hashPrimeOrigin]? with
  | none => exact ⟨REJECT, Or.inl rfl, rfl⟩
  | some BLOCK =>
      rw [PoolConnection.findBlock, stored, Option.filter_eq_none_iff] at missing
      have old : BLOCK.BLOCK.nHeight ≠ (s.thread.record (.share DATA.length)).nBestHeight :=
        fun same => missing BLOCK rfl (decide_eq_true same)
      exact ⟨STALE, Or.inr rfl, if_pos old⟩

theorem submitShare_of_some {BLOCK : HeapBlock} (origin : decodeOrigin DATA = some hashPrimeOrigin)
    (found : client.connection.findBlock s.thread.nBestHeight hashPrimeOrigin = some BLOCK) :
    s.submitShare settings GmpVerification rounded pow client DATA =
      let s := { s with thread := s.thread.record (.share DATA.length) }
      match decodeNonce DATA with
      | none => s.leave client .outsideData
      | some nNonce =>
          if hashPrimeOf hashPrimeOrigin nNonce ∈ s.thread.PRIMES_MAP then s.respond client [getPacket REJECT]
          else s.acceptShare settings GmpVerification rounded pow client hashPrimeOrigin nNonce BLOCK.BLOCK.nBits := by
  obtain ⟨stored, current⟩ := Option.filter_eq_some_iff.mp found
  have current : ¬ BLOCK.BLOCK.nHeight ≠ (s.thread.record (.share DATA.length)).nBestHeight :=
    not_not.mpr (of_decide_eq_true current)
  unfold submitShare
  rw [origin]
  dsimp only
  rw [stored]
  exact if_neg current

theorem processed_submitShare (DATA : Bytes) :
    (s.submitShare settings GmpVerification rounded pow client DATA).processed =
      s.thread.submitShare settings GmpVerification rounded client DATA := by
  unfold PoolThread.submitShare
  cases origin : decodeOrigin DATA with
  | none =>
      rw [submitShare, origin]
      rfl
  | some hashPrimeOrigin =>
      dsimp only
      cases found : client.connection.findBlock (s.thread.record (.share DATA.length)).nBestHeight hashPrimeOrigin with
      | none =>
          obtain ⟨verdict, -, answered⟩ :=
            submitShare_of_none settings GmpVerification rounded pow s client origin found
          rw [answered]
          rfl
      | some BLOCK =>
          rw [submitShare_of_some settings GmpVerification rounded pow s client origin found]
          dsimp only
          cases decodeNonce DATA with
          | none => rfl
          | some nNonce =>
              dsimp only
              by_cases seen : hashPrimeOf hashPrimeOrigin nNonce ∈ (s.thread.record (.share DATA.length)).PRIMES_MAP
              · rw [if_pos seen, if_pos seen]
                rfl
              · rw [if_neg seen, if_neg seen]
                exact processed_acceptShare ..

/-- The answers and the databases apart, the handler is that of `LLP/PoolPackets`. -/
theorem processed_processPacket :
    (s.processPacket settings SK256 GmpVerification rounded pow client).processed =
      s.thread.processPacket settings SK256 GmpVerification rounded client := by
  unfold processPacket PoolThread.processPacket
  dsimp only
  split
  · exact processed_login ..
  split
  · rfl
  split
  · rfl
  split
  · exact processed_submitShare ..
  by_cases balance : client.stream.INCOMING.HEADER = GET_BALANCE
  · rw [if_pos balance, if_pos (Or.inl balance)]
    rfl
  by_cases payout : client.stream.INCOMING.HEADER = GET_PAYOUT
  · rw [if_neg balance, if_pos payout, if_pos (Or.inr (Or.inl payout))]
    rfl
  by_cases ping : client.stream.INCOMING.HEADER = PING
  · rw [if_neg balance, if_neg payout, if_pos ping, if_pos (Or.inr (Or.inr ping))]
    rfl
  rw [if_neg balance, if_neg payout, if_neg ping, if_neg (not_or.mpr ⟨balance, not_or.mpr ⟨payout, ping⟩⟩)]
  split
  · simp only [submitPPS, PoolThread.submitPPS]
    cases decodePPS client.stream.INCOMING.DATA <;> rfl
  · rfl

/-! ## What a packet does -/

/-- The four things that the handler does to the databases. -/
inductive DatabaseEffect (client : Client) (databases : Databases) : Databases → Option UInt64 → Prop
  | idle : DatabaseEffect client databases databases none
  | register (header : client.stream.INCOMING.HEADER = LOGIN) (loggedOut : client.fLoggedIn = false)
      (valid : (NexusAddress.setString SK256 client.stream.INCOMING.DATA).isValid settings.fTestNet = true)
      (missing : client.stream.INCOMING.DATA ∉ databases.AccountDB) :
      DatabaseEffect client databases
        (perform (.updateAccount .processPacket (.new client.stream.INCOMING.DATA)) databases).2 none
  | read (loggedIn : client.fLoggedIn = true) :
      DatabaseEffect client databases (perform (.getAccount .processPacket client.ADDRESS) databases).2 none
  | credit (loggedIn : client.fLoggedIn = true) (nWeight : UInt64) :
      DatabaseEffect client databases (run perform (Core.acceptShare client.ADDRESS nWeight) databases).2 (some nWeight)

/-- A client that is logged in afterwards was so before, or has an account now. -/
structure Effects (client : Client) (handled : Handled) : Prop where
  coinbase : handled.server.cGlobalCoinbase = s.cGlobalCoinbase
  databases : DatabaseEffect settings SK256 client s.databases handled.server.databases handled.nWeight
  login : handled.client.fLoggedIn = true →
    client.fLoggedIn = true ∧ handled.client.ADDRESS = client.ADDRESS ∨
      handled.client.ADDRESS ∈ handled.server.databases.AccountDB

variable {settings SK256 s client}

theorem Effects.of_same {handled : Handled} (coinbase : handled.server.cGlobalCoinbase = s.cGlobalCoinbase)
    (databases : handled.server.databases = s.databases) (nWeight : handled.nWeight = none)
    (ADDRESS : handled.client.ADDRESS = client.ADDRESS) (fLoggedIn : handled.client.fLoggedIn = client.fLoggedIn) :
    s.Effects settings SK256 client handled where
  coinbase
  databases := by
    rw [databases, nWeight]
    exact .idle
  login loggedIn := Or.inl ⟨fLoggedIn.symm.trans loggedIn, ADDRESS⟩

theorem effects_login (header : client.stream.INCOMING.HEADER = LOGIN) :
    s.Effects settings SK256 client (s.login settings SK256 client client.stream.INCOMING.DATA) := by
  unfold login
  split
  · exact .of_same rfl rfl rfl rfl rfl
  rename_i loggedOut
  have loggedOut : client.fLoggedIn = false := Bool.eq_false_iff.mpr loggedOut
  dsimp only
  split
  · exact ⟨rfl, .idle, fun loggedIn => absurd (loggedOut.symm.trans loggedIn) Bool.false_ne_true⟩
  rename_i valid
  have valid := Bool.not_eq_false _ ▸ valid
  cases known : s.databases.AccountDB.hasKey client.stream.INCOMING.DATA with
  | true =>
      have present : client.stream.INCOMING.DATA ∈ s.databases.AccountDB := ExtTreeMap.contains_iff_mem.mp known
      rw [if_pos rfl]
      split
      · exact ⟨rfl, .idle, fun loggedIn => absurd (loggedOut.symm.trans loggedIn) Bool.false_ne_true⟩
      · exact ⟨rfl, .idle, fun _ => Or.inr present⟩
  | false =>
      have missing : client.stream.INCOMING.DATA ∉ s.databases.AccountDB := fun present =>
        absurd (known.symm.trans (ExtTreeMap.contains_iff_mem.mpr present)) Bool.false_ne_true
      have registered := DatabaseEffect.register header loggedOut valid missing
      rw [if_neg Bool.false_ne_true]
      split
      · exact ⟨rfl, registered, fun loggedIn => absurd (loggedOut.symm.trans loggedIn) Bool.false_ne_true⟩
      · exact ⟨rfl, registered, fun _ => Or.inr ExtTreeMap.mem_insert_self⟩

theorem effects_acceptShare (loggedIn : client.fLoggedIn = true) (hashPrimeOrigin : Uint1024) (nNonce : UInt64)
    (nBits : UInt32) :
    s.Effects settings SK256 client
      (s.acceptShare settings GmpVerification rounded pow client hashPrimeOrigin nNonce nBits) := by
  unfold acceptShare
  dsimp only
  split
  · split
    · exact .of_same rfl rfl rfl rfl rfl
    · split
      · exact ⟨rfl, .credit loggedIn _, fun _ => Or.inl ⟨loggedIn, rfl⟩⟩
      · exact ⟨rfl, .credit loggedIn _, fun _ => Or.inl ⟨loggedIn, rfl⟩⟩
  · exact .of_same rfl rfl rfl rfl rfl

theorem effects_submitShare (loggedIn : client.fLoggedIn = true) (DATA : Bytes) :
    s.Effects settings SK256 client (s.submitShare settings GmpVerification rounded pow client DATA) := by
  unfold submitShare
  dsimp only
  split
  · exact .of_same rfl rfl rfl rfl rfl
  split
  · exact .of_same rfl rfl rfl rfl rfl
  split
  · exact .of_same rfl rfl rfl rfl rfl
  split
  · exact .of_same rfl rfl rfl rfl rfl
  split
  · exact .of_same rfl rfl rfl rfl rfl
  · obtain ⟨coinbase, databases, login⟩ := effects_acceptShare GmpVerification rounded pow loggedIn _ _ _
    exact ⟨coinbase, databases, login⟩

theorem effects_processPacket :
    s.Effects settings SK256 client (s.processPacket settings SK256 GmpVerification rounded pow client) := by
  unfold processPacket
  dsimp only
  split
  next header => exact effects_login header
  split
  · exact .of_same rfl rfl rfl rfl rfl
  rename_i loggedIn
  have loggedIn := Bool.not_eq_false _ ▸ loggedIn
  split
  · exact .of_same rfl rfl rfl rfl rfl
  split
  · exact effects_submitShare _ _ _ loggedIn _
  split
  · exact ⟨rfl, .read loggedIn, fun _ => Or.inl ⟨loggedIn, rfl⟩⟩
  split
  · exact .of_same rfl rfl rfl rfl rfl
  split
  · exact .of_same rfl rfl rfl rfl rfl
  split
  · unfold submitPPS
    dsimp only
    split
    · exact .of_same rfl rfl rfl rfl rfl
    · exact .of_same rfl rfl rfl rfl rfl
  · exact .of_same rfl rfl rfl rfl rfl

end PoolServer

end PrimePool.LLP

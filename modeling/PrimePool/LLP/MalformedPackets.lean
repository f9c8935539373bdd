import PrimePool.LLP.Framing
import PrimePool.LLP.PoolPackets

/-!
# Malformed packets

Which packets of a client `ProcessPacket` decodes without harm.
-/

namespace PrimePool.LLP

open PrimePool.Core PrimePool.General Std

/-- What happens to the connection of a data thread. The other threads and clients are in the last rows. -/
inductive ThreadEvent where
  | connect
  | sent (stream : Bytes)
  | iteration (arrivals : Arrivals) (fTimeout fScore : Bool)
  | newBlock
  | blockData (BLOCK : HeapBlock)
  | scan
  | blockHeight (nHeight : UInt32)
  | submitting (fSubmittingBlock : Bool)
  | share (hashPrime : Uint1024)
  | newRound
  | ban
  | banEnds

namespace Client

def new : Client where
  stream := { INCOMING := .null, SOCKET := { unread := [], inFlight := [] } }
  connection := .new
  ADDRESS := []
  fLoggedIn := false

def send (client : Client) (stream : Bytes) : Client :=
  { client with stream.SOCKET.inFlight := client.stream.SOCKET.inFlight ++ stream }

end Client

namespace PoolThread

def start : PoolThread where
  client := none
  fBanned := false
  nBestHeight := 0
  fSubmittingBlock := false
  PRIMES_MAP := ∅
  nDifficultyShares := Vector.replicate 5 0
  decodings := []

def onConnection (s : PoolThread) (change : PoolConnection → PoolConnection) : PoolThread :=
  { s with client := s.client.map fun client => { client with connection := change client.connection } }

variable (settings : Settings) (SK256 : Bytes → Vector UInt8 32) (getHash : CBlock → Uint1024)
  (GmpVerification : Uint1024 → Rat) (rounded : Rat → Rat) (available : Nat → Nat)

def step (s : PoolThread) : ThreadEvent → Option PoolThread
  | .connect =>
      if s.client.isSome then none
      else if settings.fDDOS && s.fBanned then some s
      else some { s with client := some .new }
  | .sent stream => some { s with client := s.client.map fun client => client.send stream }
  | .iteration arrivals fTimeout fScore =>
      s.iteration settings SK256 getHash GmpVerification rounded available arrivals fTimeout fScore
  | .newBlock => some (s.onConnection fun connection => { connection with fNewBlock := true })
  | .blockData BLOCK => some (s.onConnection fun connection => connection.addBlock BLOCK)
  | .scan => some (s.onConnection PoolConnection.scan)
  | .blockHeight nHeight => some { s with nBestHeight := nHeight }
  | .submitting fSubmittingBlock => some { s with fSubmittingBlock }
  | .share hashPrime => some { s with PRIMES_MAP := s.PRIMES_MAP.insert hashPrime }
  | .newRound => some { s with PRIMES_MAP := ∅ }
  | .ban => some { s with fBanned := true }
  | .banEnds => some { s with fBanned := false }

/-- Only data of the right size has reached the decoders, and nothing was read or counted outside its bounds. -/
def Harmless (s : PoolThread) : Prop := ∀ decoding ∈ s.decodings, decoding.Harmless

instance (s : PoolThread) : Decidable s.Harmless :=
  inferInstanceAs (Decidable (∀ decoding ∈ s.decodings, decoding.Harmless))

/-- An accepted share of a block of the connection has at least the difficulty of the first bucket. -/
def HasBucket (s : PoolThread) (client : Client) (DATA : Bytes) : Prop :=
  ∀ hashPrimeOrigin ∈ decodeOrigin DATA, ∀ nNonce ∈ decodeNonce DATA,
    (client.connection.findBlock s.nBestHeight hashPrimeOrigin).isSome = true →
      hashPrimeOf hashPrimeOrigin nNonce ∉ s.PRIMES_MAP →
        settings.nMinimumShare ≤ (SetBits rounded (GmpVerification (hashPrimeOf hashPrimeOrigin nNonce))).toUInt64 →
          3 ≤ GmpVerification (hashPrimeOf hashPrimeOrigin nNonce)

/-- What a packet has to be once the client is logged in. -/
def Decodable (s : PoolThread) (client : Client) : Prop :=
  client.fLoggedIn = true →
    (client.stream.INCOMING.HEADER = SUBMIT_SHARE →
      client.stream.INCOMING.DATA.length = 136 ∧
        s.HasBucket settings GmpVerification rounded client client.stream.INCOMING.DATA) ∧
    (client.stream.INCOMING.HEADER = SUBMIT_PPS → client.stream.INCOMING.DATA.length = 16)

/-- Every packet that an iteration of the thread completes is such a packet. -/
def Meets (s : PoolThread) : ThreadEvent → Prop
  | .iteration arrivals fTimeout fScore =>
      ∀ client ∈ s.client,
        let (s, received) := s.receive settings getHash available client arrivals fTimeout fScore
        ∀ client ∈ received, client.stream.INCOMING.complete = true →
          s.Decodable settings GmpVerification rounded client
  | _ => True

variable {settings SK256 getHash GmpVerification rounded available} {s after : PoolThread} {client : Client}

theorem harmless_record {decoding : Decoding} :
    (s.record decoding).Harmless ↔ s.Harmless ∧ decoding.Harmless := by
  simp only [Harmless, record, List.mem_append, List.mem_singleton, or_imp, forall_and, forall_eq]

theorem harmless_of_decodings (same : after.decodings = s.decodings) : after.Harmless ↔ s.Harmless := by
  rw [Harmless, same, Harmless]

theorem iterators_eq_some (DATA : Bytes) (first last : Int) (start : 0 ≤ first) (ordered : first ≤ last)
    (stop : last ≤ DATA.length) : ∃ part, iterators DATA first last = some part ∧ (part.length : Int) = last - first := by
  have last_nonneg : 0 ≤ last := Int.le_trans start ordered
  have inside : first.toNat ≤ last.toNat ∧ last.toNat ≤ DATA.length := by omega
  refine ⟨_, by rw [iterators, if_pos ⟨start, last_nonneg⟩, slice, if_pos inside], ?_⟩
  simp only [List.length_take, List.length_drop]
  omega

theorem decodeOrigin_eq_some {DATA : Bytes} (size : DATA.length = 136) :
    ∃ hashPrimeOrigin, decodeOrigin DATA = some hashPrimeOrigin := by
  obtain ⟨part, cut, length⟩ := iterators_eq_some DATA 0 (DATA.length - 8)
    (by omega) (by omega) (by omega)
  have enough : ¬ part.length < 4 * 32 := by omega
  simp only [decodeOrigin, cut, Option.bind_some, BaseUint.setBytes, if_neg enough]
  exact ⟨_, rfl⟩

theorem decodeNonce_eq_some {DATA : Bytes} (size : DATA.length = 136) :
    ∃ nNonce, decodeNonce DATA = some nNonce := by
  obtain ⟨part, cut, -⟩ := iterators_eq_some DATA (DATA.length - 8) DATA.length
    (by omega) (by omega) (by omega)
  exact ⟨_, by rw [decodeNonce, cut, Option.map_some]⟩

theorem decodePPS_eq_some {DATA : Bytes} (size : DATA.length = 16) : ∃ PPS, decodePPS DATA = some PPS := by
  obtain ⟨first, cutFirst, -⟩ := iterators_eq_some DATA 0 (DATA.length - 8)
    (by omega) (by omega) (by omega)
  obtain ⟨second, cutSecond, -⟩ := iterators_eq_some DATA 8 DATA.length
    (by omega) (by omega) (by omega)
  exact ⟨_, by rw [decodePPS, cutFirst, cutSecond]; rfl⟩

theorem bucket_inside {nDifficulty : Rat} (below : nDifficulty < 8) :
    0 ≤ (nDifficulty - 3).floor ∧ (nDifficulty - 3).floor < 5 ↔ 3 ≤ nDifficulty := by
  have upper : (nDifficulty - 3).floor < 5 := by
    rw [Rat.floor_lt_iff]
    norm_num
    linarith
  rw [and_iff_left upper, Rat.le_floor_iff, Int.cast_zero, sub_nonneg]

theorem countDifficulty_eq_none {nDifficulty : Rat} (below : nDifficulty < 8)
    (refused : s.countDifficulty nDifficulty = none) : ¬ 3 ≤ nDifficulty := by
  rw [countDifficulty] at refused
  split at refused
  · cases refused
  next outside => exact fun three => outside ((bucket_inside below).mpr three)

theorem countDifficulty_eq_some {nDifficulty : Rat} (below : nDifficulty < 8)
    (counted : s.countDifficulty nDifficulty = some after) :
    3 ≤ nDifficulty ∧ after.decodings = s.decodings := by
  rw [countDifficulty] at counted
  split at counted
  next inside =>
    cases counted
    exact ⟨(bucket_inside below).mp inside, rfl⟩
  · cases counted

theorem acceptShare_exact {hashPrimeOrigin : Uint1024} {nNonce : UInt64} {nBits : UInt32} :
    (s.acceptShare settings GmpVerification rounded client hashPrimeOrigin nNonce nBits).thread.Harmless ↔
      s.Harmless ∧
        (settings.nMinimumShare ≤ (SetBits rounded (GmpVerification (hashPrimeOf hashPrimeOrigin nNonce))).toUInt64 →
          3 ≤ GmpVerification (hashPrimeOf hashPrimeOrigin nNonce)) := by
  simp only [acceptShare]
  split
  next accepted =>
    rw [forall_prop_of_true accepted]
    split
    next refused =>
      split at refused
      next below =>
        exact iff_of_false (fun both => (harmless_record.mp both).2)
          fun both => countDifficulty_eq_none below refused both.2
      next => cases refused
    next counting counted =>
      have kept : 3 ≤ GmpVerification (hashPrimeOf hashPrimeOrigin nNonce) ∧ counting.decodings = s.decodings := by
        split at counted
        next below =>
          obtain ⟨three, same⟩ := countDifficulty_eq_some below counted
          exact ⟨three, same⟩
        next above =>
          cases counted
          exact ⟨by linarith, rfl⟩
      rw [and_iff_left kept.1]
      split
      · exact harmless_of_decodings kept.2
      · exact harmless_of_decodings kept.2
  next rejected => exact (and_iff_left fun accepted => absurd accepted rejected).symm

theorem submitShare_exact (DATA : Bytes) :
    (s.submitShare settings GmpVerification rounded client DATA).thread.Harmless ↔
      (s.Harmless ∧ DATA.length = 136) ∧ s.HasBucket settings GmpVerification rounded client DATA := by
  have recorded : (s.record (.share DATA.length)).Harmless ↔ s.Harmless ∧ DATA.length = 136 := harmless_record
  have height : s.nBestHeight = (s.record (.share DATA.length)).nBestHeight := rfl
  simp only [submitShare]
  cases origin : decodeOrigin DATA with
  | none =>
      refine iff_of_false (fun both => (harmless_record.mp both).2) fun both => ?_
      obtain ⟨hashPrimeOrigin, decoded⟩ := decodeOrigin_eq_some both.1.2
      rw [origin] at decoded
      cases decoded
  | some hashPrimeOrigin =>
      simp only [HasBucket, origin, Option.mem_some, forall_eq', height]
      cases found : client.connection.findBlock (s.record (.share DATA.length)).nBestHeight hashPrimeOrigin with
      | none => exact recorded.trans (and_iff_left fun _ _ listed => absurd listed Bool.false_ne_true).symm
      | some BLOCK =>
          simp only [Option.isSome_some, forall_true_left]
          cases nonce : decodeNonce DATA with
          | none =>
              refine iff_of_false (fun both => (harmless_record.mp both).2) fun both => ?_
              obtain ⟨nNonce, decoded⟩ := decodeNonce_eq_some both.1.2
              rw [nonce] at decoded
              cases decoded
          | some nNonce =>
              simp only [Option.mem_some, forall_eq']
              split
              next entered => exact recorded.trans (and_iff_left fun new => absurd entered new).symm
              next new =>
                rw [acceptShare_exact, recorded]
                exact and_congr_right fun _ => ⟨fun three _ => three, fun three => three new⟩

theorem submitPPS_exact (DATA : Bytes) :
    (s.submitPPS client DATA).thread.Harmless ↔ s.Harmless ∧ DATA.length = 16 := by
  simp only [submitPPS]
  cases decoded : decodePPS DATA with
  | none =>
      refine iff_of_false (fun both => (harmless_record.mp both).2) fun both => ?_
      obtain ⟨PPS, cut⟩ := decodePPS_eq_some both.2
      rw [decoded] at cut
      cases cut
  | some PPS => exact harmless_record

theorem decodings_login (DATA : Bytes) :
    (s.login settings SK256 client DATA).thread.decodings = s.decodings := by
  simp only [login]
  split
  · rfl
  · split
    · rfl
    · split
      · rfl
      · rfl

theorem decodable_of_ne (share : client.stream.INCOMING.HEADER ≠ SUBMIT_SHARE)
    (pps : client.stream.INCOMING.HEADER ≠ SUBMIT_PPS) : s.Decodable settings GmpVerification rounded client :=
  fun _ => ⟨fun same => absurd same share, fun same => absurd same pps⟩

theorem processPacket_exact (harmless : s.Harmless) :
    (s.processPacket settings SK256 GmpVerification rounded client).thread.Harmless ↔
      s.Decodable settings GmpVerification rounded client := by
  simp only [processPacket]
  split
  next login =>
    refine iff_of_true ((harmless_of_decodings (decodings_login _)).mpr harmless) (decodable_of_ne ?_ ?_)
    · rw [login]
      decide
    · rw [login]
      decide
  next =>
    split
    next out => exact iff_of_true harmless fun loggedIn => absurd (out.symm.trans loggedIn) Bool.false_ne_true
    next loggedIn =>
      rw [Bool.not_eq_false] at loggedIn
      split
      next getBlock =>
        refine iff_of_true harmless (decodable_of_ne ?_ ?_)
        · rw [getBlock]
          decide
        · rw [getBlock]
          decide
      next =>
        split
        next share =>
          have noPPS : client.stream.INCOMING.HEADER ≠ SUBMIT_PPS := by
            rw [share]
            decide
          rw [submitShare_exact, and_iff_right harmless]
          exact ⟨fun both _ => ⟨fun _ => both, fun pps => absurd pps noPPS⟩, fun meets => (meets loggedIn).1 share⟩
        next noShare =>
          split
          next answered =>
            refine iff_of_true harmless (decodable_of_ne noShare ?_)
            rcases answered with balance | payout | ping
            · rw [balance]
              decide
            · rw [payout]
              decide
            · rw [ping]
              decide
          next =>
            split
            next pps =>
              rw [submitPPS_exact, and_iff_right harmless]
              exact ⟨fun size _ => ⟨fun share => absurd share noShare, fun _ => size⟩,
                fun meets => (meets loggedIn).2 pps⟩
            next noPPS => exact iff_of_true harmless (decodable_of_ne noShare noPPS)

theorem finish_exact (harmless : s.Harmless) :
    (s.finish settings SK256 GmpVerification rounded client).Harmless ↔
      (client.stream.INCOMING.complete = true → s.Decodable settings GmpVerification rounded client) := by
  rw [finish]
  split
  next complete =>
    have exact : (s.processPacket settings SK256 GmpVerification rounded client).thread.Harmless ↔
        s.Decodable settings GmpVerification rounded client := processPacket_exact harmless
    rw [forall_prop_of_true complete, ← exact]
    dsimp only
    split
    · exact harmless_of_decodings rfl
    · exact harmless_of_decodings rfl
    · exact harmless_of_decodings rfl
  next building => exact iff_of_true harmless fun complete => absurd complete building

theorem decodings_receive (arrivals : Arrivals) (fTimeout fScore : Bool) :
    (s.receive settings getHash available client arrivals fTimeout fScore).1.decodings = s.decodings := by
  simp only [receive]
  split
  · rfl
  · split
    · rfl
    · rfl

theorem step_exact (event : ThreadEvent) (harmless : s.Harmless)
    (taken : s.step settings SK256 getHash GmpVerification rounded available event = some after) :
    after.Harmless ↔ s.Meets settings getHash GmpVerification rounded available event := by
  cases event with
  | iteration arrivals fTimeout fScore =>
      obtain ⟨client, connected, turned⟩ := Option.bind_eq_some_iff.mp taken
      simp only [Meets, connected, Option.mem_some, forall_eq']
      have kept : (s.receive settings getHash available client arrivals fTimeout fScore).1.Harmless :=
        (harmless_of_decodings (decodings_receive arrivals fTimeout fScore)).mpr harmless
      cases received : s.receive settings getHash available client arrivals fTimeout fScore with
      | mk between remaining =>
          rw [received] at turned kept
          cases remaining with
          | none =>
              cases turned
              exact iff_of_true kept fun _ removed => absurd removed (Option.not_mem_none _)
          | some client =>
              cases turned
              rw [finish_exact kept]
              simp only [Option.mem_some, forall_eq']
  | connect =>
      simp only [step] at taken
      split at taken
      · cases taken
      · split at taken
        · cases taken
          exact iff_of_true harmless trivial
        · cases taken
          exact iff_of_true harmless trivial
  | _ =>
      cases taken
      exact iff_of_true harmless trivial

/-- No packet does harm in a run exactly when all packets of logged-in clients that it completes have their size, and
no share is accepted below the first bucket. -/
theorem harmless_iff (settings : Settings) (SK256 : Bytes → Vector UInt8 32) (getHash : CBlock → Uint1024)
    (GmpVerification : Uint1024 → Rat) (rounded : Rat → Rat) (available : Nat → Nat) (events : List ThreadEvent) :
    EachStep (step settings SK256 getHash GmpVerification rounded available) (fun _ _ after => after.Harmless)
        events start ↔
      EachStep (step settings SK256 getHash GmpVerification rounded available)
        (fun s event _ => s.Meets settings getHash GmpVerification rounded available event) events start :=
  EachStep.iff_of_exact Harmless (fun _ event _ harmless taken => step_exact event harmless taken)
    fun _ recorded => absurd recorded List.not_mem_nil

def withDDOS : Settings where
  fDDOS := true
  fTestNet := false
  nMinimumShare := 45000000
  BANNED_ACCOUNTS := []

theorem short_share_decoded :
    ¬ EachStep (step withDDOS NexusAddress.noChecksum sampleHash (fun _ => 0) id fun nBytes => min nBytes (2 ^ 31 - 1))
      (fun _ _ after => after.Harmless)
      [.connect,
        .sent (Packet.getBytes { HEADER := LOGIN, LENGTH := 51, DATA := NexusAddress.plainAddress }),
        .iteration ⟨56, 0, 0⟩ false false,
        .sent (Packet.getBytes { HEADER := SUBMIT_SHARE, LENGTH := 10, DATA := List.replicate 10 0 }),
        .iteration ⟨15, 0, 0⟩ false false]
      start := by
  decide +kernel

end PoolThread

end PrimePool.LLP

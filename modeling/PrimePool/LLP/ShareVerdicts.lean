import PrimePool.LLP.MalformedPackets
import PrimePool.LLP.ProcessPacket

/-!
# Verdicts

What `ProcessPacket` answers to a share, and whether it adds the weight of the share to the account.
-/

namespace PrimePool.LLP

open PrimePool.Core PrimePool.General Std

def Handled.verdicts (handled : Handled) : List UInt8 :=
  (handled.responses.map Packet.HEADER).filter [ACCEPT, REJECT, STALE, BLOCK].contains

/-- There is one verdict, and it says whether a weight was added to the account. -/
structure OneVerdict (databases : Databases) (client : Client) (handled : Handled) : Prop where
  verdict : ∃ verdict, handled.verdicts = [verdict] ∧
    (handled.nWeight.isSome = true ↔ verdict = ACCEPT ∨ verdict = BLOCK)
  account : handled.server.databases =
    match handled.nWeight with
    | none => databases
    | some nWeight => (run perform (Core.acceptShare client.ADDRESS nWeight) databases).2

namespace PoolServer

variable (settings : Settings) (SK256 : Bytes → Vector UInt8 32) (GmpVerification : Uint1024 → Rat)
  (rounded : Rat → Rat) (pow : Rat → Rat → Rat) (s : PoolServer) (client : Client)

/-- A share that is accepted has a bucket, and where it is a block no other waits to be submitted. -/
def Answerable (DATA : Bytes) : Prop :=
  ∀ hashPrimeOrigin ∈ decodeOrigin DATA, ∀ nNonce ∈ decodeNonce DATA,
    ∀ BLOCK ∈ client.connection.findBlock s.thread.nBestHeight hashPrimeOrigin,
      hashPrimeOf hashPrimeOrigin nNonce ∉ s.thread.PRIMES_MAP →
        let nDifficulty := GmpVerification (hashPrimeOf hashPrimeOrigin nNonce)
        settings.nMinimumShare ≤ (SetBits rounded nDifficulty).toUInt64 →
          3 ≤ nDifficulty ∧
            (getDifficulty rounded BLOCK.BLOCK.nBits ≤ nDifficulty → client.connection.SUBMISSION_BLOCK = none)

variable {settings SK256 GmpVerification rounded pow s client}

theorem processPacket_submitShare (header : client.stream.INCOMING.HEADER = SUBMIT_SHARE)
    (loggedIn : client.fLoggedIn = true) :
    s.processPacket settings SK256 GmpVerification rounded pow client =
      s.submitShare settings GmpVerification rounded pow client client.stream.INCOMING.DATA := by
  rw [processPacket, header, loggedIn]
  rfl

theorem oneVerdict_of_refused {handled : Handled} (verdict : UInt8) (sent : handled.verdicts = [verdict])
    (refused : verdict ≠ ACCEPT ∧ verdict ≠ BLOCK) (nWeight : handled.nWeight = none)
    (databases : handled.server.databases = s.databases) : OneVerdict s.databases client handled where
  verdict := ⟨verdict, sent, by simp [nWeight, refused]⟩
  account := by rw [nWeight, databases]

theorem not_oneVerdict_of_silent {handled : Handled} (silent : handled.responses = []) :
    ¬ OneVerdict s.databases client handled := by
  rintro ⟨⟨verdict, sent, -⟩, -⟩
  rw [Handled.verdicts, silent] at sent
  cases sent

theorem oneVerdict_of_credited {handled : Handled} {nWeight : UInt64} (verdict : UInt8)
    (sent : handled.verdicts = [verdict]) (credits : verdict = ACCEPT ∨ verdict = BLOCK)
    (weight : handled.nWeight = some nWeight)
    (databases : handled.server.databases = (run perform (Core.acceptShare client.ADDRESS nWeight) s.databases).2) :
    OneVerdict s.databases client handled where
  verdict := ⟨verdict, sent, by rw [weight]; exact iff_of_true rfl credits⟩
  account := by rw [weight, databases]

theorem counted_eq_none_iff (thread : PoolThread) (nDifficulty : Rat) :
    (if nDifficulty < 8 then thread.countDifficulty nDifficulty else some thread) = none ↔ ¬ 3 ≤ nDifficulty := by
  split
  next below =>
    rw [PoolThread.countDifficulty]
    split
    next inside => exact iff_of_false (Option.some_ne_none _) (not_not.mpr ((PoolThread.bucket_inside below).mp inside))
    next outside => exact iff_of_true rfl fun three => outside ((PoolThread.bucket_inside below).mpr three)
  next above => exact iff_of_false (Option.some_ne_none _) (not_not.mpr (by linarith))

theorem oneVerdict_acceptShare_iff (thread : PoolThread) (hashPrimeOrigin : Uint1024) (nNonce : UInt64)
    (nBits : UInt32) :
    OneVerdict s.databases client
        ({ s with thread }.acceptShare settings GmpVerification rounded pow client hashPrimeOrigin nNonce nBits) ↔
      (settings.nMinimumShare ≤ (SetBits rounded (GmpVerification (hashPrimeOf hashPrimeOrigin nNonce))).toUInt64 →
        3 ≤ GmpVerification (hashPrimeOf hashPrimeOrigin nNonce) ∧
          (getDifficulty rounded nBits ≤ GmpVerification (hashPrimeOf hashPrimeOrigin nNonce) →
            client.connection.SUBMISSION_BLOCK = none)) := by
  unfold acceptShare
  dsimp only
  generalize GmpVerification (hashPrimeOf hashPrimeOrigin nNonce) = nDifficulty
  by_cases minimum : settings.nMinimumShare ≤ (SetBits rounded nDifficulty).toUInt64
  · rw [if_pos minimum, forall_prop_of_true minimum]
    generalize counts : (if nDifficulty < 8 then _ else _ : Option PoolThread) = counted
    cases counted with
    | none =>
        have low := (counted_eq_none_iff _ _).mp counts
        exact iff_of_false (not_oneVerdict_of_silent rfl) fun answers => low answers.1
    | some thread =>
        have three : 3 ≤ nDifficulty := by
          by_contra low
          cases counts.symm.trans ((counted_eq_none_iff _ _).mpr low)
        rw [and_iff_right three]
        dsimp only
        by_cases block : getDifficulty rounded nBits ≤ nDifficulty
        · rw [if_pos block, forall_prop_of_true block]
          cases client.connection.SUBMISSION_BLOCK with
          | none => exact iff_of_true (oneVerdict_of_credited BLOCK rfl (Or.inr rfl) rfl rfl) rfl
          | some object => exact iff_of_false (not_oneVerdict_of_silent rfl) (Option.some_ne_none object)
        · rw [if_neg block]
          exact iff_of_true (oneVerdict_of_credited ACCEPT rfl (Or.inl rfl) rfl rfl) fun above => absurd above block
  · rw [if_neg minimum]
    exact iff_of_true (oneVerdict_of_refused REJECT rfl (by decide) rfl rfl) fun above => absurd above minimum

/-- A share of 136 bytes of a client that is logged in gets one verdict, and its account the weight for `ACCEPT` and
`BLOCK` only, exactly when the share is answerable. -/
theorem one_verdict_iff (settings : Settings) (SK256 : Bytes → Vector UInt8 32) (GmpVerification : Uint1024 → Rat)
    (rounded : Rat → Rat) (pow : Rat → Rat → Rat) (s : PoolServer) (client : Client)
    (header : client.stream.INCOMING.HEADER = SUBMIT_SHARE) (loggedIn : client.fLoggedIn = true)
    (size : client.stream.INCOMING.DATA.length = 136) :
    OneVerdict s.databases client (s.processPacket settings SK256 GmpVerification rounded pow client) ↔
      s.Answerable settings GmpVerification rounded client client.stream.INCOMING.DATA := by
  obtain ⟨hashPrimeOrigin, origin⟩ := PoolThread.decodeOrigin_eq_some size
  obtain ⟨nNonce, nonce⟩ := PoolThread.decodeNonce_eq_some size
  rw [processPacket_submitShare header loggedIn, Answerable]
  simp only [origin, nonce, Option.mem_some, forall_eq']
  cases found : client.connection.findBlock s.thread.nBestHeight hashPrimeOrigin with
  | none =>
      obtain ⟨verdict, refused, answered⟩ :=
        submitShare_of_none settings GmpVerification rounded pow s client origin found
      rw [answered]
      refine iff_of_true ?_ fun _ none => nomatch none
      rcases refused with rfl | rfl
      · exact oneVerdict_of_refused REJECT rfl (by decide) rfl rfl
      · exact oneVerdict_of_refused STALE rfl (by decide) rfl rfl
  | some BLOCK =>
      rw [submitShare_of_some settings GmpVerification rounded pow s client origin found, nonce]
      dsimp only
      by_cases seen :
          hashPrimeOf hashPrimeOrigin nNonce ∈ (s.thread.record (.share client.stream.INCOMING.DATA.length)).PRIMES_MAP
      · rw [if_pos seen]
        exact iff_of_true (oneVerdict_of_refused REJECT rfl (by decide) rfl rfl) fun _ _ unseen => absurd seen unseen
      · rw [if_neg seen]
        apply (oneVerdict_acceptShare_iff _ hashPrimeOrigin nNonce BLOCK.BLOCK.nBits).trans
        constructor
        · intro answers other same _
          cases Option.mem_some_iff.mp same
          exact answers
        · exact fun answers => answers BLOCK rfl seen

/-! ## A second block -/

def shareServer : PoolServer where
  thread := { PoolThread.start with nBestHeight := 1 }
  databases := oneAccount
  cGlobalCoinbase := .new

/-- The block the client found last waits to be submitted, and it finds another. -/
def secondBlock : Client where
  stream :=
    { INCOMING := { HEADER := SUBMIT_SHARE, LENGTH := 136, DATA := List.replicate 136 0 }
      SOCKET := { unread := [], inFlight := [] } }
  connection :=
    { PoolConnection.new with
      MAP_BLOCKS := (∅ : ExtTreeMap Uint1024 HeapBlock).insert (.ofUInt64 0) { object := 0, BLOCK := sampleBlock 1 0 }
      SUBMISSION_BLOCK := some 0 }
  ADDRESS := minerAddress
  fLoggedIn := true

theorem secondBlock_unanswered :
    ¬ ∀ (settings : Settings) (SK256 : Bytes → Vector UInt8 32) (GmpVerification : Uint1024 → Rat) (rounded : Rat → Rat)
      (pow : Rat → Rat → Rat) (s : PoolServer) (client : Client), client.stream.INCOMING.HEADER = SUBMIT_SHARE →
      client.fLoggedIn = true → client.stream.INCOMING.DATA.length = 136 →
        OneVerdict s.databases client (s.processPacket settings SK256 GmpVerification rounded pow client) := by
  intro answers
  have answered := answers PoolThread.withDDOS NexusAddress.noChecksum (fun _ => 5) id (fun _ _ => 25) shareServer
    secondBlock rfl rfl List.length_replicate
  exact not_oneVerdict_of_silent (by decide +kernel) answered

theorem secondBlock_verdict_iff :
    OneVerdict shareServer.databases secondBlock
        (shareServer.processPacket PoolThread.withDDOS NexusAddress.noChecksum (fun _ => 5) id (fun _ _ => 25)
          secondBlock) ↔
      shareServer.Answerable PoolThread.withDDOS (fun _ => 5) id secondBlock secondBlock.stream.INCOMING.DATA :=
  one_verdict_iff PoolThread.withDDOS NexusAddress.noChecksum (fun _ => 5) id (fun _ _ => 25) shareServer secondBlock
    rfl rfl List.length_replicate

end PoolServer

end PrimePool.LLP

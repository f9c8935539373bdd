import Mathlib.Data.List.Nodup
import PrimePool.General.Machine
import PrimePool.General.TreeMap
import PrimePool.Hash.WideArithmetic
import PrimePool.LLP.PoolConnection

/-!
# Replayed shares

What keeps a share from being credited again: `PRIMES_MAP`, which `NewRound` empties, `nBestHeight`, which the master
thread polls, and the blocks of the connection, which a generic event clears. A packet is processed in one step here,
and the clients are logged in.
-/

namespace PrimePool.LLP

open PrimePool.Core PrimePool.General Std

structure ShareServer where
  connections : List PoolConnection
  PRIMES_MAP : ExtTreeSet Uint1024
  nBestHeight : UInt32
  nObjects : Nat
  -- the history of the run, which no step reads
  /-- The primes whose weight has been added to an account. -/
  credited : List Uint1024
  /-- The heights that have been polled. -/
  heights : List UInt32
  /-- Those that had been polled when the round began. -/
  pastHeights : List UInt32
  /-- The connections that have not been cleared since the round began. -/
  uncleared : List Nat

inductive RoundEvent where
  | connect
  | getBlock (nConnection : Nat)
  | blockData (nConnection : Nat) (BLOCK : CBlock)
  | generic (nConnection : Nat) (fSubmittingBlock : Bool)
  | newBlock (nConnection : Nat)
  | scan (nConnection : Nat)
  | submitShare (nConnection : Nat) (hashPrimeOrigin : Uint1024) (nNonce : UInt64)
  | blockHeight (nHeight : UInt32)
  | newRound

namespace ShareServer

def start : ShareServer where
  connections := []
  PRIMES_MAP := ∅
  nBestHeight := 0
  nObjects := 0
  credited := []
  heights := [0]
  pastHeights := []
  uncleared := []

def modify (s : ShareServer) (nConnection : Nat) (change : PoolConnection → PoolConnection) : ShareServer :=
  { s with connections := s.connections.modify nConnection change }

variable (getHash : CBlock → Uint1024) (verification : Verification)

def submitShare (s : ShareServer) (nConnection : Nat) (hashPrimeOrigin : Uint1024) (nNonce : UInt64) :
    Option ShareServer := do
  let connection ← s.connections[nConnection]?
  match connection.findBlock s.nBestHeight hashPrimeOrigin with
  | none => return s
  | some BLOCK =>
      let hashPrime := hashPrimeOf hashPrimeOrigin nNonce
      if hashPrime ∈ s.PRIMES_MAP then return s
      else if verification.fAccepted hashPrime then
        let s := { s with PRIMES_MAP := s.PRIMES_MAP.insert hashPrime, credited := s.credited ++ [hashPrime] }
        if verification.fBlock hashPrime BLOCK.BLOCK.nBits then
          return s.modify nConnection fun connection => connection.submitBlock hashPrimeOrigin nNonce
        else return s
      else return s

/-- The daemon thread hands a block to the connection of its choice that waits for one. -/
def blockData (s : ShareServer) (nConnection : Nat) (BLOCK : CBlock) : Option ShareServer := do
  let connection ← s.connections[nConnection]?
  let after := { s with nObjects := s.nObjects + 1 }
  if BLOCK.nHeight = s.nBestHeight ∧ 0 < connection.nBlocksWaiting then
    return after.modify nConnection fun connection => connection.addBlock { object := s.nObjects, BLOCK }
  else return after

/-- The generic event of the connection runs `Clear`. -/
def Clears (s : ShareServer) (nConnection : Nat) (fSubmittingBlock : Bool) : Prop :=
  ∃ connection ∈ s.connections[nConnection]?, connection.fNewBlock = true ∧ fSubmittingBlock = false

instance (s : ShareServer) (nConnection : Nat) (fSubmittingBlock : Bool) : Decidable (s.Clears nConnection fSubmittingBlock) :=
  decidable_of_iff (s.connections[nConnection]?.any fun connection => connection.fNewBlock && !fSubmittingBlock) (by
    simp [Clears, Option.any_eq_true])

def generic (s : ShareServer) (nConnection : Nat) (fSubmittingBlock : Bool) : ShareServer :=
  { s.modify nConnection fun connection => connection.generic getHash fSubmittingBlock with
    uncleared := if s.Clears nConnection fSubmittingBlock then s.uncleared.filter (· ≠ nConnection) else s.uncleared }

def step (s : ShareServer) : RoundEvent → Option ShareServer
  | .connect => some { s with connections := s.connections ++ [.new] }
  | .getBlock nConnection => some (s.modify nConnection PoolConnection.getBlock)
  | .blockData nConnection BLOCK => s.blockData nConnection BLOCK
  | .generic nConnection fSubmittingBlock => some (s.generic getHash nConnection fSubmittingBlock)
  | .newBlock nConnection => some (s.modify nConnection fun connection => { connection with fNewBlock := true })
  | .scan nConnection => some (s.modify nConnection PoolConnection.scan)
  | .submitShare nConnection hashPrimeOrigin nNonce => s.submitShare verification nConnection hashPrimeOrigin nNonce
  | .blockHeight nHeight => some { s with nBestHeight := nHeight, heights := nHeight :: s.heights }
  | .newRound =>
      some { s with PRIMES_MAP := ∅, pastHeights := s.heights, uncleared := List.range s.connections.length }

/-! ## Rounds that are kept apart -/

/-- No nonce leads from the hash to a prime that was credited before the last `NewRound`. -/
def Fresh (s : ShareServer) (hash : Uint1024) : Prop :=
  ∀ nNonce, hashPrimeOf hash nNonce ∈ s.credited → hashPrimeOf hash nNonce ∈ s.PRIMES_MAP

/-- The daemons hand out no current block that leads to a prime of an earlier round. After `NewRound` a share finds its block
only at a height that had never been polled before, or on a connection that has been cleared since. -/
def KeptApart (s : ShareServer) : RoundEvent → Prop
  | .blockData _ BLOCK => BLOCK.nHeight = s.nBestHeight → s.Fresh (getHash BLOCK)
  | .submitShare nConnection hashPrimeOrigin _ =>
      (∃ connection ∈ s.connections[nConnection]?, (connection.findBlock s.nBestHeight hashPrimeOrigin).isSome) →
        s.nBestHeight ∉ s.pastHeights ∨ nConnection ∉ s.uncleared
  | _ => True

end ShareServer

/-! ## The blocks of a connection -/

namespace PoolConnection

variable (getHash : CBlock → Uint1024)

/-- The connection has a block of this hash and height, sent to its client or waiting for it. -/
def Holds (connection : PoolConnection) (hash : Uint1024) (nHeight : UInt32) : Prop :=
  (∃ BLOCK, connection.MAP_BLOCKS[hash]? = some BLOCK ∧ BLOCK.BLOCK.nHeight = nHeight) ∨
    ∃ BLOCK ∈ connection.NEW_BLOCKS, getHash BLOCK.BLOCK = hash ∧ BLOCK.BLOCK.nHeight = nHeight

variable {getHash} {connection : PoolConnection} {hash : Uint1024} {nHeight : UInt32}

theorem not_holds_new : ¬ new.Holds getHash hash nHeight := by
  rintro (⟨BLOCK, found, -⟩ | ⟨BLOCK, member, -⟩)
  · cases found
  · cases member

theorem holds_addBlock {BLOCK : HeapBlock} (holds : (connection.addBlock BLOCK).Holds getHash hash nHeight) :
    getHash BLOCK.BLOCK = hash ∧ BLOCK.BLOCK.nHeight = nHeight ∨ connection.Holds getHash hash nHeight := by
  rcases holds with sent | ⟨waiting, member, own⟩
  · exact Or.inr (Or.inl sent)
  · rcases List.mem_cons.mp member with rfl | member
    · exact Or.inl own
    · exact Or.inr (Or.inr ⟨waiting, member, own⟩)

theorem holds_sendBlocks (holds : (connection.sendBlocks getHash).Holds getHash hash nHeight) :
    connection.Holds getHash hash nHeight := by
  rcases holds with ⟨BLOCK, found, height⟩ | ⟨BLOCK, member, -⟩
  · rcases getElem?_foldl_insert (fun BLOCK : HeapBlock => getHash BLOCK.BLOCK) connection.NEW_BLOCKS connection.MAP_BLOCKS
      hash with ⟨sent, member, own, stored⟩ | ⟨-, stored⟩
    · obtain rfl : sent = BLOCK := Option.some.inj (stored.symm.trans found)
      exact Or.inr ⟨sent, member, own, height⟩
    · exact Or.inl ⟨BLOCK, stored.symm.trans found, height⟩
  · cases member

theorem holds_generic {fSubmittingBlock : Bool} (holds : (connection.generic getHash fSubmittingBlock).Holds getHash hash nHeight) :
    connection.Holds getHash hash nHeight ∧ ¬ (connection.fNewBlock = true ∧ fSubmittingBlock = false) := by
  rw [generic] at holds
  split at holds
  · rename_i flagged
    split at holds
    · rename_i submitting
      exact ⟨holds, fun clears => absurd (clears.2.symm.trans submitting) Bool.false_ne_true⟩
    · rcases holds_sendBlocks holds with ⟨BLOCK, found, -⟩ | ⟨BLOCK, member, -⟩
      · cases found
      · cases member
  · rename_i flagged
    exact ⟨holds_sendBlocks holds, fun clears => flagged clears.1⟩

theorem holds_scan (holds : connection.scan.Holds getHash hash nHeight) : connection.Holds getHash hash nHeight := by
  rw [scan] at holds
  split at holds <;> exact holds

theorem holds_submitBlock {hashPrimeOrigin : Uint1024} {nNonce : UInt64}
    (holds : (connection.submitBlock hashPrimeOrigin nNonce).Holds getHash hash nHeight) :
    connection.Holds getHash hash nHeight := by
  rcases holds with ⟨BLOCK, found, height⟩ | waiting
  · rw [submitBlock, ExtTreeMap.getElem?_modify] at found
    split at found
    · rename_i same
      obtain ⟨before, stored, rfl⟩ := Option.map_eq_some_iff.mp found
      exact Or.inl ⟨before, LawfulEqCmp.compare_eq_iff_eq.mp same ▸ stored, height⟩
    · exact Or.inl ⟨BLOCK, found, height⟩
  · exact Or.inr waiting

theorem holds_of_findBlock {nBestHeight : UInt32} {hashPrimeOrigin : Uint1024} {BLOCK : HeapBlock}
    (found : connection.findBlock nBestHeight hashPrimeOrigin = some BLOCK) :
    connection.Holds getHash hashPrimeOrigin nBestHeight := by
  obtain ⟨sent, height⟩ := Option.filter_eq_some_iff.mp found
  exact Or.inl ⟨BLOCK, sent, of_decide_eq_true height⟩

end PoolConnection

namespace ShareServer

variable (getHash : CBlock → Uint1024)

def Held (s : ShareServer) (nConnection : Nat) (hash : Uint1024) (nHeight : UInt32) : Prop :=
  ∃ connection, s.connections[nConnection]? = some connection ∧ connection.Holds getHash hash nHeight

/-- Every block that a share may still find leads to new primes. -/
structure Separate (s : ShareServer) : Prop where
  once : s.credited.Nodup
  polled : s.nBestHeight ∈ s.heights
  handed : ∀ nConnection hash nHeight, s.Held getHash nConnection hash nHeight → nHeight ∈ s.heights
  fresh : ∀ nConnection hash nHeight, s.Held getHash nConnection hash nHeight →
    nHeight ∉ s.pastHeights ∨ nConnection ∉ s.uncleared → s.Fresh hash

variable {getHash} {verification : Verification} {s after : ShareServer}

theorem separate_start : Separate getHash start where
  once := List.nodup_nil
  polled := List.mem_cons_self
  handed := by
    rintro nConnection hash nHeight ⟨connection, found, -⟩
    cases found
  fresh := by
    rintro nConnection hash nHeight ⟨connection, found, -⟩
    cases found

/-- A step that hands out nothing and keeps what the blocks are judged by. -/
theorem Separate.frame (separate : Separate getHash s) (once : after.credited.Nodup)
    (heights : after.heights = s.heights) (polled : after.nBestHeight = s.nBestHeight)
    (past : after.pastHeights = s.pastHeights) (uncleared : after.uncleared = s.uncleared)
    (fewer : ∀ nConnection hash nHeight, after.Held getHash nConnection hash nHeight → s.Held getHash nConnection hash nHeight)
    (fresh : ∀ hash, s.Fresh hash → after.Fresh hash) : Separate getHash after where
  once := once
  polled := by
    rw [polled, heights]
    exact separate.polled
  handed nConnection hash nHeight held := by
    rw [heights]
    exact separate.handed nConnection hash nHeight (fewer nConnection hash nHeight held)
  fresh nConnection hash nHeight held apart := by
    rw [past, uncleared] at apart
    exact fresh hash (separate.fresh nConnection hash nHeight (fewer nConnection hash nHeight held) apart)

theorem held_modify {nConnection : Nat} {change : PoolConnection → PoolConnection}
    (fewer : ∀ connection hash nHeight, (change connection).Holds getHash hash nHeight →
      connection.Holds getHash hash nHeight) (nOther : Nat) (hash : Uint1024) (nHeight : UInt32)
    (held : (s.modify nConnection change).Held getHash nOther hash nHeight) : s.Held getHash nOther hash nHeight := by
  obtain ⟨connection, found, holds⟩ := held
  rw [modify, List.getElem?_modify] at found
  obtain ⟨before, stored, changed⟩ := Option.map_eq_some_iff.mp found
  refine ⟨before, stored, ?_⟩
  split at changed
  · exact fewer before hash nHeight (changed ▸ holds)
  · exact changed ▸ holds

theorem Separate.modify (separate : Separate getHash s) {nConnection : Nat} {change : PoolConnection → PoolConnection}
    (fewer : ∀ connection hash nHeight, (change connection).Holds getHash hash nHeight →
      connection.Holds getHash hash nHeight) : Separate getHash (s.modify nConnection change) :=
  separate.frame separate.once rfl rfl rfl rfl (held_modify fewer) fun _ => id

/-! ## Steps -/

theorem Separate.connect (separate : Separate getHash s) :
    Separate getHash { s with connections := s.connections ++ [.new] } := by
  refine separate.frame separate.once rfl rfl rfl rfl (fun nConnection hash nHeight held => ?_) fun _ => id
  obtain ⟨connection, found, holds⟩ := held
  rw [List.getElem?_append] at found
  split at found
  · exact ⟨connection, found, holds⟩
  · rw [List.mem_singleton.mp (List.mem_of_getElem? found)] at holds
    exact absurd holds PoolConnection.not_holds_new

theorem Separate.blockData (separate : Separate getHash s) {nConnection : Nat} {BLOCK : CBlock}
    (fresh : BLOCK.nHeight = s.nBestHeight → s.Fresh (getHash BLOCK))
    (taken : s.blockData nConnection BLOCK = some after) : Separate getHash after := by
  obtain ⟨connection, -, handed⟩ := Option.bind_eq_some_iff.mp taken
  dsimp only at handed
  split at handed
  · rename_i wanted
    cases handed
    have handedOrHeld {nOther : Nat} {hash : Uint1024} {nHeight : UInt32}
        (held : Held getHash (ShareServer.modify { s with nObjects := s.nObjects + 1 } nConnection
          fun connection => connection.addBlock { object := s.nObjects, BLOCK }) nOther hash nHeight) :
        getHash BLOCK = hash ∧ s.nBestHeight = nHeight ∨ s.Held getHash nOther hash nHeight := by
      obtain ⟨other, found, holds⟩ := held
      rw [ShareServer.modify, List.getElem?_modify] at found
      obtain ⟨before, stored, changed⟩ := Option.map_eq_some_iff.mp found
      split at changed
      · rcases PoolConnection.holds_addBlock (changed ▸ holds) with ⟨own, height⟩ | holds
        · exact Or.inl ⟨own, wanted.1.symm.trans height⟩
        · exact Or.inr ⟨before, stored, holds⟩
      · exact Or.inr ⟨before, stored, changed ▸ holds⟩
    refine { once := separate.once, polled := separate.polled, handed := ?_, fresh := ?_ }
    · intro nOther hash nHeight held
      rcases handedOrHeld held with ⟨-, rfl⟩ | held
      · exact separate.polled
      · exact separate.handed nOther hash nHeight held
    · intro nOther hash nHeight held apart
      rcases handedOrHeld held with ⟨rfl, -⟩ | held
      · exact fresh wanted.1
      · exact separate.fresh nOther hash nHeight held apart
  · cases handed
    exact separate.frame separate.once rfl rfl rfl rfl (fun _ _ _ => id) fun _ => id

theorem Separate.generic (separate : Separate getHash s) (nConnection : Nat) (fSubmittingBlock : Bool) :
    Separate getHash (s.generic getHash nConnection fSubmittingBlock) := by
  have fewer : ∀ nOther hash nHeight, (s.generic getHash nConnection fSubmittingBlock).Held getHash nOther hash nHeight →
      s.Held getHash nOther hash nHeight := by
    apply held_modify (s := s)
    exact fun _ _ _ holds => (PoolConnection.holds_generic holds).1
  refine {
    once := separate.once
    polled := separate.polled
    handed := fun nOther hash nHeight held => separate.handed nOther hash nHeight (fewer nOther hash nHeight held)
    fresh := fun nOther hash nHeight held apart => ?_ }
  apply separate.fresh nOther hash nHeight (fewer nOther hash nHeight held)
  refine apart.imp_right fun cleared uncleared => cleared ?_
  rw [ShareServer.generic]
  dsimp only
  split
  · rename_i clears
    -- a connection that is cleared holds nothing
    refine List.mem_filter.mpr ⟨uncleared, decide_eq_true ?_⟩
    rintro rfl
    obtain ⟨connection, found, clears⟩ := clears
    obtain ⟨after, changed, holds⟩ := held
    rw [ShareServer.generic, ShareServer.modify, List.getElem?_modify, found] at changed
    obtain rfl := Option.some.inj changed
    dsimp only at holds
    rw [if_pos rfl] at holds
    exact (PoolConnection.holds_generic holds).2 clears
  · exact uncleared

theorem Separate.blockHeight (separate : Separate getHash s) (nHeight : UInt32) :
    Separate getHash { s with nBestHeight := nHeight, heights := nHeight :: s.heights } where
  once := separate.once
  polled := List.mem_cons_self
  handed nConnection hash nHeight held := List.mem_cons_of_mem _ (separate.handed nConnection hash nHeight held)
  fresh := separate.fresh

theorem Separate.newRound (separate : Separate getHash s) :
    Separate getHash
      { s with PRIMES_MAP := ∅, pastHeights := s.heights, uncleared := List.range s.connections.length } where
  once := separate.once
  polled := separate.polled
  handed := separate.handed
  fresh := by
    intro nConnection hash nHeight held apart
    rcases apart with new | cleared
    · exact absurd (separate.handed nConnection hash nHeight held) new
    · obtain ⟨connection, found, -⟩ := held
      exact absurd (List.mem_range.mpr (List.getElem?_eq_some_iff.mp found).1) cleared

theorem fresh_credit {hashPrime hash : Uint1024} (fresh : s.Fresh hash) :
    Fresh { s with PRIMES_MAP := s.PRIMES_MAP.insert hashPrime, credited := s.credited ++ [hashPrime] } hash := by
  intro nNonce credited
  rcases List.mem_append.mp credited with old | new
  · exact ExtTreeSet.mem_insert.mpr (Or.inr (fresh nNonce old))
  · exact ExtTreeSet.mem_insert.mpr (Or.inl (LawfulEqCmp.compare_eq_iff_eq.mpr (List.mem_singleton.mp new).symm))

theorem Separate.submitShare (separate : Separate getHash s) {nConnection : Nat} {hashPrimeOrigin : Uint1024}
    {nNonce : UInt64} (apart : s.KeptApart getHash (.submitShare nConnection hashPrimeOrigin nNonce))
    (taken : s.submitShare verification nConnection hashPrimeOrigin nNonce = some after) : Separate getHash after := by
  obtain ⟨connection, found, rest⟩ := Option.bind_eq_some_iff.mp taken
  cases listed : connection.findBlock s.nBestHeight hashPrimeOrigin with
  | none =>
      rw [listed] at rest
      cases rest
      exact separate
  | some BLOCK =>
      have held : s.Held getHash nConnection hashPrimeOrigin s.nBestHeight :=
        ⟨connection, found, PoolConnection.holds_of_findBlock listed⟩
      have fresh := separate.fresh _ _ _ held (apart ⟨connection, found, by rw [listed]; rfl⟩)
      simp only [listed] at rest
      split at rest
      · cases rest
        exact separate
      · rename_i unknown
        split at rest
        · have once : (s.credited ++ [hashPrimeOf hashPrimeOrigin nNonce]).Nodup := by
            rw [← List.concat_eq_append, List.nodup_concat]
            exact ⟨fun credited => unknown (fresh nNonce credited), separate.once⟩
          have credit : Separate getHash { s with
              PRIMES_MAP := s.PRIMES_MAP.insert (hashPrimeOf hashPrimeOrigin nNonce)
              credited := s.credited ++ [hashPrimeOf hashPrimeOrigin nNonce] } :=
            separate.frame once rfl rfl rfl rfl (fun _ _ _ => id) fun _ => fresh_credit
          split at rest
          · cases rest
            exact credit.modify fun _ _ _ => PoolConnection.holds_submitBlock
          · cases rest
            exact credit
        · cases rest
          exact separate

theorem Separate.step (separate : Separate getHash s) (event : RoundEvent) (apart : s.KeptApart getHash event)
    (taken : s.step getHash verification event = some after) : Separate getHash after := by
  cases event with
  | connect =>
      cases taken
      exact separate.connect
  | getBlock nConnection =>
      cases taken
      exact separate.modify fun _ _ _ => id
  | blockData nConnection BLOCK => exact separate.blockData apart taken
  | generic nConnection fSubmittingBlock =>
      cases taken
      exact separate.generic nConnection fSubmittingBlock
  | newBlock nConnection =>
      cases taken
      exact separate.modify fun _ _ _ => id
  | scan nConnection =>
      cases taken
      exact separate.modify fun _ _ _ => PoolConnection.holds_scan
  | submitShare nConnection hashPrimeOrigin nNonce => exact separate.submitShare apart taken
  | blockHeight nHeight =>
      cases taken
      exact separate.blockHeight nHeight
  | newRound =>
      cases taken
      exact separate.newRound

/-- No prime is credited twice in a run whose rounds are kept apart. -/
theorem never_replayed (getHash : CBlock → Uint1024) (verification : Verification) {events : List RoundEvent}
    (apart : EachStep (step getHash verification) (fun s event _ => s.KeptApart getHash event) events start) :
    EachStep (step getHash verification) (fun _ _ after => after.credited.Nodup) events start :=
  EachStep.of_invariant (Separate getHash)
    (fun _ event _ separate taken apart =>
      have kept := separate.step event apart taken
      ⟨kept, kept.once⟩)
    separate_start apart

/-! ## Two rounds -/

theorem eq_of_modEq {a b : Nat} (small : a < (2 ^ 32) ^ 32) (small' : b < (2 ^ 32) ^ 32)
    (same : (a : ℤ) ≡ b [ZMOD (2 ^ 32) ^ 32]) : a = b := by
  have same : a ≡ b [MOD (2 ^ 32) ^ 32] := Int.natCast_modEq_iff.mp (by exact_mod_cast same)
  exact same.eq_of_lt_of_lt small small'

theorem modEq_hashPrimeOf (hash : Uint1024) (nNonce : UInt64) :
    ((hashPrimeOf hash nNonce).toNat : ℤ) ≡ hash.toNat + nNonce.toNat [ZMOD (2 ^ 32) ^ 32] := by
  have sum := BaseUint.modEq_add hash (.ofUInt64 nNonce)
  rwa [BaseUint.toNat_ofUInt64 (by decide)] at sum

/-- The primes of a block are the 2^64 numbers from its hash on. -/
theorem hashPrimeOf_eq_iff (hash hashPrime : Uint1024) :
    (∃ nNonce, hashPrimeOf hash nNonce = hashPrime) ↔ (hashPrime.sub hash).toNat < 2 ^ 64 := by
  have difference := BaseUint.modEq_sub hashPrime hash
  constructor
  · rintro ⟨nNonce, rfl⟩
    have bound := nNonce.toNat_lt
    have nonce : ((hashPrimeOf hash nNonce).sub hash).toNat = nNonce.toNat := by
      refine eq_of_modEq (BaseUint.toNat_lt _) (by omega) (difference.trans ?_)
      have sum := (modEq_hashPrimeOf hash nNonce).sub_right (hash.toNat : ℤ)
      rwa [add_sub_cancel_left] at sum
    rwa [nonce]
  · intro near
    refine ⟨(hashPrime.sub hash).toNat.toUInt64, BaseUint.toNat_inj.mp ?_⟩
    refine eq_of_modEq (BaseUint.toNat_lt _) (BaseUint.toNat_lt _) ((modEq_hashPrimeOf _ _).trans ?_)
    rw [Nat.toUInt64_eq, UInt64.toNat_ofNat', Nat.mod_eq_of_lt near]
    have sum := difference.add_left (hash.toNat : ℤ)
    rwa [add_sub_cancel] at sum

theorem fresh_iff (s : ShareServer) (hash : Uint1024) :
    s.Fresh hash ↔ ∀ hashPrime ∈ s.credited, (hashPrime.sub hash).toNat < 2 ^ 64 → hashPrime ∈ s.PRIMES_MAP := by
  simp only [← hashPrimeOf_eq_iff]
  constructor
  · rintro fresh hashPrime credited ⟨nNonce, rfl⟩
    exact fresh nNonce credited
  · exact fun each nNonce credited => each _ credited ⟨nNonce, rfl⟩

instance (s : ShareServer) (hash : Uint1024) : Decidable (s.Fresh hash) := decidable_of_iff' _ (fresh_iff s hash)

instance (s : ShareServer) (event : RoundEvent) : Decidable (s.KeptApart getHash event) :=
  match event with
  | .blockData _ _ | .submitShare _ _ _ => inferInstanceAs (Decidable (_ → _))
  | .connect | .getBlock _ | .generic _ _ | .newBlock _ | .scan _ | .blockHeight _ | .newRound => isTrue trivial

/-- A share is found in the first round, on a new block of the next height in the second one, and on a connection that
has been cleared in the third one, whose height is still that of the second. -/
def threeRounds : List RoundEvent :=
  [.connect, .blockHeight 5, .getBlock 0, .scan 0, .blockData 0 (sampleBlock 5 7), .generic 0 false,
    .submitShare 0 (sampleHash (sampleBlock 5 7)) 1, .newRound,
    .blockHeight 6, .getBlock 0, .scan 0, .blockData 0 (sampleBlock 6 8), .generic 0 false,
    .submitShare 0 (sampleHash (sampleBlock 6 8)) 1, .newRound,
    .newBlock 0, .generic 0 false, .getBlock 0, .scan 0, .blockData 0 (sampleBlock 6 9), .generic 0 false,
    .submitShare 0 (sampleHash (sampleBlock 6 9)) 1]

theorem threeRounds_never_replayed :
    EachStep (step sampleHash allAccepted) (fun _ _ after => after.credited.Nodup) threeRounds start ∧
      (threeRounds.foldlM (step sampleHash allAccepted) start).map (fun s => s.credited.length) = some 3 :=
  ⟨never_replayed sampleHash allAccepted (by decide +kernel), by decide +kernel⟩

theorem replayed_after_newRound :
    ¬ EachStep (step sampleHash { allAccepted with fBlock := fun _ _ => true })
      (fun _ _ after => after.credited.Nodup)
      [.connect, .blockHeight 5, .getBlock 0, .scan 0, .blockData 0 (sampleBlock 5 7), .generic 0 false,
        .submitShare 0 (sampleHash (sampleBlock 5 7)) 1, .scan 0, .newRound,
        .submitShare 0 (sampleHash (sampleBlock 5 7)) 1]
      start := by
  decide +kernel

end ShareServer

end PrimePool.LLP

import PrimePool.Coinbase
import PrimePool.Core.Pool
import PrimePool.LLP.Framing
import PrimePool.LLP.PoolPackets

/-!
# The packets of a daemon connection

`LLP/daemon.cpp`: the block of a `BLOCK_DATA` packet, and the requests that the pool sends to a daemon.
-/

namespace PrimePool

open Std

/-! ## Cutting bytes -/

theorem exists_uint2bytes {bytes : Bytes} (length : bytes.length = 4) : ∃ n, uint2bytes n = bytes := by
  match bytes, length with
  | [b3, b2, b1, b0], _ => exact ⟨_, bytes_of_word b3 b2 b1 b0⟩

theorem exists_append {bytes : Bytes} {nLength : Nat} (enough : nLength ≤ bytes.length) :
    ∃ first rest, bytes = first ++ rest ∧ first.length = nLength :=
  ⟨bytes.take nLength, bytes.drop nLength, (List.take_append_drop _ _).symm, List.length_take_of_le enough⟩

theorem exists_uint2bytes64 {bytes : Bytes} (length : bytes.length = 8) : ∃ n, uint2bytes64 n = bytes := by
  obtain ⟨low, high, rfl, four⟩ := exists_append (show 4 ≤ bytes.length by omega)
  rw [List.length_append, four] at length
  obtain ⟨lowWord, rfl⟩ := exists_uint2bytes four
  obtain ⟨highWord, rfl⟩ := exists_uint2bytes (show high.length = 4 by omega)
  refine ⟨lowWord.toUInt64 ||| (highWord.toUInt64 <<< 32), ?_⟩
  have halves : (lowWord.toUInt64 ||| (highWord.toUInt64 <<< 32)).toUInt32 = lowWord ∧
      ((lowWord.toUInt64 ||| (highWord.toUInt64 <<< 32)) >>> 32).toUInt32 = highWord := by
    have low := lowWord.toNat_lt
    have high := highWord.toNat_lt
    have sum : (lowWord.toUInt64 ||| (highWord.toUInt64 <<< 32)).toNat = highWord.toNat * 2 ^ 32 + lowWord.toNat := by
      rw [UInt64.toNat_or, UInt64.toNat_shiftLeft, UInt32.toNat_toUInt64, UInt32.toNat_toUInt64, Nat.or_comm]
      show (highWord.toNat <<< 32) % 2 ^ 64 ||| _ = _
      have fits : highWord.toNat <<< 32 < 2 ^ 64 := by
        rw [Nat.shiftLeft_eq]
        omega
      rw [Nat.mod_eq_of_lt fits, ← Nat.shiftLeft_add_eq_or_of_lt low, Nat.shiftLeft_eq]
    constructor
    · rw [← UInt32.toNat_inj, UInt64.toNat_toUInt32, sum]
      omega
    · rw [← UInt32.toNat_inj, UInt64.toNat_toUInt32, UInt64.toNat_shiftRight, sum]
      show ((_ : Nat) >>> 32) % 2 ^ 32 = _
      rw [Nat.shiftRight_eq_div_pow]
      omega
  rw [uint2bytes64, halves.1, halves.2]

namespace BaseUint

variable {width : Nat}

theorem exists_getBytes {bytes : Bytes} (length : bytes.length = 4 * width) :
    ∃ x : BaseUint width, x.getBytes = bytes := by
  have read := getBytes_setBytes (⟨bytes.toArray, length⟩ : Vector UInt8 (4 * width))
  obtain ⟨x, -, same⟩ := Option.map_eq_some_iff.mp read
  exact ⟨x, same⟩

/-- `SetBytes` reads as many bytes as it needs. -/
theorem setBytes_getBytes_append (x : BaseUint width) (surplus : Bytes) :
    setBytes width (x.getBytes ++ surplus) = some x := by
  have enough : ¬ (x.getBytes ++ surplus).length < 4 * width := by
    rw [List.length_append, length_getBytes]
    omega
  have word (index : Nat) (inside : 4 * index + 4 ≤ x.getBytes.length) :
      bytes2uint (x.getBytes ++ surplus) (4 * index) = bytes2uint x.getBytes (4 * index) := by
    rw [bytes2uint, bytes2uint, List.length_append, if_neg (by omega), if_neg (by omega)]
    simp only [List.getD_eq_getElem?_getD]
    rw [List.getElem?_append_left (by omega), List.getElem?_append_left (by omega),
      List.getElem?_append_left (by omega), List.getElem?_append_left (by omega)]
  rw [← setBytes_getBytes x, setBytes, if_neg enough, setBytes, if_neg (by rw [length_getBytes]; omega)]
  congr 2
  ext index inside
  rw [Vector.getElem_ofFn, Vector.getElem_ofFn]
  refine congrArg UInt32.toNat (word index ?_)
  rw [length_getBytes]
  omega

end BaseUint

namespace LLP

open PrimePool.Core

/-! ## Blocks -/

def deserializeBlock (DATA : Bytes) : Option CBlock := do
  let nVersion ← iterators DATA 0 4
  let hashPrevBlock ← (iterators DATA 4 132).bind (BaseUint.setBytes 32)
  let hashMerkleRoot ← (iterators DATA 132 (DATA.length - 20)).bind (BaseUint.setBytes 16)
  let nChannel ← iterators DATA (DATA.length - 20) (DATA.length - 16)
  let nHeight ← iterators DATA (DATA.length - 16) (DATA.length - 12)
  let nBits ← iterators DATA (DATA.length - 12) (DATA.length - 8)
  let nNonce ← iterators DATA (DATA.length - 8) DATA.length
  return {
    nVersion := bytes2uint nVersion 0
    hashPrevBlock
    hashMerkleRoot
    nChannel := bytes2uint nChannel 0
    nHeight := bytes2uint nHeight 0
    nBits := bytes2uint nBits 0
    nNonce := bytes2uint64 nNonce 0 }

/-- A block as bytes, with what stands behind its merkle root. -/
def blockData (BLOCK : CBlock) (surplus : Bytes) : Bytes :=
  uint2bytes BLOCK.nVersion ++ BLOCK.hashPrevBlock.getBytes ++ BLOCK.hashMerkleRoot.getBytes ++ surplus ++
    uint2bytes BLOCK.nChannel ++ uint2bytes BLOCK.nHeight ++ uint2bytes BLOCK.nBits ++ uint2bytes64 BLOCK.nNonce

theorem iterators_eq {DATA middle : Bytes} {first last : Int} (before behind : Bytes)
    (cut : DATA = before ++ middle ++ behind) (start : first = before.length)
    (stop : last = before.length + middle.length) : iterators DATA first last = some middle := by
  rw [iterators, if_pos (by omega)]
  exact slice_eq before behind cut (by omega) (by omega)

theorem length_of_iterators {DATA part : Bytes} {first last : Int} (read : iterators DATA first last = some part) :
    (part.length : Int) = (last.toNat - first.toNat : Nat) ∧ last ≤ DATA.length := by
  rw [iterators] at read
  split at read
  · have := length_of_slice read
    omega
  · cases read

variable (BLOCK : CBlock) (surplus : Bytes)

theorem length_blockData : (blockData BLOCK surplus).length = 216 + surplus.length := by
  simp only [blockData, List.length_append, length_uint2bytes, length_uint2bytes64, BaseUint.length_getBytes]
  omega

theorem deserializeBlock_blockData : deserializeBlock (blockData BLOCK surplus) = some BLOCK := by
  have word (n : UInt32) : bytes2uint (uint2bytes n) 0 = n := bytes2uint_eq [] [] (by simp) rfl
  have long (n : UInt64) : bytes2uint64 (uint2bytes64 n) 0 = n := bytes2uint64_eq [] [] (by simp) rfl
  have cut : blockData BLOCK surplus = uint2bytes BLOCK.nVersion ++ (BLOCK.hashPrevBlock.getBytes ++
      ((BLOCK.hashMerkleRoot.getBytes ++ surplus) ++ (uint2bytes BLOCK.nChannel ++ (uint2bytes BLOCK.nHeight ++
        (uint2bytes BLOCK.nBits ++ uint2bytes64 BLOCK.nNonce))))) := by
    simp only [blockData, List.append_assoc]
  have length := length_blockData BLOCK surplus
  have previous : BLOCK.hashPrevBlock.getBytes.length = 128 := BaseUint.length_getBytes _
  have merkle : (BLOCK.hashMerkleRoot.getBytes ++ surplus).length = 64 + surplus.length := by
    rw [List.length_append, BaseUint.length_getBytes]
  have root := BaseUint.setBytes_getBytes_append BLOCK.hashMerkleRoot surplus
  generalize BLOCK.hashMerkleRoot.getBytes ++ surplus = rootBytes at cut merkle root
  have nVersion : iterators (blockData BLOCK surplus) 0 4 = some (uint2bytes BLOCK.nVersion) :=
    iterators_eq [] _ cut rfl rfl
  have hashPrevBlock : iterators (blockData BLOCK surplus) 4 132 = some BLOCK.hashPrevBlock.getBytes :=
    iterators_eq (uint2bytes BLOCK.nVersion) _ (by rw [cut, List.append_assoc]) rfl (by rw [previous]; rfl)
  have hashMerkleRoot : iterators (blockData BLOCK surplus) 132 ((blockData BLOCK surplus).length - 20) = some rootBytes :=
    iterators_eq (uint2bytes BLOCK.nVersion ++ BLOCK.hashPrevBlock.getBytes)
      (uint2bytes BLOCK.nChannel ++ uint2bytes BLOCK.nHeight ++ uint2bytes BLOCK.nBits ++ uint2bytes64 BLOCK.nNonce)
      (by simp only [cut, List.append_assoc])
      (by rw [List.length_append, previous]; rfl)
      (by rw [length, List.length_append, previous, merkle, length_uint2bytes]; omega)
  have nChannel : iterators (blockData BLOCK surplus) ((blockData BLOCK surplus).length - 20)
      ((blockData BLOCK surplus).length - 16) = some (uint2bytes BLOCK.nChannel) :=
    iterators_eq (uint2bytes BLOCK.nVersion ++ BLOCK.hashPrevBlock.getBytes ++ rootBytes)
      (uint2bytes BLOCK.nHeight ++ uint2bytes BLOCK.nBits ++ uint2bytes64 BLOCK.nNonce)
      (by simp only [cut, List.append_assoc])
      (by simp only [length, List.length_append, previous, merkle, length_uint2bytes]; omega)
      (by simp only [length, List.length_append, previous, merkle, length_uint2bytes]; omega)
  have nHeight : iterators (blockData BLOCK surplus) ((blockData BLOCK surplus).length - 16)
      ((blockData BLOCK surplus).length - 12) = some (uint2bytes BLOCK.nHeight) :=
    iterators_eq (uint2bytes BLOCK.nVersion ++ BLOCK.hashPrevBlock.getBytes ++ rootBytes ++ uint2bytes BLOCK.nChannel)
      (uint2bytes BLOCK.nBits ++ uint2bytes64 BLOCK.nNonce)
      (by simp only [cut, List.append_assoc])
      (by simp only [length, List.length_append, previous, merkle, length_uint2bytes]; omega)
      (by simp only [length, List.length_append, previous, merkle, length_uint2bytes]; omega)
  have nBits : iterators (blockData BLOCK surplus) ((blockData BLOCK surplus).length - 12)
      ((blockData BLOCK surplus).length - 8) = some (uint2bytes BLOCK.nBits) :=
    iterators_eq (uint2bytes BLOCK.nVersion ++ BLOCK.hashPrevBlock.getBytes ++ rootBytes ++ uint2bytes BLOCK.nChannel ++
        uint2bytes BLOCK.nHeight) (uint2bytes64 BLOCK.nNonce)
      (by simp only [cut, List.append_assoc])
      (by simp only [length, List.length_append, previous, merkle, length_uint2bytes]; omega)
      (by simp only [length, List.length_append, previous, merkle, length_uint2bytes]; omega)
  have nNonce : iterators (blockData BLOCK surplus) ((blockData BLOCK surplus).length - 8)
      (blockData BLOCK surplus).length = some (uint2bytes64 BLOCK.nNonce) :=
    iterators_eq (uint2bytes BLOCK.nVersion ++ BLOCK.hashPrevBlock.getBytes ++ rootBytes ++ uint2bytes BLOCK.nChannel ++
        uint2bytes BLOCK.nHeight ++ uint2bytes BLOCK.nBits) []
      (by simp only [cut, List.append_assoc, List.append_nil])
      (by simp only [length, List.length_append, previous, merkle, length_uint2bytes]; omega)
      (by simp only [length, List.length_append, previous, merkle, length_uint2bytes, length_uint2bytes64]; omega)
  simp only [deserializeBlock, nVersion, hashPrevBlock, hashMerkleRoot, nChannel, nHeight, nBits, nNonce,
    Option.bind_eq_bind, Option.bind_some, BaseUint.setBytes_getBytes, root, word, long]
  rfl

/-- Every payload that is long enough is a block. -/
theorem exists_blockData {DATA : Bytes} (enough : 216 ≤ DATA.length) : ∃ BLOCK surplus, DATA = blockData BLOCK surplus := by
  obtain ⟨version, DATA₁, rfl, length⟩ := exists_append (show 4 ≤ DATA.length by omega)
  rw [List.length_append, length] at enough
  obtain ⟨nVersion, rfl⟩ := exists_uint2bytes length
  obtain ⟨previous, DATA₂, rfl, length⟩ := exists_append (show 4 * 32 ≤ DATA₁.length by omega)
  rw [List.length_append, length] at enough
  obtain ⟨hashPrevBlock, rfl⟩ := BaseUint.exists_getBytes length
  obtain ⟨root, DATA₃, rfl, length⟩ := exists_append (show 4 * 16 ≤ DATA₂.length by omega)
  rw [List.length_append, length] at enough
  obtain ⟨hashMerkleRoot, rfl⟩ := BaseUint.exists_getBytes length
  obtain ⟨surplus, DATA₄, rfl, length⟩ := exists_append (Nat.sub_le DATA₃.length 20)
  rw [List.length_append] at enough length
  obtain ⟨channel, DATA₅, rfl, four⟩ := exists_append (show 4 ≤ DATA₄.length by omega)
  rw [List.length_append, four] at enough length
  obtain ⟨nChannel, rfl⟩ := exists_uint2bytes four
  obtain ⟨height, DATA₆, rfl, four⟩ := exists_append (show 4 ≤ DATA₅.length by omega)
  rw [List.length_append, four] at enough length
  obtain ⟨nHeight, rfl⟩ := exists_uint2bytes four
  obtain ⟨bits, DATA₇, rfl, four⟩ := exists_append (show 4 ≤ DATA₆.length by omega)
  rw [List.length_append, four] at enough length
  obtain ⟨nBits, rfl⟩ := exists_uint2bytes four
  obtain ⟨nNonce, rfl⟩ := exists_uint2bytes64 (show DATA₇.length = 8 by omega)
  refine ⟨{ nVersion, hashPrevBlock, hashMerkleRoot, nChannel, nHeight, nBits, nNonce }, surplus, ?_⟩
  simp only [blockData, List.append_assoc]

theorem enough_of_deserializeBlock {DATA : Bytes} {BLOCK : CBlock} (read : deserializeBlock DATA = some BLOCK) :
    216 ≤ DATA.length := by
  obtain ⟨version, -, read⟩ := Option.bind_eq_some_iff.mp read
  obtain ⟨hashPrevBlock, -, read⟩ := Option.bind_eq_some_iff.mp read
  obtain ⟨hashMerkleRoot, root, -⟩ := Option.bind_eq_some_iff.mp read
  obtain ⟨rootBytes, cut, filled⟩ := Option.bind_eq_some_iff.mp root
  have length := length_of_iterators cut
  rw [BaseUint.setBytes] at filled
  split at filled
  · cases filled
  · omega

/-- A payload is read as the block it was made of, whatever stands behind the merkle root. -/
theorem deserializeBlock_eq_some_iff (DATA : Bytes) (BLOCK : CBlock) :
    deserializeBlock DATA = some BLOCK ↔ ∃ surplus, DATA = blockData BLOCK surplus := by
  constructor
  · intro read
    obtain ⟨other, surplus, rfl⟩ := exists_blockData (enough_of_deserializeBlock read)
    rw [deserializeBlock_blockData] at read
    exact ⟨surplus, Option.some.inj read ▸ rfl⟩
  · rintro ⟨surplus, rfl⟩
    exact deserializeBlock_blockData BLOCK surplus

/-! ## Requests -/

inductive DaemonRequest where
  | getBlock
  | getHeight
  | getReward
  | getRound
  | clearMaps
  | ping
  | setChannel (nChannel : UInt32)
  | setCoinbase (cGlobalCoinbase : Coinbase)
  | checkBlock (hashBlock : Uint1024)
  | submitBlock (hashMerkleRoot : Uint512) (nNonce : UInt64)

namespace DaemonRequest

def getPacket (HEADER : UInt8) : Packet := { Packet.null with HEADER }

def packet : DaemonRequest → Packet
  | .getBlock => getPacket 129
  | .getHeight => getPacket 130
  | .getReward => getPacket 131
  | .getRound => getPacket 133
  | .clearMaps => getPacket 132
  | .ping => getPacket 253
  | .setChannel nChannel => { getPacket 3 with LENGTH := 4, DATA := uint2bytes nChannel }
  | .setCoinbase cGlobalCoinbase =>
      let DATA := cGlobalCoinbase.serialize
      { getPacket 5 with LENGTH := DATA.length.toUInt32, DATA }
  | .checkBlock hashBlock =>
      let DATA := hashBlock.getBytes
      { getPacket 64 with LENGTH := DATA.length.toUInt32, DATA }
  | .submitBlock hashMerkleRoot nNonce =>
      { getPacket 1 with LENGTH := 72, DATA := hashMerkleRoot.getBytes ++ uint2bytes64 nNonce }

/-- The length of a coinbase fits in the length of a packet. -/
def Fits : DaemonRequest → Prop
  | .setCoinbase cGlobalCoinbase => cGlobalCoinbase.serialize.length < 2 ^ 32
  | _ => True

instance (request : DaemonRequest) : Decidable request.Fits :=
  match request with
  | .setCoinbase _ => inferInstanceAs (Decidable (_ < _))
  | .getBlock | .getHeight | .getReward | .getRound | .clearMaps | .ping | .setChannel _ | .checkBlock _
  | .submitBlock _ _ => isTrue trivial

theorem wellFormed_packet {request : DaemonRequest} (fits : request.Fits) : request.packet.WellFormed := by
  cases request with
  | setChannel nChannel => exact Or.inl ⟨(by decide : (3 : UInt8) < 128), (by decide : 1 ≤ 4), rfl⟩
  | setCoinbase cGlobalCoinbase =>
      refine Or.inl ⟨(by decide : (5 : UInt8) < 128), Nat.succ_le_succ (Nat.zero_le _), ?_⟩
      exact (Nat.mod_eq_of_lt fits).symm
  | checkBlock hashBlock =>
      have length : hashBlock.getBytes.length = 128 := BaseUint.length_getBytes _
      refine Or.inl ⟨(by decide : (64 : UInt8) < 128), ?_, ?_⟩
      · show 1 ≤ hashBlock.getBytes.length
        omega
      · show hashBlock.getBytes.length = hashBlock.getBytes.length.toUInt32.toNat
        rw [length]
        rfl
  | submitBlock hashMerkleRoot nNonce =>
      have length : (hashMerkleRoot.getBytes ++ uint2bytes64 nNonce).length = 72 := by
        rw [List.length_append, BaseUint.length_getBytes, length_uint2bytes64]
      refine Or.inl ⟨(by decide : (1 : UInt8) < 128), ?_, length⟩
      show 1 ≤ (hashMerkleRoot.getBytes ++ uint2bytes64 nNonce).length
      omega
  | _ => exact Or.inr ⟨by decide, by decide, rfl, rfl⟩

/-- A daemon that reads packets the way the pool does gets the requests in order, whatever arrives when. -/
theorem requests_delivered {available : Nat → Nat} (reports : Reports available) (requests : List DaemonRequest)
    (fit : ∀ request ∈ requests, request.Fits) (schedule : List Arrivals) :
    let stream := requests.flatMap fun request => request.packet.getBytes
    let receiver := (Receiver.start stream).visits available schedule
    receiver.delivered <+: requests.map packet ∧
      (receiver.connection.SOCKET.inFlight = [] → ∀ further : List Arrivals,
        receiver.connection.SOCKET.stream.length ≤ further.length →
          (receiver.visits available further).delivered = requests.map packet) := by
  intro stream receiver
  have wellFormed : ∀ sent ∈ requests.map packet, sent.WellFormed := by
    intro sent member
    obtain ⟨request, listed, rfl⟩ := List.mem_map.mp member
    exact wellFormed_packet (fit request listed)
  have bytes : stream = (requests.map packet).flatMap Packet.getBytes := (List.flatMap_map packet Packet.getBytes requests).symm
  have inOrder : receiver.InOrder (requests.map packet) := by
    have start := Receiver.inOrder_start (requests.map packet)
    rw [← bytes] at start
    exact start.visits reports wellFormed schedule
  obtain ⟨rest, split, -⟩ := inOrder.reading
  refine ⟨⟨rest, split.symm⟩, fun arrived further enough => ?_⟩
  rw [inOrder.visits_finished reports wellFormed arrived enough]

theorem requests_delivered_submission :
    let requests : List DaemonRequest := [.setChannel 2, .getBlock, .submitBlock (.ofUInt64 5) 9]
    let stream := requests.flatMap fun request => request.packet.getBytes
    let receiver := (Receiver.start stream).visits (fun nBytes => min nBytes (2 ^ 31 - 1)) [⟨1, 3, 200⟩]
    (receiver.visits (fun nBytes => min nBytes (2 ^ 31 - 1)) (List.replicate 87 ⟨0, 0, 0⟩)).delivered =
      requests.map packet := by
  intro requests stream receiver
  have delivered := (requests_delivered Receiver.reports_int requests (by decide) [⟨1, 3, 200⟩]).2
  exact delivered (by decide +kernel) (List.replicate 87 ⟨0, 0, 0⟩) (by decide +kernel)

end DaemonRequest

end LLP

end PrimePool

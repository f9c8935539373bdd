import PrimePool.Hash.Memory
import PrimePool.LLP.LiveBlocks
import PrimePool.LLP.PoolPackets

/-!
# Blocks and shares as bytes

`SerializeBlock` writes a block for the miner, who sends its hash back with a nonce. `SK1024` is a hash of the bytes
of the header as they lie in memory.
-/

namespace PrimePool

namespace Core

/-- From `BEGIN(nVersion)` to `END(nBits)`: the nonce is behind them. -/
def CBlock.header (BLOCK : CBlock) : Bytes :=
  bytesInMemory BLOCK.nVersion ++ BLOCK.hashPrevBlock.bytesInMemory ++ BLOCK.hashMerkleRoot.bytesInMemory ++
    bytesInMemory BLOCK.nChannel ++ bytesInMemory BLOCK.nHeight ++ bytesInMemory BLOCK.nBits

def CBlock.getHash (SK1024 : Bytes → Uint1024) (BLOCK : CBlock) : Uint1024 := SK1024 BLOCK.header

end Core

namespace LLP

open PrimePool.Core PrimePool.General Std

variable (SK1024 : Bytes → Uint1024)

def serializeBlock (nMinimumShare : UInt64) (BLOCK : CBlock) : Bytes :=
  (BLOCK.getHash SK1024).getBytes ++ uint2bytes nMinimumShare.toUInt32 ++ uint2bytes BLOCK.nBits ++
    uint2bytes BLOCK.nHeight

/-- The data of a `SUBMIT_SHARE` for a block that was sent. -/
def shareData (nMinimumShare : UInt64) (BLOCK : CBlock) (nNonce : UInt64) : Bytes :=
  (serializeBlock SK1024 nMinimumShare BLOCK).take 128 ++ uint2bytes64 nNonce

/-! ## Decoding -/

variable {SK1024} (nMinimumShare : UInt64) (BLOCK : CBlock) (nNonce : UInt64)

theorem shareData_eq : shareData SK1024 nMinimumShare BLOCK nNonce =
    (BLOCK.getHash SK1024).getBytes ++ uint2bytes64 nNonce := by
  have length : (BLOCK.getHash SK1024).getBytes.length = 128 := BaseUint.length_getBytes _
  rw [shareData, serializeBlock, List.append_assoc, List.append_assoc, ← length, List.take_left]

theorem decodeOrigin_shareData :
    decodeOrigin (shareData SK1024 nMinimumShare BLOCK nNonce) = some (BLOCK.getHash SK1024) := by
  have length : (BLOCK.getHash SK1024).getBytes.length = 128 := BaseUint.length_getBytes _
  have cut : iterators (shareData SK1024 nMinimumShare BLOCK nNonce) 0
      ((shareData SK1024 nMinimumShare BLOCK nNonce).length - 8) = some (BLOCK.getHash SK1024).getBytes := by
    rw [shareData_eq, List.length_append, length, length_uint2bytes64]
    exact slice_eq [] (uint2bytes64 nNonce) (by simp) rfl (by rw [length]; rfl)
  rw [decodeOrigin, cut]
  exact BaseUint.setBytes_getBytes _

theorem decodeNonce_shareData : decodeNonce (shareData SK1024 nMinimumShare BLOCK nNonce) = some nNonce := by
  have length : (BLOCK.getHash SK1024).getBytes.length = 128 := BaseUint.length_getBytes _
  have cut : iterators (shareData SK1024 nMinimumShare BLOCK nNonce)
      ((shareData SK1024 nMinimumShare BLOCK nNonce).length - 8)
      (shareData SK1024 nMinimumShare BLOCK nNonce).length = some (uint2bytes64 nNonce) := by
    rw [shareData_eq, List.length_append, length, length_uint2bytes64]
    exact slice_eq (BLOCK.getHash SK1024).getBytes [] (by simp) (by rw [length]; rfl) (by rw [length]; rfl)
  have number : bytes2uint64 (uint2bytes64 nNonce) 0 = nNonce := bytes2uint64_eq [] [] (by simp) rfl
  rw [decodeNonce, cut, Option.map_some, number]

/-! ## The map of a connection -/

def PoolConnection.Keyed (SK1024 : Bytes → Uint1024) (connection : PoolConnection) : Prop :=
  ∀ (hashBlock : Uint1024) (BLOCK : HeapBlock), connection.MAP_BLOCKS[hashBlock]? = some BLOCK →
    BLOCK.BLOCK.getHash SK1024 = hashBlock

namespace PoolConnection

variable {connection : PoolConnection}

theorem keyed_new : Keyed SK1024 .new := fun _ _ found => by simp [new] at found

theorem keyed_clear (connection : PoolConnection) : Keyed SK1024 connection.clear := fun _ _ found => by simp [clear] at found

theorem Keyed.sendBlocks (keyed : connection.Keyed SK1024) :
    (connection.sendBlocks (CBlock.getHash SK1024)).Keyed SK1024 := by
  intro hashBlock BLOCK found
  simp only [PoolConnection.sendBlocks] at found
  rcases getElem?_foldl_insert (fun BLOCK : HeapBlock => BLOCK.BLOCK.getHash SK1024) connection.NEW_BLOCKS
    connection.MAP_BLOCKS hashBlock with ⟨pushed, -, same, sent⟩ | ⟨-, kept⟩
  · rw [sent] at found
    exact Option.some.inj found ▸ same
  · exact keyed hashBlock BLOCK (kept ▸ found)

theorem Keyed.generic (keyed : connection.Keyed SK1024) (fSubmittingBlock : Bool) :
    (connection.generic (CBlock.getHash SK1024) fSubmittingBlock).Keyed SK1024 := by
  unfold PoolConnection.generic
  split
  · split
    · exact keyed
    · have cleared : Keyed SK1024 { connection.clear with fNewBlock := false } := keyed_clear connection
      exact cleared.sendBlocks
  · exact keyed.sendBlocks

theorem Keyed.submitBlock (keyed : connection.Keyed SK1024) (hashPrimeOrigin : Uint1024) (nNonce : UInt64) :
    (connection.submitBlock hashPrimeOrigin nNonce).Keyed SK1024 := by
  intro hashBlock BLOCK found
  simp only [PoolConnection.submitBlock, ExtTreeMap.getElem?_modify] at found
  split at found
  · rename_i same
    obtain ⟨before, stored, rfl⟩ := Option.map_eq_some_iff.mp found
    rw [LawfulEqCmp.compare_eq_iff_eq.mp same] at stored
    exact keyed hashBlock before stored
  · exact keyed hashBlock BLOCK found

theorem Keyed.scan (keyed : connection.Keyed SK1024) : connection.scan.Keyed SK1024 := by
  unfold PoolConnection.scan
  split <;> exact keyed

end PoolConnection

theorem LiveState.keyed_step {s after : LiveState} {event : BlockEvent} (keyed : s.connection.Keyed SK1024)
    (taken : s.step (CBlock.getHash SK1024) event = some after) : after.connection.Keyed SK1024 := by
  cases event with
  | newBlock | getBlock | blockData => exact Option.some.inj taken ▸ keyed
  | generic fSubmittingBlock => exact Option.some.inj taken ▸ keyed.generic fSubmittingBlock
  | submitShare hashPrimeOrigin nNonce =>
      simp only [step] at taken
      split at taken
      · exact Option.some.inj taken ▸ keyed.submitBlock hashPrimeOrigin nNonce
      · exact Option.some.inj taken ▸ keyed
  | scan => exact Option.some.inj taken ▸ keyed.scan

/-- The data for a block of the map and a nonce is decoded to the key of the block and to the nonce. -/
def SharesFound (SK1024 : Bytes → Uint1024) (connection : PoolConnection) : Prop :=
  ∀ (hashBlock : Uint1024) (BLOCK : HeapBlock), connection.MAP_BLOCKS[hashBlock]? = some BLOCK →
    ∀ nMinimumShare nNonce : UInt64,
      let DATA := shareData SK1024 nMinimumShare BLOCK.BLOCK nNonce
      decodeOrigin DATA = some (BLOCK.BLOCK.getHash SK1024) ∧ decodeNonce DATA = some nNonce ∧
        connection.MAP_BLOCKS[BLOCK.BLOCK.getHash SK1024]? = some BLOCK

theorem PoolConnection.Keyed.sharesFound {connection : PoolConnection} (keyed : connection.Keyed SK1024) :
    SharesFound SK1024 connection := by
  intro hashBlock BLOCK found nMinimumShare nNonce
  refine ⟨decodeOrigin_shareData .., decodeNonce_shareData .., ?_⟩
  rw [keyed hashBlock BLOCK found]
  exact found

theorem sent_blocks_found (SK1024 : Bytes → Uint1024) (events : List BlockEvent) :
    EachStep (LiveState.step (CBlock.getHash SK1024)) (fun _ _ after => SharesFound SK1024 after.connection) events
        .start ∧
      (∀ (width : Nat) (x : BaseUint width), BaseUint.setBytes width x.getBytes = some x) ∧
      ∀ (width : Nat) (data : Vector UInt8 (4 * width)),
        (BaseUint.setBytes width data.toList).map BaseUint.getBytes = some data.toList := by
  refine ⟨?_, fun _ => BaseUint.setBytes_getBytes, fun _ => BaseUint.getBytes_setBytes⟩
  apply eachStep_of_invariant (fun s => s.connection.Keyed SK1024) _ events PoolConnection.keyed_new
  intro s event after keyed taken
  have kept := LiveState.keyed_step keyed taken
  exact ⟨kept, kept.sharesFound⟩

def lastBytes (vch : Bytes) : Uint1024 := (BaseUint.setBytes 32 (vch.drop (vch.length - 128))).getD (.ofUInt64 0)

def sentBlock : List BlockEvent := [.getBlock, .scan, .blockData (sampleBlock 5 7), .generic false]

/-- A block is sent, and a share of it finds it again. -/
theorem sentBlock_found :
    EachStep (LiveState.step (CBlock.getHash lastBytes)) (fun _ _ after => SharesFound lastBytes after.connection)
        sentBlock .start ∧
      ((sentBlock.foldlM (LiveState.step (CBlock.getHash lastBytes)) .start).bind fun s =>
          (decodeOrigin (shareData lastBytes 45000000 (sampleBlock 5 7) 9)).bind (s.connection.findBlock 5)) =
        some { object := 0, BLOCK := sampleBlock 5 7 } :=
  ⟨(sent_blocks_found lastBytes sentBlock).1, by decide +kernel⟩

end LLP

end PrimePool

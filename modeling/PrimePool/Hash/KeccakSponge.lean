import PrimePool.General.Loop
import PrimePool.General.Sponge
import PrimePool.Hash.KeccakF1600

/-!
# The Keccak sponge

`hash/KeccakSponge.cpp` and `hash/KeccakHash.cpp`. Whole blocks go through a fast lane, what is left of the data through
the state a lane at a time; the part of the data that goes through in one turn is an `unsigned int`. A call that returns
1 is `none`.
-/

namespace PrimePool.Keccak
open General

structure SpongeInstance where
  state : State
  rate : Nat
  byteIOIndex : Nat
  squeezing : Bool

def laneInBytes : Nat := 8

def spongeInitialize (rate capacity : Nat) : Option SpongeInstance :=
  if (rate + capacity) % 2 ^ 32 ≠ 1600 then none
  else if rate = 0 ∨ 1600 < rate ∨ rate % 8 ≠ 0 then none
  else some ⟨stateInitialize, rate, 0, false⟩

namespace SpongeInstance

def rateInBytes (sponge : SpongeInstance) : Nat := sponge.rate / 8

/-! ## Absorbing -/

/-- One turn of the loop over the whole blocks, and the data after it. -/
def absorbWholeBlock (rateInBytes : Nat) : State × Bytes → Option (State × Bytes)
  | (state, curData) =>
      if rateInBytes ≤ curData.length then
        let lanes := rateInBytes / laneInBytes
        let state :=
          if 0 < rateInBytes % laneInBytes then
            stateXORBytesInLane state lanes (curData.drop (lanes * laneInBytes)) 0 (rateInBytes % laneInBytes)
          else state
        some (stateXORPermute state curData lanes, curData.drop rateInBytes)
      else none

/-- One turn of the loop over the lanes that are touched: the state, the position and the data after it. -/
def absorbLane : State × Nat × Bytes → Option (State × Nat × Bytes)
  | (state, byteIOIndex, curData) =>
      if curData = [] then none
      else
        let offsetInLane := byteIOIndex % laneInBytes
        let bytesInLane := min (laneInBytes - offsetInLane) curData.length
        some (stateXORBytesInLane state (byteIOIndex / laneInBytes) curData offsetInLane bytesInLane,
          byteIOIndex + bytesInLane, curData.drop bytesInLane)

/-- How many bytes the message queue takes in one turn. -/
def partialBlock (sponge : SpongeInstance) (left : Nat) : Nat :=
  let partialBlock := left % 2 ^ 32
  if sponge.rateInBytes < (partialBlock + sponge.byteIOIndex) % 2 ^ 32 then sponge.rateInBytes - sponge.byteIOIndex
  else partialBlock

def absorbQueue (sponge : SpongeInstance) (data : Bytes) : Option SpongeInstance :=
  let lanes := data.length / laneInBytes
  let (state, byteIOIndex, curData) :=
    if sponge.byteIOIndex = 0 ∧ laneInBytes ≤ data.length then
      (stateXORLanes sponge.state data lanes, lanes * laneInBytes, data.drop (lanes * laneInBytes))
    else (sponge.state, sponge.byteIOIndex, data)
  (loop absorbLane (data.length + 1) (state, byteIOIndex, curData)).map fun (state, byteIOIndex, _) =>
    if byteIOIndex = sponge.rateInBytes then { sponge with state := statePermute state, byteIOIndex := 0 }
    else { sponge with state, byteIOIndex }

/-- One turn of the outer loop. -/
def absorbTurn : SpongeInstance × Bytes → Option (SpongeInstance × Bytes)
  | (sponge, curData) =>
      if curData = [] then none
      else if sponge.byteIOIndex = 0 ∧ sponge.rateInBytes ≤ curData.length then
        (loop (absorbWholeBlock sponge.rateInBytes) (curData.length + 1) (sponge.state, curData)).map
          fun (state, curData) => ({ sponge with state }, curData)
      else
        let part := sponge.partialBlock curData.length
        (sponge.absorbQueue (curData.take part)).map fun sponge => (sponge, curData.drop part)

def absorb (sponge : SpongeInstance) (data : Bytes) : Option SpongeInstance :=
  if sponge.squeezing then none else (loop absorbTurn (data.length + 1) (sponge, data)).map Prod.fst

def absorbLastFewBits (sponge : SpongeInstance) (delimitedData : UInt8) : Option SpongeInstance :=
  if delimitedData = 0 then none
  else if sponge.squeezing then none
  else
    let state := stateXORBytesInLane sponge.state (sponge.byteIOIndex / laneInBytes) [delimitedData]
      (sponge.byteIOIndex % laneInBytes) 1
    let state :=
      if 0x80 ≤ delimitedData ∧ sponge.byteIOIndex = sponge.rateInBytes - 1 then statePermute state else state
    let state := stateComplementBit state (sponge.rateInBytes * 8 - 1)
    some { sponge with state := statePermute state, byteIOIndex := 0, squeezing := true }

/-! ## Squeezing -/

/-- One turn of the loop over the whole blocks: the state, what was given out and how much is left to give out. -/
def squeezeWholeBlock (rateInBytes : Nat) : State × Bytes × Nat → Option (State × Bytes × Nat)
  | (state, data, left) =>
      if rateInBytes ≤ left then
        let lanes := rateInBytes / laneInBytes
        let state := statePermute state
        let rest :=
          if 0 < rateInBytes % laneInBytes then stateExtractBytesInLane state lanes 0 (rateInBytes % laneInBytes) else []
        some (state, data ++ (stateExtractLanes state lanes ++ rest), left - rateInBytes)
      else none

def squeezeLane (state : State) : Nat × Bytes × Nat → Option (Nat × Bytes × Nat)
  | (byteIOIndex, data, left) =>
      if left = 0 then none
      else
        let offsetInLane := byteIOIndex % laneInBytes
        let bytesInLane := min (laneInBytes - offsetInLane) left
        some (byteIOIndex + bytesInLane,
          data ++ stateExtractBytesInLane state (byteIOIndex / laneInBytes) offsetInLane bytesInLane,
          left - bytesInLane)

def squeezeQueue (sponge : SpongeInstance) (count : Nat) : Option (SpongeInstance × Bytes) :=
  let lanes := count / laneInBytes
  let start :=
    if sponge.byteIOIndex = 0 ∧ laneInBytes ≤ count then
      (lanes * laneInBytes, stateExtractLanes sponge.state lanes, count - lanes * laneInBytes)
    else (sponge.byteIOIndex, [], count)
  (loop (squeezeLane sponge.state) (count + 1) start).map fun (byteIOIndex, data, _) =>
    ({ sponge with byteIOIndex }, data)

/-- One turn of the outer loop: what was given out, and how much is left to give out. -/
def squeezeTurn : SpongeInstance × Bytes × Nat → Option (SpongeInstance × Bytes × Nat)
  | (sponge, data, left) =>
      if left = 0 then none
      else if sponge.byteIOIndex = sponge.rateInBytes ∧ sponge.rateInBytes ≤ left then
        (loop (squeezeWholeBlock sponge.rateInBytes) (left + 1) (sponge.state, data, left)).map
          fun (state, data, left) => ({ sponge with state }, data, left)
      else
        let sponge :=
          if sponge.byteIOIndex = sponge.rateInBytes then
            { sponge with state := statePermute sponge.state, byteIOIndex := 0 }
          else sponge
        let part := sponge.partialBlock left
        (sponge.squeezeQueue part).map fun (sponge, more) => (sponge, data ++ more, left - part)

def squeeze (sponge : SpongeInstance) (dataByteLen : Nat) : Option (SpongeInstance × Bytes) :=
  let sponge := if sponge.squeezing then sponge else (sponge.absorbLastFewBits 0x01).getD sponge
  (loop squeezeTurn (dataByteLen + 1) (sponge, [], dataByteLen)).map fun (sponge, data, _) => (sponge, data)

end SpongeInstance

/-! ## Hashing -/

structure HashInstance where
  sponge : SpongeInstance
  fixedOutputLength : Nat
  delimitedSuffix : UInt8

def hashInitialize (rate capacity hashbitlen : Nat) (delimitedSuffix : UInt8) : Option HashInstance :=
  if delimitedSuffix = 0 then none
  else (spongeInitialize rate capacity).map fun sponge => ⟨sponge, hashbitlen, delimitedSuffix⟩

/-- Of a last byte that is not whole, the bits are the least significant ones. -/
def hashUpdate (hash : HashInstance) (data : Bytes) (databitlen : Nat) : Option HashInstance :=
  (hash.sponge.absorb (data.take (databitlen / 8))).bind fun sponge =>
    if databitlen % 8 = 0 then some { hash with sponge }
    else
      let lastByte := data.getD (databitlen / 8) 0
      let delimitedLastBytes : UInt16 :=
        lastByte.toUInt16 ||| (hash.delimitedSuffix.toUInt16 <<< (databitlen % 8).toUInt16)
      if delimitedLastBytes &&& 0xFF00 = 0 then
        some { hash with sponge, delimitedSuffix := (delimitedLastBytes &&& 0xFF).toUInt8 }
      else
        (sponge.absorb [(delimitedLastBytes &&& 0xFF).toUInt8]).map fun sponge =>
          { hash with sponge, delimitedSuffix := ((delimitedLastBytes >>> 8) &&& 0xFF).toUInt8 }

def hashFinal (hash : HashInstance) : Option Bytes :=
  ((hash.sponge.absorbLastFewBits hash.delimitedSuffix).bind fun sponge =>
    sponge.squeeze (hash.fixedOutputLength / 8)).map Prod.snd

end PrimePool.Keccak

import PrimePool.Hash.LittleEndian

/-!
# The Keccak-f permutation

`hash/Keccak-compact64.cpp`: the state is 200 bytes, or the 25 lanes of 64 bits that lie in them. The permutation works
on the lanes, the sponge on the bytes. The bytes are those of a little-endian memory.
-/

namespace PrimePool.Keccak

abbrev Lanes : Type := Vector UInt64 25

abbrev State : Type := Vector UInt8 (8 * 25)

def rol64 (a offset : UInt64) : UInt64 := (a <<< offset) ^^^ (a >>> (64 - offset))

def rotationConstants : Vector UInt64 24 :=
  #v[1, 3, 6, 10, 15, 21, 28, 36, 45, 55, 2, 14, 27, 41, 56, 8, 25, 43, 62, 18, 39, 61, 20, 44]

def piLane : Vector (Fin 25) 24 :=
  #v[10, 7, 11, 17, 18, 3, 5, 16, 8, 21, 24, 4, 15, 23, 19, 13, 12, 2, 20, 14, 22, 9, 6, 1]

/-! ## The state -/

def stateInitialize : State := Vector.replicate _ 0

def xorBytes (state : State) (start : Nat) (data : Bytes) : State :=
  Vector.ofFn fun i =>
    if start ≤ i.val ∧ i.val < start + data.length then state.get i ^^^ data.getD (i.val - start) 0 else state.get i

def stateXORBytesInLane (state : State) (lanePosition : Nat) (data : Bytes) (offset length : Nat) : State :=
  xorBytes state (lanePosition * 8 + offset) (data.take length)

def stateXORLanes (state : State) (data : Bytes) (laneCount : Nat) : State := xorBytes state 0 (data.take (laneCount * 8))

def stateComplementBit (state : State) (position : Nat) : State :=
  let lanes := wordsOf state
  bytesOf (Vector.ofFn fun i =>
    if i.val = position / 64 then lanes.get i ^^^ ((1 : UInt64) <<< (position % 64).toUInt64) else lanes.get i)

def stateExtractBytesInLane (state : State) (lanePosition offset length : Nat) : Bytes :=
  (state.toList.drop (lanePosition * 8 + offset)).take length

def stateExtractLanes (state : State) (laneCount : Nat) : Bytes := state.toList.take (laneCount * 8)

/-! ## The permutation -/

/-- One turn of the loop: the round constant so far and the register, of which the lower eight bits count. -/
def lfsrStep (s : UInt64 × UInt32) (i : UInt64) : UInt64 × UInt32 :=
  let doXOR := s.2 &&& 1
  let tempLSFR := if s.2 &&& 0x80 ≠ 0 then (s.2 <<< 1) ^^^ 0x71 else s.2 <<< 1
  (if doXOR ≠ 0 then s.1 ^^^ ((1 : UInt64) <<< (i - 1)) else s.1, tempLSFR)

def getNextRoundConstant (LFSR : UInt8) : UInt64 × UInt8 :=
  let (roundConstant, tempLSFR) := [1, 2, 4, 8, 16, 32, 64].foldl lfsrStep (0, LFSR.toUInt32)
  (roundConstant, tempLSFR.toUInt8)

def columns (state : Lanes) : Vector UInt64 5 :=
  Vector.ofFn fun x => state.get ⟨x.val, by omega⟩ ^^^ state.get ⟨5 + x.val, by omega⟩ ^^^
    state.get ⟨10 + x.val, by omega⟩ ^^^ state.get ⟨15 + x.val, by omega⟩ ^^^ state.get ⟨20 + x.val, by omega⟩

def column (i : Fin 25) : Fin 5 := ⟨i.val % 5, Nat.mod_lt _ (by decide)⟩

def theta (state : Lanes) : Lanes :=
  let BC := columns state
  Vector.ofFn fun i => state.get i ^^^ (BC.get (column i + 4) ^^^ rol64 (BC.get (column i + 1)) 1)

/-- One turn of the loop over the lanes: the lane that was carried is written, the one that was there is carried on. -/
def rhoPiStep (s : Lanes × UInt64) (x : Fin 24) : Lanes × UInt64 :=
  let lane := piLane.get x
  (s.1.set lane (rol64 s.2 (rotationConstants.get x)) lane.isLt, s.1.get lane)

def rhoPi (state : Lanes) : Lanes := ((List.finRange 24).foldl rhoPiStep (state, state.get 1)).1

def row (state : Lanes) (i : Fin 25) (x : Fin 5) : UInt64 := state.get ⟨i.val / 5 * 5 + x.val, by omega⟩

def chi (state : Lanes) : Lanes :=
  Vector.ofFn fun i =>
    row state i (column i) ^^^ (~~~ row state i (column i + 1) &&& row state i (column i + 2))

def iota (state : Lanes) (roundConstant : UInt64) : Lanes :=
  state.set 0 (state.get 0 ^^^ roundConstant) (by decide)

def round (s : Lanes × UInt8) : Lanes × UInt8 :=
  let (roundConstant, LFSR) := getNextRoundConstant s.2
  (iota (chi (rhoPi (theta s.1))) roundConstant, LFSR)

def numberOfRounds : Nat := 24

def permuteLanes (state : Lanes) : Lanes := (round^[numberOfRounds] (state, 1)).1

def statePermute (state : State) : State := bytesOf (permuteLanes (wordsOf state))

def stateXORPermute (state : State) (data : Bytes) (laneCount : Nat) : State :=
  statePermute (stateXORLanes state data laneCount)

end PrimePool.Keccak

import PrimePool.General.Bits
import PrimePool.Hash.SpongeStreams

/-!
# Padding

What `Keccak_SpongeAbsorbLastFewBits` takes in, as bits, is the bits of its byte below the delimiter, then `1`, the
fewest zeros that fill the block up, and `1`.
-/

namespace PrimePool.Keccak
open General

def bits (data : Bytes) : List Bool := data.flatMap fun byte => bitsOf 8 byte.toNat

theorem bits_append (first second : Bytes) : bits (first ++ second) = bits first ++ bits second :=
  List.flatMap_append

@[simp] theorem length_bits (data : Bytes) : (bits data).length = 8 * data.length := by
  induction data with
  | nil => rfl
  | cons byte data ih =>
      rw [bits, List.flatMap_cons, List.length_append, length_bitsOf, ← bits, ih, List.length_cons]
      omega

theorem bits_zeros (count : Nat) : bits (List.replicate count 0) = List.replicate (8 * count) false := by
  induction count with
  | zero => rfl
  | succ count ih =>
      have zero : bitsOf 8 (0 : UInt8).toNat = List.replicate 8 false := bitsOf_zero 8
      rw [List.replicate_succ, bits, List.flatMap_cons, ← bits, ih, zero, List.replicate_append_replicate]
      congr 1
      omega

theorem bits_injective : Function.Injective bits := by
  intro first second same
  induction first generalizing second with
  | nil =>
      have length := congrArg List.length same
      rw [length_bits, length_bits] at length
      exact (List.eq_nil_of_length_eq_zero (by simpa using length.symm)).symm
  | cons byte first ih =>
      cases second with
      | nil =>
          have length := congrArg List.length same
          rw [length_bits, length_bits, List.length_cons] at length
          simp only [List.length_nil] at length
          omega
      | cons byte' second =>
          have cut := List.append_inj same (by rw [length_bitsOf, length_bitsOf])
          have value := bitsOf_injective byte.toNat_lt byte'.toNat_lt cut.1
          rw [UInt8.toNat_inj.mp value, ih cut.2]

theorem bits_take {data : Bytes} {count : Nat} (enough : count ≤ 8 * data.length) :
    (bits data).take count =
      bits (data.take (count / 8)) ++ bitsOf (count % 8) (data.getD (count / 8) 0).toNat := by
  have divided := Nat.div_add_mod count 8
  have whole : (bits (data.take (count / 8))).length = 8 * (count / 8) := by
    rw [length_bits, List.length_take]
    omega
  have cut : (bits data).take count =
      (bits (data.take (count / 8)) ++ bits (data.drop (count / 8))).take
        ((bits (data.take (count / 8))).length + count % 8) := by
    rw [← bits_append, List.take_append_drop, whole, divided]
  rw [cut, List.take_length_add_append]
  congr 1
  by_cases none : count % 8 = 0
  · rw [none]
    rfl
  · have inside : count / 8 < data.length := by omega
    have small : count % 8 ≤ 8 := by omega
    rw [List.drop_eq_getElem_cons inside, bits, List.flatMap_cons, List.take_append_of_le_length (by simpa using small),
      List.getD_eq_getElem _ _ inside, bitsOf_cut _ small, List.take_left' (length_bitsOf _ _)]

/-! ## The bits of the padding -/

def pad101 (rate length : Nat) : List Bool :=
  true :: (List.replicate ((rate - (length + 2) % rate) % rate) false ++ [true])

def padding (rateInBytes index : Nat) (delimitedData : UInt8) : Bytes :=
  if index + 1 < rateInBytes then delimitedData :: (List.replicate (rateInBytes - (index + 2)) 0 ++ [0x80])
  else if delimitedData < 0x80 then [delimitedData ^^^ 0x80]
  else delimitedData :: (List.replicate (rateInBytes - 1) 0 ++ [0x80])

theorem last_bit : bitsOf 8 (0x80 : UInt8).toNat = List.replicate 7 false ++ [true] := by decide

theorem bits_singleton (byte : UInt8) : bits [byte] = bitsOf 8 byte.toNat := List.append_nil _

theorem bits_cons (byte : UInt8) (data : Bytes) : bits (byte :: data) = bitsOf 8 byte.toNat ++ bits data := rfl

theorem bits_zeros_last (count : Nat) :
    bits (List.replicate count 0 ++ [0x80]) = List.replicate (8 * count + 7) false ++ [true] := by
  rw [bits_append, bits_zeros, bits_singleton, last_bit, ← List.append_assoc, List.replicate_append_replicate]

/-- The delimiter and the last bit of the block fall into one byte. -/
theorem bits_delimited {delimitedData : UInt8} (small : delimitedData < 0x80) :
    bits [delimitedData ^^^ 0x80] = bitsOf 7 delimitedData.toNat ++ [true] := by
  have low : ∀ k : Fin 128, k.val ^^^ 128 = k.val + 2 ^ 7 * 1 := by decide
  have below : delimitedData.toNat < 2 ^ 7 := UInt8.lt_iff_toNat_lt.mp small
  have sum : (delimitedData ^^^ 0x80).toNat = delimitedData.toNat + 2 ^ 7 * 1 := by
    rw [UInt8.toNat_xor]
    exact low ⟨delimitedData.toNat, below⟩
  have carried : (delimitedData.toNat + 2 ^ 7 * 1) / 2 ^ 7 = 1 := by omega
  rw [bits_singleton, sum, bitsOf_add 7 1, bitsOf_congr (Nat.add_mul_mod_self_left _ _ _), carried]
  rfl

theorem bits_padding {rateInBytes : Nat} (positive : 0 < rateInBytes) (before : Nat) {delimitedData : UInt8}
    (some : delimitedData ≠ 0) :
    bits (padding rateInBytes (before % rateInBytes) delimitedData) =
      bitsBelowTop delimitedData.toNat ++ pad101 (8 * rateInBytes) (8 * before + delimitedData.toNat.log2) := by
  have nonzero : delimitedData.toNat ≠ 0 := fun zero => some (UInt8.toNat_inj.mp zero)
  have high : delimitedData.toNat.log2 < 8 := (Nat.log2_lt nonzero).mpr delimitedData.toNat_lt
  have inside := Nat.mod_lt before positive
  have whole : 8 * before = 8 * rateInBytes * (before / rateInBytes) + 8 * (before % rateInBytes) := by
    rw [Nat.mul_assoc, ← Nat.mul_add, Nat.div_add_mod]
  rw [pad101, whole, Nat.add_assoc, Nat.add_assoc, Nat.mul_add_mod, padding]
  generalize before % rateInBytes = index at inside
  split
  · have short : 8 * index + (delimitedData.toNat.log2 + 2) < 8 * rateInBytes := by omega
    have fill : (8 * rateInBytes - (8 * index + (delimitedData.toNat.log2 + 2))) % (8 * rateInBytes) =
        8 - (delimitedData.toNat.log2 + 1) + (8 * (rateInBytes - (index + 2)) + 7) := by
      rw [Nat.mod_eq_of_lt (by omega)]
      omega
    rw [Nat.mod_eq_of_lt short, fill, bits_cons, bits_zeros_last, bitsOf_top nonzero delimitedData.toNat_lt,
      List.append_assoc, List.cons_append, ← List.append_assoc (List.replicate _ _), List.replicate_append_replicate]
  · have last : index = rateInBytes - 1 := by omega
    split
    · rename_i small
      have below : delimitedData.toNat < 2 ^ 7 := UInt8.lt_iff_toNat_lt.mp small
      have low : delimitedData.toNat.log2 < 7 := (Nat.log2_lt nonzero).mpr below
      have fill : (8 * rateInBytes - (8 * index + (delimitedData.toNat.log2 + 2)) % (8 * rateInBytes)) %
          (8 * rateInBytes) = 7 - (delimitedData.toNat.log2 + 1) := by
        by_cases exact' : delimitedData.toNat.log2 = 6
        · have full : 8 * index + (delimitedData.toNat.log2 + 2) = 8 * rateInBytes := by omega
          rw [full, Nat.mod_self, Nat.sub_zero, Nat.mod_self, exact']
        · rw [Nat.mod_eq_of_lt (by omega : 8 * index + (delimitedData.toNat.log2 + 2) < 8 * rateInBytes),
            Nat.mod_eq_of_lt (by omega)]
          omega
      rw [bits_delimited small, fill, bitsOf_top nonzero below, List.append_assoc, List.cons_append]
    · rename_i large
      have above : 2 ^ 7 ≤ delimitedData.toNat := UInt8.le_iff_toNat_le.mp (UInt8.not_lt.mp large)
      have top : delimitedData.toNat.log2 = 7 :=
        (Nat.log2_eq_iff nonzero).mpr ⟨above, delimitedData.toNat_lt⟩
      have beyond : 8 * index + (7 + 2) = 8 * rateInBytes + 1 := by omega
      have fill : (8 * rateInBytes - 1) % (8 * rateInBytes) = 8 * (rateInBytes - 1) + 7 := by
        rw [Nat.mod_eq_of_lt (by omega)]
        omega
      rw [top, beyond, Nat.add_mod_left, Nat.mod_eq_of_lt (by omega : 1 < 8 * rateInBytes), fill, bits_cons,
        bits_zeros_last, bitsOf_top nonzero delimitedData.toNat_lt, top, List.append_assoc]
      rfl

/-! ## The padding in the state -/

theorem storeByte_xor (first second : UInt64) (i : Nat) :
    storeByte (first ^^^ second) i = storeByte first i ^^^ storeByte second i := by
  rw [storeByte, UInt64.shiftRight_xor, UInt64.toUInt8_xor, storeByte, storeByte]

theorem storeByte_bit :
    ∀ byte i : Fin 8,
      storeByte ((1 : UInt64) <<< (8 * byte.val + 7).toUInt64) i.val = if i = byte then 0x80 else 0 := by
  decide

theorem stateComplementBit_eq (state : State) {rateInBytes : Nat} (positive : 0 < rateInBytes) :
    stateComplementBit state (rateInBytes * 8 - 1) = xorBytes state (rateInBytes - 1) [0x80] := by
  have lane : (rateInBytes * 8 - 1) / 64 = (rateInBytes - 1) / 8 := by omega
  have place : (rateInBytes * 8 - 1) % 64 = 8 * ((rateInBytes - 1) % 8) + 7 := by omega
  have bit (k : Nat) := storeByte_bit ⟨(rateInBytes - 1) % 8, Nat.mod_lt _ (by decide)⟩ ⟨k % 8, Nat.mod_lt _ (by decide)⟩
  have stored (k : Nat) (inside : k < 8 * 25) :
      storeByte (wordsOf state)[k / 8] (k % 8) = state[k] := by
    have whole := congrArg (fun bytes : State => bytes[k]) (bytesOf_wordsOf state)
    simpa only [bytesOf, Vector.getElem_ofFn, Vector.get_eq] using whole
  apply Vector.ext
  intro k inside
  simp only [stateComplementBit, getElem_xorBytes, bytesOf, Vector.getElem_ofFn, Vector.get_eq, lane, place,
    List.length_singleton]
  split
  · rename_i same
    rw [storeByte_xor, stored k inside, bit]
    split
    · rename_i last
      have there : k = rateInBytes - 1 := by
        have := Fin.val_eq_of_eq last
        simp only at this
        omega
      have first : k - (rateInBytes - 1) = 0 := by omega
      rw [if_pos (by omega), first]
      rfl
    · rename_i other
      have elsewhere : k ≠ rateInBytes - 1 := by
        rintro rfl
        exact other rfl
      rw [if_neg (by omega), UInt8.xor_zero]
  · rename_i other
    rw [stored k inside, if_neg (by omega)]

theorem xorBytes_xor (state : State) (start : Nat) (first second : UInt8) :
    xorBytes (xorBytes state start [first]) start [second] = xorBytes state start [first ^^^ second] := by
  apply Vector.ext
  intro i inside
  simp only [getElem_xorBytes, List.length_singleton]
  split
  · rename_i there
    have same : i - start = 0 := by omega
    rw [same]
    exact UInt8.xor_assoc _ _ _
  · rfl

theorem xorBytes_zeros (state : State) (start count : Nat) :
    xorBytes state start (List.replicate count 0) = state := by
  apply Vector.ext
  intro i inside
  have zero : (List.replicate count (0 : UInt8)).getD (i - start) 0 = 0 := by
    rw [List.getD_eq_getElem?_getD, List.getElem?_replicate]
    split
    all_goals rfl
  simp only [getElem_xorBytes, zero, UInt8.xor_zero, ite_self]

theorem xorBytes_zeros_last (state : State) (start count : Nat) :
    xorBytes state start (List.replicate count 0 ++ [0x80]) = xorBytes state (start + count) [0x80] := by
  rw [xorBytes_append, xorBytes_zeros, List.length_replicate]

namespace SpongeInstance

theorem absorbLastFewBits_eq {rateInBytes : Nat} (positive : 0 < rateInBytes) {sponge : SpongeInstance}
    (ready : sponge.Absorbing rateInBytes) {delimitedData : UInt8} (some : delimitedData ≠ 0) :
    sponge.absorbLastFewBits delimitedData =
      .some { sponge.absorbed positive (padding rateInBytes sponge.byteIOIndex delimitedData) with
        squeezing := true } := by
  have inside := ready.inside
  have lane : sponge.byteIOIndex / laneInBytes * 8 + sponge.byteIOIndex % laneInBytes = sponge.byteIOIndex :=
    Nat.div_add_mod' sponge.byteIOIndex 8
  have fills {data : Bytes} (state : State) (start : Nat) (fills : start + data.length = rateInBytes)
      (more : data ≠ []) :
      (byteSponge rateInBytes positive).absorbAll ⟨state, start⟩ data =
        ⟨statePermute (xorBytes state start data), 0⟩ := by
    rw [Sponge.absorbAll_fills _ more fills, injectAll_byteSponge]
    rfl
  have ends {data : Bytes} {state : State}
      (taken : (byteSponge rateInBytes positive).absorbAll sponge.wet data = ⟨state, 0⟩) :
      Option.some { sponge with state := state, byteIOIndex := 0, squeezing := true } =
        .some { sponge.absorbed positive data with squeezing := true } := by
    rw [absorbed, taken]
    rfl
  rw [absorbLastFewBits, if_neg some, ready.open', if_neg Bool.false_ne_true]
  simp only [ready.rate, stateXORBytesInLane, lane, List.take_succ_cons, List.take_zero,
    stateComplementBit_eq _ positive]
  apply ends
  rw [padding]
  by_cases short : sponge.byteIOIndex + 1 < rateInBytes
  · have early : ¬ (0x80 ≤ delimitedData ∧ sponge.byteIOIndex = rateInBytes - 1) := fun second => by omega
    have last : sponge.byteIOIndex + 1 + (rateInBytes - (sponge.byteIOIndex + 2)) = rateInBytes - 1 := by omega
    have apart := xorBytes_append sponge.state sponge.byteIOIndex [delimitedData]
      (List.replicate (rateInBytes - (sponge.byteIOIndex + 2)) 0 ++ [0x80])
    rw [xorBytes_zeros_last, List.length_singleton, last] at apart
    rw [if_neg early, if_pos short, ← apart]
    apply fills
    · simp only [List.length_cons, List.length_append, List.length_replicate, List.length_nil]
      omega
    · exact List.cons_ne_nil _ _
  · have there : sponge.byteIOIndex = rateInBytes - 1 := by omega
    have single (byte : UInt8) := @fills [byte] sponge.state sponge.byteIOIndex
      (by rw [List.length_singleton]; omega) (List.cons_ne_nil _ _)
    rw [if_neg short]
    by_cases small : delimitedData < 0x80
    · have noSecond : ¬ (0x80 ≤ delimitedData ∧ sponge.byteIOIndex = rateInBytes - 1) :=
        fun second => UInt8.not_le.mpr small second.1
      rw [if_neg noSecond, if_pos small, ← there, xorBytes_xor]
      exact single _
    · have two := Sponge.absorbAll_append (byteSponge rateInBytes positive) sponge.wet [delimitedData]
        (List.replicate (rateInBytes - 1) 0 ++ [0x80])
      have last := xorBytes_zeros_last (statePermute (xorBytes sponge.state sponge.byteIOIndex [delimitedData])) 0
        (rateInBytes - 1)
      rw [Nat.zero_add] at last
      rw [if_neg small, if_pos ⟨UInt8.not_lt.mp small, there⟩, ← last]
      refine two.trans ((congrArg (Sponge.absorbAll _ · _) (single delimitedData)).trans (fills _ _ ?_ ?_))
      · rw [List.length_append, List.length_replicate, List.length_singleton]
        omega
      · exact List.append_ne_nil_of_right_ne_nil _ (List.cons_ne_nil _ _)

end SpongeInstance

end PrimePool.Keccak

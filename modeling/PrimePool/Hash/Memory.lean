import PrimePool.Hash.WideArithmetic

/-!
# Wide integers in memory

A word lies in memory with the least significant byte first, as the words of a `base_uint` do: its bytes are the digits
of its value.
-/

namespace PrimePool

def bytesInMemory (n : UInt32) : Bytes := (uint2bytes n).reverse

def wordsInMemory : Bytes → List UInt32
  | b0 :: b1 :: b2 :: b3 :: bytes => bytes2uint [b3, b2, b1, b0] 0 :: wordsInMemory bytes
  | _ => []

theorem length_wordsInMemory {width : Nat} {bytes : Bytes} (length : bytes.length = 4 * width) :
    (wordsInMemory bytes).length = width := by
  induction width generalizing bytes with
  | zero =>
      rw [List.eq_nil_of_length_eq_zero length]
      rfl
  | succ width ih =>
      match bytes, length with
      | b0 :: b1 :: b2 :: b3 :: bytes, length =>
          rw [wordsInMemory, List.length_cons, ih]
          simp only [List.length_cons] at length
          omega

def BaseUint.bytesInMemory {width : Nat} (x : BaseUint width) : Bytes := x.pn.toList.flatMap PrimePool.bytesInMemory

def BaseUint.ofMemory {width : Nat} (bytes : Vector UInt8 (4 * width)) : BaseUint width :=
  ofWords (wordsInMemory bytes.toList) (length_wordsInMemory Vector.length_toList)

/-! ## Values -/

theorem ofDigits_word (b3 b2 b1 b0 : UInt8) :
    Nat.ofDigits 256 ([b0, b1, b2, b3].map UInt8.toNat) = (bytes2uint [b3, b2, b1, b0] 0).toNat := by
  have bound3 := b3.toNat_lt
  have bound2 := b2.toNat_lt
  have bound1 := b1.toNat_lt
  have bound0 := b0.toNat_lt
  have word : bytes2uint [b3, b2, b1, b0] 0 =
      (b3.toUInt32 <<< 24) + (b2.toUInt32 <<< 16) + (b1.toUInt32 <<< 8) + b0.toUInt32 := rfl
  rw [word]
  simp only [List.map_cons, List.map_nil, Nat.ofDigits_cons, Nat.ofDigits_nil, UInt32.toNat_add, UInt32.toNat_shiftLeft,
    UInt8.toNat_toUInt32, Nat.shiftLeft_eq, UInt32.reduceToNat, Nat.reduceMod, Nat.reducePow]
  omega

theorem ofDigits_bytesInMemory (n : UInt32) : Nat.ofDigits 256 ((bytesInMemory n).map UInt8.toNat) = n.toNat := by
  have bytes : bytesInMemory n = [n.toUInt8, (n >>> 8).toUInt8, (n >>> 16).toUInt8, (n >>> 24).toUInt8] := rfl
  rw [bytes, ofDigits_word]
  congr 1
  exact word_of_bytes n

theorem ofDigits_word_append {word : Bytes} (four : word.length = 4) (bytes : Bytes) :
    Nat.ofDigits 256 ((word ++ bytes).map UInt8.toNat) =
      Nat.ofDigits 256 (word.map UInt8.toNat) + 2 ^ 32 * Nat.ofDigits 256 (bytes.map UInt8.toNat) := by
  rw [List.map_append, Nat.ofDigits_append, List.length_map, four]
  simp only [Nat.reducePow]

theorem wordsValue_wordsInMemory {width : Nat} {bytes : Bytes} (length : bytes.length = 4 * width) :
    wordsValue (wordsInMemory bytes) = Nat.ofDigits 256 (bytes.map UInt8.toNat) := by
  induction width generalizing bytes with
  | zero =>
      rw [List.eq_nil_of_length_eq_zero length]
      rfl
  | succ width ih =>
      match bytes, length with
      | b0 :: b1 :: b2 :: b3 :: bytes, length =>
          have rest : bytes.length = 4 * width := by
            simp only [List.length_cons] at length
            omega
          have split : b0 :: b1 :: b2 :: b3 :: bytes = [b0, b1, b2, b3] ++ bytes := rfl
          rw [wordsInMemory, wordsValue_cons, ih rest, split, ofDigits_word_append rfl, ofDigits_word]

theorem ofDigits_flatMap_bytesInMemory (words : List UInt32) :
    Nat.ofDigits 256 ((words.flatMap bytesInMemory).map UInt8.toNat) = wordsValue words := by
  induction words with
  | nil => rfl
  | cons pn words ih =>
      rw [List.flatMap_cons, ofDigits_word_append rfl, ofDigits_bytesInMemory, ih, wordsValue_cons]

namespace BaseUint

variable {width : Nat}

theorem ofDigits_bytesInMemory (x : BaseUint width) : Nat.ofDigits 256 (x.bytesInMemory.map UInt8.toNat) = x.toNat :=
  ofDigits_flatMap_bytesInMemory x.pn.toList

theorem toNat_ofMemory (bytes : Vector UInt8 (4 * width)) :
    (ofMemory bytes).toNat = Nat.ofDigits 256 (bytes.toList.map UInt8.toNat) :=
  wordsValue_wordsInMemory Vector.length_toList

theorem length_bytesInMemory (x : BaseUint width) : x.bytesInMemory.length = 4 * width := by
  rw [bytesInMemory, length_words fun _ => rfl, Vector.length_toList]

end BaseUint

end PrimePool

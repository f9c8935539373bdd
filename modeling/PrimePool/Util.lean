import Mathlib.Algebra.Group.Nat.Defs
import Mathlib.Tactic.Common

/-!
# Byte vectors

`util.h`: 32-bit words are written with the most significant byte first, 64-bit words with the low
half first. A `std::string` is its bytes, compared as unsigned characters. A `slice` is the vector between two
iterators, `none` when they leave it.
-/

namespace PrimePool

abbrev Bytes : Type := List UInt8

abbrev StdString : Type := List UInt8

def uint2bytes (n : UInt32) : Bytes :=
  [(n >>> 24).toUInt8, (n >>> 16).toUInt8, (n >>> 8).toUInt8, n.toUInt8]

def bytes2uint (bytes : Bytes) (nOffset : Nat) : UInt32 :=
  if bytes.length < nOffset + 4 then 0
  else ((bytes.getD nOffset 0).toUInt32 <<< 24) + ((bytes.getD (1 + nOffset) 0).toUInt32 <<< 16) +
    ((bytes.getD (2 + nOffset) 0).toUInt32 <<< 8) + (bytes.getD (3 + nOffset) 0).toUInt32

def uint2bytes64 (n : UInt64) : Bytes :=
  uint2bytes n.toUInt32 ++ uint2bytes (n >>> 32).toUInt32

def bytes2uint64 (bytes : Bytes) (nOffset : Nat) : UInt64 :=
  (bytes2uint bytes nOffset).toUInt64 ||| ((bytes2uint bytes (nOffset + 4)).toUInt64 <<< 32)

def slice (bytes : Bytes) (first last : Nat) : Option Bytes :=
  if first ≤ last ∧ last ≤ bytes.length then some ((bytes.drop first).take (last - first)) else none

@[simp] theorem length_uint2bytes (n : UInt32) : (uint2bytes n).length = 4 := rfl

@[simp] theorem length_uint2bytes64 (n : UInt64) : (uint2bytes64 n).length = 8 := rfl

theorem word_of_bytes (n : UInt32) :
    ((n >>> 24).toUInt8.toUInt32 <<< 24) + ((n >>> 16).toUInt8.toUInt32 <<< 16) +
      ((n >>> 8).toUInt8.toUInt32 <<< 8) + n.toUInt8.toUInt32 = n := by
  apply UInt32.toNat_inj.mp
  have bound := n.toNat_lt
  simp only [UInt32.toNat_add, UInt32.toNat_shiftLeft, UInt8.toNat_toUInt32, UInt32.toNat_toUInt8,
    UInt32.toNat_shiftRight, Nat.shiftLeft_eq, Nat.shiftRight_eq_div_pow, UInt32.reduceToNat,
    Nat.reduceMod, Nat.reducePow]
  omega

theorem bytes_of_word (b3 b2 b1 b0 : UInt8) :
    uint2bytes ((b3.toUInt32 <<< 24) + (b2.toUInt32 <<< 16) + (b1.toUInt32 <<< 8) + b0.toUInt32) =
      [b3, b2, b1, b0] := by
  have bound3 := b3.toNat_lt
  have bound2 := b2.toNat_lt
  have bound1 := b1.toNat_lt
  have bound0 := b0.toNat_lt
  simp only [uint2bytes, List.cons.injEq, and_true, ← UInt8.toNat_inj, UInt32.toNat_toUInt8, UInt32.toNat_add,
    UInt32.toNat_shiftRight, UInt32.toNat_shiftLeft, UInt8.toNat_toUInt32, Nat.shiftLeft_eq,
    Nat.shiftRight_eq_div_pow, UInt32.reduceToNat, Nat.reduceMod, Nat.reducePow]
  omega

theorem bytes2uint_cons4 (b3 b2 b1 b0 : UInt8) (bytes : Bytes) (nOffset : Nat) :
    bytes2uint (b3 :: b2 :: b1 :: b0 :: bytes) (nOffset + 4) = bytes2uint bytes nOffset := by
  simp only [bytes2uint, List.length_cons, List.getD_cons_succ, ← Nat.add_assoc]
  congr 1
  simp only [eq_iff_iff]
  omega

theorem bytes2uint_append (before after : Bytes) (n : UInt32) :
    bytes2uint (before ++ uint2bytes n ++ after) before.length = n := by
  have enough : ¬ (before ++ uint2bytes n ++ after).length < before.length + 4 := by simp
  have at_offset (i : Nat) (small : i < 4) :
      (before ++ uint2bytes n ++ after).getD (i + before.length) 0 = (uint2bytes n).getD i 0 := by
    simp only [List.getD_eq_getElem?_getD, List.append_assoc]
    rw [List.getElem?_append_right (Nat.le_add_left _ _), Nat.add_sub_cancel,
      List.getElem?_append_left small]
  have first := at_offset 0 (by decide)
  rw [Nat.zero_add] at first
  rw [bytes2uint, if_neg enough, first, at_offset 1 (by decide), at_offset 2 (by decide),
    at_offset 3 (by decide)]
  exact word_of_bytes n

theorem bytes2uint_eq {bytes : Bytes} {nOffset : Nat} {n : UInt32} (before after : Bytes)
    (cut : bytes = before ++ uint2bytes n ++ after) (start : nOffset = before.length) :
    bytes2uint bytes nOffset = n := by
  subst cut start
  exact bytes2uint_append before after n

theorem halves_of_word (n : UInt64) :
    n.toUInt32.toUInt64 ||| ((n >>> 32).toUInt32.toUInt64 <<< 32) = n := by
  apply UInt64.toNat_inj.mp
  have bound := n.toNat_lt
  have low : n.toNat % 2 ^ 32 < 2 ^ 32 := Nat.mod_lt _ (by decide)
  simp only [UInt64.toNat_or, UInt64.toNat_shiftLeft, UInt32.toNat_toUInt64, UInt64.toNat_toUInt32,
    UInt64.toNat_shiftRight, Nat.shiftRight_eq_div_pow, UInt64.reduceToNat, Nat.reduceMod]
  have high : (n.toNat / 2 ^ 32 % 2 ^ 32) <<< 32 % 2 ^ 64 = (n.toNat / 2 ^ 32) <<< 32 := by
    simp only [Nat.shiftLeft_eq]
    omega
  rw [high, Nat.or_comm, ← Nat.shiftLeft_add_eq_or_of_lt low, Nat.shiftLeft_eq]
  omega

theorem bytes2uint64_append (before after : Bytes) (n : UInt64) :
    bytes2uint64 (before ++ uint2bytes64 n ++ after) before.length = n := by
  have low := bytes2uint_append before (uint2bytes (n >>> 32).toUInt32 ++ after) n.toUInt32
  have high := bytes2uint_append (before ++ uint2bytes n.toUInt32) after (n >>> 32).toUInt32
  simp only [List.append_assoc, List.length_append, length_uint2bytes] at low high
  rw [bytes2uint64, uint2bytes64]
  simp only [List.append_assoc]
  rw [low, high, halves_of_word]

theorem bytes2uint64_eq {bytes : Bytes} {nOffset : Nat} {n : UInt64} (before after : Bytes)
    (cut : bytes = before ++ uint2bytes64 n ++ after) (start : nOffset = before.length) :
    bytes2uint64 bytes nOffset = n := by
  subst cut start
  exact bytes2uint64_append before after n

theorem slice_append (before middle after : Bytes) :
    slice (before ++ middle ++ after) before.length (before.length + middle.length) = some middle := by
  have inside : before.length ≤ before.length + middle.length ∧
      before.length + middle.length ≤ (before ++ middle ++ after).length := by simp
  rw [slice, if_pos inside, List.append_assoc, List.drop_left, Nat.add_sub_cancel_left, List.take_left]

theorem slice_eq {bytes middle : Bytes} {first last : Nat} (before after : Bytes)
    (cut : bytes = before ++ middle ++ after)
    (start : first = before.length) (stop : last = before.length + middle.length) :
    slice bytes first last = some middle := by
  subst cut start stop
  exact slice_append before middle after

theorem length_of_slice {bytes part : Bytes} {first last : Nat} (read : slice bytes first last = some part) :
    part.length = last - first ∧ last ≤ bytes.length := by
  unfold slice at read
  split at read
  · rename_i inside
    cases read
    simp only [List.length_take, List.length_drop]
    omega
  · cases read

end PrimePool

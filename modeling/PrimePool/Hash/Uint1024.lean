import Mathlib.Data.List.Basic
import PrimePool.Util

/-!
# Wide integers

`hash/uint1024.h`: a `base_uint` is an array of 32-bit words, the least significant first. The
comparison operators scan the words from the most significant one down.
-/

namespace PrimePool

structure BaseUint (width : Nat) where
  pn : Vector UInt32 width
deriving DecidableEq

abbrev Uint512 : Type := BaseUint 16

abbrev Uint1024 : Type := BaseUint 32

namespace BaseUint

variable {width : Nat}

def ofUInt64 (b : UInt64) : BaseUint width :=
  ⟨Vector.ofFn fun i => if i.val = 0 then b.toUInt32 else if i.val = 1 then (b >>> 32).toUInt32 else 0⟩

/-- What `operator+=` carries into word `i`. -/
def carry (a b : BaseUint width) : Nat → UInt64
  | 0 => 0
  | i + 1 => (carry a b i + (a.pn.toList.getD i 0).toUInt64 + (b.pn.toList.getD i 0).toUInt64) >>> 32

def add (a b : BaseUint width) : BaseUint width :=
  ⟨Vector.ofFn fun i => (carry a b i + a.pn[i].toUInt64 + b.pn[i].toUInt64).toUInt32⟩

instance : Ord (BaseUint width) where
  compare a b := compare a.pn.toList.reverse b.pn.toList.reverse

instance : Std.TransOrd (BaseUint width) where
  eq_swap := Std.OrientedOrd.eq_swap (α := List UInt32)
  isLE_trans := Std.TransOrd.isLE_trans (α := List UInt32)

instance : Std.LawfulEqOrd (BaseUint width) where
  compare_self := Std.ReflOrd.compare_self (α := List UInt32)
  eq_of_compare {a b} same := by
    have words := Std.LawfulEqOrd.eq_of_compare (α := List UInt32) same
    cases a
    cases b
    simpa [← Vector.toList_inj] using words

instance : Std.TransOrd Uint1024 := instTransOrd

def getBytes (x : BaseUint width) : Bytes := x.pn.toList.flatMap uint2bytes

def setBytes (width : Nat) (data : Bytes) : Option (BaseUint width) :=
  if data.length < 4 * width then none
  else some ⟨Vector.ofFn fun index => bytes2uint data (4 * index.val)⟩

theorem length_words {bytesOf : UInt32 → Bytes} (four : ∀ n, (bytesOf n).length = 4) (words : List UInt32) :
    (words.flatMap bytesOf).length = 4 * words.length := by
  induction words with
  | nil => rfl
  | cons word words ih =>
      simp only [List.flatMap_cons, List.length_append, four, ih, List.length_cons]
      omega

@[simp] theorem length_getBytes (x : BaseUint width) : x.getBytes.length = 4 * width := by
  rw [getBytes, length_words length_uint2bytes, Vector.length_toList]

theorem bytes2uint_words (words : List UInt32) (i : Nat) (inside : i < words.length) :
    bytes2uint (words.flatMap uint2bytes) (4 * i) = words[i] := by
  have cut : words.flatMap uint2bytes = (words.take i).flatMap uint2bytes ++ uint2bytes words[i] ++
      (words.drop (i + 1)).flatMap uint2bytes := by
    rw [List.append_assoc, ← List.flatMap_cons, ← List.drop_eq_getElem_cons inside,
      ← List.flatMap_append, List.take_append_drop]
  have start : ((words.take i).flatMap uint2bytes).length = 4 * i := by
    rw [length_words length_uint2bytes, List.length_take, Nat.min_eq_left (Nat.le_of_lt inside)]
  rw [cut, ← start]
  exact bytes2uint_append _ _ _

theorem setBytes_getBytes (x : BaseUint width) : setBytes width x.getBytes = some x := by
  have enough : ¬ x.getBytes.length < 4 * width := by simp
  rw [setBytes, if_neg enough]
  congr 1
  cases x with
  | mk words =>
      congr 1
      ext i inside
      simp only [Vector.getElem_ofFn, getBytes]
      rw [bytes2uint_words _ _ (by simpa using inside), Vector.getElem_toList]

theorem words_setBytes {width : Nat} {data : Bytes} (length : data.length = 4 * width) :
    (List.ofFn fun index : Fin width => bytes2uint data (4 * index.val)).flatMap uint2bytes = data := by
  induction width generalizing data with
  | zero => exact (List.eq_nil_of_length_eq_zero length).symm
  | succ width ih =>
      match data, length with
      | b3 :: b2 :: b1 :: b0 :: data, length =>
          have rest : data.length = 4 * width := by
            simp only [List.length_cons] at length
            omega
          have first : uint2bytes (bytes2uint (b3 :: b2 :: b1 :: b0 :: data) 0) = [b3, b2, b1, b0] :=
            bytes_of_word b3 b2 b1 b0
          simp only [List.ofFn_succ, List.flatMap_cons, Fin.val_zero, Fin.val_succ, Nat.mul_add, Nat.mul_zero,
            Nat.mul_one, bytes2uint_cons4, first, ih rest]
          rfl

theorem getBytes_setBytes {width : Nat} (data : Vector UInt8 (4 * width)) :
    (setBytes width data.toList).map getBytes = some data.toList := by
  have length : data.toList.length = 4 * width := Vector.length_toList
  have enough : ¬ data.toList.length < 4 * width := by omega
  rw [setBytes, if_neg enough, Option.map_some, getBytes, Vector.toList_ofFn, words_setBytes length]

end BaseUint

end PrimePool

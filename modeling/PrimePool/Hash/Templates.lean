import PrimePool.Hash.KeccakDigest
import PrimePool.Hash.SkeinPrecomputed

/-!
# The hashing templates

`hash/templates.h`: the Skein digest of some ranges of bytes, hashed again by Keccak. No call looks at a return code.
-/

namespace PrimePool
open Skein

/-- The values that a template passes on; as the fields say, no call fails on them. -/
structure Template where
  variant : Variant
  generated : Generated variant
  bits : Nat
  rate : Nat
  capacity : Nat
  delimitedSuffix : UInt8
  whole : bits % 8 = 0
  small : bits < 2 ^ 32
  positive : 0 < rate / 8
  starts : (Keccak.hashInitialize rate capacity bits delimitedSuffix).isSome

namespace Template

/-- `garbage` is what lies on the stack before the Skein context is set up. -/
def hash (t : Template) (garbage : Ctxt t.variant.size) (ranges : List Bytes) : Option Bytes := do
  let ctx := Ctxt.init t.variant garbage t.bits.toUInt64
  let ctx := ranges.foldl Ctxt.update ctx
  let (_, skein) ← ctx.final
  let ctx_keccak ← Keccak.hashInitialize t.rate t.capacity t.bits t.delimitedSuffix
  let ctx_keccak ← Keccak.hashUpdate ctx_keccak skein t.bits
  Keccak.hashFinal ctx_keccak

def sk64 : Template where
  variant := variant256
  generated := generated256
  bits := 64
  rate := 1344
  capacity := 256
  delimitedSuffix := 0x06
  whole := rfl
  small := by decide
  positive := by decide
  starts := rfl

def sk256 : Template where
  variant := variant256
  generated := generated256
  bits := 256
  rate := 1088
  capacity := 512
  delimitedSuffix := 0x06
  whole := rfl
  small := by decide
  positive := by decide
  starts := rfl

def sk512 : Template where
  variant := variant512
  generated := generated512
  bits := 512
  rate := 576
  capacity := 1024
  delimitedSuffix := 0x06
  whole := rfl
  small := by decide
  positive := by decide
  starts := rfl

def sk576 : Template where
  variant := variant1024
  generated := generated1024
  bits := 576
  rate := 1024
  capacity := 576
  delimitedSuffix := 0x06
  whole := rfl
  small := by decide
  positive := by decide
  starts := rfl

def sk1024 : Template where
  variant := variant1024
  generated := generated1024
  bits := 1024
  rate := 576
  capacity := 1024
  delimitedSuffix := 0x05
  whole := rfl
  small := by decide
  positive := by decide
  starts := rfl

/-! ## What a template computes -/

theorem length_digest (t : Template) (msg : Bytes) :
    (digest t.variant.size t.bits.toUInt64 0 [] msg).length = t.bits / 8 := by
  have small := t.small
  have whole := t.whole
  have bits : (t.bits.toUInt64 + 7).toNat = t.bits + 7 := by
    have value : t.bits.toUInt64.toNat = t.bits := UInt64.toNat_ofNat_of_lt' (by simp only [UInt64.size]; omega)
    have seven : (7 : UInt64).toNat = 7 := rfl
    rw [UInt64.toNat_add, value, seven]
    omega
  have shift : ((3 : UInt64).toNat % 64) = 3 := rfl
  rw [digest, List.length_map, List.length_range, outputLength, UInt64.toNat_shiftRight, bits, shift,
    Nat.shiftRight_eq_div_pow]
  omega

theorem hash_eq (t : Template) (garbage : Ctxt t.variant.size) (ranges : List Bytes) :
    ∃ padded : Bytes,
      Keccak.bits padded = Keccak.bits (digest t.variant.size t.bits.toUInt64 0 [] ranges.flatten) ++
        General.bitsBelowTop t.delimitedSuffix.toNat ++ Keccak.pad101 t.rate (t.bits + t.delimitedSuffix.toNat.log2) ∧
      t.hash garbage ranges = some (Keccak.digestOf t.positive padded (t.bits / 8)) := by
  have small := t.small
  have whole := t.whole
  have length := t.length_digest ranges.flatten
  obtain ⟨hash, starts⟩ := Option.isSome_iff_exists.mp t.starts
  obtain ⟨takes, hashBitLen⟩ := garbage.initExt_takes t.bits.toUInt64 0 []
  rw [← Ctxt.init_eq t.generated] at takes hashBitLen
  have skein := Ctxt.final_pieces takes ranges
  rw [hashBitLen] at skein
  obtain ⟨⟨ctx, out⟩, ends, same⟩ := Option.map_eq_some_iff.mp skein
  have same' : out = digest t.variant.size t.bits.toUInt64 0 [] ranges.flatten := same
  rw [← same'] at length ⊢
  have all : (Keccak.bits out).length = t.bits := by
    rw [Keccak.length_bits]
    omega
  obtain ⟨taken, suffix, nonzero, joined, keccak⟩ := Keccak.hash_pieces starts t.positive small
    (fun _ none => nomatch none : ∀ piece ∈ [], _) (by omega : t.bits ≤ 8 * out.length) (by omega)
    (fun some => absurd whole some)
  have padded := Keccak.bits_padded starts t.positive [] nonzero joined
  rw [List.take_of_length_le (Nat.le_of_eq all), all] at padded
  simp only [List.length_nil, Nat.mul_zero, Nat.zero_add] at padded
  refine ⟨_, padded, ?_⟩
  simp only [Template.hash, ends, starts, Option.bind_eq_bind, Option.bind_some]
  exact keccak

/-- The bytes of the hash of a message. -/
def value (t : Template) (msg : Bytes) : Bytes :=
  (t.hash ⟨0, 0, 0, 0, Vector.replicate _ 0, Vector.replicate _ 0⟩ [msg]).getD []

theorem hash_stack (t : Template) (garbage : Ctxt t.variant.size) (ranges : List Bytes) :
    t.hash garbage ranges = some (t.value ranges.flatten) := by
  obtain ⟨padded, bits, computed⟩ := t.hash_eq garbage ranges
  obtain ⟨padded', bits', computed'⟩ := t.hash_eq ⟨0, 0, 0, 0, Vector.replicate _ 0, Vector.replicate _ 0⟩ [ranges.flatten]
  rw [List.flatten_singleton, ← bits] at bits'
  obtain rfl := Keccak.bits_injective bits'
  rw [value, computed, computed', Option.getD_some]

theorem length_value (t : Template) (msg : Bytes) : (t.value msg).length = t.bits / 8 := by
  obtain ⟨padded, -, computed⟩ := t.hash_eq ⟨0, 0, 0, 0, Vector.replicate _ 0, Vector.replicate _ 0⟩ [msg]
  rw [value, computed, Option.getD_some, Keccak.digestOf, List.length_map, List.length_range]

/-- Neither the stack nor the way a message is cut into ranges changes its hash. -/
theorem hash_eq_value (t : Template) (garbage : Ctxt t.variant.size) (ranges : List Bytes) :
    t.hash garbage ranges = some (t.value ranges.flatten) ∧ (t.value ranges.flatten).length = t.bits / 8 ∧
      ∃ padded : Bytes,
        Keccak.bits padded = Keccak.bits (digest t.variant.size t.bits.toUInt64 0 [] ranges.flatten) ++
          General.bitsBelowTop t.delimitedSuffix.toNat ++ Keccak.pad101 t.rate (t.bits + t.delimitedSuffix.toNat.log2) ∧
        t.value ranges.flatten = Keccak.digestOf t.positive padded (t.bits / 8) := by
  obtain ⟨padded, bits, computed⟩ := t.hash_eq garbage ranges
  refine ⟨t.hash_stack garbage ranges, t.length_value _, padded, bits, ?_⟩
  exact Option.some.inj ((t.hash_stack garbage ranges).symm.trans computed)

/-- The integer that a template fills. -/
def integer (t : Template) (msg : Bytes) : Vector UInt8 (t.bits / 8) := Vector.ofFn fun i => (t.value msg).getD i.val 0

end Template

def SK64 (p : Bytes) : Vector UInt8 8 := Template.sk64.integer p

def SK256 (vch : Bytes) : Vector UInt8 32 := Template.sk256.integer vch

def SK512 (p1 : Bytes) : Vector UInt8 64 := Template.sk512.integer p1

def SK576 (p : Bytes) : Vector UInt8 72 := Template.sk576.integer p

def SK1024 (p : Bytes) : Vector UInt8 128 := Template.sk1024.integer p

end PrimePool

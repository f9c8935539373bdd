import Mathlib.Data.List.OfFn
import Mathlib.Data.Nat.Digits.Lemmas
import PrimePool.Util

/-!
# 64-bit words in memory

`hash/skein_port.h`: the least significant byte of a word lies first. Where memory is little-endian, as here, the words
of a buffer and its bytes are one memory.
-/

namespace PrimePool

def loadWord (bytes : Fin 8 → UInt8) : UInt64 := (Nat.ofDigits 256 (List.ofFn fun i => (bytes i).toNat)).toUInt64

def storeByte (word : UInt64) (i : Nat) : UInt8 := (word >>> (8 * i).toUInt64).toUInt8

theorem toNat_loadWord (bytes : Fin 8 → UInt8) :
    (loadWord bytes).toNat = Nat.ofDigits 256 (List.ofFn fun i => (bytes i).toNat) := by
  have bound := Nat.ofDigits_lt_base_pow_length (b := 256) (l := List.ofFn fun i => (bytes i).toNat) (by decide) (by
    intro digit member
    obtain ⟨i, rfl⟩ := List.mem_ofFn.mp member
    exact (bytes i).toNat_lt)
  rw [List.length_ofFn] at bound
  exact UInt64.toNat_ofNat_of_lt' (by simpa only [UInt64.size, Nat.reducePow] using bound)

theorem toNat_storeByte (word : UInt64) {i : Nat} (small : i < 8) :
    (storeByte word i).toNat = word.toNat / 256 ^ i % 256 := by
  have shift : (8 * i).toUInt64.toNat % 64 = 8 * i := by
    rw [Nat.toUInt64_eq, UInt64.toNat_ofNat_of_lt' (by simp only [UInt64.size]; omega)]
    omega
  have power : 2 ^ (8 * i) = 256 ^ i := Nat.pow_mul 2 8 i
  rw [storeByte, UInt64.toNat_toUInt8, UInt64.toNat_shiftRight, shift, Nat.shiftRight_eq_div_pow, power]

theorem storeByte_loadWord (bytes : Fin 8 → UInt8) (i : Fin 8) : storeByte (loadWord bytes) i = bytes i := by
  have small : ∀ digit ∈ List.ofFn fun i => (bytes i).toNat, digit < 256 := by
    intro digit member
    obtain ⟨j, rfl⟩ := List.mem_ofFn.mp member
    exact (bytes j).toNat_lt
  have inside : i.val < (List.ofFn fun i => (bytes i).toNat).length := by
    rw [List.length_ofFn]
    exact i.isLt
  apply UInt8.toNat_inj.mp
  rw [toNat_storeByte _ i.isLt, toNat_loadWord, Nat.ofDigits_div_pow_eq_ofDigits_drop _ (by decide) _ small,
    List.drop_eq_getElem_cons inside, Nat.ofDigits_cons, Nat.add_mul_mod_self_left, List.getElem_ofFn]
  exact Nat.mod_eq_of_lt (bytes i).toNat_lt

theorem ofDigits_div_mod (base n k : Nat) :
    Nat.ofDigits base (List.ofFn fun i : Fin k => n / base ^ i.val % base) = n % base ^ k := by
  induction k generalizing n with
  | zero => simp [Nat.mod_one]
  | succ k ih =>
      have later (i : Fin k) : n / base ^ (i.val + 1) % base = n / base / base ^ i.val % base := by
        rw [Nat.pow_succ', Nat.div_div_eq_div_mul]
      simp only [List.ofFn_succ, Nat.ofDigits_cons, Fin.val_zero, Fin.val_succ, later, ih, Nat.pow_zero, Nat.div_one]
      rw [Nat.pow_succ', Nat.mod_mul]

theorem loadWord_storeByte (word : UInt64) : loadWord (fun i => storeByte word i) = word := by
  have digits : (fun i : Fin 8 => (storeByte word i).toNat) = fun i => word.toNat / 256 ^ i.val % 256 :=
    funext fun i => toNat_storeByte word i.isLt
  have bound : word.toNat < 256 ^ 8 := by simpa only [Nat.reducePow] using word.toNat_lt
  apply UInt64.toNat_inj.mp
  rw [toNat_loadWord, digits, ofDigits_div_mod, Nat.mod_eq_of_lt bound]

/-! ## Buffers -/

theorem Vector.get_eq {α : Type} {n : Nat} (v : Vector α n) (i : Fin n) : v.get i = getElem v i.val i.isLt := rfl

def wordsOf {n : Nat} (bytes : Vector UInt8 (8 * n)) : Vector UInt64 n :=
  Vector.ofFn fun i => loadWord fun j => bytes.get ⟨8 * i.val + j.val, by omega⟩

def bytesOf {n : Nat} (words : Vector UInt64 n) : Vector UInt8 (8 * n) :=
  Vector.ofFn fun k => storeByte (words.get ⟨k.val / 8, by omega⟩) (k.val % 8)

theorem wordsOf_bytesOf {n : Nat} (words : Vector UInt64 n) : wordsOf (bytesOf words) = words := by
  ext1 i inside
  have stored : (fun j : Fin 8 => (bytesOf words).get ⟨8 * i + j.val, by omega⟩) = fun j => storeByte words[i] j.val := by
    funext j
    have word : (8 * i + j.val) / 8 = i := by omega
    have byte : (8 * i + j.val) % 8 = j.val := by omega
    simp only [Vector.get_eq, bytesOf, Vector.getElem_ofFn, word, byte]
  rw [wordsOf, Vector.getElem_ofFn, stored, loadWord_storeByte]

theorem bytesOf_wordsOf {n : Nat} (bytes : Vector UInt8 (8 * n)) : bytesOf (wordsOf bytes) = bytes := by
  ext1 k inside
  have place : 8 * (k / 8) + k % 8 = k := Nat.div_add_mod k 8
  have stored := storeByte_loadWord
    (fun j => bytes.get ⟨8 * (k / 8) + j.val, by omega⟩) ⟨k % 8, Nat.mod_lt _ (by decide)⟩
  simp only [Vector.get_eq, place] at stored
  simp only [bytesOf, wordsOf, Vector.getElem_ofFn, Vector.get_eq, stored]

theorem bytesOf_injective {n : Nat} : Function.Injective (bytesOf (n := n)) :=
  Function.LeftInverse.injective wordsOf_bytesOf

theorem wordsOf_injective {n : Nat} : Function.Injective (wordsOf (n := n)) :=
  Function.LeftInverse.injective bytesOf_wordsOf

end PrimePool

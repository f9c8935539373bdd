import PrimePool.General.Numerals

/-!
# The MPI format

A number as its bytes, the most significant first. The highest bit of the first byte is the sign, so that a zero byte
comes before a magnitude that has this bit set.
-/

namespace PrimePool.General

def magnitude (n : Nat) : List UInt8 := ((Nat.digits 256 n).map Nat.toUInt8).reverse

def mpiData (n : Int) : List UInt8 :=
  let data := magnitude n.natAbs
  let data := if 0x80 ≤ data.headD 0 then 0 :: data else data
  if n < 0 then data.modifyHead (· ||| 0x80) else data

def mpiNumber (data : List UInt8) : Int :=
  let n := value 256 ((data.modifyHead (· &&& 0x7f)).map UInt8.toNat)
  if 0x80 ≤ data.headD 0 then -n else n

theorem mpiNumber_zero_cons (data : List UInt8) : mpiNumber (0 :: data) = value 256 (data.map UInt8.toNat) := by
  have positive : ¬ (0x80 : UInt8) ≤ 0 := by decide
  rw [mpiNumber, List.headD_cons, if_neg positive]
  rfl

theorem mpiData_natCast (n : Nat) :
    mpiData n = if 0x80 ≤ (magnitude n).headD 0 then 0 :: magnitude n else magnitude n := by
  have positive : ¬ (n : Int) < 0 := Int.not_lt.mpr (Int.natCast_nonneg n)
  rw [mpiData, if_neg positive, Int.natAbs_natCast]

/-! ## Both ways -/

theorem value_magnitude (n : Nat) : value 256 ((magnitude n).map UInt8.toNat) = n := by
  have small : ∀ digit ∈ Nat.digits 256 n, digit < 256 := fun _ => Nat.digits_lt_base (by decide)
  rw [magnitude, List.map_reverse, map_toNat_toUInt8 small, value_eq_ofDigits, List.reverse_reverse, Nat.ofDigits_digits]

theorem magnitude_value (data : List UInt8) :
    magnitude (value 256 (data.map UInt8.toNat)) = data.dropWhile (· = 0) := by
  have zero : (fun digit : Nat => decide (digit = 0)) ∘ UInt8.toNat = fun c => decide (c = 0) := by
    funext c
    rw [Function.comp_apply, decide_eq_decide, ← UInt8.toNat_inj, UInt8.toNat_zero]
  rw [magnitude, digits_value (by decide) (bytes_lt data), List.map_reverse, List.reverse_reverse, List.dropWhile_map,
    zero, map_toUInt8_toNat]

theorem sign_bits (c : UInt8) (unsigned : c < 0x80) :
    c &&& 0x7f = c ∧ (c ||| 0x80) &&& 0x7f = c ∧ 0x80 ≤ c ||| 0x80 := by
  have all : ∀ i : Fin 256, let c := UInt8.ofFin i
      c < 0x80 → c &&& 0x7f = c ∧ (c ||| 0x80) &&& 0x7f = c ∧ 0x80 ≤ c ||| 0x80 := by decide +kernel
  exact all c.toFin unsigned

theorem mpiNumber_of_lt {data : List UInt8} (unsigned : data.headD 0 < 0x80) :
    mpiNumber data = value 256 (data.map UInt8.toNat) := by
  cases data with
  | nil => rfl
  | cons c data =>
      rw [mpiNumber, List.modifyHead_cons, (sign_bits c unsigned).1, if_neg (UInt8.not_le.mpr unsigned)]

theorem mpiNumber_setSign {data : List UInt8} (unsigned : data.headD 0 < 0x80) (nonempty : data ≠ []) :
    mpiNumber (data.modifyHead (· ||| 0x80)) = -value 256 (data.map UInt8.toNat) := by
  cases data with
  | nil => exact absurd rfl nonempty
  | cons c data =>
      obtain ⟨-, cleared, set⟩ := sign_bits c unsigned
      rw [mpiNumber, List.modifyHead_cons, List.modifyHead_cons, cleared, List.headD_cons, if_pos set]

theorem mpiNumber_mpiData (n : Int) : mpiNumber (mpiData n) = n := by
  rw [mpiData]
  generalize made : (if 0x80 ≤ (magnitude n.natAbs).headD 0 then 0 :: magnitude n.natAbs else magnitude n.natAbs) = data
  have unsigned : data.headD 0 < 0x80 := by
    subst made
    split
    · exact (by decide : (0 : UInt8) < 0x80)
    · rename_i clear
      exact UInt8.not_le.mp clear
  have number : value 256 (data.map UInt8.toNat) = n.natAbs := by
    subst made
    split
    · exact value_magnitude n.natAbs
    · exact value_magnitude n.natAbs
  split
  · rename_i negative
    have nonempty : data ≠ [] := by
      rintro rfl
      have zero : n.natAbs = 0 := number.symm
      omega
    rw [mpiNumber_setSign unsigned nonempty, number]
    omega
  · rw [mpiNumber_of_lt unsigned, number]
    omega

theorem natAbs_mpiNumber (data : List UInt8) :
    (mpiNumber data).natAbs = value 256 ((data.modifyHead (· &&& 0x7f)).map UInt8.toNat) := by
  rw [mpiNumber]
  split
  · rw [Int.natAbs_neg, Int.natAbs_natCast]
  · rw [Int.natAbs_natCast]

end PrimePool.General

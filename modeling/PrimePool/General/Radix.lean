import Mathlib.Data.Int.ModEq
import Mathlib.Data.Nat.Digits.Lemmas
import PrimePool.General.Numerals

/-!
# Numerals of a fixed width

Lists of digits of one length: their values have the order of the digits from the top, and each value below the power
of the base has one list.
-/

namespace PrimePool.General

variable {base : Nat}

theorem value_cons (digit : Nat) (digits : List Nat) :
    value base (digit :: digits) = digit * base ^ digits.length + value base digits := by
  rw [value_eq_ofDigits, value_eq_ofDigits, List.reverse_cons, Nat.ofDigits_append, List.length_reverse,
    Nat.ofDigits_singleton, Nat.add_comm, Nat.mul_comm]

theorem value_lt (large : 1 < base) {digits : List Nat} (inside : ∀ digit ∈ digits, digit < base) :
    value base digits < base ^ digits.length := by
  rw [value_eq_ofDigits, ← List.length_reverse]
  exact Nat.ofDigits_lt_base_pow_length large fun digit member => inside digit (List.mem_reverse.mp member)

theorem compare_mul_add {n m d : Nat} (x y : Nat) (small : n < d) (small' : m < d) :
    compare (x * d + n) (y * d + m) = (compare x y).then (compare n m) := by
  rcases Nat.lt_trichotomy x y with less | rfl | greater
  · have above : (x + 1) * d ≤ y * d := Nat.mul_le_mul_right d less
    rw [Nat.compare_eq_lt.mpr less, Ordering.lt_then, Nat.compare_eq_lt]
    rw [Nat.add_mul] at above
    omega
  · rw [Nat.compare_eq_eq.mpr rfl, Ordering.eq_then]
    simp only [Nat.compare_eq_ite_lt]
    congr 1 <;> simp
  · have above : (y + 1) * d ≤ x * d := Nat.mul_le_mul_right d greater
    rw [Nat.compare_eq_gt.mpr greater, Ordering.gt_then, Nat.compare_eq_gt]
    rw [Nat.add_mul] at above
    omega

theorem compare_value (large : 1 < base) {digits digits' : List Nat} (same : digits.length = digits'.length)
    (inside : ∀ digit ∈ digits, digit < base) (inside' : ∀ digit ∈ digits', digit < base) :
    compare (value base digits) (value base digits') = compare digits digits' := by
  induction digits generalizing digits' with
  | nil =>
      cases digits' with
      | nil => rfl
      | cons digit' digits' => cases same
  | cons digit digits ih =>
      cases digits' with
      | nil => cases same
      | cons digit' digits' =>
          rw [List.forall_mem_cons] at inside inside'
          have same : digits.length = digits'.length := Nat.succ.inj same
          have bound := value_lt large inside.2
          rw [same] at bound
          rw [value_cons, value_cons, same, compare_mul_add _ _ bound (value_lt large inside'.2),
            ih same inside.2 inside'.2, List.compare_cons_cons]

theorem eq_emod_of_modEq {n d : Nat} {z : ℤ} (small : n < d) (same : (n : ℤ) ≡ z [ZMOD d]) : (n : ℤ) = z % d := by
  rw [← same]
  exact (Int.emod_eq_of_lt (Int.natCast_nonneg n) (Int.ofNat_lt.mpr small)).symm

end PrimePool.General

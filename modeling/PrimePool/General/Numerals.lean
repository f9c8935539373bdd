import Mathlib.Data.List.TakeWhile
import Mathlib.Data.Nat.Digits.Lemmas

/-!
# Numerals with leading zeros

A list of digits, the most significant first, is determined by the number of its leading zeros and its value.
-/

namespace PrimePool.General

def leadingZeros (digits : List Nat) : Nat := (digits.takeWhile (· = 0)).length

def value (base : Nat) (digits : List Nat) : Nat := digits.foldl (fun n digit => base * n + digit) 0

def numeral (base zeros n : Nat) : List Nat := List.replicate zeros 0 ++ (base.digits n).reverse

variable {base : Nat}

theorem value_eq_ofDigits (digits : List Nat) : value base digits = Nat.ofDigits base digits.reverse := by
  rw [value, Nat.ofDigits_eq_foldr, List.foldr_reverse]
  simp only [Nat.cast_id, Nat.add_comm]

theorem takeWhile_zero (digits : List Nat) :
    digits.takeWhile (· = 0) = List.replicate (leadingZeros digits) 0 :=
  List.eq_replicate_of_mem fun digit member => by simpa using List.mem_takeWhile_imp member

theorem value_zeros_append (zeros : Nat) (digits : List Nat) :
    value base (List.replicate zeros 0 ++ digits) = value base digits := by
  induction zeros with
  | zero => rfl
  | succ zeros ih => exact ih

theorem value_dropWhile (digits : List Nat) : value base (digits.dropWhile (· = 0)) = value base digits := by
  conv_rhs => rw [← List.takeWhile_append_dropWhile (p := (· = 0)) (l := digits), takeWhile_zero]
  exact (value_zeros_append _ _).symm

theorem digits_value (large : 1 < base) {digits : List Nat} (inside : ∀ digit ∈ digits, digit < base) :
    base.digits (value base digits) = (digits.dropWhile (· = 0)).reverse := by
  rw [← value_dropWhile, value_eq_ofDigits]
  apply Nat.digits_ofDigits base large
  · intro digit member
    exact inside digit ((List.dropWhile_sublist _).subset (List.mem_reverse.mp member))
  · intro nonempty
    rw [List.getLast_reverse]
    have first := List.head_dropWhile_not (fun digit => decide (digit = 0)) (List.reverse_ne_nil_iff.mp nonempty)
    exact of_decide_eq_false first

theorem numeral_value (large : 1 < base) {digits : List Nat} (inside : ∀ digit ∈ digits, digit < base) :
    numeral base (leadingZeros digits) (value base digits) = digits := by
  rw [numeral, digits_value large inside, List.reverse_reverse, ← takeWhile_zero]
  exact List.takeWhile_append_dropWhile

theorem value_numeral (zeros n : Nat) : value base (numeral base zeros n) = n := by
  rw [numeral, value_zeros_append, value_eq_ofDigits, List.reverse_reverse, Nat.ofDigits_digits]

theorem leadingZeros_numeral (zeros n : Nat) : leadingZeros (numeral base zeros n) = zeros := by
  have first : (base.digits n).reverse.takeWhile (· = 0) = [] := by
    rw [List.takeWhile_eq_nil_iff]
    intro some zero
    have nonzero : n ≠ 0 := by
      rintro rfl
      simp at some
    have last := Nat.getLast_digit_ne_zero base nonzero
    rw [List.get_mk_zero, List.head_reverse] at zero
    exact last (of_decide_eq_true zero)
  have all : ∀ digit ∈ List.replicate zeros 0, decide (digit = 0) = true :=
    fun digit member => decide_eq_true (List.eq_of_mem_replicate member)
  rw [leadingZeros, numeral, List.takeWhile_append_of_pos all, first, List.append_nil, List.length_replicate]

theorem numeral_lt (large : 1 < base) (zeros n : Nat) : ∀ digit ∈ numeral base zeros n, digit < base := by
  intro digit member
  rcases List.mem_append.mp member with zero | inside
  · rw [List.eq_of_mem_replicate zero]
    exact Nat.lt_of_succ_lt large
  · exact Nat.digits_lt_base large (List.mem_reverse.mp inside)

/-! ## Bytes as digits -/

theorem bytes_lt (bytes : List UInt8) : ∀ digit ∈ bytes.map UInt8.toNat, digit < 256 := by
  intro digit member
  obtain ⟨c, -, rfl⟩ := List.mem_map.mp member
  exact c.toNat_lt

theorem map_toUInt8_toNat (bytes : List UInt8) : (bytes.map UInt8.toNat).map Nat.toUInt8 = bytes := by
  rw [List.map_map]
  refine (List.map_congr_left fun c _ => ?_).trans (List.map_id bytes)
  exact UInt8.ofNat_toNat

theorem map_toNat_toUInt8 {digits : List Nat} (small : ∀ digit ∈ digits, digit < 256) :
    (digits.map Nat.toUInt8).map UInt8.toNat = digits := by
  rw [List.map_map]
  refine (List.map_congr_left fun digit member => ?_).trans (List.map_id digits)
  exact UInt8.toNat_ofNat_of_lt' (small digit member)

end PrimePool.General

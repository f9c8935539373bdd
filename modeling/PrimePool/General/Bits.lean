import Mathlib.Algebra.Order.Ring.Nat
import Mathlib.Data.Nat.Log
import Mathlib.Tactic.Common

/-!
# Numbers as bits

The lowest bits of a number, the least significant first.
-/

namespace PrimePool.General

def bitsOf (count n : Nat) : List Bool := (List.range count).map n.testBit

@[simp] theorem length_bitsOf (count n : Nat) : (bitsOf count n).length = count := by
  rw [bitsOf, List.length_map, List.length_range]

@[simp] theorem bitsOf_none (n : Nat) : bitsOf 0 n = [] := rfl

@[simp] theorem bitsOf_zero (count : Nat) : bitsOf count 0 = List.replicate count false := by
  refine List.eq_replicate_iff.mpr ⟨length_bitsOf count 0, fun b member => ?_⟩
  obtain ⟨i, -, rfl⟩ := List.mem_map.mp member
  exact Nat.zero_testBit i

theorem bitsOf_add (first second n : Nat) :
    bitsOf (first + second) n = bitsOf first n ++ bitsOf second (n / 2 ^ first) := by
  simp only [bitsOf, List.range_add, List.map_append, List.map_map, List.append_cancel_left_eq]
  apply List.map_congr_left
  intro i _
  rw [Function.comp_apply, Nat.testBit_div_two_pow, Nat.add_comm]

theorem bitsOf_congr {count n m : Nat} (same : n % 2 ^ count = m % 2 ^ count) : bitsOf count n = bitsOf count m := by
  apply List.map_congr_left
  intro i member
  have below := List.mem_range.mp member
  have bits := congrArg (Nat.testBit · i) same
  simpa only [Nat.testBit_mod_two_pow, below, decide_true, Bool.true_and] using bits

theorem bitsOf_injective {count n m : Nat} (small : n < 2 ^ count) (small' : m < 2 ^ count)
    (same : bitsOf count n = bitsOf count m) : n = m := by
  apply Nat.eq_of_testBit_eq
  intro i
  by_cases below : i < count
  · exact (List.map_inj_left.mp same) i (List.mem_range.mpr below)
  · have power : 2 ^ count ≤ 2 ^ i := Nat.pow_le_pow_right (by decide) (by omega)
    rw [Nat.testBit_lt_two_pow (by omega), Nat.testBit_lt_two_pow (by omega)]

/-- The bits below the highest one. -/
def bitsBelowTop (n : Nat) : List Bool := bitsOf n.log2 n

theorem bitsOf_top {count n : Nat} (some : n ≠ 0) (small : n < 2 ^ count) :
    bitsOf count n = bitsBelowTop n ++ true :: List.replicate (count - (n.log2 + 1)) false := by
  have below := Nat.log2_self_le some
  have above : n < 2 ^ (n.log2 + 1) := Nat.lt_log2_self
  have fits : n.log2 < count := (Nat.log2_lt some).mpr small
  have cut : count = n.log2 + (1 + (count - (n.log2 + 1))) := by omega
  have one : n / 2 ^ n.log2 = 1 := by
    rw [Nat.pow_succ] at above
    exact Nat.div_eq_of_lt_le (by omega) (by omega)
  conv_lhs => rw [cut, bitsOf_add, bitsOf_add, one, Nat.div_eq_of_lt (by decide), bitsOf_zero]
  rfl

theorem bitsOf_cut {count n : Nat} (low : Nat) (fits : low ≤ count) :
    bitsOf count n = bitsOf low n ++ bitsOf (count - low) (n / 2 ^ low) := by
  conv_lhs => rw [← Nat.add_sub_cancel' fits, bitsOf_add]

theorem bitsBelowTop_add {low high n : Nat} (small : n < 2 ^ low) (some : high ≠ 0) :
    bitsBelowTop (n + 2 ^ low * high) = bitsOf low n ++ bitsBelowTop high := by
  have positive := Nat.two_pow_pos low
  have below := Nat.log2_self_le some
  have above : high < 2 ^ (high.log2 + 1) := Nat.lt_log2_self
  have top : (n + 2 ^ low * high).log2 = low + high.log2 := by
    have nonzero : n + 2 ^ low * high ≠ 0 := by
      have := Nat.mul_pos positive (Nat.pos_of_ne_zero some)
      omega
    rw [Nat.log2_eq_iff nonzero, Nat.pow_add, Nat.add_assoc, Nat.pow_add]
    constructor
    · exact Nat.le_trans (Nat.mul_le_mul_left _ below) (Nat.le_add_left _ _)
    · calc n + 2 ^ low * high < 2 ^ low * (high + 1) := by
            rw [Nat.mul_succ]
            omega
        _ ≤ 2 ^ low * 2 ^ (high.log2 + 1) := Nat.mul_le_mul_left _ above
  have shifted : (n + 2 ^ low * high) / 2 ^ low = high := by
    rw [Nat.add_mul_div_left _ _ positive, Nat.div_eq_of_lt small, Nat.zero_add]
  rw [bitsBelowTop, top, bitsOf_add, shifted, bitsBelowTop,
    bitsOf_congr (Nat.add_mul_mod_self_left n (2 ^ low) high)]

end PrimePool.General

import Mathlib.Data.Rat.Floor
import PrimePool.Core.OrphanRefund
import PrimePool.General.Proportion

/-!
# Exact amounts

The amounts of a settlement with rational numbers for `double`: a product or quotient is exact, and a cast to an
integer drops its fraction.
-/

namespace PrimePool.Core

open PrimePool.General PrimePool.LLD Std

instance : Double Rat where
  ofUInt64 nValue := nValue.toNat
  toUInt64 value := value.floor.toNat.toUInt64

theorem ofUInt64_rat (nValue : UInt64) : (Double.ofUInt64 nValue : Rat) = nValue.toNat := rfl

theorem toNat_toUInt64_rat {value : Rat} {nBound : UInt64} (bounded : ⌊value⌋₊ ≤ nBound.toNat) :
    (Double.toUInt64 value).toNat = ⌊value⌋₊ := by
  show value.floor.toNat.toUInt64.toNat = ⌊value⌋₊
  rw [Nat.toUInt64_eq, UInt64.toNat_ofNat']
  exact Nat.mod_eq_of_lt (Nat.lt_of_le_of_lt bounded nBound.toNat_lt)

theorem toUInt64_rat_le {value : Rat} {nBound : UInt64} (bounded : value ≤ nBound.toNat) :
    Double.toUInt64 value ≤ nBound := by
  have least : ⌊value⌋₊ ≤ nBound.toNat := Nat.floor_le_of_le bounded
  rw [UInt64.le_iff_toNat_le, toNat_toUInt64_rat least]
  exact least

theorem finderBonus_le (nReward : UInt64) : finderBonus Rat nReward ≤ nReward := by
  apply toUInt64_rat_le
  have positive : (0 : Rat) ≤ nReward.toNat := Nat.cast_nonneg _
  rw [ofUInt64_rat]
  exact mul_le_of_le_one_right positive (by norm_num)

theorem lessPoolFee_le {lfPoolFee : Rat} (fee : 0 ≤ lfPoolFee) (nReward : UInt64) :
    lessPoolFee lfPoolFee nReward ≤ nReward := by
  apply toUInt64_rat_le
  have positive : (0 : Rat) ≤ nReward.toNat := Nat.cast_nonneg _
  rw [ofUInt64_rat]
  exact sub_le_self _ (mul_nonneg positive fee)

theorem toNat_shareCredit {nRoundShares nTotalWeight : UInt64} (part : nRoundShares ≤ nTotalWeight)
    (nReward : UInt64) :
    (shareCredit Rat nRoundShares nTotalWeight nReward).toNat =
      proportion nReward.toNat nTotalWeight.toNat nRoundShares.toNat % 2 ^ 32 := by
  have exact : (Double.ofUInt64 nRoundShares / Double.ofUInt64 nTotalWeight : Rat) * Double.ofUInt64 nReward =
      ((nReward.toNat * nRoundShares.toNat : Nat) : Rat) / nTotalWeight.toNat := by
    rw [ofUInt64_rat, ofUInt64_rat, ofUInt64_rat, Nat.cast_mul]
    ring
  have whole : ⌊((nReward.toNat * nRoundShares.toNat : Nat) : Rat) / nTotalWeight.toNat⌋₊ =
      proportion nReward.toNat nTotalWeight.toNat nRoundShares.toNat := Rat.natFloor_natCast_div_natCast _ _
  have least : proportion nReward.toNat nTotalWeight.toNat nRoundShares.toNat ≤ nReward.toNat :=
    proportion_le (UInt64.le_iff_toNat_le.mp part)
  rw [shareCredit, UInt32.toNat_toUInt64, UInt64.toNat_toUInt32, exact, toNat_toUInt64_rat (whole ▸ least), whole]

end PrimePool.Core

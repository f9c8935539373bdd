import Mathlib.Algebra.BigOperators.Group.List.Basic
import Mathlib.Algebra.Order.Ring.Nat
import PrimePool.Coinbase

/-!
# Amounts in a coinbase

What is left of a 64-bit amount in an `int`, and what `Coinbase::AddTransaction` does, in natural numbers.
-/

namespace PrimePool

open Std

/-! ## Amounts in an `int` -/

theorem toInt_narrowInt (n : UInt64) :
    (narrowInt n).toInt =
      if n.toNat % 2 ^ 32 < 2 ^ 31 then (n.toNat % 2 ^ 32 : Int) else (n.toNat % 2 ^ 32 : Int) - 2 ^ 32 := by
  have low : (narrowInt n).toBitVec.toNat = n.toNat % 2 ^ 32 := UInt64.toNat_toUInt32 n
  rw [← Int32.toInt_toBitVec, BitVec.toInt_eq_toNat_cond, low]
  split <;> split <;> omega

theorem toNat_widenInt (i : Int32) : ((widenInt i).toNat : Int) = i.toInt % 2 ^ 64 := by
  have word : (widenInt i).toNat = i.toInt64.toBitVec.toNat := rfl
  have signed : i.toInt64.toBitVec.toInt = i.toInt := Int32.toInt_toInt64 i
  have bound := i.toInt64.toBitVec.isLt
  rw [BitVec.toInt_eq_toNat_cond] at signed
  rw [word, ← signed]
  split <;> omega

theorem narrowInt_neg_iff (n : UInt64) : narrowInt n < 0 ↔ 2 ^ 31 ≤ n.toNat % 2 ^ 32 := by
  rw [Int32.lt_iff_toInt_lt, toInt_narrowInt, Int32.toInt_zero]
  split <;> omega

theorem toNat_widenInt_narrowInt (n : UInt64) :
    (widenInt (narrowInt n)).toNat =
      if n.toNat % 2 ^ 32 < 2 ^ 31 then n.toNat % 2 ^ 32 else 2 ^ 64 - 2 ^ 32 + n.toNat % 2 ^ 32 := by
  have word := toNat_widenInt (narrowInt n)
  rw [toInt_narrowInt] at word
  split <;> split at word <;> omega

/-! ## Sums of outputs -/

namespace AmountMap

def amount (amounts : AmountMap) (nAddress : StdString) : Nat := (amounts.getD nAddress 0).toNat

def total (amounts : AmountMap) : Nat := (amounts.toList.map fun entry => entry.2.toNat).sum

theorem nodup_toList (amounts : AmountMap) : amounts.toList.Nodup := by
  have keys : (amounts.toList.map Prod.fst).Nodup := by
    rw [ExtTreeMap.map_fst_toList_eq_keys]
    exact ExtTreeMap.nodup_keys
  exact List.Pairwise.of_map Prod.fst (fun _ _ different same => different (congrArg Prod.fst same)) keys

theorem total_eq (amounts : AmountMap) (nAddress : StdString) :
    amounts.total = amounts.amount nAddress +
      ((amounts.toList.filter fun entry => entry.1 ≠ nAddress).map fun entry => entry.2.toNat).sum := by
  rw [total, amount, ExtTreeMap.getD_eq_getD_getElem?]
  cases found : amounts[nAddress]? with
  | none =>
      have others : (amounts.toList.filter fun entry => entry.1 ≠ nAddress) = amounts.toList := by
        apply List.filter_eq_self.mpr
        rintro ⟨key, nValue⟩ member
        have present := ExtTreeMap.mem_toList_iff_getElem?_eq_some.mp member
        simp only [ne_eq, decide_not, Bool.not_eq_eq_eq_not, Bool.not_true, decide_eq_false_iff_not]
        rintro rfl
        rw [found] at present
        cases present
      rw [others]
      simp
  | some nValue =>
      have split : amounts.toList.Perm
          ((nAddress, nValue) :: amounts.toList.filter fun entry => entry.1 ≠ nAddress) := by
        rw [List.perm_ext_iff_of_nodup amounts.nodup_toList]
        · rintro ⟨key, value⟩
          simp only [List.mem_cons, List.mem_filter, ExtTreeMap.mem_toList_iff_getElem?_eq_some, ne_eq,
            decide_not, Bool.not_eq_eq_eq_not, Bool.not_true, decide_eq_false_iff_not, Prod.mk.injEq]
          by_cases same : key = nAddress
          · subst same
            simp [found, eq_comm]
          · simp [same]
        · rw [List.nodup_cons]
          exact ⟨by simp, amounts.nodup_toList.filter _⟩
      rw [(split.map _).sum_eq]
      simp

theorem amount_le_total (amounts : AmountMap) (nAddress : StdString) :
    amounts.amount nAddress ≤ amounts.total := by
  rw [amounts.total_eq nAddress]
  exact Nat.le_add_right _ _

theorem toList_insert_filter (amounts : AmountMap) (nAddress : StdString) (nValue : UInt64) :
    ((amounts.insert nAddress nValue).toList.filter fun entry => entry.1 ≠ nAddress).Perm
      (amounts.toList.filter fun entry => entry.1 ≠ nAddress) := by
  rw [List.perm_ext_iff_of_nodup ((nodup_toList _).filter _) (amounts.nodup_toList.filter _)]
  rintro ⟨key, value⟩
  simp only [List.mem_filter, ExtTreeMap.mem_toList_iff_getElem?_eq_some, ExtTreeMap.getElem?_insert,
    LawfulEqCmp.compare_eq_iff_eq, ne_eq, decide_not, Bool.not_eq_eq_eq_not, Bool.not_true,
    decide_eq_false_iff_not]
  by_cases same : nAddress = key
  · simp [same]
  · simp [same]

theorem amount_add {amounts : AmountMap} {nAddress : StdString} {nValue : UInt64} (key : StdString)
    (fits : amounts.amount nAddress + nValue.toNat < 2 ^ 64) :
    (amounts.add nAddress nValue).amount key =
      amounts.amount key + if key = nAddress then nValue.toNat else 0 := by
  simp only [amount, add, ExtTreeMap.getD_insert, LawfulEqCmp.compare_eq_iff_eq]
  by_cases same : nAddress = key
  · subst same
    rw [amount] at fits
    rw [if_pos rfl, if_pos rfl, UInt64.toNat_add, Nat.mod_eq_of_lt fits]
  · rw [if_neg same, if_neg (Ne.symm same), Nat.add_zero]

theorem total_add {amounts : AmountMap} {nAddress : StdString} {nValue : UInt64}
    (fits : amounts.amount nAddress + nValue.toNat < 2 ^ 64) :
    (amounts.add nAddress nValue).total = amounts.total + nValue.toNat := by
  have others := ((toList_insert_filter amounts nAddress (amounts.getD nAddress 0 + nValue)).map
    fun entry => entry.2.toNat).sum_eq
  have own := amount_add nAddress fits
  rw [if_pos rfl] at own
  rw [total_eq _ nAddress, own, total_eq amounts nAddress, add, others]
  omega

end AmountMap

/-! ## Adding a transaction -/

namespace Coinbase

def remaining (coinbase : Coinbase) : Nat := coinbase.nMaxValue.toNat - coinbase.nCurrentValue.toNat

structure Sound (coinbase : Coinbase) : Prop where
  total : coinbase.mapOutputs.total = coinbase.nCurrentValue.toNat
  current : coinbase.nCurrentValue.toNat ≤ coinbase.nMaxValue.toNat
  max : coinbase.nMaxValue.toNat < 2 ^ 63

theorem sound_reset (coinbase : Coinbase) {nMax : UInt64} (small : nMax.toNat < 2 ^ 63) : (coinbase.reset nMax).Sound where
  total := rfl
  current := Nat.zero_le _
  max := small

theorem remaining_reset (coinbase : Coinbase) (nMax : UInt64) : (coinbase.reset nMax).remaining = nMax.toNat := rfl

theorem amount_reset (coinbase : Coinbase) (nMax : UInt64) (key : StdString) :
    (coinbase.reset nMax).mapOutputs.amount key = 0 := by
  rw [reset, AmountMap.amount, ExtTreeMap.getD_empty]
  rfl

variable {coinbase : Coinbase} (nAddress : StdString) {nValue : UInt64}

theorem isComplete_iff (current : coinbase.nCurrentValue.toNat ≤ coinbase.nMaxValue.toNat) :
    coinbase.isComplete = true ↔ coinbase.remaining = 0 := by
  rw [isComplete, beq_iff_eq, ← UInt64.toNat_inj, remaining]
  omega

theorem Sound.addOutput (sound : coinbase.Sound) (fits : nValue.toNat ≤ coinbase.remaining) :
    (coinbase.addOutput nAddress nValue).Sound ∧
      (coinbase.addOutput nAddress nValue).remaining = coinbase.remaining - nValue.toNat ∧
      ∀ key, (coinbase.addOutput nAddress nValue).mapOutputs.amount key =
        coinbase.mapOutputs.amount key + if key = nAddress then nValue.toNat else 0 := by
  obtain ⟨total, current, max⟩ := sound
  have bound := coinbase.mapOutputs.amount_le_total nAddress
  rw [remaining] at fits ⊢
  have small : coinbase.mapOutputs.amount nAddress + nValue.toNat < 2 ^ 64 := by omega
  have value : (coinbase.addOutput nAddress nValue).nCurrentValue.toNat =
      coinbase.nCurrentValue.toNat + nValue.toNat := by
    simp only [Coinbase.addOutput, UInt64.toNat_add]
    omega
  have same : (coinbase.addOutput nAddress nValue).nMaxValue.toNat = coinbase.nMaxValue.toNat := rfl
  refine ⟨⟨?_, by omega, by omega⟩, by rw [remaining]; omega, fun key => AmountMap.amount_add key small⟩
  rw [value, ← total]
  exact AmountMap.total_add small

theorem addTransaction_of_le (current : coinbase.nCurrentValue.toNat ≤ coinbase.nMaxValue.toNat)
    (fits : nValue.toNat ≤ coinbase.remaining) :
    ∃ left : UInt64, left.toNat = coinbase.remaining - nValue.toNat ∧
      coinbase.addTransaction nAddress nValue = (narrowInt left, coinbase.addOutput nAddress nValue) := by
  have bound := coinbase.nMaxValue.toNat_lt
  rw [remaining] at fits ⊢
  have value : (coinbase.nCurrentValue + nValue).toNat = coinbase.nCurrentValue.toNat + nValue.toNat := by
    rw [UInt64.toNat_add]
    omega
  refine ⟨coinbase.nMaxValue - (coinbase.nCurrentValue + nValue), ?_, ?_⟩
  · rw [UInt64.toNat_sub_of_le _ _ (UInt64.le_iff_toNat_le.mpr (by omega)), value]
    omega
  · rw [addTransaction, if_neg]
    · rfl
    · rw [gt_iff_lt, UInt64.lt_iff_toNat_lt, UInt64.add_comm, value]
      omega

theorem addTransaction_of_gt (current : coinbase.nCurrentValue.toNat ≤ coinbase.nMaxValue.toNat)
    (exceeds : coinbase.remaining < nValue.toNat)
    (small : coinbase.nCurrentValue.toNat + nValue.toNat < 2 ^ 64) :
    ∃ left : UInt64, left.toNat = 2 ^ 64 - (nValue.toNat - coinbase.remaining) ∧
      coinbase.addTransaction nAddress nValue = (narrowInt left, coinbase) := by
  rw [remaining] at exceeds ⊢
  have value : (nValue + coinbase.nCurrentValue).toNat = coinbase.nCurrentValue.toNat + nValue.toNat := by
    rw [UInt64.toNat_add]
    omega
  refine ⟨coinbase.nMaxValue - (nValue + coinbase.nCurrentValue), ?_, ?_⟩
  · rw [UInt64.toNat_sub, value]
    omega
  · rw [addTransaction, if_pos]
    rw [gt_iff_lt, UInt64.lt_iff_toNat_lt, value]
    omega

theorem addTransaction_of_negative (current : coinbase.nCurrentValue.toNat ≤ coinbase.nMaxValue.toNat)
    (max : coinbase.nMaxValue.toNat < 2 ^ 63) (negative : 2 ^ 64 - 2 ^ 31 ≤ nValue.toNat) :
    (coinbase.addTransaction nAddress nValue).2.nCurrentValue.toNat ≤ coinbase.nCurrentValue.toNat ∧
      (coinbase.addTransaction nAddress nValue).2.nMaxValue = coinbase.nMaxValue := by
  have bound := nValue.toNat_lt
  rw [addTransaction]
  split
  · exact ⟨Nat.le_refl _, rfl⟩
  · rename_i fits
    rw [gt_iff_lt, UInt64.lt_iff_toNat_lt, UInt64.toNat_add] at fits
    refine ⟨?_, rfl⟩
    simp only [Coinbase.addOutput, UInt64.toNat_add]
    omega

end Coinbase

end PrimePool

import PrimePool.CoinbaseAmounts
import PrimePool.General.Machine

/-!
# Calls on a coinbase

Any sequence of `Reset` and `AddTransaction`: whether the outputs stay within the value of the coinbase, and whether the
sign of the result says that nothing was added. Both the guard and the result are computed modulo a power of two.
-/

namespace PrimePool

open PrimePool.General Std

theorem AmountMap.total_add_mod (amounts : AmountMap) (nAddress : StdString) (nValue : UInt64) :
    (amounts.add nAddress nValue).total + amounts.amount nAddress =
      amounts.total + (amounts.amount nAddress + nValue.toNat) % 2 ^ 64 := by
  have others := ((toList_insert_filter amounts nAddress (amounts.getD nAddress 0 + nValue)).map
    fun entry => entry.2.toNat).sum_eq
  have own : (amounts.add nAddress nValue).amount nAddress = (amounts.amount nAddress + nValue.toNat) % 2 ^ 64 := by
    rw [amount, add, ExtTreeMap.getD_insert_self, UInt64.toNat_add]
    rfl
  rw [total_eq (amounts.add nAddress nValue) nAddress, own, total_eq amounts nAddress, add, others]
  omega

inductive CoinbaseCall where
  | reset (nMax : UInt64)
  | addTransaction (nAddress : StdString) (nValue : UInt64)

namespace Coinbase

def ofReward (nReward : UInt64) : Coinbase := { Coinbase.new with nMaxValue := nReward }

def step (coinbase : Coinbase) : CoinbaseCall → Option Coinbase
  | .reset nMax => some (coinbase.reset nMax)
  | .addTransaction nAddress nValue => some (coinbase.addTransaction nAddress nValue).2

/-- The outputs add up to the current value, which the coinbase can pay. -/
structure Backed (coinbase : Coinbase) : Prop where
  total : coinbase.mapOutputs.total = coinbase.nCurrentValue.toNat
  current : coinbase.nCurrentValue.toNat ≤ coinbase.nMaxValue.toNat

/-- The result is negative exactly when the output was not added. -/
def SignTells (coinbase : Coinbase) : CoinbaseCall → Prop
  | .reset _ => True
  | .addTransaction nAddress nValue =>
      (coinbase.addTransaction nAddress nValue).1 < 0 ↔
        (coinbase.addTransaction nAddress nValue).2 ≠ coinbase.addOutput nAddress nValue

instance (coinbase : Coinbase) : Decidable coinbase.Backed :=
  decidable_of_iff (coinbase.mapOutputs.total = coinbase.nCurrentValue.toNat ∧
    coinbase.nCurrentValue.toNat ≤ coinbase.nMaxValue.toNat)
    ⟨fun both => ⟨both.1, both.2⟩, fun backed => ⟨backed.total, backed.current⟩⟩

instance (coinbase : Coinbase) (call : CoinbaseCall) : Decidable (coinbase.SignTells call) := by
  cases call with
  | reset _ => exact isTrue trivial
  | addTransaction nAddress nValue => exact inferInstanceAs (Decidable (_ ↔ _))

def guarded (coinbase : Coinbase) (nValue : UInt64) : Nat := (coinbase.nCurrentValue.toNat + nValue.toNat) % 2 ^ 64

/-- What is added does not wrap the current value around, unless it wraps the output of the address as well, and what
remains or is missing fits in the `int`. -/
def Guards (coinbase : Coinbase) : CoinbaseCall → Prop
  | .reset _ => True
  | .addTransaction nAddress nValue =>
      if coinbase.guarded nValue ≤ coinbase.nMaxValue.toNat then
        (coinbase.nCurrentValue.toNat + nValue.toNat < 2 ^ 64 ∨
          2 ^ 64 ≤ coinbase.mapOutputs.amount nAddress + nValue.toNat) ∧
          (coinbase.nMaxValue.toNat - coinbase.guarded nValue) % 2 ^ 32 < 2 ^ 31
      else (coinbase.guarded nValue - coinbase.nMaxValue.toNat - 1) % 2 ^ 32 < 2 ^ 31

variable {coinbase : Coinbase} {nAddress : StdString} {nValue : UInt64}

theorem backed_ofReward (nReward : UInt64) : (ofReward nReward).Backed where
  total := rfl
  current := Nat.zero_le _

theorem backed_reset (coinbase : Coinbase) (nMax : UInt64) : (coinbase.reset nMax).Backed where
  total := rfl
  current := Nat.zero_le _

theorem toNat_guarded : (nValue + coinbase.nCurrentValue).toNat = coinbase.guarded nValue := by
  rw [UInt64.toNat_add, Nat.add_comm, guarded]

theorem nCurrentValue_addOutput (coinbase : Coinbase) (nAddress : StdString) (nValue : UInt64) :
    (coinbase.addOutput nAddress nValue).nCurrentValue.toNat = coinbase.guarded nValue :=
  UInt64.toNat_add _ _

theorem addTransaction_of_guarded_le (nAddress : StdString) (fits : coinbase.guarded nValue ≤ coinbase.nMaxValue.toNat) :
    (coinbase.addTransaction nAddress nValue).2 = coinbase.addOutput nAddress nValue ∧
      ((coinbase.addTransaction nAddress nValue).1 < 0 ↔
        2 ^ 31 ≤ (coinbase.nMaxValue.toNat - coinbase.guarded nValue) % 2 ^ 32) := by
  have passes : ¬ nValue + coinbase.nCurrentValue > coinbase.nMaxValue := by
    rw [gt_iff_lt, UInt64.lt_iff_toNat_lt, toNat_guarded]
    exact Nat.not_lt.mpr fits
  have left : (coinbase.nMaxValue - (coinbase.addOutput nAddress nValue).nCurrentValue).toNat =
      coinbase.nMaxValue.toNat - coinbase.guarded nValue := by
    rw [UInt64.toNat_sub_of_le _ _ (UInt64.le_iff_toNat_le.mpr ((nCurrentValue_addOutput _ _ _).trans_le fits)),
      nCurrentValue_addOutput]
  rw [addTransaction, if_neg passes, ← left]
  exact ⟨rfl, narrowInt_neg_iff _⟩

theorem addTransaction_of_lt_guarded (nAddress : StdString) (exceeds : coinbase.nMaxValue.toNat < coinbase.guarded nValue) :
    (coinbase.addTransaction nAddress nValue).2 = coinbase ∧
      ((coinbase.addTransaction nAddress nValue).1 < 0 ↔
        (coinbase.guarded nValue - coinbase.nMaxValue.toNat - 1) % 2 ^ 32 < 2 ^ 31) := by
  have refused : nValue + coinbase.nCurrentValue > coinbase.nMaxValue := by
    rw [gt_iff_lt, UInt64.lt_iff_toNat_lt, toNat_guarded]
    exact exceeds
  have left : (coinbase.nMaxValue - (nValue + coinbase.nCurrentValue)).toNat =
      2 ^ 64 - (coinbase.guarded nValue - coinbase.nMaxValue.toNat) := by
    have bound : coinbase.guarded nValue < 2 ^ 64 := Nat.mod_lt _ (by decide)
    rw [UInt64.toNat_sub, toNat_guarded]
    omega
  have bound : coinbase.guarded nValue < 2 ^ 64 := Nat.mod_lt _ (by decide)
  rw [addTransaction, if_pos refused]
  refine ⟨rfl, ?_⟩
  rw [narrowInt_neg_iff, left]
  omega

theorem backed_addOutput_iff (backed : coinbase.Backed) (fits : coinbase.guarded nValue ≤ coinbase.nMaxValue.toNat) :
    (coinbase.addOutput nAddress nValue).Backed ↔
      coinbase.nCurrentValue.toNat + nValue.toNat < 2 ^ 64 ∨
        2 ^ 64 ≤ coinbase.mapOutputs.amount nAddress + nValue.toNat := by
  have sum := coinbase.mapOutputs.total_add_mod nAddress nValue
  have part := coinbase.mapOutputs.amount_le_total nAddress
  have value := coinbase.nCurrentValue_addOutput nAddress nValue
  have bound := nValue.toNat_lt
  have currentBound := coinbase.nCurrentValue.toNat_lt
  rw [backed.total] at sum part
  have total : (coinbase.addOutput nAddress nValue).Backed ↔
      (coinbase.mapOutputs.add nAddress nValue).total = coinbase.guarded nValue := by
    constructor
    · intro after
      exact after.total.trans value
    · intro same
      exact ⟨same.trans value.symm, value.trans_le fits⟩
  rw [total, guarded]
  omega

theorem addOutput_ne (nonzero : nValue ≠ 0) : coinbase ≠ coinbase.addOutput nAddress nValue := by
  intro same
  have value := congrArg nCurrentValue same
  simp only [addOutput] at value
  exact nonzero (UInt64.left_eq_add.mp value)

theorem call_exact (backed : coinbase.Backed) {call : CoinbaseCall} {after : Coinbase}
    (taken : coinbase.step call = some after) : after.Backed ∧ coinbase.SignTells call ↔ coinbase.Guards call := by
  cases call with
  | reset nMax =>
      cases taken
      exact ⟨fun _ => trivial, fun _ => ⟨backed_reset coinbase nMax, trivial⟩⟩
  | addTransaction nAddress nValue =>
      cases taken
      rw [Guards, SignTells]
      split
      · rename_i fits
        obtain ⟨added, sign⟩ := addTransaction_of_guarded_le nAddress fits
        rw [added, sign, backed_addOutput_iff backed fits]
        simp
      · rename_i exceeds
        rw [Nat.not_le] at exceeds
        obtain ⟨kept, sign⟩ := addTransaction_of_lt_guarded nAddress exceeds
        have nonzero : nValue ≠ 0 := by
          rintro rfl
          have current := backed.current
          rw [guarded, UInt64.toNat_zero, Nat.add_zero, Nat.mod_eq_of_lt coinbase.nCurrentValue.toNat_lt] at exceeds
          omega
        rw [kept, sign]
        simp [backed, addOutput_ne nonzero]

theorem never_overspends_iff (coinbase : Coinbase) (backed : coinbase.Backed) (calls : List CoinbaseCall) :
    EachStep step (fun before call after => after.Backed ∧ before.SignTells call) calls coinbase ↔
      EachStep step (fun before call _ => before.Guards call) calls coinbase := by
  constructor
  · apply EachStep.of_invariant Backed _ backed
    intro before call after backed taken holds
    exact ⟨holds.1, (call_exact backed taken).mp holds⟩
  · apply EachStep.of_invariant Backed _ backed
    intro before call after backed taken guards
    have holds := (call_exact backed taken).mpr guards
    exact ⟨holds.1, holds⟩

theorem small_coinbase_backed :
    EachStep step (fun before call after => after.Backed ∧ before.SignTells call)
        [.addTransaction [65] 5, .addTransaction [66] 7] (ofReward 10) ↔
      EachStep step (fun before call _ => before.Guards call)
        [.addTransaction [65] 5, .addTransaction [66] 7] (ofReward 10) :=
  never_overspends_iff (ofReward 10) ⟨by decide +kernel, by decide⟩ _

/-- The second value is `-1` as an `int`. -/
theorem negative_value_added :
    ¬ EachStep step (fun before call after => after.Backed ∧ before.SignTells call)
      [.addTransaction [65] 5, .addTransaction [66] (widenInt (-1))] (ofReward 10) := by
  decide +kernel

end Coinbase

end PrimePool

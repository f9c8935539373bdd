import Mathlib.Algebra.Group.Fin.Basic
import Mathlib.Data.Fintype.Pi
import Mathlib.Data.Finite.Prod
import PrimePool.Util

/-!
# Words as bits
-/

namespace PrimePool

def bit (a : UInt64) (z : Fin 64) : Bool := a.toBitVec.getLsbD z.val

theorem bit_injective : Function.Injective bit := by
  intro a b same
  apply UInt64.toBitVec_inj.mp
  apply BitVec.eq_of_getLsbD_eq
  intro z small
  exact congrFun same ⟨z, small⟩

@[simp] theorem bit_xor (a b : UInt64) (z : Fin 64) : bit (a ^^^ b) z = (bit a z ^^ bit b z) := by
  simp [bit]

@[simp] theorem bit_or (a b : UInt64) (z : Fin 64) : bit (a ||| b) z = (bit a z || bit b z) := by
  simp [bit]

@[simp] theorem bit_and (a b : UInt64) (z : Fin 64) : bit (a &&& b) z = (bit a z && bit b z) := by
  simp [bit]

@[simp] theorem bit_not (a : UInt64) (z : Fin 64) : bit (~~~ a) z = ! bit a z := by
  simp [bit, z.isLt]

/-! ## Rotations -/

section

variable (a : UInt64) {offset : UInt64} (some : 0 < offset.toNat) (small : offset.toNat < 64) (z : Fin 64)

theorem bit_shiftLeft :
    bit (a <<< offset) z = (decide (offset.toNat ≤ z.val) && bit a (z - ⟨offset.toNat, small⟩)) := by
  have shift : (offset.toBitVec % 64).toNat = offset.toNat := Nat.mod_eq_of_lt small
  have below := z.isLt
  simp only [bit, UInt64.toBitVec_shiftLeft, BitVec.shiftLeft_eq', shift, BitVec.getLsbD_shiftLeft, Fin.sub_def]
  by_cases low : z.val < offset.toNat
  · simp [low, Nat.not_le.mpr low]
  · have place : (64 - offset.toNat + z.val) % 64 = z.val - offset.toNat := by omega
    simp [low, below, Nat.le_of_not_lt low, place]

include some in
/-- The bits that leave at the top come back at the bottom. -/
theorem bit_shiftRight :
    bit (a >>> (64 - offset)) z = (decide (z.val < offset.toNat) && bit a (z - ⟨offset.toNat, small⟩)) := by
  have back : (64 - offset).toNat = 64 - offset.toNat := by
    rw [UInt64.toNat_sub_of_le _ _ (by rw [UInt64.le_iff_toNat_le]; exact Nat.le_of_lt small)]
    rfl
  have shift : ((64 - offset).toBitVec % 64).toNat = 64 - offset.toNat := by
    have value : ((64 - offset).toBitVec % 64).toNat = (64 - offset).toNat % 64 := rfl
    rw [value, back]
    omega
  simp only [bit, UInt64.toBitVec_shiftRight, BitVec.ushiftRight_eq', shift, BitVec.getLsbD_ushiftRight, Fin.sub_def]
  by_cases low : z.val < offset.toNat
  · have place : 64 - offset.toNat + z.val < 64 := by omega
    simp [low, Nat.mod_eq_of_lt place]
  · have high : 64 ≤ 64 - offset.toNat + z.val := by omega
    simp [low, BitVec.getLsbD_of_ge _ _ high]

end

/-! ## Finitely many vectors -/

instance finiteUInt8 : Finite UInt8 := Finite.of_injective UInt8.toFin fun _ _ => UInt8.toFin_inj.mp

instance finiteUInt64 : Finite UInt64 := Finite.of_injective UInt64.toFin fun _ _ => UInt64.toFin_inj.mp

instance finiteVector {α : Type} [Finite α] {n : Nat} : Finite (Vector α n) :=
  Finite.of_injective (fun (v : Vector α n) (i : Fin n) => v.get i) fun _ _ same =>
    Vector.ext fun i inside => congrFun same ⟨i, inside⟩

end PrimePool

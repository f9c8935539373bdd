import Mathlib.Algebra.BigOperators.Group.List.Basic
import Mathlib.Algebra.Order.Ring.Nat

/-!
# Proportional parts

An amount divided in proportion to shares, each part rounded down: the parts never come to more than the amount, and
more shares never get less. Sums of words, and sums over lists without repetitions.
-/

namespace PrimePool.General

def proportion (amount total share : Nat) : Nat := amount * share / total

theorem proportion_mono (amount total : Nat) {less more : Nat} (le : less ≤ more) :
    proportion amount total less ≤ proportion amount total more :=
  Nat.div_le_div_right (Nat.mul_le_mul_left amount le)

theorem proportion_le {amount total share : Nat} (part : share ≤ total) : proportion amount total share ≤ amount := by
  rw [proportion]
  rcases Nat.eq_zero_or_pos total with none | positive
  · rw [none, Nat.div_zero]
    exact Nat.zero_le amount
  · apply Nat.div_le_of_le_mul
    rw [Nat.mul_comm total]
    exact Nat.mul_le_mul_left amount part

theorem mul_sum_proportion_le (amount total : Nat) (shares : List Nat) :
    total * (shares.map (proportion amount total)).sum ≤ amount * shares.sum := by
  induction shares with
  | nil => simp
  | cons share shares ih =>
      have rounded : total * proportion amount total share ≤ amount * share := Nat.mul_div_le _ _
      simp only [List.map_cons, List.sum_cons, Nat.mul_add]
      exact Nat.add_le_add rounded ih

theorem sum_proportion_le {amount total : Nat} {shares : List Nat} (parts : shares.sum ≤ total) :
    (shares.map (proportion amount total)).sum ≤ amount := by
  rcases Nat.eq_zero_or_pos total with none | positive
  · subst none
    have nothing : proportion amount 0 = fun _ => 0 := funext fun share => Nat.div_zero _
    simp [nothing]
  · apply Nat.le_of_mul_le_mul_left _ positive
    calc total * (shares.map (proportion amount total)).sum
        ≤ amount * shares.sum := mul_sum_proportion_le amount total shares
      _ ≤ amount * total := Nat.mul_le_mul_left amount parts
      _ = total * amount := Nat.mul_comm amount total

variable {ι : Type}

/-! ## Sums -/

theorem toNat_foldl_add (word : ι → UInt64) (items : List ι) (start : UInt64) :
    (items.foldl (fun total i => total + word i) start).toNat =
      (start.toNat + (items.map fun i => (word i).toNat).sum) % 2 ^ 64 := by
  induction items generalizing start with
  | nil => simp [Nat.mod_eq_of_lt start.toNat_lt]
  | cons i items ih =>
      rw [List.foldl_cons, ih, UInt64.toNat_add, List.map_cons, List.sum_cons, Nat.mod_add_mod, Nat.add_assoc]

theorem sum_map_ite_eq [DecidableEq ι] {items : List ι} (distinct : items.Nodup) (i : ι) (amount : Nat) :
    (items.map fun other => if other = i then amount else 0).sum = if i ∈ items then amount else 0 := by
  induction items with
  | nil => rfl
  | cons other items ih =>
      rw [List.nodup_cons] at distinct
      rw [List.map_cons, List.sum_cons, ih distinct.2]
      by_cases same : other = i
      · subst same
        simp [distinct.1]
      · simp [same, Ne.symm same]

end PrimePool.General

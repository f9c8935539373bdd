import Mathlib.Logic.Function.Iterate
import PrimePool.General.Blocks

/-!
# Sponges

A sponge takes items in at the positions of its state below the rate, and permutes the state when the rate is reached.
Squeezed, it gives out the items at these positions, and permutes the state before it gives out more of them.
-/

namespace PrimePool.General

structure Sponge (σ α : Type) where
  inject : σ → Nat → α → σ
  extract : σ → Nat → α
  permute : σ → σ
  rate : Nat
  positive : 0 < rate

/-- A state and the position of the next item. -/
structure Wet (σ : Type) where
  state : σ
  index : Nat

namespace Sponge

variable {σ α : Type} (sponge : Sponge σ α)

/-! ## Taking in -/

def injectAll (state : σ) (start : Nat) : List α → σ
  | [] => state
  | item :: items => injectAll (sponge.inject state start item) (start + 1) items

theorem injectAll_append (state : σ) (start : Nat) (first second : List α) :
    sponge.injectAll state start (first ++ second) =
      sponge.injectAll (sponge.injectAll state start first) (start + first.length) second := by
  induction first generalizing state start with
  | nil => rfl
  | cons item first ih =>
      rw [List.cons_append, injectAll, ih, injectAll, List.length_cons]
      congr 1
      omega

def absorb (s : Wet σ) (item : α) : Wet σ :=
  let state := sponge.inject s.state s.index item
  if s.index + 1 = sponge.rate then ⟨sponge.permute state, 0⟩ else ⟨state, s.index + 1⟩

def absorbAll (s : Wet σ) (items : List α) : Wet σ := items.foldl sponge.absorb s

@[simp] theorem absorbAll_nil (s : Wet σ) : sponge.absorbAll s [] = s := rfl

theorem absorbAll_append (s : Wet σ) (first second : List α) :
    sponge.absorbAll s (first ++ second) = sponge.absorbAll (sponge.absorbAll s first) second :=
  List.foldl_append

theorem absorb_index_lt {s : Wet σ} (inside : s.index < sponge.rate) (item : α) :
    (sponge.absorb s item).index < sponge.rate := by
  rw [absorb]
  split
  · exact sponge.positive
  · simp only
    omega

theorem absorbAll_index_lt {s : Wet σ} (inside : s.index < sponge.rate) (items : List α) :
    (sponge.absorbAll s items).index < sponge.rate := by
  induction items generalizing s with
  | nil => exact inside
  | cons item items ih => exact ih (sponge.absorb_index_lt inside item)

theorem absorbAll_within {s : Wet σ} {items : List α} (fits : s.index + items.length < sponge.rate) :
    sponge.absorbAll s items = ⟨sponge.injectAll s.state s.index items, s.index + items.length⟩ := by
  induction items generalizing s with
  | nil => rfl
  | cons item items ih =>
      rw [List.length_cons] at fits
      have next : sponge.absorb s item = ⟨sponge.inject s.state s.index item, s.index + 1⟩ := if_neg (by omega)
      rw [absorbAll, List.foldl_cons, ← absorbAll, next, ih (by simp only; omega), injectAll, List.length_cons]
      simp only [Wet.mk.injEq, true_and]
      omega

theorem absorbAll_fills {s : Wet σ} {items : List α} (some : items ≠ [])
    (fills : s.index + items.length = sponge.rate) :
    sponge.absorbAll s items = ⟨sponge.permute (sponge.injectAll s.state s.index items), 0⟩ := by
  have cut := List.dropLast_append_getLast some
  have length : items.dropLast.length = items.length - 1 := List.length_dropLast
  have positive := List.length_pos_iff.mpr some
  have last : sponge.absorb ⟨sponge.injectAll s.state s.index items.dropLast, s.index + items.dropLast.length⟩
      (items.getLast some) = ⟨sponge.permute (sponge.injectAll s.state s.index items), 0⟩ := by
    conv_rhs => rw [← cut, injectAll_append, injectAll, injectAll]
    rw [absorb]
    exact if_pos (by simp only; omega)
  have before := @absorbAll_within _ _ sponge s items.dropLast (by omega)
  rw [← last, ← before]
  conv_lhs => rw [← cut, absorbAll_append]
  rfl

def absorbBlock (state : σ) (block : List α) : σ := sponge.permute (sponge.injectAll state 0 block)

theorem absorbAll_block {state : σ} {block : List α} (full : block.length = sponge.rate) :
    sponge.absorbAll ⟨state, 0⟩ block = ⟨sponge.absorbBlock state block, 0⟩ := by
  have some : block ≠ [] := List.ne_nil_of_length_pos (by rw [full]; exact sponge.positive)
  exact sponge.absorbAll_fills some (by simp only; omega)

theorem absorbAll_blocks {state : σ} {blocks : List (List α)} (full : ∀ block ∈ blocks, block.length = sponge.rate) :
    sponge.absorbAll ⟨state, 0⟩ blocks.flatten = ⟨blocks.foldl sponge.absorbBlock state, 0⟩ := by
  induction blocks generalizing state with
  | nil => rfl
  | cons block blocks ih =>
      rw [List.flatten_cons, absorbAll_append, sponge.absorbAll_block (full block List.mem_cons_self),
        ih fun block member => full block (List.mem_cons_of_mem _ member), List.foldl_cons]

/-- Items taken in from position 0: the whole blocks, and what is left of the items in the next one. -/
theorem absorbAll_fresh (state : σ) (items : List α) :
    sponge.absorbAll ⟨state, 0⟩ items =
      ⟨sponge.injectAll ((blocks sponge.rate items).foldl sponge.absorbBlock state) 0
          (items.drop (items.length / sponge.rate * sponge.rate)), items.length % sponge.rate⟩ := by
  have enough := Nat.div_mul_le_self items.length sponge.rate
  have short := Nat.mod_lt items.length sponge.positive
  have divided := Nat.div_add_mod' items.length sponge.rate
  have rest : (items.drop (items.length / sponge.rate * sponge.rate)).length = items.length % sponge.rate := by
    rw [List.length_drop]
    omega
  conv_lhs => rw [← List.take_append_drop (items.length / sponge.rate * sponge.rate) items, absorbAll_append,
    ← takeBlocks_flatten, sponge.absorbAll_blocks fun block member => length_of_mem_takeBlocks enough member]
  rw [sponge.absorbAll_within (by simp only; omega), ← blocks, rest, Nat.zero_add]

/-! ## Giving out -/

def squeeze (s : Wet σ) : α × Wet σ :=
  let s' := if s.index = sponge.rate then ⟨sponge.permute s.state, 0⟩ else s
  (sponge.extract s'.state s'.index, ⟨s'.state, s'.index + 1⟩)

def squeezeMany : Nat → Wet σ → List α × Wet σ
  | 0, s => ([], s)
  | count + 1, s =>
      let (item, s') := sponge.squeeze s
      let (items, s'') := squeezeMany count s'
      (item :: items, s'')

theorem squeezeMany_add (first second : Nat) (s : Wet σ) :
    sponge.squeezeMany (first + second) s =
      ((sponge.squeezeMany first s).1 ++ (sponge.squeezeMany second (sponge.squeezeMany first s).2).1,
        (sponge.squeezeMany second (sponge.squeezeMany first s).2).2) := by
  induction first generalizing s with
  | zero => simp [squeezeMany]
  | succ first ih => simp only [Nat.succ_add, squeezeMany, ih, List.cons_append]

@[simp] theorem length_squeezeMany (count : Nat) (s : Wet σ) : (sponge.squeezeMany count s).1.length = count := by
  induction count generalizing s with
  | zero => rfl
  | succ count ih => simp only [squeezeMany, List.length_cons, ih]

theorem squeezeMany_index_le {s : Wet σ} (inside : s.index ≤ sponge.rate) (count : Nat) :
    (sponge.squeezeMany count s).2.index ≤ sponge.rate := by
  induction count generalizing s with
  | zero => exact inside
  | succ count ih =>
      have positive := sponge.positive
      have next : (sponge.squeeze s).2.index ≤ sponge.rate := by
        simp only [squeeze]
        split
        · exact positive
        · omega
      exact ih next

def extractAll (state : σ) (start count : Nat) : List α :=
  (List.range' start count).map (sponge.extract state)

theorem squeezeMany_within {count : Nat} {s : Wet σ} (fits : s.index + count ≤ sponge.rate) :
    sponge.squeezeMany count s = (sponge.extractAll s.state s.index count, ⟨s.state, s.index + count⟩) := by
  induction count generalizing s with
  | zero => rfl
  | succ count ih =>
      have room : s.index ≠ sponge.rate := by omega
      have one : sponge.squeeze s = (sponge.extract s.state s.index, ⟨s.state, s.index + 1⟩) := by
        rw [squeeze]
        simp only [if_neg room]
      rw [squeezeMany, one]
      simp only
      rw [ih (by simp only; omega)]
      simp only [extractAll, List.range'_succ, List.map_cons, Nat.add_assoc, Nat.add_comm 1]

theorem squeezeMany_full {count : Nat} {s : Wet σ} (some : count ≠ 0) (full : s.index = sponge.rate) :
    sponge.squeezeMany count s = sponge.squeezeMany count ⟨sponge.permute s.state, 0⟩ := by
  have room : (0 : Nat) ≠ sponge.rate := Nat.ne_of_lt sponge.positive
  cases count with
  | zero => exact absurd rfl some
  | succ count => simp only [squeezeMany, squeeze, if_pos full, if_neg room]

/-- What a sponge gives out from position 0: every permuted state down to its rate. -/
def output (state : σ) (k : Nat) : α := sponge.extract (sponge.permute^[k / sponge.rate] state) (k % sponge.rate)

theorem squeezeMany_fresh (state : σ) (count : Nat) :
    (sponge.squeezeMany count ⟨state, 0⟩).1 = (List.range count).map (sponge.output state) := by
  induction count using Nat.strongRecOn generalizing state with
  | _ count ih =>
      have early (k : Nat) (small : k < sponge.rate) : sponge.output state k = sponge.extract state k := by
        rw [output, Nat.div_eq_of_lt small, Nat.mod_eq_of_lt small, Function.iterate_zero_apply]
      by_cases short : count ≤ sponge.rate
      · rw [sponge.squeezeMany_within (by simpa using short), extractAll, ← List.range_eq_range']
        apply List.map_congr_left
        intro k member
        have := List.mem_range.mp member
        exact (early k (by omega)).symm
      · have cut : count = sponge.rate + (count - sponge.rate) := by omega
        have less := sponge.positive
        rw [cut, squeezeMany_add, List.range_add, List.map_append, List.map_map]
        simp only
        rw [sponge.squeezeMany_within (by simp), sponge.squeezeMany_full (by omega) (by simp), ih _ (by omega),
          extractAll, ← List.range_eq_range']
        congr 1
        · apply List.map_congr_left
          intro k member
          exact (early k (List.mem_range.mp member)).symm
        · apply List.map_congr_left
          intro k _
          rw [Function.comp_apply, output, output, Nat.add_div_left _ less, Nat.add_mod_left,
            Function.iterate_succ_apply]

end Sponge

end PrimePool.General

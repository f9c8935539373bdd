import Mathlib.Data.List.Perm.Basic

/-!
# Sweeps

Entries at places, made in cycles. An entry of a later cycle sweeps away what the cycles before it left at its place
and at the places below.
-/

namespace PrimePool.General

variable {ι : Type} (cycle place : ι → Nat)

def Swept (entries : List ι) (entry : ι) : Prop :=
  ∃ later ∈ entries, cycle entry < cycle later ∧ place entry ≤ place later

instance (entries : List ι) (entry : ι) : Decidable (Swept cycle place entries entry) :=
  inferInstanceAs (Decidable (∃ later ∈ entries, _))

def standing (entries : List ι) : List ι := entries.filter fun entry => ¬ Swept cycle place entries entry

variable {cycle place} {entries : List ι} {entry new : ι}

theorem mem_standing : entry ∈ standing cycle place entries ↔ entry ∈ entries ∧ ¬ Swept cycle place entries entry := by
  rw [standing, List.mem_filter, decide_eq_true_eq]

theorem swept_append :
    Swept cycle place (entries ++ [new]) entry ↔
      Swept cycle place entries entry ∨ cycle entry < cycle new ∧ place entry ≤ place new := by
  simp only [Swept, List.mem_append, List.mem_singleton, or_and_right, exists_or, exists_eq_left]

theorem standing_append (newest : ∀ entry ∈ entries, cycle entry ≤ cycle new) :
    standing cycle place (entries ++ [new]) =
      ((standing cycle place entries).filter fun entry => ¬ (cycle entry < cycle new ∧ place entry ≤ place new)) ++
        [new] := by
  have stands : ¬ Swept cycle place (entries ++ [new]) new := by
    rw [swept_append]
    rintro (⟨later, member, after, -⟩ | ⟨after, -⟩)
    · exact absurd (newest later member) (Nat.not_le.mpr after)
    · exact absurd after (Nat.lt_irrefl _)
  rw [standing, List.filter_append, List.filter_singleton, decide_eq_true stands, standing, List.filter_filter]
  congr 1
  apply List.filter_congr
  intro entry _
  rw [← Bool.decide_and, decide_eq_decide, swept_append, not_or, and_comm]

/-! ## Changing a range of places -/

theorem getElem?_foldl_modify {α : Type} (change : α → α) (slots : List α) (first count j : Nat) :
    ((List.range' first count).foldl (fun slots i => slots.modify i change) slots)[j]? =
      slots[j]?.map fun slot => if first ≤ j ∧ j < first + count then change slot else slot := by
  induction count with
  | zero =>
      have outside : ¬ (first ≤ j ∧ j < first + 0) := by omega
      simp only [List.range'_zero, List.foldl_nil, outside, if_false, Option.map_id']
  | succ count ih =>
      rw [List.range'_concat, List.foldl_append, List.foldl_cons, List.foldl_nil, List.getElem?_modify, ih,
        Option.map_eq_map, Option.map_map]
      congr 1
      funext slot
      by_cases last : first + 1 * count = j
      · have inside : first ≤ j ∧ j < first + (count + 1) := by omega
        have before : ¬ (first ≤ j ∧ j < first + count) := by omega
        rw [Function.comp_apply, if_pos last, if_neg before, if_pos inside]
      · have same : (first ≤ j ∧ j < first + (count + 1)) ↔ (first ≤ j ∧ j < first + count) := by omega
        simp only [last, same, if_false, Function.comp_apply]

theorem length_foldl_modify {α : Type} (change : α → α) (places : List Nat) (slots : List α) :
    (places.foldl (fun slots i => slots.modify i change) slots).length = slots.length := by
  induction places generalizing slots with
  | nil => rfl
  | cons i places ih => rw [List.foldl_cons, ih, List.length_modify]

/-! ## The entries by their places -/

theorem perm_flatMap_filter (place : ι → Nat) (entries : List ι) (count : Nat) :
    ((List.range count).flatMap fun j => entries.filter (place · = j)).Perm (entries.filter (place · < count)) := by
  induction count with
  | zero => simp
  | succ count ih =>
      rw [List.range_succ, List.flatMap_append, List.flatMap_singleton]
      refine (ih.append_right _).trans ?_
      have parts := List.filter_append_perm (fun entry => decide (place entry < count))
        (entries.filter (place · < count + 1))
      rw [List.filter_filter, List.filter_filter] at parts
      refine List.Perm.trans (List.Perm.of_eq ?_) parts
      congr 1
      · apply List.filter_congr
        intro entry _
        rw [← Bool.decide_and, decide_eq_decide]
        omega
      · apply List.filter_congr
        intro entry _
        rw [← decide_not, ← Bool.decide_and, decide_eq_decide]
        omega

end PrimePool.General

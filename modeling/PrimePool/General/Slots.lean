import Mathlib.Data.List.Basic

/-!
# Slots

A list of slots that are vacant or hold a value. A value goes into the first vacant slot, or into a new one behind them.
-/

namespace PrimePool.General

variable {α : Type}

def fill (slots : List (Option α)) (a : α) : Nat × List (Option α) :=
  match slots.findIdx? Option.isNone with
  | some i => (i, slots.set i (some a))
  | none => (slots.length, slots ++ [some a])

def occupied (slots : List (Option α)) : Nat := slots.countP Option.isSome

theorem vacant_of_findIdx? {slots : List (Option α)} {i : Nat} (free : slots.findIdx? Option.isNone = some i) :
    slots[i]? = some none := by
  obtain ⟨inside, vacant, -⟩ := List.findIdx?_eq_some_iff_getElem.mp free
  rw [List.getElem?_eq_getElem inside, Option.isNone_iff_eq_none.mp vacant]

theorem fill_vacant (slots : List (Option α)) (a b : α) : slots[(fill slots a).1]? ≠ some (some b) := by
  unfold fill
  split
  · rename_i i free
    rw [vacant_of_findIdx? free]
    exact fun same => nomatch Option.some.inj same
  · rw [List.getElem?_eq_none (Nat.le_refl _)]
    exact fun same => nomatch same

theorem getElem?_fill (slots : List (Option α)) (a : α) (j : Nat) :
    (fill slots a).2[j]? = if (fill slots a).1 = j then some (some a) else slots[j]? := by
  unfold fill
  split
  · rename_i i free
    obtain ⟨inside, -⟩ := List.getElem?_eq_some_iff.mp (vacant_of_findIdx? free)
    rw [List.getElem?_set, if_pos inside]
  · rcases Nat.lt_trichotomy j slots.length with inside | rfl | behind
    · rw [if_neg (Nat.ne_of_gt inside), List.getElem?_append_left inside]
    · rw [if_pos rfl, List.getElem?_concat_length]
    · rw [if_neg (Nat.ne_of_lt behind), List.getElem?_eq_none (by simp; omega), List.getElem?_eq_none (Nat.le_of_lt behind)]

theorem occupied_fill (slots : List (Option α)) (a : α) : occupied (fill slots a).2 = occupied slots + 1 := by
  unfold fill occupied
  split
  · rename_i i free
    have vacant := vacant_of_findIdx? free
    obtain ⟨inside, found⟩ := List.getElem?_eq_some_iff.mp vacant
    rw [List.countP_set inside, found]
    rfl
  · rw [List.countP_append]
    rfl

/-- A slot is opened only when all are taken. -/
theorem length_fill_le (slots : List (Option α)) (a : α) :
    (fill slots a).2.length ≤ max slots.length (occupied slots + 1) := by
  unfold fill
  split
  · exact Nat.le_trans (Nat.le_of_eq List.length_set) (Nat.le_max_left _ _)
  · rename_i full
    have taken : occupied slots = slots.length := by
      refine List.countP_eq_length.mpr fun slot member => ?_
      have not_vacant := List.findIdx?_eq_none_iff.mp full slot member
      rwa [← Option.not_isSome, Bool.not_eq_false'] at not_vacant
    rw [taken, List.length_append]
    exact Nat.le_max_right _ _

theorem occupied_set_none {slots : List (Option α)} {i : Nat} {a : α} (found : slots[i]? = some (some a)) :
    occupied (slots.set i none) + 1 = occupied slots := by
  obtain ⟨inside, held⟩ := List.getElem?_eq_some_iff.mp found
  have positive : 0 < slots.countP Option.isSome :=
    List.countP_pos_iff.mpr ⟨some a, List.mem_of_getElem? found, rfl⟩
  rw [occupied, occupied, List.countP_set inside, held]
  simp only [Option.isSome_some, Option.isSome_none, if_true, Bool.false_eq_true, if_false]
  omega

end PrimePool.General

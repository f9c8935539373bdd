import Mathlib.Data.List.Nodup

/-!
# Tallies

The sum of an amount over the rows of a table that are selected.
-/

namespace PrimePool.General

variable {α κ : Type} {amount : α → Int} {p q : α → Bool} {rows : List α}

def tally (amount : α → Int) (p : α → Bool) : List α → Int
  | [] => 0
  | row :: rows => (if p row then amount row else 0) + tally amount p rows

@[simp] theorem tally_nil : tally amount p [] = 0 := rfl

theorem tally_cons (row : α) (rows : List α) :
    tally amount p (row :: rows) = (if p row then amount row else 0) + tally amount p rows := rfl

@[simp] theorem tally_append (rows more : List α) :
    tally amount p (rows ++ more) = tally amount p rows + tally amount p more := by
  induction rows with
  | nil => rw [List.nil_append, tally_nil, Int.zero_add]
  | cons row rows ih => rw [List.cons_append, tally_cons, tally_cons, ih, Int.add_assoc]

theorem tally_congr (same : ∀ row ∈ rows, p row = q row) : tally amount p rows = tally amount q rows := by
  induction rows with
  | nil => rfl
  | cons row rows ih =>
      obtain ⟨first, rest⟩ := List.forall_mem_cons.mp same
      rw [tally_cons, tally_cons, first, ih rest]

theorem tally_eq_zero (none : ∀ row ∈ rows, p row = false) : tally amount p rows = 0 := by
  induction rows with
  | nil => rfl
  | cons row rows ih =>
      obtain ⟨first, rest⟩ := List.forall_mem_cons.mp none
      rw [tally_cons, first, if_neg Bool.false_ne_true, ih rest, Int.add_zero]

theorem tally_or (apart : ∀ row ∈ rows, p row = true → q row = false) :
    tally amount (fun row => p row || q row) rows = tally amount p rows + tally amount q rows := by
  induction rows with
  | nil => rfl
  | cons row rows ih =>
      obtain ⟨first, rest⟩ := List.forall_mem_cons.mp apart
      rw [tally_cons, tally_cons, tally_cons, ih rest]
      cases chosen : p row with
      | true =>
          rw [first chosen, Bool.true_or, if_pos rfl, if_neg Bool.false_ne_true]
          omega
      | false =>
          rw [Bool.false_or, if_neg Bool.false_ne_true]
          omega

theorem tally_filter (p q : α → Bool) (rows : List α) :
    tally amount p (rows.filter q) = tally amount (fun row => p row && q row) rows := by
  induction rows with
  | nil => rfl
  | cons row rows ih =>
      rw [List.filter_cons, tally_cons, ← ih]
      cases q row with
      | true => rw [if_pos rfl, tally_cons, Bool.and_true]
      | false => rw [if_neg Bool.false_ne_true, Bool.and_false, if_neg Bool.false_ne_true, Int.zero_add]

/-- What is selected falls into what a filter keeps and what it drops. -/
theorem tally_split (p q : α → Bool) (rows : List α) :
    tally amount p rows = tally amount p (rows.filter q) + tally amount (fun row => p row && !q row) rows := by
  have parts : ∀ row ∈ rows, p row = ((p row && q row) || (p row && !q row)) := by
    intro row _
    cases p row <;> cases q row <;> rfl
  rw [tally_filter, tally_congr parts, tally_or]
  intro row _ kept
  cases chosen : q row with
  | true => rw [Bool.not_true, Bool.and_false]
  | false => rw [chosen, Bool.and_false] at kept; cases kept

/-- Where only the rows of one key are selected. -/
theorem tally_flatMap [DecidableEq κ] {rowsOf : κ → List α} {keys : List κ} (distinct : keys.Nodup) (key : κ)
    (others : ∀ other, other ≠ key → tally amount p (rowsOf other) = 0) :
    tally amount p (keys.flatMap rowsOf) = if key ∈ keys then tally amount p (rowsOf key) else 0 := by
  induction keys with
  | nil => rfl
  | cons first keys ih =>
      rw [List.nodup_cons] at distinct
      rw [List.flatMap_cons, tally_append, ih distinct.2]
      by_cases same : first = key
      · subst same
        rw [if_neg distinct.1, if_pos List.mem_cons_self, Int.add_zero]
      · rw [others first same, Int.zero_add]
        exact if_congr (by rw [List.mem_cons, or_iff_right (Ne.symm same)]) rfl rfl

/-- Rows of some keys and one label are deleted. -/
theorem tally_delete {ρ : Type} [DecidableEq κ] [DecidableEq ρ] (keyOf : α → κ) (labelOf : α → ρ) (some : κ → Bool)
    (label : ρ) (wanted : ρ → Bool) (key : κ) (rows : List α) :
    tally amount (fun row => keyOf row = key && wanted (labelOf row)) rows =
      tally amount (fun row => keyOf row = key && wanted (labelOf row))
          (rows.filter fun row => !(some (keyOf row) && labelOf row = label)) +
        if some key = true ∧ wanted label = true then
          tally amount (fun row => keyOf row = key && labelOf row = label) rows
        else 0 := by
  rw [tally_split _ fun row => !(some (keyOf row) && labelOf row = label)]
  congr 1
  split
  · rename_i deleted
    refine tally_congr fun row _ => ?_
    by_cases same : keyOf row = key <;> by_cases labelled : labelOf row = label <;> simp [same, labelled, deleted]
  · rename_i other
    refine tally_eq_zero fun row _ => ?_
    by_cases same : keyOf row = key <;> by_cases labelled : labelOf row = label <;> simp [same, labelled]
    intro chosen
    exact Bool.eq_false_iff.mpr fun deleted => other ⟨deleted, chosen⟩

end PrimePool.General

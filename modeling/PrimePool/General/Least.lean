import Mathlib.Data.List.Basic

/-!
# Least loads

The first of the least loads of a list, and loads that stay level as long as each addition goes to it.
-/

namespace PrimePool.General

/-- The loop keeps the least load so far and its index. -/
def leastFrom {α : Type} [LT α] [DecidableLT α] (least : α × Nat) (loads : List (α × Nat)) : α × Nat :=
  loads.foldl (fun least load => if load.1 < least.1 then load else least) least

def leastIndex {α : Type} [LT α] [DecidableLT α] : List α → Nat
  | [] => 0
  | load :: loads => (leastFrom (load, 0) (loads.zipIdx 1)).2

section Least

variable {α : Type} [LE α] [LT α] [DecidableLT α] [Std.IsLinearOrder α] [Std.LawfulOrderLT α]

theorem leastFrom_le (least : α × Nat) (loads : List (α × Nat)) :
    (leastFrom least loads).1 ≤ least.1 ∧ ∀ load ∈ loads, (leastFrom least loads).1 ≤ load.1 := by
  induction loads generalizing least with
  | nil => exact ⟨Std.le_refl _, fun _ member => nomatch member⟩
  | cons load loads ih =>
      obtain ⟨below, others⟩ := ih (if load.1 < least.1 then load else least)
      have both : (if load.1 < least.1 then load else least).1 ≤ least.1 ∧
          (if load.1 < least.1 then load else least).1 ≤ load.1 := by
        split
        · rename_i less
          exact ⟨Std.le_of_lt less, Std.le_refl _⟩
        · rename_i more
          exact ⟨Std.le_refl _, Std.not_lt.mp more⟩
      refine ⟨Std.le_trans below both.1, List.forall_mem_cons.mpr ⟨Std.le_trans below both.2, others⟩⟩

omit [LE α] [Std.IsLinearOrder α] [Std.LawfulOrderLT α] in
theorem leastFrom_mem (least : α × Nat) (loads : List (α × Nat)) : leastFrom least loads ∈ least :: loads := by
  induction loads generalizing least with
  | nil => exact List.mem_cons_self
  | cons load loads ih =>
      have found := ih (if load.1 < least.1 then load else least)
      rcases List.mem_cons.mp found with first | later
      · rw [leastFrom, List.foldl_cons, ← leastFrom, first]
        split
        · exact List.mem_cons_of_mem _ List.mem_cons_self
        · exact List.mem_cons_self
      · exact List.mem_cons_of_mem _ (List.mem_cons_of_mem _ later)

theorem leastIndex_eq {loads : List α} (nonempty : loads ≠ []) :
    ∃ least, loads[leastIndex loads]? = some least ∧ ∀ load ∈ loads, least ≤ load := by
  obtain ⟨first, rest, rfl⟩ := List.exists_cons_of_ne_nil nonempty
  obtain ⟨below, others⟩ := leastFrom_le (first, 0) (rest.zipIdx 1)
  refine ⟨(leastFrom (first, 0) (rest.zipIdx 1)).1, ?_, ?_⟩
  · have place : ∀ load ∈ (first, 0) :: rest.zipIdx 1, (first :: rest)[load.2]? = some load.1 := by
      refine List.forall_mem_cons.mpr ⟨rfl, fun load member => ?_⟩
      obtain ⟨behind, found⟩ := List.mk_mem_zipIdx_iff_le_and_getElem?_sub.mp member
      rw [← Nat.sub_add_cancel behind, List.getElem?_cons_succ, found]
    exact place _ (leastFrom_mem _ _)
  · refine List.forall_mem_cons.mpr ⟨below, fun load member => ?_⟩
    obtain ⟨i, found⟩ := List.getElem?_of_mem member
    have placed : (load, 1 + i) ∈ rest.zipIdx 1 :=
      List.mk_mem_zipIdx_iff_le_and_getElem?_sub.mpr ⟨Nat.le_add_right 1 i, by rwa [Nat.add_sub_cancel_left]⟩
    exact others _ placed

end Least

/-! ## Level loads -/

def Level (loads : List Nat) : Prop := ∀ load ∈ loads, ∀ load' ∈ loads, load ≤ load' + 1

theorem Level.add_least {loads : List Nat} (level : Level loads) {i least : Nat} (found : loads[i]? = some least)
    (below : ∀ load ∈ loads, least ≤ load) : Level (loads.set i (least + 1)) := by
  intro load member load' member'
  rcases List.mem_or_eq_of_mem_set member with before | rfl
  · rcases List.mem_or_eq_of_mem_set member' with before' | rfl
    · exact level load before load' before'
    · exact Nat.le_succ_of_le (level load before least (List.mem_of_getElem? found))
  · rcases List.mem_or_eq_of_mem_set member' with before' | rfl
    · exact Nat.succ_le_succ (below load' before')
    · exact Nat.le_succ _

end PrimePool.General

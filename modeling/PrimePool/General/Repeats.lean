import Mathlib.Tactic.Common

/-!
# Repeated requests

A request that marks its key as done, and does nothing where the mark is set. The mark stays, so that a sequence of
requests does the same as its first occurrences.
-/

namespace PrimePool.General

variable {σ κ : Type} {step : σ → κ → σ}

structure Marks (step : σ → κ → σ) (I : σ → Prop) (Done : σ → κ → Prop) : Prop where
  keeps {s : σ} (k : κ) : I s → I (step s k)
  marks {s : σ} (k : κ) : I s → Done (step s k) k
  stays {s : σ} (k other : κ) : I s → Done s other → Done (step s k) other
  idle {s : σ} (k : κ) : Done s k → step s k = s

variable [DecidableEq κ] {I : σ → Prop} {Done : σ → κ → Prop}

theorem Marks.foldl_filter (marks : Marks step I Done) {k : κ} (keys : List κ) {s : σ} (holds : I s) (done : Done s k) :
    (keys.filter fun other => !other == k).foldl step s = keys.foldl step s := by
  induction keys generalizing s with
  | nil => rfl
  | cons other keys ih =>
      rw [List.filter_cons]
      by_cases same : other = k
      · subst same
        rw [if_neg (by simp), List.foldl_cons, marks.idle other done, ih holds done]
      · rw [if_pos (by simpa using same), List.foldl_cons, List.foldl_cons]
        exact ih (marks.keeps other holds) (marks.stays other k holds done)

theorem Marks.foldl_eraseDups (marks : Marks step I Done) (keys : List κ) {s : σ} (holds : I s) :
    keys.eraseDups.foldl step s = keys.foldl step s := by
  match keys with
  | [] => rfl
  | k :: keys =>
      rw [List.eraseDups_cons, List.foldl_cons, List.foldl_cons,
        marks.foldl_eraseDups (keys.filter fun other => !other == k) (marks.keeps k holds)]
      exact marks.foldl_filter keys (marks.keeps k holds) (marks.marks k holds)
termination_by keys.length
-- the rest of the list is filtered before the recursion
decreasing_by exact Nat.lt_succ_of_le (List.length_filter_le _ keys)

end PrimePool.General

import Mathlib.Tactic.Common

/-!
# Loops

A `while` loop with fuel. The body is `none` where the condition fails, and the result is `none` where the fuel is
used up before.
-/

namespace PrimePool.General

variable {σ τ : Type} {body : σ → Option σ}

def loop (body : σ → Option σ) : Nat → σ → Option σ
  | 0, _ => none
  | fuel + 1, s =>
      match body s with
      | none => some s
      | some s' => loop body fuel s'

theorem loop_succ_of_none {s : σ} (fuel : Nat) (exits : body s = none) : loop body (fuel + 1) s = some s := by
  rw [loop, exits]

theorem loop_succ_of_some {s s' : σ} (fuel : Nat) (continues : body s = some s') :
    loop body (fuel + 1) s = loop body fuel s' := by
  rw [loop, continues]

theorem loop_invariant (I : σ → Prop) (steps : ∀ s s', I s → body s = some s' → I s') {fuel : Nat} {s last : σ}
    (start : I s) (ends : loop body fuel s = some last) : I last ∧ body last = none := by
  induction fuel generalizing s with
  | zero => cases ends
  | succ fuel ih =>
      cases next : body s with
      | none =>
          rw [loop_succ_of_none fuel next] at ends
          cases ends
          exact ⟨start, next⟩
      | some s' =>
          rw [loop_succ_of_some fuel next] at ends
          exact ih (steps s s' start next) ends

theorem loop_ends (I : σ → Prop) (measure : σ → Nat)
    (steps : ∀ s s', I s → body s = some s' → I s' ∧ measure s' < measure s) {fuel : Nat} {s : σ} (start : I s)
    (enough : measure s < fuel) : ∃ last, loop body fuel s = some last := by
  induction fuel generalizing s with
  | zero => exact absurd enough (Nat.not_lt_zero _)
  | succ fuel ih =>
      cases next : body s with
      | none => exact ⟨s, loop_succ_of_none fuel next⟩
      | some s' =>
          obtain ⟨keeps, less⟩ := steps s s' start next
          rw [loop_succ_of_some fuel next]
          exact ih keeps (by omega)

/-- A loop computes `result` where no turn changes what `result` is and the exit leaves it as it is. -/
theorem loop_eq (I : σ → Prop) (measure : σ → Nat) (result : σ → σ)
    (steps : ∀ s s', I s → body s = some s' → I s' ∧ measure s' < measure s ∧ result s' = result s)
    (exits : ∀ s, I s → body s = none → result s = s) {fuel : Nat} {s : σ} (start : I s)
    (enough : measure s < fuel) : loop body fuel s = some (result s) := by
  obtain ⟨last, ends⟩ := loop_ends I measure
    (fun s s' holds next => ⟨(steps s s' holds next).1, (steps s s' holds next).2.1⟩) start enough
  obtain ⟨⟨holds, same⟩, stops⟩ := loop_invariant (fun t => I t ∧ result t = result s)
    (fun t t' holds next => ⟨(steps t t' holds.1 next).1, (steps t t' holds.1 next).2.2.trans holds.2⟩)
    ⟨start, rfl⟩ ends
  rw [ends, ← same, exits last holds stops]

theorem loop_of_fixed {s : σ} (stays : body s = some s) (fuel : Nat) : loop body fuel s = none := by
  induction fuel with
  | zero => rfl
  | succ fuel ih => rw [loop_succ_of_some fuel stays, ih]

theorem loop_in_step {body' : τ → Option τ} (R : σ → τ → Prop)
    (exits : ∀ s t, R s t → body s = none → body' t = none)
    (steps : ∀ s s' t, R s t → body s = some s' → ∃ t', body' t = some t' ∧ R s' t') {fuel : Nat} {s : σ} {t : τ}
    (start : R s t) :
    loop body fuel s = none ∧ loop body' fuel t = none ∨
      ∃ last last', loop body fuel s = some last ∧ loop body' fuel t = some last' ∧ R last last' := by
  induction fuel generalizing s t with
  | zero => exact Or.inl ⟨rfl, rfl⟩
  | succ fuel ih =>
      cases next : body s with
      | none =>
          exact Or.inr ⟨s, t, loop_succ_of_none fuel next, loop_succ_of_none fuel (exits s t start next), start⟩
      | some s' =>
          obtain ⟨t', next', related⟩ := steps s s' t start next
          rw [loop_succ_of_some fuel next, loop_succ_of_some fuel next']
          exact ih related

end PrimePool.General

import Mathlib.Tactic.Common

/-!
# Machines

A machine takes a step for each event that is possible in its state. `EachStep` is about the steps of one
run, which is given by its events.
-/

namespace PrimePool.General

variable {σ ε : Type} (step : σ → ε → Option σ)

/-- Every step of the run has the property. The run ends where an event is not possible. -/
def EachStep (Q : σ → ε → σ → Prop) : List ε → σ → Prop
  | [], _ => True
  | event :: events, s =>
      match step s event with
      | none => True
      | some s' => Q s event s' ∧ EachStep Q events s'

theorem eachStep_cons_of_none {Q : σ → ε → σ → Prop} {s : σ} {event : ε} (events : List ε)
    (stuck : step s event = none) : EachStep step Q (event :: events) s := by
  unfold EachStep
  rw [stuck]
  trivial

theorem eachStep_cons_of_some {Q : σ → ε → σ → Prop} {s s' : σ} {event : ε} {events : List ε}
    (taken : step s event = some s') :
    EachStep step Q (event :: events) s ↔ Q s event s' ∧ EachStep step Q events s' := by
  rw [EachStep, taken]

instance EachStep.decidable (Q : σ → ε → σ → Prop) [∀ s event s', Decidable (Q s event s')] :
    (events : List ε) → (s : σ) → Decidable (EachStep step Q events s)
  | [], _ => isTrue trivial
  | event :: events, s =>
      match taken : step s event with
      | none => isTrue (eachStep_cons_of_none step events taken)
      | some s' =>
          have := EachStep.decidable Q events s'
          decidable_of_iff (Q s event s' ∧ EachStep step Q events s') (eachStep_cons_of_some step taken).symm

variable {step}

theorem EachStep.of_invariant {C Q : σ → ε → σ → Prop} (I : σ → Prop)
    (steps : ∀ s event s', I s → step s event = some s' → C s event s' → I s' ∧ Q s event s')
    {events : List ε} {s : σ} (start : I s) (meets : EachStep step C events s) : EachStep step Q events s := by
  induction events generalizing s with
  | nil => trivial
  | cons event events ih =>
      cases taken : step s event with
      | none => exact eachStep_cons_of_none step events taken
      | some s' =>
          obtain ⟨met, rest⟩ := (eachStep_cons_of_some step taken).mp meets
          obtain ⟨keeps, holds⟩ := steps s event s' start taken met
          exact (eachStep_cons_of_some step taken).mpr ⟨holds, ih keeps rest⟩

theorem eachStep_of_invariant {Q : σ → ε → σ → Prop} (I : σ → Prop)
    (steps : ∀ s event s', I s → step s event = some s' → I s' ∧ Q s event s')
    (events : List ε) {s : σ} (start : I s) : EachStep step Q events s := by
  induction events generalizing s with
  | nil => trivial
  | cons event events ih =>
      cases taken : step s event with
      | none => exact eachStep_cons_of_none step events taken
      | some s' =>
          obtain ⟨keeps, holds⟩ := steps s event s' start taken
          exact (eachStep_cons_of_some step taken).mpr ⟨holds, ih keeps⟩

theorem EachStep.iff_of_exact_under {C : σ → ε → σ → Prop} (I P : σ → Prop)
    (exact : ∀ s event s', I s → P s → step s event = some s' → I s' ∧ (P s' ↔ C s event s'))
    {events : List ε} {s : σ} (keeps : I s) (start : P s) :
    EachStep step (fun _ _ s' => P s') events s ↔ EachStep step C events s := by
  constructor
  · apply EachStep.of_invariant (fun s => I s ∧ P s) _ ⟨keeps, start⟩
    intro s event s' both taken after
    obtain ⟨kept, met⟩ := exact s event s' both.1 both.2 taken
    exact ⟨⟨kept, after⟩, met.mp after⟩
  · apply EachStep.of_invariant (fun s => I s ∧ P s) _ ⟨keeps, start⟩
    intro s event s' both taken meets
    obtain ⟨kept, met⟩ := exact s event s' both.1 both.2 taken
    exact ⟨⟨kept, met.mpr meets⟩, met.mpr meets⟩

theorem EachStep.iff_of_exact {C : σ → ε → σ → Prop} (P : σ → Prop)
    (exact : ∀ s event s', P s → step s event = some s' → (P s' ↔ C s event s'))
    {events : List ε} {s : σ} (start : P s) :
    EachStep step (fun _ _ s' => P s') events s ↔ EachStep step C events s := by
  apply EachStep.iff_of_exact_under (fun _ => True) P _ trivial start
  exact fun s event s' _ holds taken => ⟨trivial, exact s event s' holds taken⟩

end PrimePool.General

import Mathlib.Logic.Relation
import PrimePool.General.Program

/-!
# Interleaving

A program that shares its state with an environment, which acts between the calls. `Holds` is partial
correctness, with one rule for each way a program is built; an assertion that is in force where the
environment may act has to be `Stable`.
-/

namespace PrimePool.General

open Program

variable {Op : Type} {Res : Op → Type} {σ α β κ : Type}

/-! ## Runs -/

structure Setting (Op : Type) (Res : Op → Type) (σ : Type) where
  handler : Handler Op Res σ
  /-- Nothing happens between a glued call and the call before it. -/
  glued : Op → Bool
  allowed : Op → σ → Prop
  env : σ → σ → Prop

def Interruptible (setting : Setting Op Res σ) : Program Op Res α → Prop
  | .done _ => True
  | .call op _ => setting.glued op = false

instance (setting : Setting Op Res σ) (p : Program Op Res α) : Decidable (Interruptible setting p) :=
  match p with
  | .done _ => isTrue trivial
  | .call op _ => inferInstanceAs (Decidable (setting.glued op = false))

def AllowedNext (setting : Setting Op Res σ) : Program Op Res α × σ → Prop
  | (.done _, _) => True
  | (.call op _, s) => setting.allowed op s

instance (setting : Setting Op Res σ) [∀ op s, Decidable (setting.allowed op s)] (c : Program Op Res α × σ) :
    Decidable (AllowedNext setting c) :=
  match c with
  | (.done _, _) => isTrue trivial
  | (.call op _, s) => inferInstanceAs (Decidable (setting.allowed op s))

inductive Interleaved (setting : Setting Op Res σ) : Program Op Res α × σ → Program Op Res α × σ → Prop
  | program (op : Op) (next : Res op → Program Op Res α) (s : σ) (allowed : setting.allowed op s) :
      Interleaved setting (.call op next, s) (next (setting.handler op s).1, (setting.handler op s).2)
  | environment {p : Program Op Res α} {s s' : σ} (free : Interruptible setting p) (acts : setting.env s s') :
      Interleaved setting (p, s) (p, s')

abbrev InterleavedRun (setting : Setting Op Res σ) :
    Program Op Res α × σ → Program Op Res α × σ → Prop :=
  Relation.ReflTransGen (Interleaved setting)

variable {setting : Setting Op Res σ}

theorem InterleavedRun.progress (n : Nat) (c : Program Op Res α × σ)
    (allowed : ∀ i < n, AllowedNext setting (progress setting.handler i c)) :
    InterleavedRun setting c (General.progress setting.handler n c) := by
  induction n generalizing c with
  | zero => exact .refl
  | succ n ih =>
      obtain ⟨p, s⟩ := c
      cases p with
      | done value => exact .refl
      | call op next =>
          have first : Interleaved setting (.call op next, s) _ := .program op next s (allowed 0 n.succ_pos)
          exact .head first (ih _ fun i less => allowed (i + 1) (Nat.succ_lt_succ less))

theorem InterleavedRun.of_done {value : α} {s : σ} {after : Program Op Res α × σ}
    (steps : InterleavedRun setting (.done value, s) after) :
    after.1 = .done value ∧ Relation.ReflTransGen setting.env s after.2 := by
  induction steps with
  | refl => exact ⟨rfl, .refl⟩
  | tail _ step ih =>
      cases step with
      | program op next t => simp at ih
      | environment free act => exact ⟨ih.1, ih.2.tail act⟩

theorem InterleavedRun.of_bind {p : Program Op Res α} {f : α → Program Op Res β} {s : σ}
    {after : Program Op Res β × σ} {b : β} (steps : InterleavedRun setting (p >>= f, s) after)
    (finish : after.1 = .done b) :
    ∃ a middle, InterleavedRun setting (p, s) (.done a, middle) ∧
      InterleavedRun setting (f a, middle) after := by
  generalize start : (p >>= f, s) = before at steps
  induction steps using Relation.ReflTransGen.head_induction_on generalizing p s with
  | refl =>
      subst start
      cases p with
      | done a => exact ⟨a, s, .refl, .refl⟩
      | call op next => simp at finish
  | head step rest ih =>
      subst start
      cases p with
      | done a => exact ⟨a, s, .refl, .head step rest⟩
      | call op next =>
          cases step with
          | program _ _ _ allowed =>
              obtain ⟨a, middle, first, last⟩ := ih rfl
              exact ⟨a, middle, .head (.program _ _ _ allowed) first, last⟩
          | environment free act =>
              obtain ⟨a, middle, first, last⟩ := ih (p := .call op next) rfl
              exact ⟨a, middle, .head (.environment free act) first, last⟩

/-! ## Partial correctness -/

/-- Every finished run from a state in `P` returns a value and a state in `Q`. -/
def Holds (setting : Setting Op Res σ) (P : σ → Prop) (p : Program Op Res α) (Q : α → σ → Prop) : Prop :=
  ∀ s, P s → ∀ after, InterleavedRun setting (p, s) after →
    ∀ value, after.1 = .done value → Q value after.2

def Stable (env : σ → σ → Prop) (P : σ → Prop) : Prop := ∀ s s', P s → env s s' → P s'

theorem Stable.run {env : σ → σ → Prop} {P : σ → Prop} (stable : Stable env P) {s s' : σ} (start : P s)
    (acts : Relation.ReflTransGen env s s') : P s' := by
  induction acts with
  | refl => exact start
  | tail _ act ih => exact stable _ _ ih act

variable {P : σ → Prop} {Q : α → σ → Prop}

theorem Holds.done {value : α} (stable : Stable setting.env (Q value)) (start : ∀ s, P s → Q value s) :
    Holds setting P (.done value) Q := by
  intro s holds after steps a finish
  obtain ⟨same, acts⟩ := steps.of_done
  rw [same, Program.done.injEq] at finish
  subst finish
  exact stable.run (start s holds) acts

theorem Holds.call {op : Op} {next : Res op → Program Op Res α} {M : Res op → σ → Prop}
    (stable : setting.glued op = false → Stable setting.env P)
    (effect : ∀ s, P s → setting.allowed op s → M (setting.handler op s).1 (setting.handler op s).2)
    (rest : ∀ r, Holds setting (M r) (next r) Q) :
    Holds setting P (.call op next) Q := by
  intro s holds after steps value finish
  generalize start : (Program.call op next, s) = before at steps
  induction steps using Relation.ReflTransGen.head_induction_on generalizing s with
  | refl => subst start; simp at finish
  | head step others ih =>
      subst start
      cases step with
      | program _ _ _ allowed => exact rest _ _ (effect s holds allowed) _ others value finish
      | environment free act => exact ih _ (stable free _ _ holds act) rfl

theorem Holds.call_glued {op : Op} {next : Res op → Program Op Res α} {M : Res op → σ → Prop}
    (glued : setting.glued op = true)
    (effect : ∀ s, P s → setting.allowed op s → M (setting.handler op s).1 (setting.handler op s).2)
    (rest : ∀ r, Holds setting (M r) (next r) Q) :
    Holds setting P (.call op next) Q := by
  refine Holds.call (fun free => ?_) effect rest
  rw [glued] at free
  cases free

theorem Holds.bind {p : Program Op Res α} {f : α → Program Op Res β} {R : β → σ → Prop}
    (first : Holds setting P p Q)
    (rest : ∀ value, Holds setting (Q value) (f value) R) :
    Holds setting P (p >>= f) R := by
  intro s holds after steps value finish
  obtain ⟨a, middle, before, behind⟩ := steps.of_bind finish
  exact rest a middle (first s holds _ before a rfl) after behind value finish

theorem Holds.of_invariant {I : σ → Prop} {C : Op → Prop} (stable : Stable setting.env I)
    (calls : ∀ op, C op → ∀ s, I s → setting.allowed op s → I (setting.handler op s).2)
    {p : Program Op Res α} (makes : Makes C p) : Holds setting I p fun _ => I := by
  induction p with
  | done value => exact .done stable fun _ holds => holds
  | call op next ih =>
      exact .call (M := fun _ => I) (fun _ => stable) (calls op makes.1) fun r => ih r (makes.2 r)

/-- A loop over a list keeps an invariant that speaks of the keys still to come. -/
theorem Holds.foldlM {f : β → κ → Program Op Res β} {I : List κ → β → σ → Prop}
    (stable : ∀ b, Stable setting.env (I [] b))
    (body : ∀ k keys b, Holds setting (I (k :: keys) b) (f b k) (I keys))
    (keys : List κ) (b : β) :
    Holds setting (I keys b) (keys.foldlM f b) (I []) := by
  induction keys generalizing b with
  | nil => exact .done (stable b) fun _ holds => holds
  | cons k keys ih => exact (body k keys b).bind fun b' => ih b'

end PrimePool.General

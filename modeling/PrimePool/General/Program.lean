import Mathlib.Tactic.Common

/-!
# Programs of atomic calls

A `Program` is a sequential program that acts on its state only through atomic calls. `run` executes it
alone, `progress` stops after some of its calls, and `Seen` are the values a view of the state takes on
the way.
-/

namespace PrimePool.General

inductive Program (Op : Type) (Res : Op → Type) (α : Type) where
  | done (value : α)
  | call (op : Op) (next : Res op → Program Op Res α)

variable {Op : Type} {Res : Op → Type} {σ τ α β κ : Type}

namespace Program

def bind : Program Op Res α → (α → Program Op Res β) → Program Op Res β
  | .done value, f => f value
  | .call op next, f => .call op fun r => (next r).bind f

instance : Monad (Program Op Res) where
  pure := .done
  bind := bind

def perform (op : Op) : Program Op Res (Res op) := .call op .done

@[simp] theorem pure_eq (value : α) : (pure value : Program Op Res α) = .done value := rfl

@[simp] theorem done_bind (value : α) (f : α → Program Op Res β) : (.done value >>= f) = f value := rfl

@[simp] theorem call_bind (op : Op) (next : Res op → Program Op Res α) (f : α → Program Op Res β) :
    (.call op next >>= f) = .call op fun r => next r >>= f := rfl

theorem bind_assoc (p : Program Op Res α) (f : α → Program Op Res β) (g : β → Program Op Res κ) :
    (p >>= f) >>= g = p >>= fun value => f value >>= g := by
  induction p with
  | done value => rfl
  | call op next ih => simp only [call_bind, ih]

theorem bind_done (p : Program Op Res α) : (p >>= fun value => .done value) = p := by
  induction p with
  | done value => rfl
  | call op next ih => simp only [call_bind, ih]

def isDone : Program Op Res α → Bool
  | .done _ => true
  | .call _ _ => false

theorem eq_done {p : Program Op Res Unit} (finished : p.isDone = true) : p = .done () := by
  cases p with
  | done value => rfl
  | call op next => cases finished

end Program

open Program

/-! ## Running alone -/

abbrev Handler (Op : Type) (Res : Op → Type) (σ : Type) : Type := (op : Op) → σ → Res op × σ

variable (handler : Handler Op Res σ)

def run : Program Op Res α → σ → α × σ
  | .done value, s => (value, s)
  | .call op next, s => run (next (handler op s).1) (handler op s).2

def progress : Nat → Program Op Res α × σ → Program Op Res α × σ
  | 0, c => c
  | _ + 1, (.done value, s) => (.done value, s)
  | n + 1, (.call op next, s) => progress n (next (handler op s).1, (handler op s).2)

@[simp] theorem run_done (value : α) (s : σ) : run handler (.done value : Program Op Res α) s = (value, s) := rfl

@[simp] theorem run_call (op : Op) (next : Res op → Program Op Res α) (s : σ) :
    run handler (.call op next) s = run handler (next (handler op s).1) (handler op s).2 := rfl

@[simp] theorem run_perform (op : Op) (s : σ) : run handler (perform op) s = handler op s := rfl

@[simp] theorem run_bind (p : Program Op Res α) (f : α → Program Op Res β) (s : σ) :
    run handler (p >>= f) s = run handler (f (run handler p s).1) (run handler p s).2 := by
  induction p generalizing s with
  | done value => rfl
  | call op next ih => exact ih _ _

/-- The values of a view of the state before, between and after the program's calls. -/
def Seen (view : σ → τ) (p : Program Op Res α) (s : σ) (value : τ) : Prop :=
  ∃ n, view (progress handler n (p, s)).2 = value

theorem seen_done (view : σ → τ) (result : α) (s : σ) (value : τ) :
    Seen handler view (.done result : Program Op Res α) s value ↔ view s = value := by
  constructor
  · rintro ⟨n, same⟩
    cases n <;> exact same
  · intro same
    exact ⟨0, same⟩

theorem seen_call (view : σ → τ) (op : Op) (next : Res op → Program Op Res α) (s : σ) (value : τ) :
    Seen handler view (.call op next) s value ↔
      view s = value ∨ Seen handler view (next (handler op s).1) (handler op s).2 value := by
  constructor
  · rintro ⟨n, same⟩
    cases n with
    | zero => exact Or.inl same
    | succ n => exact Or.inr ⟨n, same⟩
  · rintro (same | ⟨n, same⟩)
    · exact ⟨0, same⟩
    · exact ⟨n + 1, same⟩

theorem seen_bind (view : σ → τ) (p : Program Op Res α) (f : α → Program Op Res β) (s : σ) (value : τ) :
    Seen handler view (p >>= f) s value ↔
      Seen handler view p s value ∨
        Seen handler view (f (run handler p s).1) (run handler p s).2 value := by
  induction p generalizing s with
  | done result =>
      rw [done_bind, seen_done, run_done]
      constructor
      · exact Or.inr
      · rintro (same | seen)
        · exact ⟨0, same⟩
        · exact seen
  | call op next ih => rw [call_bind, seen_call, seen_call, ih, run_call, or_assoc]

def EachCall (C : (op : Op) → Res op → Prop) : Program Op Res α → σ → Prop
  | .done _, _ => True
  | .call op next, s => C op (handler op s).1 ∧ EachCall C (next (handler op s).1) (handler op s).2

instance EachCall.decidable (C : (op : Op) → Res op → Prop) [∀ op r, Decidable (C op r)] :
    (p : Program Op Res α) → (s : σ) → Decidable (EachCall handler C p s)
  | .done _, _ => isTrue trivial
  | .call op next, s =>
      have := EachCall.decidable C (next (handler op s).1) (handler op s).2
      inferInstanceAs (Decidable (_ ∧ _))

theorem eachCall_bind (C : (op : Op) → Res op → Prop) (p : Program Op Res α) (f : α → Program Op Res β) (s : σ) :
    EachCall handler C (p >>= f) s ↔
      EachCall handler C p s ∧ EachCall handler C (f (run handler p s).1) (run handler p s).2 := by
  induction p generalizing s with
  | done value => exact ⟨fun rest => ⟨trivial, rest⟩, fun both => both.2⟩
  | call op next ih => rw [call_bind, EachCall, ih, EachCall, run_call, and_assoc]

theorem run_of_invariant {I : σ → Prop} (calls : ∀ op s, I s → I (handler op s).2) (p : Program Op Res α) {s : σ}
    (start : I s) : I (run handler p s).2 := by
  induction p generalizing s with
  | done value => exact start
  | call op next ih => exact ih _ (calls op s start)

/-! ## Programs that make only some calls -/

def Makes (P : Op → Prop) : Program Op Res α → Prop
  | .done _ => True
  | .call op next => P op ∧ ∀ r, Makes P (next r)

variable {handler}

theorem Makes.mono {P Q : Op → Prop} {p : Program Op Res α} (makes : Makes P p) (weaker : ∀ op, P op → Q op) :
    Makes Q p := by
  induction p with
  | done value => trivial
  | call op next ih => exact ⟨weaker op makes.1, fun r => ih r (makes.2 r)⟩

theorem Makes.bind {P : Op → Prop} {p : Program Op Res α} {f : α → Program Op Res β}
    (first : Makes P p) (rest : ∀ value, Makes P (f value)) : Makes P (p >>= f) := by
  induction p with
  | done value => exact rest value
  | call op next ih => exact ⟨first.1, fun r => ih r (first.2 r)⟩

theorem Makes.foldlM {P : Op → Prop} {f : β → κ → Program Op Res β}
    (body : ∀ b k, Makes P (f b k)) (keys : List κ) (b : β) : Makes P (keys.foldlM f b) := by
  induction keys generalizing b with
  | nil => trivial
  | cons k keys ih => exact (body b k).bind fun b' => ih b'

theorem Makes.seen {P : Op → Prop} {p : Program Op Res α} (makes : Makes P p) (view : σ → τ)
    (frame : ∀ op, P op → ∀ s, view (handler op s).2 = view s) (s : σ) (value : τ) :
    Seen handler view p s value ↔ view s = value := by
  induction p generalizing s with
  | done result => exact seen_done handler view result s value
  | call op next ih => rw [seen_call, ih _ (makes.2 _), frame op makes.1, or_self]

theorem Makes.view_run {P : Op → Prop} {p : Program Op Res α} (makes : Makes P p) (handler : Handler Op Res σ)
    (view : σ → τ)
    (frame : ∀ op, P op → ∀ s, view (handler op s).2 = view s) (s : σ) :
    view (run handler p s).2 = view s := by
  induction p generalizing s with
  | done result => rfl
  | call op next ih => exact (ih _ (makes.2 _) _).trans (frame op makes.1 s)

theorem Makes.eachCall {P : Op → Prop} {C : (op : Op) → Res op → Prop} {p : Program Op Res α} (makes : Makes P p)
    (allowed : ∀ op, P op → ∀ r, C op r) (s : σ) : EachCall handler C p s := by
  induction p generalizing s with
  | done value => trivial
  | call op next ih => exact ⟨allowed op makes.1 _, ih _ (makes.2 _) _⟩

/-! ## Contracts -/

/-- The calls meet `P` where the results of the calls before them meet `G`, and then the value meets `Q`. -/
def Obeys (P : Op → Prop) (G : (op : Op) → Res op → Prop) (Q : α → Prop) : Program Op Res α → Prop
  | .done value => Q value
  | .call op next => P op ∧ ∀ r, G op r → Obeys P G Q (next r)

theorem Obeys.bind {P : Op → Prop} {G : (op : Op) → Res op → Prop} {Q : α → Prop} {R : β → Prop}
    {p : Program Op Res α} {f : α → Program Op Res β} (first : Obeys P G Q p)
    (rest : ∀ value, Q value → Obeys P G R (f value)) : Obeys P G R (p >>= f) := by
  induction p with
  | done value => exact rest value first
  | call op next ih => exact ⟨first.1, fun r meets => ih r (first.2 r meets)⟩

theorem Obeys.foldlM {P : Op → Prop} {G : (op : Op) → Res op → Prop} {Q : β → Prop} {keys : List κ}
    {f : β → κ → Program Op Res β} (body : ∀ k ∈ keys, ∀ b, Q b → Obeys P G Q (f b k)) {b : β} (start : Q b) :
    Obeys P G Q (keys.foldlM f b) := by
  induction keys generalizing b with
  | nil => exact start
  | cons k keys ih =>
      have first := body k List.mem_cons_self b start
      exact first.bind fun b' meets => ih (fun k' member => body k' (List.mem_cons_of_mem k member)) meets

theorem Obeys.run {P : Op → Prop} {G : (op : Op) → Res op → Prop} {Q : α → Prop} {p : Program Op Res α}
    (obeys : Obeys P G Q p) (I : σ → Prop)
    (calls : ∀ op s, I s → P op → I (handler op s).2 ∧ G op (handler op s).1) {s : σ} (start : I s) :
    I (run handler p s).2 ∧ Q (run handler p s).1 := by
  induction p generalizing s with
  | done value => exact ⟨start, obeys⟩
  | call op next ih =>
      obtain ⟨keeps, meets⟩ := calls op s start obeys.1
      exact ih _ (obeys.2 _ meets) keeps

/-! ## Programs that keep a log -/

section Log

variable {Note : Type}

abbrev LogRes (Res : Op → Type) (Note : Type) : Op ⊕ Note → Type
  | .inl op => Res op
  | .inr _ => Unit

def logged (handler : Handler Op Res σ) : Handler (Op ⊕ Note) (LogRes Res Note) (σ × List Note)
  | .inl op, (s, log) => ((handler op s).1, (handler op s).2, log)
  | .inr note, (s, log) => ((), s, log ++ [note])

namespace Program

def note (note : Note) : Program (Op ⊕ Note) (LogRes Res Note) Unit := .call (.inr note) fun _ => .done ()

/-- A program that logs nothing. -/
def quiet : Program Op Res α → Program (Op ⊕ Note) (LogRes Res Note) α
  | .done value => .done value
  | .call op next => .call (.inl op) fun r => (next r).quiet

/-- The program without its log. -/
def erase : Program (Op ⊕ Note) (LogRes Res Note) α → Program Op Res α
  | .done value => .done value
  | .call (.inl op) next => .call op fun r => (next r).erase
  | .call (.inr _) next => (next ()).erase

@[simp] theorem erase_note (note : Note) : (Program.note note : Program (Op ⊕ Note) (LogRes Res Note) Unit).erase = .done () :=
  rfl

@[simp] theorem erase_done (value : α) : (.done value : Program (Op ⊕ Note) (LogRes Res Note) α).erase = .done value := rfl

@[simp] theorem erase_quiet (p : Program Op Res α) : (p.quiet : Program (Op ⊕ Note) (LogRes Res Note) α).erase = p := by
  induction p with
  | done value => rfl
  | call op next ih => simp only [quiet, erase, ih]

@[simp] theorem erase_bind (p : Program (Op ⊕ Note) (LogRes Res Note) α)
    (f : α → Program (Op ⊕ Note) (LogRes Res Note) β) : (p >>= f).erase = p.erase >>= fun value => (f value).erase := by
  induction p with
  | done value => rfl
  | call op next ih =>
      cases op with
      | inl op => simp only [call_bind, erase, ih]
      | inr note => simp only [call_bind, erase, ih]

theorem erase_foldlM {f : β → κ → Program (Op ⊕ Note) (LogRes Res Note) β} {g : β → κ → Program Op Res β}
    (body : ∀ b k, (f b k).erase = g b k) (keys : List κ) (b : β) : (keys.foldlM f b).erase = keys.foldlM g b := by
  induction keys generalizing b with
  | nil => rfl
  | cons k keys ih => simp only [List.foldlM_cons, erase_bind, body, ih]

end Program

theorem Obeys.quiet {P : Op ⊕ Note → Prop} {G : (op : Op ⊕ Note) → LogRes Res Note op → Prop} {Q : α → Prop}
    {p : Program Op Res α} (obeys : Obeys (fun op => P (.inl op)) (fun op r => G (.inl op) r) Q p) :
    Obeys P G Q p.quiet := by
  induction p with
  | done value => exact obeys
  | call op next ih => exact ⟨obeys.1, fun r meets => ih r (obeys.2 r meets)⟩

theorem run_logged (handler : Handler Op Res σ) (p : Program (Op ⊕ Note) (LogRes Res Note) α) (s : σ) (log : List Note) :
    (run (logged handler) p (s, log)).1 = (run handler p.erase s).1 ∧
      (run (logged handler) p (s, log)).2.1 = (run handler p.erase s).2 := by
  induction p generalizing s log with
  | done value => exact ⟨rfl, rfl⟩
  | call op next ih =>
      cases op with
      | inl op => exact ih _ _ _
      | inr note => exact ih _ _ _

/-! ## The notes of a program -/

def notes (handler : Handler Op Res σ) : Program (Op ⊕ Note) (LogRes Res Note) α → σ → List Note
  | .done _, _ => []
  | .call (.inl op) next, s => notes handler (next (handler op s).1) (handler op s).2
  | .call (.inr note) next, s => note :: notes handler (next ()) s

theorem log_logged (handler : Handler Op Res σ) (p : Program (Op ⊕ Note) (LogRes Res Note) α) (s : σ) (log : List Note) :
    (run (logged handler) p (s, log)).2.2 = log ++ notes handler p s := by
  induction p generalizing s log with
  | done value => exact (List.append_nil log).symm
  | call op next ih =>
      cases op with
      | inl op => exact ih _ _ _
      | inr note =>
          refine (ih () s (log ++ [note])).trans ?_
          rw [notes, List.append_assoc, List.singleton_append]

@[simp] theorem notes_done (value : α) (s : σ) :
    notes handler (.done value : Program (Op ⊕ Note) (LogRes Res Note) α) s = [] := rfl

@[simp] theorem notes_note (note : Note) (s : σ) : notes handler (Program.note note) s = [note] := rfl

@[simp] theorem notes_quiet (p : Program Op Res α) (s : σ) :
    notes handler (p.quiet : Program (Op ⊕ Note) (LogRes Res Note) α) s = [] := by
  induction p generalizing s with
  | done value => rfl
  | call op next ih => exact ih _ _

theorem notes_bind (p : Program (Op ⊕ Note) (LogRes Res Note) α) (f : α → Program (Op ⊕ Note) (LogRes Res Note) β) (s : σ) :
    notes handler (p >>= f) s =
      notes handler p s ++ notes handler (f (run handler p.erase s).1) (run handler p.erase s).2 := by
  induction p generalizing s with
  | done value => rfl
  | call op next ih =>
      cases op with
      | inl op => exact ih _ _
      | inr note => exact congrArg (note :: ·) (ih () s)

/-- The notes of a loop that notes the same whatever the state. -/
theorem notes_foldlM {f : β → κ → Program (Op ⊕ Note) (LogRes Res Note) β} {noted : κ → List Note}
    (body : ∀ b k s, notes handler (f b k) s = noted k) (keys : List κ) (b : β) (s : σ) :
    notes handler (keys.foldlM f b) s = keys.flatMap noted := by
  induction keys generalizing b s with
  | nil => rfl
  | cons k keys ih => rw [List.foldlM_cons, notes_bind, body, ih, List.flatMap_cons]

end Log

end PrimePool.General

import PrimePool.Hash.KeccakF1600
import PrimePool.Hash.WordBits

/-!
# Keccak-f is a permutation

Each step of a round can be undone. What `theta` adds to a lane depends on the parities of the columns only; were two
states taken to one, the columns of their difference would be a fixed point of the map that adds them up, and the map
has none but zero.
-/

namespace PrimePool.Keccak

/-! ## Bits -/

theorem bit_rol64 (a : UInt64) {offset : UInt64} (some : 0 < offset.toNat) (small : offset.toNat < 64) (z : Fin 64) :
    bit (rol64 a offset) z = bit a (z - ⟨offset.toNat, small⟩) := by
  rw [rol64, bit_xor, bit_shiftLeft a small, bit_shiftRight a some small]
  by_cases low : z.val < offset.toNat
  · simp [low, Nat.not_le.mpr low]
  · simp [low, Nat.le_of_not_lt low]

theorem rol64_injective {offset : UInt64} (some : 0 < offset.toNat) (small : offset.toNat < 64) :
    Function.Injective (rol64 · offset) := by
  intro a b same
  apply bit_injective
  funext z
  have bits := congrArg (bit · (z + ⟨offset.toNat, small⟩)) same
  simpa only [bit_rol64 _ some small, add_sub_cancel_right] using bits

/-! ## Theta -/

theorem doubled {c : Fin 5 → Fin 64 → Bool} {s m : Fin 5} {n : Fin 64}
    (fixed : ∀ x z, c x z = (c (x + s) z ^^ c (x + m) (z - n))) (x : Fin 5) (z : Fin 64) :
    c x z = (c (x + (s + s)) z ^^ c (x + (m + m)) (z - (n + n))) := by
  rw [fixed x z, fixed (x + s) z, fixed (x + m) (z - n), add_right_comm x s m, sub_sub, add_assoc x s s,
    add_assoc x m m]
  cases c (x + m + s) (z - n) <;> simp

/-- Six doublings carry a fixed point to the step where the shift inside the lanes is a whole turn. -/
theorem fixed_zero {c : Fin 5 → Fin 64 → Bool} (fixed : ∀ x z, c x z = (c (x + 4) z ^^ c (x + 1) (z - 1)))
    (x : Fin 5) (z : Fin 64) : c x z = false := by
  have turned (x : Fin 5) : c x z = (c (x + 1) z ^^ c (x + 4) z) := by
    have sixth := doubled (doubled (doubled (doubled (doubled (doubled fixed))))) x z
    simpa [sub_zero] using sixth
  have five : ∀ a b c d e : Bool, a = (b ^^ e) → b = (c ^^ a) → c = (d ^^ b) → d = (e ^^ c) → e = (a ^^ d) →
      a = false ∧ b = false ∧ c = false ∧ d = false ∧ e = false := by decide
  obtain ⟨zero, one, two, three, four⟩ :=
    five (c 0 z) (c 1 z) (c 2 z) (c 3 z) (c 4 z) (turned 0) (turned 1) (turned 2) (turned 3) (turned 4)
  match x with
  | 0 => exact zero
  | 1 => exact one
  | 2 => exact two
  | 3 => exact three
  | 4 => exact four

theorem bit_theta (state : Lanes) (i : Fin 25) (z : Fin 64) :
    bit ((theta state).get i) z =
      (bit (state.get i) z ^^
        (bit ((columns state).get (column i + 4)) z ^^ bit ((columns state).get (column i + 1)) (z - 1))) := by
  have rotated (a : UInt64) : bit (rol64 a 1) z = bit a (z - 1) := bit_rol64 a (by decide) (by decide) z
  simp only [theta, Vector.get_eq, Vector.getElem_ofFn, bit_xor, rotated]

theorem regrouped (p q r s t p' q' r' s' t' : Bool) :
    ((p ^^ q ^^ r ^^ s ^^ t) ^^ (p' ^^ q' ^^ r' ^^ s' ^^ t')) =
      ((p ^^ p') ^^ (q ^^ q') ^^ (r ^^ r') ^^ (s ^^ s') ^^ (t ^^ t')) := by
  simp only [Bool.xor_assoc, Bool.xor_left_comm]

theorem theta_injective : Function.Injective theta := by
  intro a b same
  let c : Fin 5 → Fin 64 → Bool := fun x z => bit ((columns a).get x) z ^^ bit ((columns b).get x) z
  have differs (i : Fin 25) (z : Fin 64) :
      (bit (a.get i) z ^^ bit (b.get i) z) = (c (column i + 4) z ^^ c (column i + 1) (z - 1)) := by
    have bits := congrArg (fun state : Lanes => bit (state.get i) z) same
    simp only [bit_theta] at bits
    simp only [c]
    revert bits
    generalize bit (a.get i) z = p, bit (b.get i) z = q
    generalize bit ((columns a).get (column i + 4)) z = r, bit ((columns b).get (column i + 4)) z = s
    generalize bit ((columns a).get (column i + 1)) (z - 1) = t, bit ((columns b).get (column i + 1)) (z - 1) = u
    revert p q r s t u
    decide
  have fixed (x : Fin 5) (z : Fin 64) : c x z = (c (x + 4) z ^^ c (x + 1) (z - 1)) := by
    have lane {i : Fin 25} (inside : i.val % 5 = x.val) :
        (bit (a.get i) z ^^ bit (b.get i) z) = (c (x + 4) z ^^ c (x + 1) (z - 1)) := by
      have here : column i = x := Fin.ext inside
      rw [differs, here]
    have five : ∀ g : Bool, (g ^^ g ^^ g ^^ g ^^ g) = g := by decide
    have small := x.isLt
    have columnBit (state : Lanes) : bit ((columns state).get x) z =
        (bit (state.get ⟨x.val, by omega⟩) z ^^ bit (state.get ⟨5 + x.val, by omega⟩) z ^^
          bit (state.get ⟨10 + x.val, by omega⟩) z ^^ bit (state.get ⟨15 + x.val, by omega⟩) z ^^
          bit (state.get ⟨20 + x.val, by omega⟩) z) := by
      simp only [columns, Vector.get_eq, Vector.getElem_ofFn, bit_xor]
    have sum : c x z = _ := congrArg₂ xor (columnBit a) (columnBit b)
    rw [sum, regrouped, lane (by simp only; omega), lane (by simp only; omega), lane (by simp only; omega),
      lane (by simp only; omega), lane (by simp only; omega), five]
  apply Vector.ext
  intro i inside
  apply bit_injective
  funext z
  have none := differs ⟨i, inside⟩ z
  rw [fixed_zero fixed, fixed_zero fixed] at none
  simpa [Vector.get_eq] using none

/-! ## Rho and pi -/

theorem rhoPiStep_injective (x : Fin 24) : Function.Injective (rhoPiStep · x) := by
  have some : ∀ x : Fin 24, 0 < (rotationConstants.get x).toNat := by decide
  have small : ∀ x : Fin 24, (rotationConstants.get x).toNat < 64 := by decide
  rintro ⟨v, t⟩ ⟨w, u⟩ same
  obtain ⟨lanes, carried⟩ := Prod.mk.inj same
  have lane (i : Nat) (inside : i < 25) : (v.set (piLane.get x) (rol64 t (rotationConstants.get x)) (piLane.get x).isLt)[i] =
      (w.set (piLane.get x) (rol64 u (rotationConstants.get x)) (piLane.get x).isLt)[i] := by
    rw [lanes]
  congr 1
  · apply Vector.ext
    intro i inside
    by_cases here : (piLane.get x).val = i
    · subst here
      exact carried
    · simpa only [Vector.getElem_set_ne _ _ here] using lane i inside
  · have written := lane (piLane.get x) (piLane.get x).isLt
    rw [Vector.getElem_set_self, Vector.getElem_set_self] at written
    exact rol64_injective (some x) (small x) written

theorem rhoPiSteps_injective (xs : List (Fin 24)) : Function.Injective (xs.foldl rhoPiStep) := by
  induction xs with
  | nil => exact Function.injective_id
  | cons x xs ih => exact ih.comp (rhoPiStep_injective x)

theorem rhoPiSteps_keep {xs : List (Fin 24)} {lane : Fin 25} (away : ∀ x ∈ xs, piLane.get x ≠ lane)
    (s : Lanes × UInt64) : (xs.foldl rhoPiStep s).1.get lane = s.1.get lane := by
  induction xs generalizing s with
  | nil => rfl
  | cons x xs ih =>
      have other : (piLane.get x).val ≠ lane.val := fun here => away x List.mem_cons_self (Fin.ext here)
      rw [List.foldl_cons, ih fun x member => away x (List.mem_cons_of_mem _ member)]
      exact Vector.getElem_set_ne (piLane.get x).isLt _ other

/-- The lane carried into the loop is written first, and comes out of it again. -/
theorem rhoPi_carries (state : Lanes) :
    (rhoPi state).get 10 = rol64 (state.get 1) 1 ∧
      ((List.finRange 24).foldl rhoPiStep (state, state.get 1)).2 = state.get 1 := by
  constructor
  · have cut : List.finRange 24 = 0 :: (List.finRange 23).map Fin.succ := List.finRange_succ
    have away : ∀ x ∈ (List.finRange 23).map Fin.succ, piLane.get x ≠ 10 := by decide
    rw [rhoPi, cut, List.foldl_cons, rhoPiSteps_keep away]
    exact Vector.getElem_set_self _
  · have cut : List.finRange 24 = (List.finRange 23).map Fin.castSucc ++ [Fin.last 23] := List.finRange_succ_last
    have away : ∀ x ∈ (List.finRange 23).map Fin.castSucc, piLane.get x ≠ 1 := by decide
    rw [cut, List.foldl_append]
    exact rhoPiSteps_keep away (state, state.get 1)

theorem rhoPi_injective : Function.Injective rhoPi := by
  intro a b same
  obtain ⟨firstA, lastA⟩ := rhoPi_carries a
  obtain ⟨firstB, lastB⟩ := rhoPi_carries b
  have carried : a.get 1 = b.get 1 := by
    apply @rol64_injective 1 (by decide) (by decide)
    simp only
    rw [← firstA, ← firstB, same]
  have whole := rhoPiSteps_injective (List.finRange 24) (Prod.ext same (lastA.trans (carried.trans lastB.symm)))
  exact congrArg Prod.fst whole

/-! ## Chi and iota -/

def chiRow {n : Nat} [NeZero n] (f : Fin n → Bool) (x : Fin n) : Bool := f x ^^ (! f (x + 1) && f (x + 2))

theorem chiRow_injective : Function.Injective (chiRow : (Fin 5 → Bool) → Fin 5 → Bool) := by
  unfold Function.Injective
  decide +kernel

theorem bit_chi (state : Lanes) (i : Fin 25) (x : Fin 5) (z : Fin 64) :
    bit (row (chi state) i x) z = chiRow (fun x => bit (row state i x) z) x := by
  have small := x.isLt
  have inside : i.val / 5 * 5 + x.val < 25 := by omega
  have here : column ⟨i.val / 5 * 5 + x.val, inside⟩ = x := by
    apply Fin.ext
    simp only [column]
    omega
  have rows : row state ⟨i.val / 5 * 5 + x.val, inside⟩ = row state i := by
    have start : (i.val / 5 * 5 + x.val) / 5 * 5 = i.val / 5 * 5 := by omega
    funext x
    simp only [row, start]
  have lane : row (chi state) i x = row state i x ^^^ (~~~ row state i (x + 1) &&& row state i (x + 2)) := by
    rw [row, Vector.get_eq, chi, Vector.getElem_ofFn, here, rows]
  rw [lane, bit_xor, bit_and, bit_not, chiRow]

theorem chi_injective : Function.Injective chi := by
  intro a b same
  apply Vector.ext
  intro i inside
  apply bit_injective
  funext z
  have rows : (fun x => bit (row a ⟨i, inside⟩ x) z) = fun x => bit (row b ⟨i, inside⟩ x) z := by
    apply chiRow_injective
    funext x
    rw [← bit_chi, ← bit_chi, same]
  have place : i / 5 * 5 + i % 5 = i := Nat.div_add_mod' i 5
  have lane := congrFun rows (column ⟨i, inside⟩)
  simpa only [row, column, place, Vector.get_eq] using lane

theorem iota_injective (roundConstant : UInt64) : Function.Injective (iota · roundConstant) := by
  intro a b same
  apply Vector.ext
  intro i inside
  have lane : (a.set 0 (a.get 0 ^^^ roundConstant) (by decide))[i] =
      (b.set 0 (b.get 0 ^^^ roundConstant) (by decide))[i] := congrArg (·[i]) same
  by_cases first : 0 = i
  · subst first
    rw [Vector.getElem_set_self, Vector.getElem_set_self] at lane
    exact (UInt64.xor_left_inj _).mp lane
  · simpa only [Vector.getElem_set_ne _ _ first] using lane

/-! ## The permutation -/

theorem round_fst (s : Lanes × UInt8) :
    (round s).1 = iota (chi (rhoPi (theta s.1))) (getNextRoundConstant s.2).1 := rfl

theorem round_injective (LFSR : UInt8) : Function.Injective fun state => (round (state, LFSR)).1 := by
  intro a b same
  simp only [round_fst] at same
  exact theta_injective (rhoPi_injective (chi_injective (iota_injective _ same)))

theorem rounds_injective (count : Nat) (LFSR : UInt8) :
    Function.Injective fun state => (round^[count] (state, LFSR)).1 := by
  induction count generalizing LFSR with
  | zero => exact fun _ _ same => same
  | succ count ih =>
      intro a b same
      have whole (state : Lanes) :
          round (state, LFSR) = ((round (state, LFSR)).1, (getNextRoundConstant LFSR).2) := rfl
      simp only [Function.iterate_succ_apply] at same
      rw [whole a, whole b] at same
      exact round_injective LFSR (ih _ same)

theorem permuteLanes_injective : Function.Injective permuteLanes := rounds_injective numberOfRounds 1

theorem statePermute_bijective : Function.Bijective statePermute :=
  Finite.injective_iff_bijective.mp (bytesOf_injective.comp (permuteLanes_injective.comp wordsOf_injective))

end PrimePool.Keccak

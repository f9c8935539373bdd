import PrimePool.Hash.Threefish
import PrimePool.Hash.WordBits

/-!
# What the Threefish rounds do

The loop that copies its key schedule along adds the same words as the unrolled rounds. Under each key and tweak the
rounds are a permutation of the blocks.
-/

namespace PrimePool.Skein

/-! ## The schedule that is copied along -/

/-- Before injection `t + 1` the words from `t` on are the tweak and key words in turn, in three and in all. -/
structure Window (size : Size) (ks : Words (size.words + 1)) (ts : Words 3) (t : Nat) (kw : KeyWords size) : Prop where
  keys : ∀ j, j ≤ size.words → ∀ inside : 3 + t + j < size.words + 4 + 2 * size.rcnt,
    kw[3 + t + j] = ks.get ⟨(t + j) % (size.words + 1), Nat.mod_lt _ (Nat.succ_pos _)⟩
  tweaks : ∀ j, j < 3 → ∀ inside : t + j < size.words + 4 + 2 * size.rcnt,
    kw[t + j] = ts.get ⟨(t + j) % 3, Nat.mod_lt _ (by decide)⟩

section

variable {size : Size} {ks : Words (size.words + 1)} {ts : Words 3}

theorem window_start (stale : KeyWords size) : Window size ks ts 0 (startWords size ks ts stale) where
  keys j small inside := by
    have later : ¬ 3 + 0 + j < 3 := by omega
    have place : 3 + 0 + j - 3 = j := by omega
    have fits : j < size.words + 1 := by omega
    simp only [startWords, Vector.getElem_ofFn, later, dite_false, place, fits, dite_true, Nat.zero_add,
      Nat.mod_eq_of_lt fits]
  tweaks j small inside := by
    simp only [startWords, Vector.getElem_ofFn, Nat.zero_add, small, dite_true, Nat.mod_eq_of_lt small]

theorem injectNext_eq {r : Fin (2 * size.rcnt)} {kw : KeyWords size} (window : Window size ks ts r.val kw)
    (X : Words size.words) :
    (injectNext size r (kw, X)).2 = inject ks ts (r.val + 1) X ∧
      Window size ks ts (r.val + 1) (injectNext size r (kw, X)).1 := by
  have last := r.isLt
  have wide := size.wide
  have appended : (injectNext size r (kw, X)).1 =
      (kw.set (3 + (r.val + 1 + size.words)) kw[3 + r.val] (by omega)).set (r.val + 1 + 2)
        ((kw.set (3 + (r.val + 1 + size.words)) kw[3 + r.val] (by omega))[r.val]) (by omega) := rfl
  refine ⟨?_, ?_, ?_⟩
  · apply Vector.ext
    intro i small
    have key := window.keys (i + 1) small (by omega)
    have first : kw[r.val + 1] = ts.get ⟨(r.val + 1) % 3, _⟩ := window.tweaks 1 (by decide) (by omega)
    have second : kw[r.val + 1 + 1] = ts.get ⟨(r.val + 1 + 1) % 3, _⟩ := window.tweaks 2 (by decide) (by omega)
    have place : 3 + r.val + (i + 1) = 3 + (r.val + 1) + i := by omega
    have turn : r.val + (i + 1) = r.val + 1 + i := by omega
    simp only [place, turn] at key
    simp only [injectNext, inject, Vector.getElem_ofFn, Vector.get_eq, key, first, second]
  · intro j small inside
    rw [appended, Vector.getElem_set_ne _ _ (by omega)]
    by_cases final : j = size.words
    · subst final
      have key := window.keys 0 (Nat.zero_le _) (by omega)
      have round : r.val + 1 + size.words = r.val + 0 + (size.words + 1) := by omega
      rw [Vector.getElem_set, if_pos (by omega)]
      simp only [round, Nat.add_mod_right]
      exact key
    · have key := window.keys (j + 1) (by omega) (by omega)
      have place : 3 + r.val + (j + 1) = 3 + (r.val + 1) + j := by omega
      have turn : r.val + (j + 1) = r.val + 1 + j := by omega
      simp only [place, turn] at key
      rw [Vector.getElem_set_ne _ _ (by omega), key]
  · intro j small inside
    rw [appended]
    by_cases final : j = 2
    · subst final
      have tweak := window.tweaks 0 (by decide) (by omega)
      have round : r.val + 1 + 2 = r.val + 0 + 3 := by omega
      rw [Vector.getElem_set_self, Vector.getElem_set_ne _ _ (by omega)]
      simp only [round, Nat.add_mod_right]
      exact tweak
    · have tweak := window.tweaks (j + 1) (by omega) (by omega)
      have turn : r.val + (j + 1) = r.val + 1 + j := by omega
      simp only [turn] at tweak
      rw [Vector.getElem_set_ne _ _ (by omega), Vector.getElem_set_ne _ _ (by omega), tweak]

theorem nextRounds_eq {R : Fin size.rcnt} {kw : KeyWords size} (window : Window size ks ts (2 * R.val) kw)
    (X : Words size.words) :
    (nextRounds size (kw, X) R).2 = eightRounds size ks ts X R.val ∧
      Window size ks ts (2 * (R.val + 1)) (nextRounds size (kw, X) R).1 := by
  have inside := R.isLt
  let r : Fin (2 * size.rcnt) := ⟨2 * R.val, by omega⟩
  let r' : Fin (2 * size.rcnt) := ⟨2 * R.val + 1, by omega⟩
  obtain ⟨first, window'⟩ := @injectNext_eq size ks ts r kw window (fourRounds size X (size.rotations.take 4))
  obtain ⟨second, window''⟩ := @injectNext_eq size ks ts r' _ window'
    (fourRounds size (injectNext size r (kw, fourRounds size X (size.rotations.take 4))).2 (size.rotations.drop 4))
  refine ⟨second.trans ?_, window''⟩
  rw [first]
  rfl

theorem foldl_nextRounds {Rs : List (Fin size.rcnt)} {R : Nat}
    (consecutive : Rs.map Fin.val = List.range' R Rs.length) {kw : KeyWords size}
    (window : Window size ks ts (2 * R) kw) (X : Words size.words) :
    (Rs.foldl (nextRounds size) (kw, X)).2 = (List.range' R Rs.length).foldl (eightRounds size ks ts) X := by
  induction Rs generalizing R kw X with
  | nil => rfl
  | cons here Rs ih =>
      rw [List.map_cons, List.length_cons, List.range'_succ] at consecutive
      obtain ⟨rfl, later⟩ := List.cons.inj consecutive
      obtain ⟨same, window'⟩ := nextRounds_eq window X
      rw [List.foldl_cons, List.length_cons, List.range'_succ, List.foldl_cons, ← same]
      exact ih later window' _

end

theorem foldl_finRange (size : Size) (ks : Words (size.words + 1)) (ts : Words 3) {kw : KeyWords size}
    (window : Window size ks ts 0 kw) (X : Words size.words) :
    ((List.finRange size.rcnt).foldl (nextRounds size) (kw, X)).2 =
      (List.range size.rcnt).foldl (eightRounds size ks ts) X := by
  have consecutive : (List.finRange size.rcnt).map Fin.val = List.range' 0 (List.finRange size.rcnt).length := by
    rw [List.length_finRange, ← List.range_eq_range']
    exact List.map_coe_finRange_eq_range
  rw [foldl_nextRounds consecutive window, List.length_finRange, List.range_eq_range']

/-- However the rounds are compiled, and whatever the array held before, they are the same. -/
theorem loopingRounds_eq (size : Size) (stale : KeyWords size) (key : Words size.words) (T0 T1 : UInt64)
    (w : Words size.words) : loopingRounds size stale key T0 T1 w = unrolledRounds size key T0 T1 w :=
  foldl_finRange size (keySchedule key) (tweakSchedule T0 T1) (window_start stale) _

theorem rounds_eq (size : Size) (key : Words size.words) (T0 T1 : UInt64) (w : Words size.words) :
    rounds size key T0 T1 w = unrolledRounds size key T0 T1 w := by
  rw [rounds]
  split
  · exact foldl_finRange size (keySchedule key) (tweakSchedule T0 T1) (window_start _) _
  · rfl

/-! ## A permutation of the blocks -/

theorem rotL64_injective {rotation : UInt64} (some : 0 < rotation.toNat) (small : rotation.toNat < 64) :
    Function.Injective (rotL64 · rotation) := by
  have turned (a : UInt64) (z : Fin 64) : bit (rotL64 a rotation) z = bit a (z - ⟨rotation.toNat, small⟩) := by
    rw [rotL64, bit_or, bit_shiftLeft a small, bit_shiftRight a some small]
    by_cases low : z.val < rotation.toNat
    · simp [low, Nat.not_le.mpr low]
    · simp [low, Nat.le_of_not_lt low]
  intro a b same
  apply bit_injective
  funext z
  have bits := congrArg (bit · (z + ⟨rotation.toNat, small⟩)) same
  simpa only [turned, add_sub_cancel_right] using bits

theorem mix_injective {n : Nat} {p0 p1 : Fin n} (apart : p0 ≠ p1) {rotation : UInt64} (some : 0 < rotation.toNat)
    (small : rotation.toNat < 64) : Function.Injective (mix · p0 p1 rotation) := by
  intro X Y same
  have other : p1.val ≠ p0.val := fun same => apart (Fin.ext same.symm)
  have word (i : Nat) (inside : i < n) : (mix X p0 p1 rotation)[i] = (mix Y p0 p1 rotation)[i] :=
    congrArg (fun X : Words n => X[i]) same
  simp only [mix] at word
  have first := word p0 p0.isLt
  have second := word p1 p1.isLt
  rw [Vector.getElem_set_ne _ _ other, Vector.getElem_set_self, Vector.getElem_set_ne _ _ other,
    Vector.getElem_set_self] at first
  rw [Vector.getElem_set_self, Vector.getElem_set_self, first] at second
  have second' := rotL64_injective some small ((UInt64.xor_left_inj _).mp second)
  rw [second'] at first
  have first' := (UInt64.add_left_inj _).mp first
  apply Vector.ext
  intro i inside
  by_cases here : p1.val = i
  · subst here
    exact second'
  · by_cases here' : p0.val = i
    · subst here'
      exact first'
    · have kept := word i inside
      rwa [Vector.getElem_set_ne _ _ here, Vector.getElem_set_ne _ _ here', Vector.getElem_set_ne _ _ here,
        Vector.getElem_set_ne _ _ here'] at kept

theorem round_injective {n : Nat} {order : List (Fin n)} (apart : order.Nodup) {rotations : List UInt64}
    (turning : ∀ rotation ∈ rotations, 0 < rotation.toNat ∧ rotation.toNat < 64) :
    Function.Injective (round · order rotations) := by
  match order, rotations with
  | p0 :: p1 :: order, rotation :: rotations =>
      obtain ⟨away, later⟩ := List.nodup_cons.mp apart
      obtain ⟨some, small⟩ := turning rotation List.mem_cons_self
      have first := mix_injective (fun same : p0 = p1 => away (same ▸ List.mem_cons_self)) some small
      have rest := round_injective (List.nodup_cons.mp later).2 fun rotation member =>
        turning rotation (List.mem_cons_of_mem _ member)
      have step : (round · (p0 :: p1 :: order) (rotation :: rotations)) =
          (round · order rotations) ∘ (mix · p0 p1 rotation) := by
        funext X
        rw [round]
        rfl
      rw [step]
      exact rest.comp first
  | [], _ => exact fun _ _ same => by simpa only [round] using same
  | [_], _ => exact fun _ _ same => by simpa only [round] using same
  | _ :: _ :: _, [] => exact fun _ _ same => by simpa only [round] using same

theorem fourRounds_injective (size : Size) {rotations : List (List UInt64)}
    (of : ∀ row ∈ rotations, row ∈ size.rotations) : Function.Injective (fourRounds size · rotations) := by
  have all (rounds : List (List (Fin size.words) × List UInt64))
      (fits : ∀ pair ∈ rounds, pair.1 ∈ size.orders ∧ pair.2 ∈ size.rotations) :
      Function.Injective fun X => rounds.foldl (fun X pair => round X pair.1 pair.2) X := by
    induction rounds with
    | nil => exact Function.injective_id
    | cons pair rounds ih =>
        obtain ⟨order, row⟩ := fits pair List.mem_cons_self
        exact (ih fun pair member => fits pair (List.mem_cons_of_mem _ member)).comp
          (round_injective (size.apart _ order) (size.turning _ row))
  exact all _ fun pair member => ⟨(List.of_mem_zip member).1, of _ (List.of_mem_zip member).2⟩

theorem inject_injective {n : Nat} (ks : Words (n + 1)) (ts : Words 3) (s : Nat) :
    Function.Injective (inject ks ts s) := by
  intro X Y same
  apply Vector.ext
  intro i inside
  have word : (inject ks ts s X)[i] = (inject ks ts s Y)[i] := by rw [same]
  simp only [inject, Vector.getElem_ofFn] at word
  exact (UInt64.add_left_inj _).mp word

theorem eightRounds_injective (size : Size) (ks : Words (size.words + 1)) (ts : Words 3) (R : Nat) :
    Function.Injective (eightRounds size ks ts · R) :=
  ((inject_injective ks ts (2 * R + 2)).comp (fourRounds_injective size fun _ => List.mem_of_mem_drop)).comp
    ((inject_injective ks ts (2 * R + 1)).comp (fourRounds_injective size fun _ => List.mem_of_mem_take))

theorem rounds_bijective (size : Size) (key : Words size.words) (T0 T1 : UInt64) :
    Function.Bijective (rounds size key T0 T1) := by
  apply Finite.injective_iff_bijective.mp
  have same : rounds size key T0 T1 = unrolledRounds size key T0 T1 := funext fun w => rounds_eq size key T0 T1 w
  have all (Rs : List Nat) :
      Function.Injective fun X => Rs.foldl (eightRounds size (keySchedule key) (tweakSchedule T0 T1)) X := by
    induction Rs with
    | nil => exact Function.injective_id
    | cons R Rs ih => exact ih.comp (eightRounds_injective size _ _ R)
  rw [same]
  exact (all (List.range size.rcnt)).comp (inject_injective _ _ 0)

end PrimePool.Skein

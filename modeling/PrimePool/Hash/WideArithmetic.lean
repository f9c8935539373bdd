import Mathlib.Data.List.GetD
import Mathlib.Tactic.LinearCombination
import PrimePool.General.Radix
import PrimePool.Hash.Uint1024

/-!
# Arithmetic of wide integers

`hash/uint1024.h`: the arithmetic and the comparisons of a `base_uint`, as those of the integers modulo `2 ^ BITS`.
-/

namespace PrimePool

open PrimePool.General

/-! ## Words -/

/-- The loop of `operator++` and of `operator--`: it goes on to the next word where the word came to `wrapped`. -/
def countWords (count : UInt32 → UInt32) (wrapped : UInt32) : List UInt32 → List UInt32
  | [] => []
  | pn :: words => count pn :: if count pn = wrapped then countWords count wrapped words else words

/-- The loop of the comparisons, from the most significant word down. -/
def scanWords (fLess fGreater fEqual : Bool) : List UInt32 → List UInt32 → Bool
  | a :: as, b :: bs => if a < b then fLess else if a > b then fGreater else scanWords fLess fGreater fEqual as bs
  | _, _ => fEqual

def wordsValue (words : List UInt32) : Nat := Nat.ofDigits (2 ^ 32) (words.map UInt32.toNat)

theorem length_countWords (count : UInt32 → UInt32) (wrapped : UInt32) (words : List UInt32) :
    (countWords count wrapped words).length = words.length := by
  induction words with
  | nil => rfl
  | cons pn words ih =>
      rw [countWords, List.length_cons, List.length_cons]
      split
      · rw [ih]
      · rfl

theorem wordsValue_cons (pn : UInt32) (words : List UInt32) :
    wordsValue (pn :: words) = pn.toNat + 2 ^ 32 * wordsValue words := Nat.ofDigits_cons

theorem wordsValue_append (words words' : List UInt32) :
    wordsValue (words ++ words') = wordsValue words + (2 ^ 32) ^ words.length * wordsValue words' := by
  rw [wordsValue, List.map_append, Nat.ofDigits_append, List.length_map]
  rfl

theorem digits_lt (words : List UInt32) : ∀ digit ∈ words.map UInt32.toNat, digit < 2 ^ 32 := by
  intro digit member
  obtain ⟨pn, -, rfl⟩ := List.mem_map.mp member
  exact pn.toNat_lt

theorem wordsValue_lt (words : List UInt32) : wordsValue words < (2 ^ 32) ^ words.length := by
  have bound := Nat.ofDigits_lt_base_pow_length (by decide) (digits_lt words)
  rwa [List.length_map] at bound

theorem wordsValue_eq_value (words : List UInt32) :
    wordsValue words = value (2 ^ 32) (words.reverse.map UInt32.toNat) := by
  rw [value_eq_ofDigits, List.map_reverse, List.reverse_reverse]
  rfl

theorem wordsValue_countWords {count : UInt32 → UInt32} {wrapped : UInt32} {step : ℤ}
    (steps : ∀ pn, ((count pn).toNat : ℤ) + (if count pn = wrapped then 2 ^ 32 * step else 0) = pn.toNat + step)
    (words : List UInt32) :
    (wordsValue (countWords count wrapped words) : ℤ) ≡ wordsValue words + step [ZMOD (2 ^ 32) ^ words.length] := by
  induction words with
  | nil => exact Int.modEq_one
  | cons pn words ih =>
      have stepped := steps pn
      rw [countWords, wordsValue_cons, wordsValue_cons, List.length_cons, Int.pow_succ']
      by_cases wraps : count pn = wrapped
      · rw [if_pos wraps] at stepped ⊢
        have carried : ((pn.toNat + 2 ^ 32 * wordsValue words : ℕ) : ℤ) + step =
            (count pn).toNat + 2 ^ 32 * (wordsValue words + step) := by
          push_cast
          linear_combination -stepped
        rw [carried, Int.natCast_add, Int.natCast_mul]
        exact (Int.ModEq.mul_left' ih).add_left _
      · rw [if_neg wraps] at stepped ⊢
        have counted : ((pn.toNat + 2 ^ 32 * wordsValue words : ℕ) : ℤ) + step =
            ((count pn).toNat + 2 ^ 32 * wordsValue words : ℕ) := by
          push_cast
          linear_combination -stepped
        rw [counted]

theorem increment_word (pn : UInt32) :
    ((pn + 1).toNat : ℤ) + (if pn + 1 = 0 then 2 ^ 32 * 1 else 0) = pn.toNat + 1 := by
  have word : (pn + 1).toNat = (pn.toNat + 1) % 2 ^ 32 := UInt32.toNat_add pn 1
  have bound := pn.toNat_lt
  split
  · rename_i wraps
    rw [wraps, UInt32.toNat_zero] at word ⊢
    omega
  · rename_i wraps
    rw [← UInt32.toNat_inj, word, UInt32.toNat_zero] at wraps
    omega

theorem decrement_word (pn : UInt32) :
    ((pn - 1).toNat : ℤ) + (if pn - 1 = 0xffffffff then 2 ^ 32 * -1 else 0) = pn.toNat + -1 := by
  have word : (pn - 1).toNat = (2 ^ 32 - 1 + pn.toNat) % 2 ^ 32 := UInt32.toNat_sub pn 1
  have bound := pn.toNat_lt
  have last : (0xffffffff : UInt32).toNat = 2 ^ 32 - 1 := rfl
  split
  · rename_i wraps
    rw [wraps, last] at word ⊢
    omega
  · rename_i wraps
    rw [← UInt32.toNat_inj, word, last] at wraps
    omega

theorem complement_word (pn : UInt32) : (~~~pn).toNat + pn.toNat = 2 ^ 32 - 1 := by
  have bound := pn.toNat_lt
  rw [UInt32.toNat_not, UInt32.size]
  omega

theorem wordsValue_complement (words : List UInt32) :
    wordsValue (words.map (~~~·)) + wordsValue words + 1 = (2 ^ 32) ^ words.length := by
  induction words with
  | nil => rfl
  | cons pn words ih =>
      have word := complement_word pn
      rw [List.map_cons, wordsValue_cons, wordsValue_cons, List.length_cons, pow_succ' _ words.length, ← ih]
      omega

theorem scanWords_eq (fLess fGreater fEqual : Bool) {as bs : List UInt32} (same : as.length = bs.length) :
    scanWords fLess fGreater fEqual as bs =
      match compare (as.map UInt32.toNat) (bs.map UInt32.toNat) with
      | .lt => fLess
      | .gt => fGreater
      | .eq => fEqual := by
  induction as generalizing bs with
  | nil =>
      cases bs with
      | nil => rfl
      | cons b bs => cases same
  | cons a as ih =>
      cases bs with
      | nil => cases same
      | cons b bs =>
          rw [scanWords, ih (Nat.succ.inj same), List.map_cons, List.map_cons, List.compare_cons_cons]
          rcases Nat.lt_trichotomy a.toNat b.toNat with less | equal | greater
          · rw [if_pos (UInt32.lt_iff_toNat_lt.mpr less), Nat.compare_eq_lt.mpr less]
            rfl
          · rw [if_neg (by simp [UInt32.lt_iff_toNat_lt, equal]), if_neg (by simp [UInt32.lt_iff_toNat_lt, equal]),
              Nat.compare_eq_eq.mpr equal, Ordering.eq_then]
          · rw [if_neg (by simp [UInt32.lt_iff_toNat_lt]; omega), if_pos (UInt32.lt_iff_toNat_lt.mpr greater),
              Nat.compare_eq_gt.mpr greater]
            rfl

/-! ## Operators -/

namespace BaseUint

variable {width : Nat}

def ofWords (words : List UInt32) (length : words.length = width) : BaseUint width := ⟨⟨words.toArray, length⟩⟩

def complement (a : BaseUint width) : BaseUint width := ⟨a.pn.map (~~~·)⟩

def increment (a : BaseUint width) : BaseUint width :=
  ofWords (countWords (· + 1) 0 a.pn.toList) (by rw [length_countWords, Vector.length_toList])

/-- The wrapped word is compared with `-1`, which is converted. -/
def decrement (a : BaseUint width) : BaseUint width :=
  ofWords (countWords (· - 1) 0xffffffff a.pn.toList) (by rw [length_countWords, Vector.length_toList])

def neg (a : BaseUint width) : BaseUint width := a.complement.increment

def sub (a b : BaseUint width) : BaseUint width := a.add b.neg

def addUInt64 (a : BaseUint width) (b64 : UInt64) : BaseUint width := a.add (ofUInt64 b64)

def subUInt64 (a : BaseUint width) (b64 : UInt64) : BaseUint width := a.add (ofUInt64 b64).neg

def less (a b : BaseUint width) : Bool := scanWords true false false a.pn.toList.reverse b.pn.toList.reverse

def lessEqual (a b : BaseUint width) : Bool := scanWords true false true a.pn.toList.reverse b.pn.toList.reverse

def greater (a b : BaseUint width) : Bool := scanWords false true false a.pn.toList.reverse b.pn.toList.reverse

def greaterEqual (a b : BaseUint width) : Bool := scanWords false true true a.pn.toList.reverse b.pn.toList.reverse

def equal (a b : BaseUint width) : Bool := (List.finRange width).all fun i => a.pn.get i == b.pn.get i

def equalUInt64 (a : BaseUint width) (b : UInt64) : Bool :=
  match a.pn.toList with
  | low :: high :: words => low == b.toUInt32 && high == (b >>> 32).toUInt32 && words.all (· == 0)
  | _ => false

def notEqual (a b : BaseUint width) : Bool := !a.equal b

def notEqualUInt64 (a : BaseUint width) (b : UInt64) : Bool := !a.equalUInt64 b

/-! ## Values -/

def toNat (a : BaseUint width) : Nat := wordsValue a.pn.toList

theorem toNat_lt (a : BaseUint width) : a.toNat < (2 ^ 32) ^ width := by
  have bound := wordsValue_lt a.pn.toList
  rwa [Vector.length_toList] at bound

theorem modEq_increment (a : BaseUint width) : (a.increment.toNat : ℤ) ≡ a.toNat + 1 [ZMOD (2 ^ 32) ^ width] := by
  have counted := wordsValue_countWords increment_word a.pn.toList
  rwa [Vector.length_toList] at counted

theorem modEq_decrement (a : BaseUint width) : (a.decrement.toNat : ℤ) ≡ a.toNat - 1 [ZMOD (2 ^ 32) ^ width] := by
  have counted := wordsValue_countWords decrement_word a.pn.toList
  rwa [Vector.length_toList] at counted

theorem toNat_complement (a : BaseUint width) : a.complement.toNat + a.toNat + 1 = (2 ^ 32) ^ width := by
  have words := wordsValue_complement a.pn.toList
  rwa [Vector.length_toList, ← Vector.toList_map] at words

theorem modEq_neg (a : BaseUint width) : (a.neg.toNat : ℤ) ≡ -a.toNat [ZMOD (2 ^ 32) ^ width] := by
  have whole : ((a.complement.toNat + a.toNat + 1 : ℕ) : ℤ) = (2 ^ 32) ^ width := by
    rw [toNat_complement]
    push_cast
    rfl
  have wraps : (a.complement.toNat : ℤ) + 1 = -a.toNat + (2 ^ 32) ^ width := by
    push_cast at whole
    linear_combination whole
  have counted := modEq_increment a.complement
  rw [wraps] at counted
  exact counted.trans (Int.add_modEq_right ..)

/-! ## Addition -/

theorem toNat_carry_succ (a b : BaseUint width) (i : Nat) (small : (carry a b i).toNat ≤ 1) :
    (carry a b (i + 1)).toNat =
      ((carry a b i).toNat + (a.pn.toList.getD i 0).toNat + (b.pn.toList.getD i 0).toNat) / 2 ^ 32 := by
  have first := (a.pn.toList.getD i 0).toNat_lt
  have second := (b.pn.toList.getD i 0).toNat_lt
  rw [carry]
  simp only [UInt64.toNat_shiftRight, UInt64.toNat_add, UInt32.toNat_toUInt64, Nat.shiftRight_eq_div_pow,
    UInt64.reduceToNat, Nat.reduceMod]
  omega

theorem carry_le_one (a b : BaseUint width) (i : Nat) : (carry a b i).toNat ≤ 1 := by
  induction i with
  | zero => exact Nat.zero_le 1
  | succ i ih =>
      have first := (a.pn.toList.getD i 0).toNat_lt
      have second := (b.pn.toList.getD i 0).toNat_lt
      rw [toNat_carry_succ a b i ih]
      omega

theorem wordsValue_take_succ {words : List UInt32} {i : Nat} (inside : i < words.length) :
    wordsValue (words.take (i + 1)) = wordsValue (words.take i) + (2 ^ 32) ^ i * (words.getD i 0).toNat := by
  have single : wordsValue [words[i]] = words[i].toNat := Nat.ofDigits_singleton
  rw [← List.take_append_getElem inside, wordsValue_append, single, List.length_take_of_le (Nat.le_of_lt inside),
    List.getD_eq_getElem _ _ inside]

theorem add_word (a b : BaseUint width) {i : Nat} (inside : i < width) :
    ((a.add b).pn.toList.getD i 0).toNat =
      ((carry a b i).toNat + (a.pn.toList.getD i 0).toNat + (b.pn.toList.getD i 0).toNat) % 2 ^ 32 := by
  have small := carry_le_one a b i
  have first := a.pn[i].toNat_lt
  have second := b.pn[i].toNat_lt
  have read (x : BaseUint width) : x.pn.toList.getD i 0 = x.pn[i] := by
    rw [List.getD_eq_getElem _ _ (by rwa [Vector.length_toList]), Vector.getElem_toList]
  rw [read, read, read]
  simp only [add, Vector.getElem_ofFn, Fin.getElem_fin, UInt64.toNat_toUInt32, UInt64.toNat_add, UInt32.toNat_toUInt64]
  omega

/-- After the first `i` words the sum is that of the words, but for what is carried into the next. -/
theorem add_prefix (a b : BaseUint width) {i : Nat} (inside : i ≤ width) :
    wordsValue ((a.add b).pn.toList.take i) + (2 ^ 32) ^ i * (carry a b i).toNat =
      wordsValue (a.pn.toList.take i) + wordsValue (b.pn.toList.take i) := by
  induction i with
  | zero => rfl
  | succ i ih =>
      have before := ih (Nat.le_of_succ_le inside)
      have word := add_word a b inside
      have carried := toNat_carry_succ a b i (carry_le_one a b i)
      have length (x : BaseUint width) : i < x.pn.toList.length := by rwa [Vector.length_toList]
      rw [wordsValue_take_succ (length _), wordsValue_take_succ (length _), wordsValue_take_succ (length _), word,
        carried, pow_succ _ i, Nat.mul_assoc, Nat.add_assoc, ← Nat.mul_add, Nat.mod_add_div, Nat.mul_add, Nat.mul_add]
      omega

theorem modEq_add (a b : BaseUint width) : ((a.add b).toNat : ℤ) ≡ a.toNat + b.toNat [ZMOD (2 ^ 32) ^ width] := by
  have whole := add_prefix a b (Nat.le_refl width)
  have all (x : BaseUint width) : wordsValue (x.pn.toList.take width) = x.toNat := by
    rw [List.take_of_length_le (by rw [Vector.length_toList])]
    rfl
  rw [all, all, all] at whole
  have sum : (a.toNat + b.toNat : ℤ) = (a.add b).toNat + (2 ^ 32) ^ width * (carry a b width).toNat := by
    exact_mod_cast whole.symm
  rw [sum]
  exact Int.modEq_add_fac_self.symm

theorem modEq_sub (a b : BaseUint width) : ((a.sub b).toNat : ℤ) ≡ a.toNat - b.toNat [ZMOD (2 ^ 32) ^ width] :=
  (modEq_add a b.neg).trans ((modEq_neg b).add_left _)

theorem words_ofUInt64 (b64 : UInt64) :
    (ofUInt64 b64 : BaseUint (width + 2)).pn.toList =
      b64.toUInt32 :: (b64 >>> 32).toUInt32 :: List.replicate width 0 := by
  apply List.ext_getElem
  · simp
  · intro i inside _
    simp only [ofUInt64, Vector.getElem_toList, Vector.getElem_ofFn]
    match i with
    | 0 => rfl
    | 1 => rfl
    | i + 2 => simp

theorem toNat_ofUInt64 (enough : 2 ≤ width) (b64 : UInt64) : (ofUInt64 b64 : BaseUint width).toNat = b64.toNat := by
  obtain ⟨width, rfl⟩ := Nat.exists_eq_add_of_le' enough
  have bound := b64.toNat_lt
  have zeros : wordsValue (List.replicate width 0) = 0 := by
    rw [wordsValue, List.map_replicate]
    exact Nat.ofDigits_replicate_zero
  rw [toNat, words_ofUInt64, wordsValue_cons, wordsValue_cons, zeros]
  simp only [UInt64.toNat_toUInt32, UInt64.toNat_shiftRight, Nat.shiftRight_eq_div_pow, UInt64.reduceToNat,
    Nat.reduceMod]
  omega

/-! ## Comparisons -/

theorem compare_words (a b : BaseUint width) :
    compare (a.pn.toList.reverse.map UInt32.toNat) (b.pn.toList.reverse.map UInt32.toNat) =
      compare a.toNat b.toNat := by
  rw [toNat, toNat, wordsValue_eq_value, wordsValue_eq_value, compare_value (by decide) (by simp) (digits_lt _) (digits_lt _)]

theorem scanWords_compare (fLess fGreater fEqual : Bool) (a b : BaseUint width) :
    scanWords fLess fGreater fEqual a.pn.toList.reverse b.pn.toList.reverse =
      match compare a.toNat b.toNat with
      | .lt => fLess
      | .gt => fGreater
      | .eq => fEqual := by
  rw [scanWords_eq _ _ _ (by simp), compare_words]

theorem compare_eq_toNat (a b : BaseUint width) : compare a b = compare a.toNat b.toNat := by
  rw [← compare_words]
  have words : compare a b = compare a.pn.toList.reverse b.pn.toList.reverse := rfl
  rw [words]
  generalize a.pn.toList.reverse = as
  generalize b.pn.toList.reverse = bs
  induction as generalizing bs with
  | nil => cases bs <;> rfl
  | cons a as ih =>
      cases bs with
      | nil => rfl
      | cons b bs =>
          have first : compare a b = compare a.toNat b.toNat := by
            rcases Nat.lt_trichotomy a.toNat b.toNat with less | equal | greater
            · rw [Nat.compare_eq_lt.mpr less, Std.compare_eq_lt, UInt32.lt_iff_toNat_lt]
              exact less
            · rw [Nat.compare_eq_eq.mpr equal, Std.LawfulEqCmp.compare_eq_iff_eq]
              exact UInt32.toNat_inj.mp equal
            · rw [Nat.compare_eq_gt.mpr greater, Std.compare_eq_gt, UInt32.lt_iff_toNat_lt]
              exact greater
          rw [List.map_cons, List.map_cons, List.compare_cons_cons, List.compare_cons_cons, first, ih]

theorem toNat_inj {a b : BaseUint width} : a.toNat = b.toNat ↔ a = b := by
  rw [← Nat.compare_eq_eq, ← compare_eq_toNat, Std.LawfulEqCmp.compare_eq_iff_eq]

theorem equal_iff (a b : BaseUint width) : a.equal b = true ↔ a = b := by
  simp only [equal, List.all_eq_true, List.mem_finRange, beq_iff_eq, forall_const]
  constructor
  · intro words
    cases a
    cases b
    congr 1
    ext i inside
    exact congrArg UInt32.toNat (words ⟨i, inside⟩)
  · rintro rfl _
    rfl

theorem equalUInt64_iff (enough : 2 ≤ width) (a : BaseUint width) (b : UInt64) :
    a.equalUInt64 b = true ↔ a = ofUInt64 b := by
  obtain ⟨width, rfl⟩ := Nat.exists_eq_add_of_le' enough
  have same : a = ofUInt64 b ↔ a.pn.toList = b.toUInt32 :: (b >>> 32).toUInt32 :: List.replicate width 0 := by
    rw [← words_ofUInt64, Vector.toList_inj]
    constructor
    · rintro rfl
      rfl
    · intro words
      cases a
      exact congrArg BaseUint.mk words
  have length : a.pn.toList.length = width + 2 := Vector.length_toList
  rw [same, equalUInt64]
  generalize a.pn.toList = words at length
  match words, length with
  | low :: high :: words, length =>
      have length : words.length = width := by simpa using length
      simp only [Bool.and_eq_true, beq_iff_eq, List.all_eq_true, List.cons.injEq, List.eq_replicate_iff, length, true_and,
        and_assoc]

/-! ## Integers modulo `2 ^ BITS` -/

variable {BITS : Nat}

/-- The operators compute in the integers modulo `2 ^ BITS`. -/
structure Modular (a b : BaseUint (BITS / 32)) (b64 : UInt64) : Prop where
  add : ((a.add b).toNat : ℤ) = (a.toNat + b.toNat) % 2 ^ BITS
  sub : ((a.sub b).toNat : ℤ) = (a.toNat - b.toNat) % 2 ^ BITS
  addUInt64 : ((a.addUInt64 b64).toNat : ℤ) = (a.toNat + b64.toNat) % 2 ^ BITS
  subUInt64 : ((a.subUInt64 b64).toNat : ℤ) = (a.toNat - b64.toNat) % 2 ^ BITS
  neg : (a.neg.toNat : ℤ) = -a.toNat % 2 ^ BITS
  increment : (a.increment.toNat : ℤ) = (a.toNat + 1) % 2 ^ BITS
  decrement : (a.decrement.toNat : ℤ) = (a.toNat - 1) % 2 ^ BITS

/-- The comparisons are those of the values, which tell all objects apart. -/
structure Ordered (a b : BaseUint width) (b64 : UInt64) : Prop where
  less : a.less b = true ↔ a.toNat < b.toNat
  lessEqual : a.lessEqual b = true ↔ a.toNat ≤ b.toNat
  greater : a.greater b = true ↔ a.toNat > b.toNat
  greaterEqual : a.greaterEqual b = true ↔ a.toNat ≥ b.toNat
  equal : a.equal b = true ↔ a.toNat = b.toNat
  equalUInt64 : a.equalUInt64 b64 = true ↔ a.toNat = b64.toNat
  notEqual : a.notEqual b = true ↔ a.toNat ≠ b.toNat
  notEqualUInt64 : a.notEqualUInt64 b64 = true ↔ a.toNat ≠ b64.toNat
  key : compare a b = compare a.toNat b.toNat
  inj : a.toNat = b.toNat ↔ a = b

theorem eq_emod (words : 32 * (BITS / 32) = BITS) {a : BaseUint (BITS / 32)} {z : ℤ}
    (same : (a.toNat : ℤ) ≡ z [ZMOD (2 ^ 32) ^ (BITS / 32)]) : (a.toNat : ℤ) = z % 2 ^ BITS := by
  have bound := a.toNat_lt
  rw [← pow_mul, words] at bound same
  exact_mod_cast eq_emod_of_modEq bound (by exact_mod_cast same)

theorem modular (words : 32 * (BITS / 32) = BITS) (enough : 2 ≤ BITS / 32) (a b : BaseUint (BITS / 32)) (b64 : UInt64) :
    Modular a b b64 where
  add := eq_emod words (modEq_add a b)
  sub := eq_emod words (modEq_sub a b)
  addUInt64 := by
    have sum := modEq_add a (ofUInt64 b64)
    rw [toNat_ofUInt64 enough] at sum
    exact eq_emod words sum
  subUInt64 := by
    have difference := modEq_sub a (ofUInt64 b64)
    rw [toNat_ofUInt64 enough] at difference
    exact eq_emod words difference
  neg := eq_emod words (modEq_neg a)
  increment := eq_emod words (modEq_increment a)
  decrement := eq_emod words (modEq_decrement a)

theorem ordered (enough : 2 ≤ width) (a b : BaseUint width) (b64 : UInt64) : Ordered a b b64 := by
  have same : a.equal b = true ↔ a.toNat = b.toNat := (equal_iff a b).trans toNat_inj.symm
  have same64 : a.equalUInt64 b64 = true ↔ a.toNat = b64.toNat := by
    rw [equalUInt64_iff enough, ← toNat_inj, toNat_ofUInt64 enough]
  constructor
  case less =>
    rw [less, scanWords_compare, ← Nat.compare_eq_lt]
    cases compare a.toNat b.toNat <;> simp
  case lessEqual =>
    rw [lessEqual, scanWords_compare, ← Nat.compare_ne_gt]
    cases compare a.toNat b.toNat <;> simp
  case greater =>
    rw [greater, scanWords_compare, gt_iff_lt, ← Nat.compare_eq_gt]
    cases compare a.toNat b.toNat <;> simp
  case greaterEqual =>
    rw [greaterEqual, scanWords_compare, ge_iff_le, ← Nat.compare_ne_lt]
    cases compare a.toNat b.toNat <;> simp
  case equal => exact same
  case equalUInt64 => exact same64
  case notEqual => rw [notEqual, Bool.not_eq_true', ← Bool.not_eq_true, same]
  case notEqualUInt64 => rw [notEqualUInt64, Bool.not_eq_true', ← Bool.not_eq_true, same64]
  case key => exact compare_eq_toNat a b
  case inj => exact toNat_inj

theorem integers_modulo (BITS : Nat) (positive : 0 < BITS) (multiple : 64 ∣ BITS) (a b : BaseUint (BITS / 32))
    (b64 : UInt64) : Modular a b b64 ∧ Ordered a b b64 := by
  have words : 32 * (BITS / 32) = BITS := by omega
  have enough : 2 ≤ BITS / 32 := by omega
  exact ⟨modular words enough a b b64, ordered enough a b b64⟩

theorem uint1024_modulo :
    Modular (ofUInt64 0xffffffffffffffff : BaseUint (1024 / 32)) (ofUInt64 1) 5 ∧
      Ordered (ofUInt64 0xffffffffffffffff : BaseUint (1024 / 32)) (ofUInt64 1) 5 :=
  integers_modulo 1024 (by decide) (by decide) _ _ _

/-- The number a share is about, from the origin that the pool sent. -/
theorem toNat_add_ofUInt64 (hashPrimeOrigin : Uint1024) (nNonce : UInt64) :
    (hashPrimeOrigin.add (ofUInt64 nNonce)).toNat = (hashPrimeOrigin.toNat + nNonce.toNat) % 2 ^ 1024 := by
  have sum := (@modular 1024 (by decide) (by decide) hashPrimeOrigin hashPrimeOrigin nNonce).addUInt64
  exact_mod_cast sum

end BaseUint

end PrimePool

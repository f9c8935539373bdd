import Mathlib.FieldTheory.Finite.Basic
import Mathlib.Tactic.NormNum.Prime
import PrimePool.Core.ClusterBounds

/-!
# Primes and their clusters

The sieve of `prime.cpp` finds the primes, and the search of `GmpVerification` misses no prime of a cluster.
-/

namespace PrimePool.Core

open PrimePool.General

/-! ## The sieve -/

theorem takeWhile_range' {p : Nat → Bool} (falls : ∀ {a b : Nat}, a ≤ b → p b = true → p a = true) (first count : Nat) :
    (List.range' first count).takeWhile p = (List.range' first count).filter p := by
  induction count generalizing first with
  | zero => rfl
  | succ count ih =>
      rw [List.range'_succ]
      cases holds : p first with
      | true => rw [List.takeWhile_cons_of_pos holds, List.filter_cons_of_pos holds, ih]
      | false =>
          have none : (List.range' (first + 1) count).filter p = [] := by
            refine List.filter_eq_nil_iff.mpr fun a member later => ?_
            have behind := (List.mem_range'_1.mp member).1
            rw [falls (Nat.le_of_succ_le behind) later] at holds
            cases holds
          rw [List.takeWhile_cons_of_neg (by rw [holds]; exact Bool.false_ne_true),
            List.filter_cons_of_neg (by rw [holds]; exact Bool.false_ne_true), none]

/-- The loop over the composites of one index. -/
def strike (nSieveSize : Nat) (TABLE : List Bool) (nIndex : Nat) : List Bool :=
  ((List.range' 2 nSieveSize).takeWhile fun nComposite => nComposite * nIndex < nSieveSize).foldl
    (fun TABLE nComposite => TABLE.set (nComposite * nIndex) true) TABLE

theorem mem_foldl_set {ι : Type} (place : ι → Nat) (items : List ι) (TABLE : List Bool) (k : Nat) :
    (items.foldl (fun TABLE item => TABLE.set (place item) true) TABLE)[k]? = some true ↔
      TABLE[k]? = some true ∨ k < TABLE.length ∧ ∃ item ∈ items, place item = k := by
  induction items generalizing TABLE with
  | nil => simp
  | cons item items ih =>
      rw [List.foldl_cons, ih, List.length_set, List.getElem?_set, List.exists_mem_cons_iff]
      by_cases here : place item = k
      · by_cases inside : k < TABLE.length
        · simp [here, inside]
        · simp [here, inside]
      · simp [here]

theorem length_foldl_set {ι : Type} (place : ι → Nat) (items : List ι) (TABLE : List Bool) :
    (items.foldl (fun TABLE item => TABLE.set (place item) true) TABLE).length = TABLE.length := by
  induction items generalizing TABLE with
  | nil => rfl
  | cons item items ih => rw [List.foldl_cons, ih, List.length_set]

theorem length_strike (nSieveSize : Nat) (TABLE : List Bool) (nIndex : Nat) :
    (strike nSieveSize TABLE nIndex).length = TABLE.length := length_foldl_set _ _ _

theorem struck_iff {nSieveSize nIndex : Nat} (large : 2 ≤ nIndex) {TABLE : List Bool} (length : TABLE.length = nSieveSize)
    (k : Nat) :
    (strike nSieveSize TABLE nIndex)[k]? = some true ↔
      TABLE[k]? = some true ∨ k < nSieveSize ∧ ∃ nComposite, 2 ≤ nComposite ∧ nComposite * nIndex = k := by
  have falls {a b : Nat} (below : a ≤ b) (fits : decide (b * nIndex < nSieveSize) = true) :
      decide (a * nIndex < nSieveSize) = true :=
    decide_eq_true (Nat.lt_of_le_of_lt (Nat.mul_le_mul_right nIndex below) (of_decide_eq_true fits))
  rw [strike, takeWhile_range' falls, mem_foldl_set, length]
  refine or_congr_right (and_congr_right fun inside => ⟨?_, ?_⟩)
  · rintro ⟨nComposite, member, same⟩
    exact ⟨nComposite, (List.mem_range'_1.mp (List.mem_filter.mp member).1).1, same⟩
  · rintro ⟨nComposite, more, rfl⟩
    have bound : nComposite ≤ nComposite * nIndex := Nat.le_mul_of_pos_right _ (by omega)
    exact ⟨nComposite, List.mem_filter.mpr ⟨List.mem_range'_1.mpr ⟨more, by omega⟩, decide_eq_true inside⟩, rfl⟩

theorem tables_iff {nSieveSize : Nat} (indices : List Nat) (large : ∀ nIndex ∈ indices, 2 ≤ nIndex) {TABLE : List Bool}
    (length : TABLE.length = nSieveSize) (k : Nat) :
    (indices.foldl (strike nSieveSize) TABLE)[k]? = some true ↔
      TABLE[k]? = some true ∨
        k < nSieveSize ∧ ∃ nIndex ∈ indices, ∃ nComposite, 2 ≤ nComposite ∧ nComposite * nIndex = k := by
  induction indices generalizing TABLE with
  | nil => simp
  | cons nIndex indices ih =>
      rw [List.forall_mem_cons] at large
      rw [List.foldl_cons, ih large.2 ((length_strike _ _ _).trans length), struck_iff large.1 length,
        List.exists_mem_cons_iff, and_or_left, or_assoc]

theorem eratosthenesTable_iff {nSieveSize k : Nat} (large : 2 ≤ k) (inside : k < nSieveSize) :
    (eratosthenesTable nSieveSize).getD k false = true ↔ ¬ k.Prime := by
  have table : eratosthenesTable nSieveSize =
      (List.range' 2 (nSieveSize - 2)).foldl (strike nSieveSize) (List.replicate nSieveSize false) := rfl
  have started : ∀ nIndex ∈ List.range' 2 (nSieveSize - 2), 2 ≤ nIndex :=
    fun nIndex member => (List.mem_range'_1.mp member).1
  have read (TABLE : List Bool) : TABLE.getD k false = true ↔ TABLE[k]? = some true := by
    rw [List.getD_eq_getElem?_getD]
    cases TABLE[k]? <;> simp
  have blank : (List.replicate nSieveSize false)[k]? ≠ some true := by
    rw [List.getElem?_replicate, if_pos inside]
    exact fun same => nomatch same
  rw [read, table, tables_iff _ started List.length_replicate, or_iff_right blank, and_iff_right inside]
  constructor
  · rintro ⟨nIndex, member, nComposite, more, rfl⟩
    exact Nat.not_prime_mul (by omega) (by have := started nIndex member; omega)
  · intro composite
    obtain ⟨a, b, small, small', same⟩ := (Nat.not_prime_iff_exists_mul_eq large).mp composite
    have positive : 2 ≤ a ∧ 2 ≤ b := by
      constructor
      · by_contra less
        have cases : a = 0 ∨ a = 1 := by omega
        rcases cases with rfl | rfl <;> omega
      · by_contra less
        have cases : b = 0 ∨ b = 1 := by omega
        rcases cases with rfl | rfl <;> omega
    exact ⟨b, List.mem_range'_1.mpr ⟨positive.2, by omega⟩, a, positive.1, same⟩

theorem eratosthenes_primes (nSieveSize : Nat) :
    Eratosthenes nSieveSize = (List.range nSieveSize).filter fun n => n.Prime := by
  have sieved : Eratosthenes nSieveSize = (List.range' 2 (nSieveSize - 2)).filter fun n => n.Prime := by
    refine List.filter_congr fun k member => ?_
    obtain ⟨large, inside⟩ := List.mem_range'_1.mp member
    have struck := eratosthenesTable_iff large (by omega : k < nSieveSize)
    by_cases prime : k.Prime
    · rw [decide_eq_true prime, Bool.not_eq_true', ← Bool.not_eq_true, struck]
      exact not_not.mpr prime
    · rw [decide_eq_false prime, struck.mpr prime]
      rfl
  rw [sieved, List.range_eq_range']
  match nSieveSize with
  | 0 => rfl
  | 1 => rfl
  | nSieveSize + 2 => rfl

/-! ## Clusters -/

/-- Primes with no gap of more than 12. -/
def IsCluster (cluster : List Nat) : Prop :=
  (∀ p ∈ cluster, p.Prime ∧ 79 < p) ∧ cluster.IsChain fun p q => p < q ∧ q ≤ p + 12

variable {mpz_powm BN_mod_exp : Exponentiation}

theorem passesSieve_of_prime {p : Nat} (prime : p.Prime) (large : 79 < p) : passesSieve p = true := by
  refine List.all_eq_true.mpr fun nDivisor member => decide_eq_true fun zero => ?_
  obtain ⟨more, less⟩ := List.mem_range'_1.mp (List.mem_of_mem_filter member)
  rcases (Nat.dvd_prime prime).mp (Nat.dvd_of_mod_eq_zero zero) with one | same <;> omega

theorem GmpPrimeTest_of_prime (gmp : mpz_powm.Correct) {p : Nat} (prime : p.Prime) (large : 79 < p) :
    GmpPrimeTest mpz_powm p = true := by
  have coprime : Nat.Coprime 2 p := (Nat.coprime_primes Nat.prime_two prime).mpr (by omega)
  have fermat : 2 ^ (p - 1) % p = 1 := by
    have power := Nat.ModEq.pow_totient coprime
    rw [Nat.totient_prime prime] at power
    exact Eq.trans power (Nat.mod_eq_of_lt prime.one_lt)
  rw [GmpPrimeTest, GmpDivisor, passesSieve_of_prime prime large, Bool.true_and, GmpFermat,
    gmp 2 (p - 1) p prime.pos, fermat]
  rfl

/-- The search has counted every member it has passed, and none lies in the gap that it is in. -/
structure Covering (cluster : List Nat) (s : GmpSearch) : Prop where
  odd : s.zPrime % 2 = 1
  gap : 2 ≤ s.nPrimeGap ∧ s.nPrimeGap ≤ 14 ∧ s.nPrimeGap % 2 = 0
  counted (i p : Nat) : cluster[i]? = some p → p ≤ s.zPrime → i < s.nClusterSize
  passed (p : Nat) : p ∈ cluster → p ≤ s.zPrime → p + s.nPrimeGap ≤ s.zPrime + 2

namespace IsCluster

variable {cluster : List Nat} (isCluster : IsCluster cluster)

include isCluster

theorem odd {p : Nat} (member : p ∈ cluster) : p % 2 = 1 := by
  obtain ⟨prime, large⟩ := isCluster.1 p member
  exact prime.mod_two_eq_one_iff_ne_two.mpr (by omega)

/-- The search takes only odd numbers, and comes to every member. -/
theorem le_add_two_iff {z p : Nat} (odd : z % 2 = 1) (member : p ∈ cluster) : p ≤ z + 2 ↔ p ≤ z ∨ p = z + 2 := by
  have odd' := isCluster.odd member
  omega

theorem near {i p : Nat} (found : cluster[i + 1]? = some p) :
    ∃ before, cluster[i]? = some before ∧ before < p ∧ p ≤ before + 12 := by
  obtain ⟨inside, rfl⟩ := List.getElem?_eq_some_iff.mp found
  exact ⟨cluster[i], List.getElem?_eq_getElem _, List.isChain_iff_getElem.mp isCluster.2 i inside⟩

theorem increasing {i p q : Nat} (first : cluster[0]? = some p) (found : cluster[i]? = some q) (later : 0 < i) : p < q := by
  induction i generalizing q with
  | zero => exact absurd later (Nat.lt_irrefl 0)
  | succ i ih =>
      obtain ⟨before, place, less, -⟩ := isCluster.near found
      rcases Nat.eq_zero_or_pos i with rfl | later
      · rw [first] at place
        cases place
        exact less
      · exact Nat.lt_trans (ih place later) less

end IsCluster

namespace Covering

variable {cluster : List Nat} {s s' : GmpSearch}

theorem start (isCluster : IsCluster cluster) {prime : Nat} (first : cluster[0]? = some prime) :
    Covering cluster (.start prime) := by
  constructor
  case odd => exact isCluster.odd (List.mem_of_getElem? first)
  case gap => exact ⟨Nat.le_refl 2, (by decide : 2 ≤ 14), (rfl : 2 % 2 = 0)⟩
  case counted =>
    intro i p found reached
    rcases Nat.eq_zero_or_pos i with rfl | later
    · exact Nat.one_pos
    · have behind := isCluster.increasing first found later
      exact absurd reached (Nat.not_le.mpr behind)
  case passed => exact fun p _ reached => Nat.add_le_add_right reached 2

theorem miss (isCluster : IsCluster cluster) (covering : Covering cluster s) (short : s.nPrimeGap ≤ 12)
    (none : s.zPrime + 2 ∉ cluster) :
    Covering cluster { s with zPrime := s.zPrime + 2, nOffset := s.nOffset + 2, nPrimeGap := s.nPrimeGap + 2 } := by
  obtain ⟨odd, gap, counted, passed⟩ := covering
  have before {p : Nat} (member : p ∈ cluster) (reached : p ≤ s.zPrime + 2) : p ≤ s.zPrime := by
    refine ((isCluster.le_add_two_iff odd member).mp reached).resolve_right ?_
    rintro rfl
    exact none member
  constructor
  case odd => dsimp only; omega
  case gap => dsimp only; omega
  case counted => exact fun i p found reached => counted i p found (before (List.mem_of_getElem? found) reached)
  case passed =>
    intro p member reached
    have bound := passed p member (before member reached)
    dsimp only
    omega

theorem hit (isCluster : IsCluster cluster) (covering : Covering cluster s) :
    Covering cluster
      { zPrime := s.zPrime + 2, nOffset := s.nOffset + 2, nClusterSize := s.nClusterSize + 1, nPrimeGap := 2 } := by
  obtain ⟨odd, gap, counted, passed⟩ := covering
  constructor
  case odd => dsimp only; omega
  case gap => exact ⟨Nat.le_refl 2, (by decide : 2 ≤ 14), (rfl : 2 % 2 = 0)⟩
  case counted =>
    intro i p found reached
    cases i with
    | zero => exact Nat.succ_pos _
    | succ i =>
        obtain ⟨before, place, less, -⟩ := isCluster.near found
        have odd' := isCluster.odd (List.mem_of_getElem? place)
        dsimp only at reached
        exact Nat.succ_lt_succ (counted i before place (by omega))
  case passed => exact fun p _ reached => Nat.add_le_add_right reached 2

theorem next (isCluster : IsCluster cluster) (gmp : mpz_powm.Correct) (covering : Covering cluster s)
    (continues : s.next mpz_powm = some s') : Covering cluster s' := by
  unfold GmpSearch.next at continues
  split at continues
  · rename_i short
    dsimp only at continues
    split at continues
    · rename_i fails
      obtain rfl := Option.some.inj continues
      refine covering.miss isCluster short fun member => ?_
      obtain ⟨prime, large⟩ := isCluster.1 _ member
      rw [GmpPrimeTest_of_prime gmp prime large] at fails
      cases fails
    · obtain rfl := Option.some.inj continues
      exact covering.hit isCluster
  · cases continues

/-- At the end of the search all members are passed. -/
theorem all_passed (isCluster : IsCluster cluster) (covering : Covering cluster s) (long : 12 < s.nPrimeGap)
    {prime : Nat} (first : cluster[0]? = some prime) (begun : prime ≤ s.zPrime) {i p : Nat}
    (found : cluster[i]? = some p) : p ≤ s.zPrime := by
  induction i generalizing p with
  | zero =>
      rw [first] at found
      cases found
      exact begun
  | succ i ih =>
      obtain ⟨before, place, -, close⟩ := isCluster.near found
      have bound := covering.passed before (List.mem_of_getElem? place) (ih place)
      have gap := covering.gap
      have odd := isCluster.odd (List.mem_of_getElem? found)
      have odd' := covering.odd
      omega

theorem length_le (isCluster : IsCluster cluster) (covering : Covering cluster s) (long : 12 < s.nPrimeGap)
    {prime : Nat} (within : GmpSearch.Within prime s) (first : cluster[0]? = some prime) :
    cluster.length ≤ s.nClusterSize := by
  obtain ⟨inside, -⟩ := List.getElem?_eq_some_iff.mp first
  have found : cluster[cluster.length - 1]? = some cluster[cluster.length - 1] := List.getElem?_eq_getElem _
  have begun : prime ≤ s.zPrime := within.offset ▸ Nat.le_add_right _ _
  have counted := covering.counted _ _ found (covering.all_passed isCluster long first begun found)
  omega

end Covering

theorem GmpSearch.long_of_exit {s : GmpSearch} (exits : s.next mpz_powm = none) : 12 < s.nPrimeGap := by
  unfold GmpSearch.next at exits
  split at exits
  · dsimp only at exits
    split at exits <;> cases exits
  · rename_i long
    exact Nat.not_le.mp long

/-- The difficulty is no less than the size of a cluster that starts at the number. -/
theorem cluster_counted (mpz_powm BN_mod_exp : Exponentiation) (gmp : mpz_powm.Correct) (rounded : Rat → Rat)
    (rounding : DoubleRounding rounded) (cluster : List Nat) (isCluster : IsCluster cluster) (prime : Nat)
    (first : cluster[0]? = some prime) (fuel : Nat) (enough : 2330 ≤ fuel) :
    ∃ nDifficulty, GmpVerification mpz_powm BN_mod_exp rounded fuel prime = some nDifficulty ∧
      cluster.length ≤ nDifficulty := by
  have member := isCluster.1 prime (List.mem_of_getElem? first)
  have passes := GmpPrimeTest_of_prime gmp member.1 member.2
  obtain ⟨last, ends, within⟩ := GmpSearch.loop_ends mpz_powm (remains_of_GmpPrimeTest passes) enough
  obtain ⟨covering, exits⟩ := loop_invariant (Covering cluster) (fun _ _ => Covering.next isCluster gmp)
    (.start isCluster first) ends
  have size := covering.length_le isCluster (GmpSearch.long_of_exit exits) within first
  have fraction := fractionalRemainder_mem BN_mod_exp rounded (prime + last.nOffset + 2)
  refine ⟨rounded (last.nClusterSize + fractionalRemainder BN_mod_exp rounded (prime + last.nOffset + 2)), ?_, ?_⟩
  · rw [GmpVerification, if_neg (by rw [passes]; exact Bool.noConfusion), ends]
    rfl
  · have small := within.nClusterSize_lt
    have least : (cluster.length : Rat) ≤
        last.nClusterSize + fractionalRemainder BN_mod_exp rounded (prime + last.nOffset + 2) := by
      have counted : (cluster.length : Rat) ≤ last.nClusterSize := by exact_mod_cast size
      linarith [fraction.1]
    calc (cluster.length : Rat) = rounded cluster.length := (rounding.exact _ (by omega)).symm
      _ ≤ _ := rounding.monotone least

theorem cluster_counted_101 :
    ∃ nDifficulty, GmpVerification .exact .exact id 2330 101 = some nDifficulty ∧ 5 ≤ nDifficulty := by
  have isCluster : IsCluster [101, 103, 107, 109, 113] := by
    refine ⟨?_, by decide⟩
    simp only [List.forall_mem_cons, List.not_mem_nil, false_implies, implies_true, and_true]
    norm_num
  exact cluster_counted .exact .exact (fun _ _ _ _ => rfl) id { monotone := id, exact := fun _ _ => rfl } _ isCluster 101 rfl
    2330 (Nat.le_refl _)

end PrimePool.Core

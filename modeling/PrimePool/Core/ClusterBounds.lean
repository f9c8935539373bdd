import Mathlib.Data.Nat.Count
import PrimePool.Core.Prime

/-!
# The bounds of a cluster

A number that passes the divisor sieve has no divisor among the first five primes. From 114 to 126 and from 2184 to
2196 modulo 2310 there is no such number, and a search does not cross so wide a gap.
-/

namespace PrimePool.Core

open PrimePool.General

/-! ## Residues modulo 2310 -/

def Remains (n : Nat) : Prop := ∀ nDivisor ∈ [2, 3, 5, 7, 11], n % nDivisor ≠ 0

instance : DecidablePred Remains := fun n => inferInstanceAs (Decidable (∀ nDivisor ∈ [2, 3, 5, 7, 11], n % nDivisor ≠ 0))

theorem remains_of_passesSieve {n : Nat} (passes : passesSieve n = true) : Remains n := by
  have listed : ∀ nDivisor ∈ [2, 3, 5, 7, 11], nDivisor ∈ PRIME_SIEVE := by decide +kernel
  intro nDivisor member
  exact of_decide_eq_true (List.all_eq_true.mp passes nDivisor (listed nDivisor member))

theorem remains_add (turns n : Nat) : Remains (2310 * turns + n) ↔ Remains n := by
  simp only [Remains, List.forall_mem_cons, List.not_mem_nil, false_implies, implies_true, and_true]
  omega

theorem count_add (turns n : Nat) :
    Nat.count Remains (2310 * turns + n) = Nat.count Remains (2310 * turns) + Nat.count Remains n := by
  rw [Nat.count_add]
  congr 1
  simp only [remains_add]

/-- The start of the first gap behind the number. -/
def gapBehind (n : Nat) : Nat :=
  2310 * (n / 2310) + if n % 2310 < 114 then 114 else if n % 2310 < 2184 then 2184 else 2424

theorem lt_gapBehind (n : Nat) : n < gapBehind n := by
  unfold gapBehind
  split
  · omega
  · split <;> omega

theorem gapBehind_le (n : Nat) : gapBehind n ≤ n + 2310 := by
  unfold gapBehind
  split
  · omega
  · split <;> omega

theorem not_remains_of_gap {n m : Nat} (first : gapBehind n ≤ m) (last : m ≤ gapBehind n + 12) : ¬ Remains m := by
  have gaps : ∀ start ∈ [114, 2184, 2424], ∀ i < 13, ¬ Remains (start + i) := by decide +kernel
  obtain ⟨start, member, gap⟩ : ∃ start ∈ [114, 2184, 2424], gapBehind n = 2310 * (n / 2310) + start := by
    unfold gapBehind
    split
    · exact ⟨114, by simp, rfl⟩
    · split
      · exact ⟨2184, by simp, rfl⟩
      · exact ⟨2424, by simp, rfl⟩
  have place : m = 2310 * (n / 2310) + (start + (m - gapBehind n)) := by omega
  rw [place, remains_add]
  exact gaps start member _ (by omega)

theorem count_gapBehind_le (n : Nat) : Nat.count Remains (gapBehind n) ≤ Nat.count Remains n + 428 := by
  have counts : Nat.count Remains 114 = 26 ∧ Nat.count Remains 2184 = 454 ∧ Nat.count Remains 2424 = 506 := by
    decide +kernel
  obtain ⟨low, middle, high⟩ := counts
  have place : n = 2310 * (n / 2310) + n % 2310 := (Nat.div_add_mod n 2310).symm
  have counted : Nat.count Remains n = Nat.count Remains (2310 * (n / 2310)) + Nat.count Remains (n % 2310) := by
    rw [← count_add, ← place]
  rw [counted, gapBehind, count_add]
  split
  · omega
  · rename_i first
    split
    · have least := Nat.count_monotone Remains (Nat.not_lt.mp first)
      omega
    · rename_i second
      have least := Nat.count_monotone Remains (Nat.not_lt.mp second)
      omega

/-! ## The search -/

variable {mpz_powm BN_mod_exp : Exponentiation}

theorem remains_of_GmpPrimeTest {zPrime : Nat} (prime : GmpPrimeTest mpz_powm zPrime = true) : Remains zPrime := by
  rw [GmpPrimeTest, Bool.and_eq_true] at prime
  exact remains_of_passesSieve prime.1

namespace GmpSearch

/-- The last member of the cluster lies before the gap. -/
structure Within (prime : Nat) (s : GmpSearch) : Prop where
  offset : s.zPrime = prime + s.nOffset
  gap : 2 ≤ s.nPrimeGap ∧ s.nPrimeGap ≤ 14
  member : ∃ last, s.zPrime + 2 = last + s.nPrimeGap ∧ last < gapBehind prime ∧
    s.nClusterSize + Nat.count Remains prime ≤ Nat.count Remains (last + 1)

namespace Within

variable {prime : Nat} {s s' : GmpSearch}

theorem start (remains : Remains prime) : Within prime (.start prime) where
  offset := rfl
  gap := ⟨Nat.le_refl 2, (by decide : 2 ≤ 14)⟩
  member := by
    refine ⟨prime, rfl, lt_gapBehind prime, ?_⟩
    rw [Nat.count_succ, if_pos remains, Nat.add_comm]
    exact Nat.le_refl _

theorem miss (within : Within prime s) (short : s.nPrimeGap ≤ 12) :
    Within prime { s with zPrime := s.zPrime + 2, nOffset := s.nOffset + 2, nPrimeGap := s.nPrimeGap + 2 } where
  offset := by
    have offset := within.offset
    dsimp only
    omega
  gap := by
    have gap := within.gap
    dsimp only
    omega
  member := by
    obtain ⟨last, place, before, size⟩ := within.member
    refine ⟨last, ?_, before, size⟩
    dsimp only
    omega

theorem hit (within : Within prime s) (short : s.nPrimeGap ≤ 12) (remains : Remains (s.zPrime + 2)) :
    Within prime { zPrime := s.zPrime + 2, nOffset := s.nOffset + 2, nClusterSize := s.nClusterSize + 1, nPrimeGap := 2 } where
  offset := by
    have offset := within.offset
    dsimp only
    omega
  gap := ⟨Nat.le_refl 2, (by decide : 2 ≤ 14)⟩
  member := by
    obtain ⟨last, place, before, size⟩ := within.member
    have gap := within.gap
    refine ⟨s.zPrime + 2, rfl, ?_, ?_⟩
    · by_contra beyond
      exact not_remains_of_gap (Nat.not_lt.mp beyond) (by omega) remains
    · have later : last + 1 ≤ s.zPrime + 2 := by omega
      have more := Nat.count_monotone Remains later
      rw [Nat.count_succ, if_pos remains]
      dsimp only
      omega

theorem next (within : Within prime s) (continues : s.next mpz_powm = some s') :
    Within prime s' ∧ gapBehind prime + 14 - s'.zPrime < gapBehind prime + 14 - s.zPrime := by
  obtain ⟨last, place, before, -⟩ := within.member
  unfold GmpSearch.next at continues
  split at continues
  · rename_i short
    dsimp only at continues
    split at continues
    · cases continues
      exact ⟨within.miss short, by dsimp only; omega⟩
    · rename_i found
      rw [Bool.not_eq_false] at found
      cases continues
      exact ⟨within.hit short (remains_of_GmpPrimeTest found), by dsimp only; omega⟩
  · cases continues

theorem nClusterSize_lt (within : Within prime s) : s.nClusterSize < 429 := by
  obtain ⟨last, -, before, size⟩ := within.member
  have most := Nat.count_monotone Remains (Nat.succ_le_of_lt before)
  have bound := count_gapBehind_le prime
  rw [Nat.succ_eq_add_one] at most
  omega

theorem nOffset_lt (within : Within prime s) : s.nOffset < 2 ^ 32 := by
  obtain ⟨last, place, before, -⟩ := within.member
  have offset := within.offset
  have gap := within.gap
  have near := gapBehind_le prime
  omega

end Within

theorem loop_ends (mpz_powm : Exponentiation) {prime fuel : Nat} (remains : Remains prime) (enough : 2330 ≤ fuel) :
    ∃ last, loop (GmpSearch.next mpz_powm) fuel (.start prime) = some last ∧ Within prime last := by
  have near := gapBehind_le prime
  obtain ⟨last, ends⟩ := General.loop_ends (Within prime) (fun s => gapBehind prime + 14 - s.zPrime)
    (fun s s' within (continues : s.next mpz_powm = some s') => within.next continues) (.start remains)
    (show gapBehind prime + 14 - prime < fuel by omega)
  have kept := loop_invariant (Within prime) (fun s s' within continues => (within.next continues).1) (.start remains) ends
  exact ⟨last, ends, kept.1⟩

end GmpSearch

/-! ## The difficulty -/

/-- What the bounds need of the rounding of a `double`. -/
structure DoubleRounding (rounded : Rat → Rat) : Prop where
  monotone : ∀ {x y : Rat}, x ≤ y → rounded x ≤ rounded y
  exact : ∀ n : Nat, n ≤ 2 ^ 53 → rounded n = n

variable {rounded : Rat → Rat}

theorem fractionalRemainder_mem (BN_mod_exp : Exponentiation) (rounded : Rat → Rat) (composite : Nat) :
    0 ≤ fractionalRemainder BN_mod_exp rounded composite ∧ fractionalRemainder BN_mod_exp rounded composite ≤ 1 := by
  unfold fractionalRemainder
  dsimp only
  split
  · exact ⟨le_rfl, by norm_num⟩
  · split
    · exact ⟨le_rfl, by norm_num⟩
    · rename_i outside
      rw [not_or, not_lt, not_lt] at outside
      exact ⟨outside.2, outside.1⟩

namespace DoubleRounding

theorem nonneg (rounding : DoubleRounding rounded) {x : Rat} (positive : 0 ≤ x) : 0 ≤ rounded x := by
  have zero := rounding.exact 0 (Nat.zero_le _)
  rw [Nat.cast_zero] at zero
  rw [← zero]
  exact rounding.monotone positive

theorem le_natCast (rounding : DoubleRounding rounded) {x : Rat} {n : Nat} (small : n ≤ 2 ^ 53) (bound : x ≤ n) :
    rounded x ≤ n := by
  rw [← rounding.exact n small]
  exact rounding.monotone bound

theorem floor_le (rounding : DoubleRounding rounded) {nDiff : Rat} (bound : nDiff ≤ 429) :
    (rounded (10000000 * nDiff)).floor.toNat ≤ 4290000000 := by
  have product : 10000000 * nDiff ≤ ((4290000000 : Nat) : Rat) := by
    push_cast
    linarith
  have least := rounding.le_natCast (by decide) product
  have floor : (rounded (10000000 * nDiff)).floor ≤ ((4290000000 : Nat) : Int) := by
    have below := Rat.floor_le (rounded (10000000 * nDiff))
    exact_mod_cast le_trans below least
  exact Int.toNat_le.mpr floor

end DoubleRounding

/-- `GmpVerification` returns, and ten million times its difficulty fits in the `unsigned int` of `SetBits`. -/
theorem cluster_bounded (mpz_powm BN_mod_exp : Exponentiation) (rounded : Rat → Rat) (rounding : DoubleRounding rounded)
    (prime fuel : Nat) (enough : 2330 ≤ fuel) :
    (GmpPrimeTest mpz_powm prime = true → ∃ last, loop (GmpSearch.next mpz_powm) fuel (.start prime) = some last ∧
        last.nClusterSize < 429 ∧ last.nOffset < 2 ^ 32) ∧
      ∃ nDifficulty, GmpVerification mpz_powm BN_mod_exp rounded fuel prime = some nDifficulty ∧
        0 ≤ nDifficulty ∧ nDifficulty ≤ 429 ∧ (rounded (10000000 * nDifficulty)).floor.toNat < 2 ^ 32 ∧
        (SetBits rounded nDifficulty).toNat = (rounded (10000000 * nDifficulty)).floor.toNat := by
  have fits {nDifficulty : Rat} (bound : nDifficulty ≤ 429) :
      (rounded (10000000 * nDifficulty)).floor.toNat < 2 ^ 32 ∧
        (SetBits rounded nDifficulty).toNat = (rounded (10000000 * nDifficulty)).floor.toNat := by
    have small := rounding.floor_le bound
    have word : (rounded (10000000 * nDifficulty)).floor.toNat < 2 ^ 32 := by omega
    refine ⟨word, ?_⟩
    rw [SetBits, Nat.toUInt32_eq, UInt32.toNat_ofNat', Nat.mod_eq_of_lt word]
  constructor
  · intro passes
    obtain ⟨last, ends, within⟩ := GmpSearch.loop_ends mpz_powm (remains_of_GmpPrimeTest passes) enough
    exact ⟨last, ends, within.nClusterSize_lt, within.nOffset_lt⟩
  · cases passes : GmpPrimeTest mpz_powm prime with
    | false =>
        refine ⟨0, ?_, le_rfl, by norm_num, fits (by norm_num)⟩
        rw [GmpVerification, if_pos passes]
        rfl
    | true =>
        obtain ⟨last, ends, within⟩ := GmpSearch.loop_ends mpz_powm (remains_of_GmpPrimeTest passes) enough
        have fraction := fractionalRemainder_mem BN_mod_exp rounded (prime + last.nOffset + 2)
        have size : (last.nClusterSize : Rat) ≤ 428 := by
          exact_mod_cast Nat.le_of_lt_succ within.nClusterSize_lt
        have sum : last.nClusterSize + fractionalRemainder BN_mod_exp rounded (prime + last.nOffset + 2) ≤
            ((429 : Nat) : Rat) := by
          push_cast
          linarith
        have most := rounding.le_natCast (by decide) sum
        push_cast at most
        refine ⟨_, ?_, rounding.nonneg (add_nonneg (Nat.cast_nonneg _) fraction.1), most, fits most⟩
        rw [GmpVerification, if_neg (by rw [passes]; exact Bool.noConfusion), ends]
        rfl

theorem cluster_bounded_1151 :
    (∃ last, loop (GmpSearch.next .exact) 2330 (.start 1151) = some last ∧ last.nClusterSize < 429 ∧
        last.nOffset < 2 ^ 32) ∧
      ∃ nDifficulty, GmpVerification .exact .exact id 2330 1151 = some nDifficulty ∧ 0 ≤ nDifficulty ∧
        nDifficulty ≤ 429 ∧ (id (10000000 * nDifficulty)).floor.toNat < 2 ^ 32 ∧
        (SetBits id nDifficulty).toNat = (id (10000000 * nDifficulty)).floor.toNat := by
  have bounded := cluster_bounded .exact .exact id { monotone := id, exact := fun _ _ => rfl } 1151 2330 (by decide)
  exact ⟨bounded.1 (by decide +kernel), bounded.2⟩

end PrimePool.Core

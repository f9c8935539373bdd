import PrimePool.Core.ClusterBounds

/-!
# The two verifications

`GmpVerification` counts the gap behind the last member and the offset of the candidate, `CheckPrimeDifficulty`
compares the candidate with the last member.
-/

namespace PrimePool.Core

open PrimePool.General

variable {mpz_powm BN_mod_exp : Exponentiation}

theorem GmpFermat_eq (gmp : mpz_powm.Correct) (openssl : BN_mod_exp.Correct) {n : Nat} (positive : 0 < n) :
    GmpFermat mpz_powm n = decide (FermatTest BN_mod_exp n 2 = 1) := by
  rw [GmpFermat, FermatTest, gmp _ _ _ positive, openssl _ _ _ positive]

structure InStep (prime : Nat) (gmp : GmpSearch) (check : CheckSearch) : Prop where
  candidate : check.next = gmp.zPrime + 2
  gap : check.next = check.lastPrime + gmp.nPrimeGap
  size : gmp.nClusterSize = check.clusterSize
  offset : gmp.zPrime = prime + gmp.nOffset
  -- the gap is even, so that the search ends at 14
  even : gmp.nPrimeGap % 2 = 0 ∧ gmp.nPrimeGap ≤ 14

namespace InStep

variable {prime : Nat} {gmp gmp' : GmpSearch} {check : CheckSearch}

theorem start (prime : Nat) : InStep prime (.start prime) (.start prime) where
  candidate := rfl
  gap := rfl
  size := rfl
  offset := rfl
  even := ⟨(rfl : 2 % 2 = 0), (by decide : 2 ≤ 14)⟩

theorem continues_iff (inStep : InStep prime gmp check) : gmp.nPrimeGap ≤ 12 ↔ check.next ≤ check.lastPrime + 12 := by
  have gap := inStep.gap
  omega

theorem exits (inStep : InStep prime gmp check) (ends : gmp.next mpz_powm = none) : check.step BN_mod_exp = none := by
  unfold GmpSearch.next at ends
  split at ends
  · dsimp only at ends
    split at ends <;> cases ends
  · rename_i long
    exact if_neg fun short => long (inStep.continues_iff.mpr short)

theorem gap_of_exit (inStep : InStep prime gmp check) (ends : gmp.next mpz_powm = none) : gmp.nPrimeGap = 14 := by
  have even := inStep.even
  unfold GmpSearch.next at ends
  split at ends
  · dsimp only at ends
    split at ends <;> cases ends
  · omega

theorem miss (inStep : InStep prime gmp check) (short : gmp.nPrimeGap ≤ 12) :
    InStep prime { gmp with zPrime := gmp.zPrime + 2, nOffset := gmp.nOffset + 2, nPrimeGap := gmp.nPrimeGap + 2 }
      { check with next := check.next + 2 } := by
  obtain ⟨candidate, gap, size, offset, even⟩ := inStep
  constructor <;> dsimp only <;> omega

theorem hit (inStep : InStep prime gmp check) :
    InStep prime
      { zPrime := gmp.zPrime + 2, nOffset := gmp.nOffset + 2, nClusterSize := gmp.nClusterSize + 1, nPrimeGap := 2 }
      { lastPrime := check.next, next := check.next + 2, clusterSize := check.clusterSize + 1 } := by
  obtain ⟨candidate, gap, size, offset, even⟩ := inStep
  constructor <;> dsimp only <;> omega

theorem step (gmp : mpz_powm.Correct) (openssl : BN_mod_exp.Correct) {search search' : GmpSearch}
    (inStep : InStep prime search check) (continues : search.next mpz_powm = some search') :
    ∃ check', check.step BN_mod_exp = some check' ∧ InStep prime search' check' := by
  have positive : 0 < check.next := by
    rw [inStep.candidate]
    exact Nat.succ_pos _
  have test : GmpPrimeTest mpz_powm (search.zPrime + 2) =
      (DivisorCheck check.next && decide (FermatTest BN_mod_exp check.next 2 = 1)) := by
    rw [← inStep.candidate, GmpPrimeTest, GmpFermat_eq gmp openssl positive]
    rfl
  unfold GmpSearch.next at continues
  split at continues
  · rename_i short
    dsimp only at continues
    rw [test] at continues
    rw [CheckSearch.step, if_pos (inStep.continues_iff.mp short)]
    cases divisors : DivisorCheck check.next with
    | false =>
        rw [divisors, Bool.false_and, if_pos rfl] at continues
        cases continues
        exact ⟨_, if_pos rfl, inStep.miss short⟩
    | true =>
        rw [divisors, Bool.true_and] at continues
        rw [if_neg (Bool.noConfusion : ¬ true = false)]
        by_cases fermat : FermatTest BN_mod_exp check.next 2 = 1
        · rw [decide_eq_true fermat, if_neg (Bool.noConfusion : ¬ true = false)] at continues
          cases continues
          exact ⟨_, if_pos fermat, inStep.hit⟩
        · rw [decide_eq_false fermat, if_pos rfl] at continues
          cases continues
          exact ⟨_, if_neg fermat, inStep.miss short⟩
  · cases continues

end InStep

theorem searches_in_step (gmp : mpz_powm.Correct) (openssl : BN_mod_exp.Correct) (prime fuel : Nat) :
    loop (GmpSearch.next mpz_powm) fuel (.start prime) = none ∧ loop (CheckSearch.step BN_mod_exp) fuel (.start prime) = none ∨
      ∃ search check, loop (GmpSearch.next mpz_powm) fuel (.start prime) = some search ∧
        loop (CheckSearch.step BN_mod_exp) fuel (.start prime) = some check ∧ search.nClusterSize = check.clusterSize ∧
        prime + search.nOffset + 2 = check.lastPrime + 14 ∧ check.next = check.lastPrime + 14 := by
  have both : _ ∨ ∃ search check, loop (GmpSearch.next mpz_powm) fuel (.start prime) = some search ∧
      loop (CheckSearch.step BN_mod_exp) fuel (.start prime) = some check ∧ InStep prime search check :=
    loop_in_step (InStep prime) (fun _ _ inStep ends => inStep.exits ends)
      (fun _ _ _ inStep continues => inStep.step gmp openssl continues) (.start prime)
  refine both.imp_right ?_
  rintro ⟨search, check, ends, ends', inStep⟩
  have exit := (loop_invariant (fun _ => True) (fun _ _ _ _ => trivial) trivial ends).2
  have gap := inStep.gap_of_exit exit
  obtain ⟨candidate, place, size, offset, -⟩ := inStep
  exact ⟨search, check, ends, ends', size, by omega, by omega⟩

theorem pos_of_GmpDivisor {prime : Nat} (passes : GmpDivisor prime = true) : 0 < prime := by
  apply Nat.pos_of_ne_zero
  rintro rfl
  exact remains_of_passesSieve passes 2 (by decide) rfl

/-- Both searches find the same cluster, and both verifications take the fraction at the composite behind it. -/
theorem verifications_agree (mpz_powm BN_mod_exp : Exponentiation) (gmp : mpz_powm.Correct)
    (openssl : BN_mod_exp.Correct) (rounded : Rat → Rat) (prime : Nat) (passes : GmpDivisor prime = true) :
    (∀ fuel, GmpVerification mpz_powm BN_mod_exp rounded fuel prime = CheckPrimeDifficulty BN_mod_exp rounded fuel prime) ∧
      (GmpFermat mpz_powm prime = false →
        ∀ fuel, GmpVerification mpz_powm BN_mod_exp rounded fuel prime = some 0) ∧
      (GmpFermat mpz_powm prime = true → ∀ fuel, 2330 ≤ fuel → ∃ search check,
        loop (GmpSearch.next mpz_powm) fuel (.start prime) = some search ∧
        loop (CheckSearch.step BN_mod_exp) fuel (.start prime) = some check ∧
        search.nClusterSize = check.clusterSize ∧
        prime + search.nOffset + 2 = check.lastPrime + 14 ∧ check.next = check.lastPrime + 14 ∧
        GmpVerification mpz_powm BN_mod_exp rounded fuel prime =
          some (rounded (check.clusterSize + fractionalRemainder BN_mod_exp rounded (check.lastPrime + 14)))) := by
  have test : GmpPrimeTest mpz_powm prime = GmpFermat mpz_powm prime := by
    rw [GmpPrimeTest, passes, Bool.true_and]
  have fermat := GmpFermat_eq gmp openssl (pos_of_GmpDivisor passes)
  refine ⟨fun fuel => ?_, fun composite fuel => ?_, fun found fuel enough => ?_⟩
  · rw [GmpVerification, CheckPrimeDifficulty, test, fermat]
    by_cases one : FermatTest BN_mod_exp prime 2 = 1
    · rw [decide_eq_true one, if_neg Bool.noConfusion, if_neg (not_not.mpr one)]
      rcases searches_in_step gmp openssl prime fuel with ⟨stuck, stuck'⟩ | ⟨search, check, ends, ends', size, end', next⟩
      · rw [stuck, stuck']
        rfl
      · rw [ends, ends']
        show some _ = some _
        rw [size, end', next]
    · rw [decide_eq_false one, if_pos rfl, if_pos one]
  · rw [GmpVerification, test, if_pos composite]
    rfl
  · obtain ⟨last, finished, -⟩ := GmpSearch.loop_ends mpz_powm (remains_of_passesSieve passes) enough
    rcases searches_in_step gmp openssl prime fuel with ⟨stuck, -⟩ | ⟨search, check, ends, ends', size, end', next⟩
    · rw [stuck] at finished
      cases finished
    · refine ⟨search, check, ends, ends', size, end', next, ?_⟩
      rw [GmpVerification, test, found, if_neg Bool.noConfusion, ends]
      show some _ = some _
      rw [size, end']

theorem verifications_agree_1151 :
    GmpVerification .exact .exact id 2330 1151 = CheckPrimeDifficulty .exact id 2330 1151 ∧
      ∃ search check, loop (GmpSearch.next .exact) 2330 (.start 1151) = some search ∧
        loop (CheckSearch.step .exact) 2330 (.start 1151) = some check ∧ search.nClusterSize = check.clusterSize ∧
        1151 + search.nOffset + 2 = check.lastPrime + 14 ∧ check.next = check.lastPrime + 14 ∧
        GmpVerification .exact .exact id 2330 1151 =
          some (id (check.clusterSize + fractionalRemainder .exact id (check.lastPrime + 14))) := by
  obtain ⟨same, -, found⟩ := verifications_agree .exact .exact (fun _ _ _ _ => rfl) (fun _ _ _ _ => rfl) id 1151
    (by decide +kernel)
  exact ⟨same 2330, found (by decide +kernel) 2330 (by decide)⟩

end PrimePool.Core

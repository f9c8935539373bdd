import PrimePool.Core.FiledAccounts

/-!
# What a settlement reads

The credit loop deducts the payouts. When it comes to an account, its balance is the one from before the
settlement, with the bonus for the block finder.
-/

namespace PrimePool.Core

open PrimePool.General PrimePool.LLD Std

variable {databases : Databases} {key : StdString} {outputs : AmountMap} {bonusFinder : Option StdString}

/-- The credit loop finds an account whose balance covers its payout, so that the branch which sets the
balance to zero is not taken. The account that got the leftover bonus is left out. -/
def Covered (outputs : AmountMap) (bonusFinder : Option StdString) : (op : DatabaseCall) → op.Result → Prop
  | .getAccount .creditLoop key, cAccount =>
      bonusFinder ≠ some key → ∀ nValue, outputs[key]? = some nValue → nValue ≤ cAccount.nAccountBalance
  | _, _ => True

theorem CalledBy.covered {caller : Caller} (other : caller ≠ .creditLoop) (op : DatabaseCall)
    (called : CalledBy caller op) (r : op.Result) : Covered outputs bonusFinder op r := by
  unfold Covered
  split
  · exact absurd called.symm other
  · trivial

/-! ## What the loop does to other accounts -/

def StoresUnder (cKey : StdString) : DatabaseCall → Prop
  | .updateAccount _ cRecord => cRecord.cKey = cKey
  | _ => False

theorem StoresUnder.covered {cKey : StdString} (op : DatabaseCall) (stores : StoresUnder cKey op) (r : op.Result) :
    Covered outputs bonusFinder op r := by
  cases op with
  | updateAccount caller cRecord => trivial
  | _ => exact stores.elim

theorem account_of_stores {α : Type} {cKey : StdString} {p : DatabaseProgram α} (makes : Makes (StoresUnder cKey) p)
    (different : cKey ≠ key) (databases : Databases) :
    (run perform p databases).2.account key = databases.account key := by
  refine makes.view_run perform (fun databases => databases.account key) ?_ databases
  intro op stores databases
  rw [account_perform]
  cases op with
  | updateAccount caller cRecord => exact if_neg fun same => different (stores.symm.trans same)
  | _ => exact stores.elim

variable {D : Type} [Double D]

theorem makes_settle (cAccount : Account) (key : StdString) (nTotalWeight nReward : UInt64) (credited : Credits × UInt64) :
    Makes (StoresUnder cAccount.cKey)
      (deductPayout outputs key cAccount >>= creditAccount D nTotalWeight nReward credited key) := by
  have credits {cKey : StdString} {cAccount : Account} (same : cAccount.cKey = cKey) :
      Makes (StoresUnder cKey) (creditAccount D nTotalWeight nReward credited key cAccount) := by
    rw [creditAccount]
    split
    · trivial
    · exact ⟨same, fun _ => trivial⟩
  rw [deductPayout]
  split
  · exact credits rfl
  · exact ⟨rfl, fun _ => credits rfl⟩

theorem account_settleAccount_other {other : StdString} (filed : Filed databases) (named : key ≠ []) (different : other ≠ key)
    (nTotalWeight nReward : UInt64) (credited : Credits × UInt64) :
    (run perform (settleAccount D outputs nTotalWeight nReward credited other) databases).2.account key =
      databases.account key := by
  have elsewhere : (databases.account other).cKey ≠ key := by
    rcases filed other with own | blank
    · rwa [own]
    · rw [blank]
      exact named.symm
  have read : (perform (.getAccount .creditLoop other) databases).2.account key = databases.account key :=
    account_perform _ _ _
  rw [← read]
  exact account_of_stores (makes_settle _ other nTotalWeight nReward credited) elsewhere _

/-! ## The credit loop -/

def Backed (databases : Databases) (outputs : AmountMap) (bonusFinder : Option StdString) : Prop :=
  ∀ key nValue, outputs[key]? = some nValue → bonusFinder ≠ some key →
    key ≠ [] ∧ nValue ≤ (databases.account key).nAccountBalance

theorem eachCall_settleAccounts {vKeys : List StdString} (filed : Filed databases) (distinct : vKeys.Nodup)
    (backed : ∀ key ∈ vKeys, ∀ nValue, outputs[key]? = some nValue → bonusFinder ≠ some key →
      key ≠ [] ∧ nValue ≤ (databases.account key).nAccountBalance)
    (nTotalWeight nReward : UInt64) (credited : Credits × UInt64) :
    EachCall perform (Covered outputs bonusFinder)
      (vKeys.foldlM (settleAccount D outputs nTotalWeight nReward) credited) databases := by
  induction vKeys generalizing databases credited with
  | nil => trivial
  | cons key vKeys ih =>
      rw [List.nodup_cons] at distinct
      rw [List.foldlM_cons, eachCall_bind]
      refine ⟨⟨?_, ?_⟩, ih (filed.run _) distinct.2 ?_ _⟩
      · intro exempt nValue output
        exact (backed key List.mem_cons_self nValue output exempt).2
      · exact (makes_settle _ key nTotalWeight nReward credited).eachCall StoresUnder.covered _
      · intro other member nValue output exempt
        obtain ⟨named, covers⟩ := backed other (List.mem_cons_of_mem _ member) nValue output exempt
        have different : key ≠ other := fun same => distinct.1 (same ▸ member)
        rw [account_settleAccount_other filed named different]
        exact ⟨named, covers⟩

/-! ## The settlement -/

def BonusFits (round : Round D) (databases : Databases) : Prop :=
  (databases.account round.LAST_ROUND_BLOCKFINDER).nAccountBalance.toNat + (bonusOf round round.nRoundReward).toNat < 2 ^ 64

instance (round : Round D) (databases : Databases) : Decidable (BonusFits round databases) :=
  inferInstanceAs (Decidable (_ < _))

theorem balance_creditFinder {round : Round D} (filed : Filed databases) (named : key ≠ []) (fits : BonusFits round databases) :
    let credited := run perform
      (creditFinder D round.LAST_ROUND_BLOCKFINDER (lessPoolFee round.lfPoolFee round.nRoundReward)) databases
    (databases.account key).nAccountBalance ≤ (credited.2.account key).nAccountBalance := by
  rw [creditFinder]
  by_cases nobody : round.LAST_ROUND_BLOCKFINDER = []
  · rw [if_pos nobody]
    exact UInt64.le_refl _
  · rw [BonusFits, bonusOf, if_neg nobody] at fits
    rw [if_neg nobody]
    have paid := account_modifyAccount filed .finderBonus round.LAST_ROUND_BLOCKFINDER (fun empty => absurd empty named)
      (f := deposit (finderBonus D (lessPoolFee round.lfPoolFee round.nRoundReward))) fun _ => rfl
    refine UInt64.le_trans ?_ (UInt64.le_of_eq (congrArg Account.nAccountBalance paid).symm)
    split
    · rename_i both
      rw [UInt64.le_iff_toNat_le, ← both.1, deposit, UInt64.toNat_add, Nat.mod_eq_of_lt fits]
      exact Nat.le_add_right _ _
    · exact UInt64.le_refl _

theorem eachCall_newRound {round : Round D} (filed : Filed databases)
    (backed : Backed databases round.cGlobalCoinbase.mapOutputs bonusFinder) (fits : BonusFits round databases) :
    EachCall perform (Covered round.cGlobalCoinbase.mapOutputs bonusFinder) (newRound round) databases := by
  rw [newRound, eachCall_bind, updateBalances_eq, eachCall_bind, creditAccounts]
  refine ⟨⟨?_, ⟨trivial, trivial, trivial, trivial⟩⟩, (makes_clearShares.eachCall (CalledBy.covered (by decide)) _)⟩
  have keys (databases : Databases) : run perform accountKeys databases = (databases.AccountDB.keys, databases) := rfl
  rw [eachCall_bind, eachCall_bind, run_totalWeight, eachCall_bind, eachCall_bind, keys]
  refine ⟨(makes_creditFinder _ _).eachCall (CalledBy.covered (by decide)) _,
    makes_totalWeight.eachCall (CalledBy.covered (by decide)) _, ⟨trivial, trivial⟩, ?_, ?_⟩
  · have distinct (databases : Databases) : databases.AccountDB.keys.Nodup := ExtTreeMap.nodup_keys
    refine eachCall_settleAccounts (D := D) (filed.run _) (distinct _) (fun key _ nValue output exempt => ?_) _ _ _
    obtain ⟨named, covers⟩ := backed key nValue output exempt
    exact ⟨named, UInt64.le_trans covers (balance_creditFinder filed named fits)⟩
  · rw [eachCall_bind]
    exact ⟨(makes_giveRemainder _ _ _).eachCall (CalledBy.covered (by decide)) _, trivial⟩

end PrimePool.Core

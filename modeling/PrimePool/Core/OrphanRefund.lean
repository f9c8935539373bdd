import PrimePool.Core.SettlementEffect
import PrimePool.Core.ShareAcceptance

/-!
# Refunding the last settlement

When `RefundPayouts` takes back what `UpdateBalances` did for the same block.
-/

namespace PrimePool.Core

open PrimePool.General PrimePool.LLD Std

variable {D : Type} [Double D]

/-! ## What the block record remembers -/

theorem getD_add (amounts : AmountMap) (nAddress key : StdString) (nValue : UInt64) :
    (amounts.add nAddress nValue).getD key 0 = amounts.getD key 0 + if nAddress = key then nValue else 0 := by
  simp only [AmountMap.add, ExtTreeMap.getD_insert, LawfulEqCmp.compare_eq_iff_eq]
  split
  · rename_i same
    rw [same]
  · rw [UInt64.add_zero]

theorem mem_add (amounts : AmountMap) (nAddress key : StdString) (nValue : UInt64) :
    key ∈ amounts.add nAddress nValue ↔ nAddress = key ∨ key ∈ amounts := by
  simp only [AmountMap.add, ExtTreeMap.mem_insert, LawfulEqCmp.compare_eq_iff_eq]

theorem getD_settled (nTotalWeight nReward : UInt64) (before : Credits × UInt64) (key other : StdString)
    (cAccount : Account) :
    (settled D nTotalWeight nReward before key cAccount).1.mapCredits.getD other 0 =
      before.1.mapCredits.getD other 0 +
        if key = other then creditFor D nTotalWeight nReward cAccount.nRoundShares else 0 := by
  simp only [settled, creditFor]
  split
  · simp
  · simp only [Credits.addCredit, getD_add]

theorem mem_settled {nTotalWeight nReward : UInt64} {before : Credits × UInt64} {key other : StdString}
    {cAccount : Account} (member : other ∈ (settled D nTotalWeight nReward before key cAccount).1.mapCredits) :
    key = other ∨ other ∈ before.1.mapCredits := by
  simp only [settled] at member
  split at member
  · exact Or.inr member
  · simpa only [Credits.addCredit, mem_add] using member

theorem getD_foldl_settled (nTotalWeight nReward : UInt64) (databases : Databases) {keys : List StdString}
    (distinct : keys.Nodup) (before : Credits × UInt64) (other : StdString) :
    (keys.foldl (fun before key => settled D nTotalWeight nReward before key (databases.account key))
        before).1.mapCredits.getD other 0 =
      before.1.mapCredits.getD other 0 +
        if other ∈ keys then creditFor D nTotalWeight nReward (databases.account other).nRoundShares else 0 := by
  induction keys generalizing before with
  | nil => simp
  | cons key keys ih =>
      rw [List.nodup_cons] at distinct
      rw [List.foldl_cons, ih distinct.2, getD_settled]
      by_cases same : key = other
      · subst same
        simp [distinct.1]
      · have different : other ≠ key := Ne.symm same
        simp [same, different]

theorem mem_foldl_settled {nTotalWeight nReward : UInt64} {databases : Databases} {keys : List StdString}
    {before : Credits × UInt64} {other : StdString}
    (member : other ∈ (keys.foldl
      (fun before key => settled D nTotalWeight nReward before key (databases.account key)) before).1.mapCredits) :
    other ∈ keys ∨ other ∈ before.1.mapCredits := by
  induction keys generalizing before with
  | nil => exact Or.inr member
  | cons key keys ih =>
      rcases ih member with later | earlier
      · exact Or.inl (List.mem_cons_of_mem key later)
      · rcases mem_settled earlier with same | before
        · exact Or.inl (same ▸ List.mem_cons_self)
        · exact Or.inr before

variable {databases : Databases} {key : StdString} {round : Round D} {nReward : UInt64}

theorem getD_bonusCredits (round : Round D) (nReward : UInt64) (key : StdString) :
    (bonusCredits round nReward).mapCredits.getD key 0 = forFinder round key (bonusOf round nReward) := by
  rw [bonusCredits, forFinder]
  split
  · rename_i nobody
    simp [Credits.new, bonusOf, nobody]
  · rw [Credits.addCredit, getD_add]
    simp [Credits.new, eq_comm]

theorem getD_creditedBy (present : key ∈ databases.AccountDB) :
    (creditedBy round nReward databases).1.mapCredits.getD key 0 =
      forFinder round key (bonusOf round nReward) +
        creditFor D (weightOf databases) (sharedReward round nReward) (databases.account key).nRoundShares := by
  rw [creditedBy, getD_foldl_settled _ _ _ ExtTreeMap.nodup_keys, getD_bonusCredits,
    if_pos (ExtTreeMap.mem_keys.mpr present)]

theorem mem_creditedBy (finder : round.LAST_ROUND_BLOCKFINDER ∈ databases.AccountDB)
    (member : key ∈ (creditedBy round nReward databases).1.mapCredits) : key ∈ databases.AccountDB := by
  rcases mem_foldl_settled member with listed | bonus
  · exact ExtTreeMap.mem_keys.mp listed
  · rw [bonusCredits] at bonus
    split at bonus
    · simp [Credits.new] at bonus
    · rw [Credits.addCredit, mem_add] at bonus
      rcases bonus with same | nothing
      · exact same ▸ finder
      · simp [Credits.new] at nothing

/-! ## What moves on one account -/

structure Movement where
  balance : UInt64
  output : UInt64
  bonus : UInt64
  credit : UInt64
  remainder : UInt64

namespace Movement

def settledBalance (m : Movement) : UInt64 :=
  deduct (m.balance + m.bonus) m.output + m.credit + m.remainder

def refundedBalance (m : Movement) : UInt64 :=
  deduct m.settledBalance (m.bonus + m.credit) + m.output

def Fits (m : Movement) : Prop :=
  m.balance.toNat + m.output.toNat + m.bonus.toNat + m.credit.toNat + m.remainder.toNat < 2 ^ 64

/-- A refund takes the settlement back: the payout is covered by the balance and nothing was left over. -/
def Reversed (m : Movement) : Prop :=
  (m.Fits → m.output ≤ m.balance ∧ m.remainder = 0) ∧
  -- sums that wrap around: both deductions are exact, or what they lose is what the sums gain
  (¬ m.Fits →
    if m.bonus + m.credit > m.settledBalance then m.output = m.balance
    else if m.output > m.balance + m.bonus then m.remainder + m.output = m.balance + m.bonus
    else m.remainder = 0)

/-- A settlement that is not refunded changes nothing: the payout takes what is credited. -/
def Balanced (m : Movement) : Prop :=
  if m.output > m.balance + m.bonus then m.credit + m.remainder = m.balance
  else m.bonus + m.credit + m.remainder = m.output

theorem refundedBalance_eq (m : Movement) :
    m.refundedBalance = m.balance ↔
      if m.bonus + m.credit > m.settledBalance then m.output = m.balance
      else if m.output > m.balance + m.bonus then m.remainder + m.output = m.balance + m.bonus
      else m.remainder = 0 := by
  simp only [refundedBalance]
  by_cases takenAll : m.bonus + m.credit > m.settledBalance
  · simp [deduct, takenAll]
  · simp only [deduct, takenAll, if_false]
    by_cases paidAll : m.output > m.balance + m.bonus
    · simp only [settledBalance, deduct, paidAll, if_true]
      grind
    · simp only [settledBalance, deduct, paidAll, if_false]
      grind

theorem Fits.refundedBalance_eq {m : Movement} (fits : m.Fits) :
    (if m.bonus + m.credit > m.settledBalance then m.output = m.balance
      else if m.output > m.balance + m.bonus then m.remainder + m.output = m.balance + m.bonus
      else m.remainder = 0) ↔ m.output ≤ m.balance ∧ m.remainder = 0 := by
  obtain ⟨balance, output, bonus, credit, remainder⟩ := m
  simp only [Fits, settledBalance, deduct] at fits ⊢
  by_cases paidAll : output > balance + bonus
  · simp only [paidAll, if_true]
    simp only [gt_iff_lt, UInt64.lt_iff_toNat_lt, UInt64.le_iff_toNat_le, ← UInt64.toNat_inj,
      UInt64.toNat_add, UInt64.toNat_zero] at paidAll ⊢
    split <;> omega
  · simp only [paidAll, if_false]
    have enough := UInt64.not_lt.mp paidAll
    have difference := UInt64.toNat_sub_of_le _ _ enough
    simp only [gt_iff_lt, UInt64.lt_iff_toNat_lt, UInt64.le_iff_toNat_le, ← UInt64.toNat_inj,
      UInt64.toNat_add, UInt64.toNat_zero] at paidAll enough difference ⊢
    split <;> omega

theorem reversed_iff (m : Movement) : m.refundedBalance = m.balance ↔ m.Reversed := by
  rw [Movement.refundedBalance_eq, Reversed]
  by_cases fits : m.Fits
  · simp [fits, fits.refundedBalance_eq]
  · simp [fits]

theorem settledBalance_eq (m : Movement) : m.settledBalance = m.balance ↔ m.Balanced := by
  simp only [settledBalance, Balanced, deduct]
  by_cases paidAll : m.output > m.balance + m.bonus
  · simp only [paidAll, if_true]
    grind
  · simp only [paidAll, if_false]
    grind

end Movement

/-! ## Settling and refunding -/

def movement (round : Round D) (nReward : UInt64) (databases : Databases) (key : StdString)
    (cAccount : Account) : Movement where
  balance := cAccount.nAccountBalance
  output := round.cGlobalCoinbase.mapOutputs.getD key 0
  bonus := forFinder round key (bonusOf round nReward)
  credit := creditFor D (weightOf databases) (sharedReward round nReward) cAccount.nRoundShares
  remainder := forFinder round key (remainderOf round nReward databases)

def settleAndRefund (round : Round D) (nReward : UInt64) : DatabaseProgram Unit := do
  updateBalances round nReward
  refundPayouts round.hashBlockSubmission

def Undone (round : Round D) (nReward : UInt64) (databases : Databases) : Prop :=
  ∀ key : StdString, (run perform (settleAndRefund round nReward) databases).2.AccountDB[key]?.map Account.nAccountBalance =
    databases.AccountDB[key]?.map Account.nAccountBalance

theorem balance_settleBalance (key : StdString) (cAccount : Account) :
    (settleBalance round nReward databases key cAccount).nAccountBalance =
      (movement round nReward databases key cAccount).settledBalance := rfl

theorem balance_refundAccount {cAccount : Account} (found : databases.AccountDB[key]? = some cAccount) :
    (refundAccount (settledBlock round nReward databases) key
        (settleBalance round nReward databases key cAccount)).nAccountBalance =
      (movement round nReward databases key cAccount).refundedBalance := by
  have present : key ∈ databases.AccountDB := mem_of_getElem? found
  have recorded : (settledBlock round nReward databases).cCredits.mapCredits.getD key 0 =
      forFinder round key (bonusOf round nReward) +
        creditFor D (weightOf databases) (sharedReward round nReward) cAccount.nRoundShares := by
    rw [settledBlock, getD_creditedBy present, Databases.account_of_getElem? found]
  rw [refundAccount, recorded]
  rfl

theorem mem_run {α : Type} (p : DatabaseProgram α) (present : key ∈ databases.AccountDB) :
    key ∈ (run perform p databases).2.AccountDB :=
  run_of_invariant (I := fun databases => key ∈ databases.AccountDB) perform (fun op _ => mem_perform op) p present

theorem mem_refundOutputs {outputs : List (StdString × UInt64)} (output : StdString × UInt64) (member : output ∈ outputs) :
    output.1 ∈ (run perform (outputs.foldlM refundOutput ()) databases).2.AccountDB := by
  induction outputs generalizing databases with
  | nil => cases member
  | cons first outputs ih =>
      rw [List.foldlM_cons, run_bind]
      rcases List.mem_cons.mp member with rfl | later
      · apply mem_run
        rw [refundOutput, run_bind]
        exact mem_run _ ((Records.mem_getRecord _ _ _).mpr (Or.inl rfl))
      · exact ih later

theorem mem_refundLoops {cBlock : Block} (member : key ∈ cBlock.cCoinbase.mapOutputs) :
    key ∈ (run perform (refundLoops cBlock) databases).2.AccountDB := by
  obtain ⟨nValue, paid⟩ := getElem?_of_mem member
  rw [refundLoops, run_bind]
  exact mem_refundOutputs (key, nValue) (ExtTreeMap.mem_toList_iff_getElem?_eq_some.mpr paid)

/-- A refund gives every account that the coinbase pays a record, be it a blank one. -/
theorem mem_refundPayouts {hashBlock : Uint1024} {cBlock : Block}
    (recorded : databases.BlockDB[hashBlock]? = some cBlock) (unprocessed : cBlock.nCoinbaseValue ≠ 0)
    (member : key ∈ cBlock.cCoinbase.mapOutputs) :
    key ∈ (run perform (refundPayouts hashBlock) databases).2.AccountDB := by
  rw [refundPayouts_eq, run_bind, getBlock, run_perform, perform, Records.getRecord_of_getElem? recorded, refundBlock,
    if_neg unprocessed, run_bind]
  exact mem_run _ (mem_refundLoops member)

/-- The databases that the refund finds. -/
def settledDatabases (round : Round D) (nReward : UInt64) (databases : Databases) : Databases :=
  (run perform (updateBalances round nReward) databases).2

theorem run_settleAndRefund (round : Round D) (nReward : UInt64) (databases : Databases) :
    run perform (settleAndRefund round nReward) databases =
      run perform (refundPayouts round.hashBlockSubmission) (settledDatabases round nReward databases) := by
  rw [settleAndRefund, run_bind]
  rfl

section Settled

variable (wellKeyed : databases.AccountDB.WellKeyed) (finder : round.LAST_ROUND_BLOCKFINDER ∈ databases.AccountDB)

include wellKeyed finder

theorem accountDB_settledDatabases :
    (settledDatabases round nReward databases).AccountDB =
      databases.AccountDB.map (settleBalance round nReward databases) := by
  rw [settledDatabases, run_updateBalances round nReward wellKeyed finder]
  rfl

theorem blockDB_settledDatabases :
    (settledDatabases round nReward databases).BlockDB[round.hashBlockSubmission]? =
      some (settledBlock round nReward databases) := by
  rw [settledDatabases, run_updateBalances round nReward wellKeyed finder]
  exact (Records.getElem?_updateRecord _ _ _).trans (if_pos rfl)

theorem settled_of_zero (worthless : round.cGlobalCoinbase.nMaxValue + round.cGlobalCoinbase.nPoolFee = 0) :
    (run perform (settleAndRefund round nReward) databases).2.AccountDB =
      databases.AccountDB.map (settleBalance round nReward databases) := by
  have recorded : (settledDatabases round nReward databases).BlockDB[round.hashBlockSubmission]? =
      some (settledBlock round nReward databases) := blockDB_settledDatabases wellKeyed finder
  rw [run_settleAndRefund, run_refundPayouts_of_zero]
  · exact accountDB_settledDatabases wellKeyed finder
  · rw [Records.getRecord_of_getElem? recorded]
    exact worthless

theorem refunded_of_valued (valued : round.cGlobalCoinbase.nMaxValue + round.cGlobalCoinbase.nPoolFee ≠ 0)
    (payees : ∀ key ∈ round.cGlobalCoinbase.mapOutputs, key ∈ databases.AccountDB) :
    (run perform (settleAndRefund round nReward) databases).2.AccountDB =
      databases.AccountDB.map fun key cAccount =>
        refundAccount (settledBlock round nReward databases) key
          (settleBalance round nReward databases key cAccount) := by
  have accounts : (settledDatabases round nReward databases).AccountDB =
      databases.AccountDB.map (settleBalance round nReward databases) := accountDB_settledDatabases wellKeyed finder
  have known {key : StdString} (present : key ∈ databases.AccountDB) :
      key ∈ (settledDatabases round nReward databases).AccountDB := by
    rw [accounts, ExtTreeMap.mem_map]
    exact present
  rw [run_settleAndRefund, run_refundPayouts (accounts ▸ wellKeyed.map fun _ _ => rfl)
    (blockDB_settledDatabases wellKeyed finder) valued (fun key member => known (mem_creditedBy finder member))
    (fun key member => known (payees key member)), accounts, ExtTreeMap.map_map]

theorem payees_of_undone (valued : round.cGlobalCoinbase.nMaxValue + round.cGlobalCoinbase.nPoolFee ≠ 0)
    (undone : Undone round nReward databases) (key : StdString) (paid : key ∈ round.cGlobalCoinbase.mapOutputs) :
    key ∈ databases.AccountDB := by
  have recorded : key ∈ (run perform (settleAndRefund round nReward) databases).2.AccountDB := by
    rw [run_settleAndRefund]
    exact mem_refundPayouts (blockDB_settledDatabases wellKeyed finder) valued paid
  obtain ⟨cAccount, found⟩ := getElem?_of_mem recorded
  have same := undone key
  rw [found, Option.map_some] at same
  obtain ⟨before, stored, -⟩ := Option.map_eq_some_iff.mp same.symm
  exact mem_of_getElem? stored

/-- A refund takes the settlement back exactly when the coinbase pays only accounts that have a record, and it does so
on every account. -/
theorem undone_iff :
    Undone round nReward databases ↔
      (round.cGlobalCoinbase.nMaxValue + round.cGlobalCoinbase.nPoolFee ≠ 0 →
        ∀ key ∈ round.cGlobalCoinbase.mapOutputs, key ∈ databases.AccountDB) ∧
      ∀ (key : StdString) (cAccount : Account), databases.AccountDB[key]? = some cAccount →
        if round.cGlobalCoinbase.nMaxValue + round.cGlobalCoinbase.nPoolFee = 0 then
          (movement round nReward databases key cAccount).Balanced
        else
          (movement round nReward databases key cAccount).Reversed := by
  by_cases worthless : round.cGlobalCoinbase.nMaxValue + round.cGlobalCoinbase.nPoolFee = 0
  · rw [and_iff_right fun valued => absurd worthless valued]
    simp only [Undone, settled_of_zero wellKeyed finder worthless, ExtTreeMap.getElem?_map, worthless, if_true]
    refine forall_congr' fun key => ?_
    cases found : databases.AccountDB[key]? with
    | none => simp
    | some cAccount =>
        simp only [Option.map_some, Option.some.injEq, forall_eq', ← Movement.settledBalance_eq, balance_settleBalance]
        rfl
  · by_cases payees : ∀ key ∈ round.cGlobalCoinbase.mapOutputs, key ∈ databases.AccountDB
    · rw [and_iff_right fun _ => payees]
      simp only [Undone, refunded_of_valued wellKeyed finder worthless payees, ExtTreeMap.getElem?_map, worthless, if_false]
      refine forall_congr' fun key => ?_
      cases found : databases.AccountDB[key]? with
      | none => simp
      | some cAccount =>
          simp only [Option.map_some, Option.some.injEq, forall_eq', ← Movement.reversed_iff, balance_refundAccount found]
          rfl
    · exact iff_of_false (fun undone => payees (payees_of_undone wellKeyed finder worthless undone))
        fun both => payees (both.1 worthless)

end Settled

/-! ## A remainder that is not taken back -/

def alice : StdString := [65]

def bob : StdString := [66]

def carol : StdString := [67]

def equalShares : Databases where
  AccountDB := .ofList
    [(alice, { Account.new alice with nAccountBalance := 2000000, nRoundShares := 1 }),
      (bob, { Account.new bob with nRoundShares := 1 }), (carol, { Account.new carol with nRoundShares := 1 })]
  BlockDB := ∅
  acctDat := none
  blkDat := none

def secondRound : Round Float where
  lfPoolFee := 0.02
  cGlobalCoinbase :=
    { nCurrentValue := 980000, mapOutputs := .ofList [(alice, (980000 : UInt64))], nMaxValue := 980000, nPoolFee := 20000 }
  nRoundReward := 1000000
  hashBlockSubmission := .ofUInt64 7
  LAST_ROUND_BLOCKFINDER := alice
  nCurrentRound := 2

theorem equalShares_not_undone : ¬ Undone secondRound 1000000 equalShares := by
  intro undone
  have kept : (run perform (settleAndRefund secondRound 1000000) equalShares).2.AccountDB[alice]?.map
      Account.nAccountBalance = some 2000001 := by decide +kernel
  have before : equalShares.AccountDB[alice]?.map Account.nAccountBalance = some 2000000 := by decide +kernel
  have same := undone alice
  rw [kept, before] at same
  exact absurd same (by decide)

theorem equalShares_undone_iff :
    Undone secondRound 1000000 equalShares ↔
      (secondRound.cGlobalCoinbase.nMaxValue + secondRound.cGlobalCoinbase.nPoolFee ≠ 0 →
        ∀ key ∈ secondRound.cGlobalCoinbase.mapOutputs, key ∈ equalShares.AccountDB) ∧
      ∀ (key : StdString) (cAccount : Account), equalShares.AccountDB[key]? = some cAccount →
        if secondRound.cGlobalCoinbase.nMaxValue + secondRound.cGlobalCoinbase.nPoolFee = 0 then
          (movement secondRound 1000000 equalShares key cAccount).Balanced
        else
          (movement secondRound 1000000 equalShares key cAccount).Reversed :=
  undone_iff (by decide +kernel) (by decide +kernel)

/-- The handler pays what is left of a reward to the block finder of the start, who may have no record. A refund
stores the amount under the empty key. -/
example :
    let round : Round Float :=
      { secondRound with cGlobalCoinbase := { Coinbase.new with nMaxValue := 980000, nPoolFee := 20000 }.addOutput [68] 980000 }
    (run perform (settleAndRefund round 1000000) equalShares).2.AccountDB[([] : StdString)]?.map Account.nAccountBalance =
      some 980000 := by
  decide +kernel

end PrimePool.Core

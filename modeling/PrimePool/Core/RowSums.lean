import PrimePool.Core.SettlementRows
import PrimePool.General.Tally

/-!
# Sums of rows

What an account earned and was paid according to the statistics tables, after the calls of a settlement and of a refund.
-/

namespace PrimePool.Core

open PrimePool.General PrimePool.LLD Std Program

namespace StatsTables

def earned (tables : StatsTables) (wanted : UInt32 → Bool) (key : StdString) : Int :=
  tally AccountEarningTransaction.amount_earned (fun row => row.strAccountAddress = key && wanted row.nRound)
    tables.earnings_history

def paid (tables : StatsTables) (wanted : UInt32 → Bool) (key : StdString) : Int :=
  tally AccountPaymentTransaction.amount_paid (fun row => row.strAccountAddress = key && wanted row.nRound)
    tables.payment_history

def orphaned (tables : StatsTables) (nRound : UInt32) : Bool :=
  tables.round_history.any fun row => row.nRound = nRound && row.bOrphan

theorem calls_cons (tables : StatsTables) (call : TableCall) (calls : List TableCall) :
    tables.calls (call :: calls) = (tables.call call).calls calls := rfl

theorem calls_append (tables : StatsTables) (calls more : List TableCall) :
    tables.calls (calls ++ more) = (tables.calls calls).calls more := List.foldl_append

/-! ### Added rows -/

end StatsTables

namespace TableCall

def earning? : TableCall → Option AccountEarningTransaction
  | .addAccountEarnings lAccountEarningTransaction => some lAccountEarningTransaction
  | _ => none

def payment? : TableCall → Option AccountPaymentTransaction
  | .addAccountPayment lAccountPaymentTransaction => some lAccountPaymentTransaction
  | _ => none

/-- The call adds a row about an account. -/
def Adds (call : TableCall) : Prop := call.earning?.isSome ∨ call.payment?.isSome

end TableCall

namespace StatsTables

theorem calls_adds (tables : StatsTables) {calls : List TableCall} (adds : ∀ call ∈ calls, call.Adds) :
    tables.calls calls =
      { tables with
        earnings_history := tables.earnings_history ++ calls.filterMap TableCall.earning?
        payment_history := tables.payment_history ++ calls.filterMap TableCall.payment? } := by
  induction calls generalizing tables with
  | nil =>
      rw [List.filterMap_nil, List.filterMap_nil, List.append_nil, List.append_nil]
      rfl
  | cons call calls ih =>
      obtain ⟨first, rest⟩ := List.forall_mem_cons.mp adds
      rw [calls_cons, ih _ rest]
      cases call with
      | addAccountEarnings row =>
          simp only [StatsTables.call, List.filterMap_cons, TableCall.earning?, TableCall.payment?, List.append_assoc,
            List.singleton_append]
      | addAccountPayment row =>
          simp only [StatsTables.call, List.filterMap_cons, TableCall.earning?, TableCall.payment?, List.append_assoc,
            List.singleton_append]
      | addRoundData row => rcases first with first | first <;> cases first
      | flagRoundAsOrphan nRound => rcases first with first | first <;> cases first
      | deleteAccountEarnings key nRound => rcases first with first | first <;> cases first
      | deleteAccountPayment key nRound => rcases first with first | first <;> cases first

end StatsTables

namespace Recorded

variable {D : Type} [Double D] {databases : Databases}

omit [Double D] in
theorem adds_earning (round : Round D) (nBestHeight : UInt32) (key : StdString) (nShares nAmountEarned : UInt64) :
    (earning round nBestHeight key nShares nAmountEarned).Adds := .inl rfl

theorem adds_balanceRows (round : Round D) (nBestHeight : UInt32) (nReward : UInt64) (databases : Databases) :
    ∀ call ∈ balanceRows round nBestHeight nReward databases, call.Adds := by
  intro call member
  rw [balanceRows, List.mem_append, List.mem_append, List.mem_flatMap] at member
  rcases member with (bonus | ⟨key, -, row⟩) | remainder
  · rw [bonusRows] at bonus
    split at bonus
    · cases bonus
    · exact List.mem_singleton.mp bonus ▸ adds_earning ..
  · rw [accountRows, List.mem_append] at row
    rcases row with payout | credit
    · obtain ⟨nValue, -, rfl⟩ := List.mem_map.mp payout
      exact .inr rfl
    · rw [creditRows] at credit
      split at credit
      · cases credit
      · exact List.mem_singleton.mp credit ▸ adds_earning ..
  · rw [remainderRows] at remainder
    split at remainder
    · exact List.mem_singleton.mp remainder ▸ adds_earning ..
    · cases remainder

section Sums

variable (round : Round D) (nBestHeight : UInt32) (nReward : UInt64) (wanted : UInt32 → Bool) (key : StdString)

def earnings (calls : List TableCall) : Int :=
  tally AccountEarningTransaction.amount_earned (fun row => row.strAccountAddress = key && wanted row.nRound)
    (calls.filterMap TableCall.earning?)

def payments (calls : List TableCall) : Int :=
  tally AccountPaymentTransaction.amount_paid (fun row => row.strAccountAddress = key && wanted row.nRound)
    (calls.filterMap TableCall.payment?)

omit [Double D] in
theorem earnings_single (other : StdString) (nShares nAmountEarned : UInt64) :
    earnings wanted key [earning round nBestHeight other nShares nAmountEarned] =
      if wanted round.nCurrentRound then column (if other = key then nAmountEarned else 0) else 0 := by
  cases chosen : wanted round.nCurrentRound <;> by_cases same : other = key <;>
    simp [earnings, earning, TableCall.earning?, tally, AccountEarningTransaction.amount_earned, same, chosen]

theorem earnings_bonusRows :
    earnings wanted key (bonusRows round nBestHeight nReward) =
      if wanted round.nCurrentRound then column (forFinder round key (bonusOf round nReward)) else 0 := by
  rw [bonusRows, bonusOf, forFinder]
  by_cases nobody : round.LAST_ROUND_BLOCKFINDER = []
  · simp [nobody, earnings]
  · rw [if_neg nobody, earnings_single, if_neg nobody]
    simp only [eq_comm]

theorem earnings_accountRows (nTotalWeight nRoundShares : UInt64) (other : StdString) :
    earnings wanted key (accountRows round nBestHeight nTotalWeight nReward other nRoundShares) =
      if wanted round.nCurrentRound then
        column (if other = key then creditFor D nTotalWeight nReward nRoundShares else 0)
      else 0 := by
  have payouts : (payoutRows round nBestHeight other).filterMap TableCall.earning? = [] := by
    rw [payoutRows, List.filterMap_map]
    exact List.filterMap_eq_nil_iff.mpr fun _ _ => rfl
  have rows : earnings wanted key (accountRows round nBestHeight nTotalWeight nReward other nRoundShares) =
      earnings wanted key (creditRows round nBestHeight nTotalWeight nReward other nRoundShares) := by
    rw [earnings, accountRows, List.filterMap_append, payouts, List.nil_append, earnings]
  rw [rows, creditRows, creditFor]
  by_cases none : nRoundShares = 0
  · simp [none, earnings]
  · rw [if_neg none, earnings_single, if_neg none]

omit [Double D] in
theorem earnings_remainderRows (nTotalReward : UInt64) :
    earnings wanted key (remainderRows round nBestHeight nReward nTotalReward) =
      if wanted round.nCurrentRound then column (forFinder round key (deduct nReward nTotalReward)) else 0 := by
  rw [remainderRows, forFinder, deduct]
  by_cases more : nReward > nTotalReward
  · have less : ¬ nTotalReward > nReward := UInt64.not_lt.mpr (UInt64.le_of_lt more)
    rw [if_pos more, earnings_single, if_neg less]
    simp only [eq_comm]
  · have none : deduct nReward nTotalReward = 0 := (deduct_eq_zero_iff _ _).mpr more
    rw [deduct] at none
    rw [if_neg more, none]
    simp [earnings]

omit [Double D] in
theorem earnings_append (calls more : List TableCall) :
    earnings wanted key (calls ++ more) = earnings wanted key calls + earnings wanted key more := by
  rw [earnings, List.filterMap_append, tally_append, earnings, earnings]

omit [Double D] in
theorem earnings_accounts {rowsOf : StdString → List TableCall}
    (others : ∀ other, other ≠ key → earnings wanted key (rowsOf other) = 0) :
    earnings wanted key (databases.AccountDB.keys.flatMap rowsOf) =
      if key ∈ databases.AccountDB then earnings wanted key (rowsOf key) else 0 := by
  rw [earnings, List.filterMap_flatMap, tally_flatMap ExtTreeMap.nodup_keys key others]
  simp only [ExtTreeMap.mem_keys, earnings]

theorem earnings_balanceRows :
    earnings wanted key (balanceRows round nBestHeight nReward databases) =
      if wanted round.nCurrentRound then
        column (forFinder round key (bonusOf round nReward)) +
          (if key ∈ databases.AccountDB then
            column (creditFor D (weightOf databases) (sharedReward round nReward) (databases.account key).nRoundShares)
          else 0) +
          column (forFinder round key (remainderOf round nReward databases))
      else 0 := by
  have others (other : StdString) (different : other ≠ key) :
      earnings wanted key (accountRows round nBestHeight (weightOf databases) (sharedReward round nReward) other
        (databases.account other).nRoundShares) = 0 := by
    rw [earnings_accountRows, if_neg different, column_zero, ite_self]
  rw [balanceRows, earnings_append, earnings_append, earnings_bonusRows, earnings_remainderRows,
    earnings_accounts wanted key others, earnings_accountRows, if_pos rfl, remainderOf]
  by_cases chosen : wanted round.nCurrentRound = true
  · simp only [chosen, if_true]
  · simp only [chosen, Bool.false_eq_true, if_false, ite_self, Int.add_zero]

theorem payments_accountRows (nTotalWeight nRoundShares : UInt64) (other : StdString) :
    payments wanted key (accountRows round nBestHeight nTotalWeight nReward other nRoundShares) =
      if wanted round.nCurrentRound then
        column (if other = key then round.cGlobalCoinbase.mapOutputs.getD key 0 else 0)
      else 0 := by
  have credits : (creditRows round nBestHeight nTotalWeight nReward other nRoundShares).filterMap TableCall.payment? = [] := by
    rw [creditRows]
    split <;> rfl
  rw [payments, accountRows, List.filterMap_append, credits, List.append_nil, payoutRows, ExtTreeMap.getD_eq_getD_getElem?]
  by_cases same : other = key
  · subst same
    cases round.cGlobalCoinbase.mapOutputs[other]? with
    | none => simp
    | some nValue => cases chosen : wanted round.nCurrentRound <;>
        simp [payment, TableCall.payment?, tally, AccountPaymentTransaction.amount_paid, column, narrowInt, chosen]
  · cases round.cGlobalCoinbase.mapOutputs[other]? with
    | none => simp [same]
    | some nValue => simp [payment, TableCall.payment?, tally, same]

omit [Double D] in
theorem payments_append (calls more : List TableCall) :
    payments wanted key (calls ++ more) = payments wanted key calls + payments wanted key more := by
  rw [payments, List.filterMap_append, tally_append, payments, payments]

omit [Double D] in
theorem payments_accounts {rowsOf : StdString → List TableCall}
    (others : ∀ other, other ≠ key → payments wanted key (rowsOf other) = 0) :
    payments wanted key (databases.AccountDB.keys.flatMap rowsOf) =
      if key ∈ databases.AccountDB then payments wanted key (rowsOf key) else 0 := by
  rw [payments, List.filterMap_flatMap, tally_flatMap ExtTreeMap.nodup_keys key others]
  simp only [ExtTreeMap.mem_keys, payments]

theorem payments_balanceRows :
    payments wanted key (balanceRows round nBestHeight nReward databases) =
      if wanted round.nCurrentRound then
        column (if key ∈ databases.AccountDB then round.cGlobalCoinbase.mapOutputs.getD key 0 else 0)
      else 0 := by
  have bonus : payments wanted key (bonusRows round nBestHeight nReward) = 0 := by
    rw [bonusRows]
    split <;> rfl
  have remainder (nTotalReward : UInt64) :
      payments wanted key (remainderRows round nBestHeight (sharedReward round nReward) nTotalReward) = 0 := by
    rw [remainderRows]
    split <;> rfl
  have others (other : StdString) (different : other ≠ key) :
      payments wanted key (accountRows round nBestHeight (weightOf databases) (sharedReward round nReward) other
        (databases.account other).nRoundShares) = 0 := by
    rw [payments_accountRows, if_neg different, column_zero, ite_self]
  rw [balanceRows, payments_append, payments_append, bonus, remainder, Int.zero_add, Int.add_zero,
    payments_accounts wanted key others, payments_accountRows, if_pos rfl]
  by_cases chosen : wanted round.nCurrentRound = true
  · simp only [chosen, if_true]
    split <;> rfl
  · simp only [chosen, Bool.false_eq_true, if_false, ite_self]

end Sums

end Recorded

namespace StatsTables

variable (tables : StatsTables) (wanted : UInt32 → Bool) (key : StdString)

theorem earned_calls_adds {calls : List TableCall} (adds : ∀ call ∈ calls, call.Adds) :
    (tables.calls calls).earned wanted key = tables.earned wanted key + Recorded.earnings wanted key calls := by
  rw [calls_adds tables adds, earned, tally_append, earned, Recorded.earnings]

theorem paid_calls_adds {calls : List TableCall} (adds : ∀ call ∈ calls, call.Adds) :
    (tables.calls calls).paid wanted key = tables.paid wanted key + Recorded.payments wanted key calls := by
  rw [calls_adds tables adds, paid, tally_append, paid, Recorded.payments]

theorem earned_addRoundData (row : RoundData) : (tables.call (.addRoundData row)).earned wanted key = tables.earned wanted key := by
  rw [call]
  split <;> rfl

theorem paid_addRoundData (row : RoundData) : (tables.call (.addRoundData row)).paid wanted key = tables.paid wanted key := by
  rw [call]
  split <;> rfl

theorem listed_addRoundData (row : RoundData) (nRound : UInt32) :
    (tables.call (.addRoundData row)).listed nRound = (tables.listed nRound || row.nRound = nRound) := by
  rw [call]
  by_cases known : tables.listed row.nRound = true
  · rw [if_pos known]
    by_cases same : row.nRound = nRound
    · rw [← same, known, Bool.true_or]
    · rw [decide_eq_false same, Bool.or_false]
  · rw [if_neg known, listed, List.any_append, listed]
    simp

theorem orphaned_addRoundData {row : RoundData} (stands : row.bOrphan = false) (nRound : UInt32) :
    (tables.call (.addRoundData row)).orphaned nRound = tables.orphaned nRound := by
  rw [call]
  split
  · rfl
  · rw [orphaned, List.any_append, orphaned]
    simp [stands]

/-! ### Deleted rows -/

theorem calls_deleteAccountEarnings (keys : List StdString) (nRound : UInt32) :
    tables.calls (keys.map (.deleteAccountEarnings · nRound)) =
      { tables with
        earnings_history := tables.earnings_history.filter fun row =>
          !(keys.contains row.strAccountAddress && row.nRound = nRound) } := by
  induction keys generalizing tables with
  | nil =>
      simp only [List.contains_nil, Bool.false_and, Bool.not_false, List.filter_true]
      rfl
  | cons first keys ih =>
      rw [List.map_cons, calls_cons, ih, call]
      simp only [List.filter_filter, List.contains_cons]
      congr 1
      refine List.filter_congr fun row _ => ?_
      cases keys.contains row.strAccountAddress <;> by_cases same : row.strAccountAddress = first <;> simp [same]

theorem calls_deleteAccountPayment (keys : List StdString) (nRound : UInt32) :
    tables.calls (keys.map (.deleteAccountPayment · nRound)) =
      { tables with
        payment_history := tables.payment_history.filter fun row =>
          !(keys.contains row.strAccountAddress && row.nRound = nRound) } := by
  induction keys generalizing tables with
  | nil =>
      simp only [List.contains_nil, Bool.false_and, Bool.not_false, List.filter_true]
      rfl
  | cons first keys ih =>
      rw [List.map_cons, calls_cons, ih, call]
      simp only [List.filter_filter, List.contains_cons]
      congr 1
      refine List.filter_congr fun row _ => ?_
      cases keys.contains row.strAccountAddress <;> by_cases same : row.strAccountAddress = first <;> simp [same]

/-! ### Rounds that are refunded -/

theorem orphaned_flagRoundAsOrphan (nRound other : UInt32) :
    (tables.call (.flagRoundAsOrphan nRound)).orphaned other =
      (tables.orphaned other || (other = nRound && tables.listed nRound)) := by
  rw [call, orphaned, orphaned, listed]
  induction tables.round_history with
  | nil => simp
  | cons row rows ih =>
      rw [List.map_cons, List.any_cons, ih, List.any_cons, List.any_cons]
      by_cases flagged : row.nRound = nRound
      · rw [if_pos flagged, flagged]
        by_cases same : other = nRound
        · simp [same]
        · have different : nRound ≠ other := Ne.symm same
          simp [same, different]
      · rw [if_neg flagged]
        simp [flagged, Bool.or_assoc]

theorem listed_flagRoundAsOrphan (nRound other : UInt32) :
    (tables.call (.flagRoundAsOrphan nRound)).listed other = tables.listed other := by
  rw [call, listed, listed, List.any_map]
  congr 1
  funext row
  rw [Function.comp_apply]
  split <;> rfl

variable (cBlock : Block)

theorem calls_refundRows :
    tables.calls (Recorded.refundRows cBlock) =
      { tables.call (.flagRoundAsOrphan cBlock.nRound) with
        earnings_history := tables.earnings_history.filter fun row =>
          !(cBlock.cCredits.mapCredits.keys.contains row.strAccountAddress && row.nRound = cBlock.nRound)
        payment_history := tables.payment_history.filter fun row =>
          !(cBlock.cCoinbase.mapOutputs.keys.contains row.strAccountAddress && row.nRound = cBlock.nRound) } := by
  rw [Recorded.refundRows, calls_cons, calls_append, calls_deleteAccountEarnings, calls_deleteAccountPayment]
  rfl

theorem earned_refundRows :
    tables.earned wanted key =
      (tables.calls (Recorded.refundRows cBlock)).earned wanted key +
        if key ∈ cBlock.cCredits.mapCredits ∧ wanted cBlock.nRound = true then
          tables.earned (fun nRound => nRound = cBlock.nRound) key
        else 0 := by
  have deleted := @tally_delete _ _ AccountEarningTransaction.amount_earned _ _ _
    AccountEarningTransaction.strAccountAddress AccountEarningTransaction.nRound cBlock.cCredits.mapCredits.keys.contains
    cBlock.nRound wanted key tables.earnings_history
  have named : cBlock.cCredits.mapCredits.keys.contains key = true ↔ key ∈ cBlock.cCredits.mapCredits := by
    rw [List.contains_iff_mem, ExtTreeMap.mem_keys]
  rw [calls_refundRows]
  refine deleted.trans ?_
  congr 1
  exact if_congr (and_congr_left' named) rfl rfl

theorem paid_refundRows :
    tables.paid wanted key =
      (tables.calls (Recorded.refundRows cBlock)).paid wanted key +
        if key ∈ cBlock.cCoinbase.mapOutputs ∧ wanted cBlock.nRound = true then
          tables.paid (fun nRound => nRound = cBlock.nRound) key
        else 0 := by
  have deleted := @tally_delete _ _ AccountPaymentTransaction.amount_paid _ _ _
    AccountPaymentTransaction.strAccountAddress AccountPaymentTransaction.nRound cBlock.cCoinbase.mapOutputs.keys.contains
    cBlock.nRound wanted key tables.payment_history
  have named : cBlock.cCoinbase.mapOutputs.keys.contains key = true ↔ key ∈ cBlock.cCoinbase.mapOutputs := by
    rw [List.contains_iff_mem, ExtTreeMap.mem_keys]
  rw [calls_refundRows]
  refine deleted.trans ?_
  congr 1
  exact if_congr (and_congr_left' named) rfl rfl

theorem orphaned_refundRows (other : UInt32) :
    (tables.calls (Recorded.refundRows cBlock)).orphaned other =
      (tables.orphaned other || (other = cBlock.nRound && tables.listed cBlock.nRound)) := by
  rw [calls_refundRows, ← orphaned_flagRoundAsOrphan]
  rfl

theorem listed_refundRows (other : UInt32) :
    (tables.calls (Recorded.refundRows cBlock)).listed other = tables.listed other := by
  rw [calls_refundRows, ← tables.listed_flagRoundAsOrphan cBlock.nRound]
  rfl

end StatsTables

end PrimePool.Core

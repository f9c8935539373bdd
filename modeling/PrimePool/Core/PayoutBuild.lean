import PrimePool.Core.PayoutExact
import PrimePool.Core.Pool
import PrimePool.Core.SettlementReads

/-!
# Payouts within the balances

A build that pays no account twice pays every account at most its balance, but for the bonus of the block
finder.
-/

namespace PrimePool.Core

open PrimePool.General PrimePool.LLD Std

/-- No account is paid twice: `AddTransaction` does not return a negative amount for a payment it adds. -/
def PaysOnce : List (StdString × UInt64) → Coinbase → Prop
  | [], _ => True
  | (account, nAccountBalance) :: rest, coinbase =>
      let paid := coinbase.addTransaction account nAccountBalance
      if nAccountBalance + coinbase.nCurrentValue > coinbase.nMaxValue then paid.1 < 0 ∨ PaysOnce rest paid.2
      else ¬ paid.1 < 0 ∧ PaysOnce rest paid.2

theorem paysOnce_cons (account : StdString) (nAccountBalance : UInt64) (rest : List (StdString × UInt64))
    (coinbase : Coinbase) :
    PaysOnce ((account, nAccountBalance) :: rest) coinbase ↔
      if nAccountBalance + coinbase.nCurrentValue > coinbase.nMaxValue then
        (coinbase.addTransaction account nAccountBalance).1 < 0 ∨
          PaysOnce rest (coinbase.addTransaction account nAccountBalance).2
      else ¬ (coinbase.addTransaction account nAccountBalance).1 < 0 ∧
        PaysOnce rest (coinbase.addTransaction account nAccountBalance).2 := by
  rw [PaysOnce]

instance PaysOnce.decidable : (rest : List (StdString × UInt64)) → (coinbase : Coinbase) → Decidable (PaysOnce rest coinbase)
  | [], _ => isTrue trivial
  | (account, nAccountBalance) :: rest, coinbase =>
      have := PaysOnce.decidable rest (coinbase.addTransaction account nAccountBalance).2
      decidable_of_iff _ (paysOnce_cons account nAccountBalance rest coinbase).symm

def bonusAddedTo (finder : StdString) (coinbase : Coinbase) : Option StdString :=
  if coinbase.isComplete ∨ widenInt coinbase.getRemainder + coinbase.nCurrentValue > coinbase.nMaxValue then none
  else some finder

section Build

variable {within : StdString → UInt64 → Prop} {coinbase : Coinbase} {account : StdString}

theorem getElem?_addOutput (coinbase : Coinbase) (account key : StdString) (nValue : UInt64) :
    (coinbase.addOutput account nValue).mapOutputs[key]? =
      if account = key then some (coinbase.mapOutputs.getD account 0 + nValue) else coinbase.mapOutputs[key]? := by
  rw [Coinbase.addOutput, AmountMap.add, ExtTreeMap.getElem?_insert]
  simp only [LawfulEqCmp.compare_eq_iff_eq]

theorem within_addOutput {nValue : UInt64} (unpaid : account ∉ coinbase.mapOutputs) (new : within account nValue)
    (before : ∀ key nValue, coinbase.mapOutputs[key]? = some nValue → within key nValue) :
    ∀ key nValue', (coinbase.addOutput account nValue).mapOutputs[key]? = some nValue' → within key nValue' := by
  intro key nValue' output
  rw [getElem?_addOutput] at output
  split at output
  · rename_i same
    rw [ExtTreeMap.getD_eq_fallback unpaid, UInt64.zero_add, Option.some.injEq] at output
    rwa [← same, ← output]
  · exact before key nValue' output

theorem corrected_le {nAccountBalance : UInt64} (current : coinbase.nCurrentValue ≤ coinbase.nMaxValue)
    (exceeds : nAccountBalance + coinbase.nCurrentValue > coinbase.nMaxValue)
    (negative : narrowInt (coinbase.nMaxValue - (nAccountBalance + coinbase.nCurrentValue)) < 0) :
    nAccountBalance + widenInt (narrowInt (coinbase.nMaxValue - (nAccountBalance + coinbase.nCurrentValue))) ≤
      nAccountBalance := by
  rw [narrowInt_neg_iff] at negative
  rw [UInt64.le_iff_toNat_le] at current
  rw [gt_iff_lt, UInt64.lt_iff_toNat_lt, UInt64.toNat_add] at exceeds
  have max := coinbase.nMaxValue.toNat_lt
  have balance := nAccountBalance.toNat_lt
  have left : (coinbase.nMaxValue - (nAccountBalance + coinbase.nCurrentValue)).toNat =
      2 ^ 64 - (nAccountBalance.toNat + coinbase.nCurrentValue.toNat - coinbase.nMaxValue.toNat) := by
    rw [UInt64.toNat_sub, UInt64.toNat_add]
    omega
  rw [UInt64.le_iff_toNat_le, toNat_corrected, left]
  rw [left] at negative
  split <;> omega

theorem within_addPayments {rest : List (StdString × UInt64)} (once : PaysOnce rest coinbase)
    (current : coinbase.nCurrentValue ≤ coinbase.nMaxValue)
    (due : ∀ payment ∈ rest, ∀ nValue ≤ payment.2, within payment.1 nValue) (distinct : (rest.map Prod.fst).Nodup)
    (unpaid : ∀ payment ∈ rest, payment.1 ∉ coinbase.mapOutputs)
    (before : ∀ key nValue, coinbase.mapOutputs[key]? = some nValue → within key nValue) :
    ∀ key nValue, (addPayments rest coinbase).mapOutputs[key]? = some nValue → within key nValue := by
  induction rest generalizing coinbase with
  | nil => exact before
  | cons payment rest ih =>
      obtain ⟨account, nAccountBalance⟩ := payment
      rw [List.map_cons, List.nodup_cons] at distinct
      have own := due _ List.mem_cons_self
      have unpaidHere := unpaid _ List.mem_cons_self
      have later := fun payment member => due payment (List.mem_cons_of_mem _ member)
      by_cases exceeds : nAccountBalance + coinbase.nCurrentValue > coinbase.nMaxValue
      · simp only [PaysOnce, addPayments, Coinbase.addTransaction, exceeds, if_true] at once ⊢
        split
        · rename_i negative
          split
          · exact before
          · exact within_addOutput unpaidHere (own _ (corrected_le current exceeds negative)) before
        · rename_i notNegative
          exact ih (once.resolve_left notNegative) current later distinct.2
            (fun payment member => unpaid payment (List.mem_cons_of_mem _ member)) before
      · simp only [PaysOnce, addPayments, Coinbase.addTransaction, exceeds, if_false] at once ⊢
        rw [if_neg once.1]
        refine ih once.2 ?_ later distinct.2 (fun payment member paid => ?_)
          (within_addOutput unpaidHere (own _ (UInt64.le_refl _)) before)
        · rw [Coinbase.addOutput, UInt64.add_comm]
          exact UInt64.not_lt.mp exceeds
        · have different : account ≠ payment.1 :=
            fun same => distinct.1 (same ▸ List.mem_map.mpr ⟨payment, member, rfl⟩)
          rw [ExtTreeMap.mem_iff_isSome_getElem?, getElem?_addOutput, if_neg different,
            ← ExtTreeMap.mem_iff_isSome_getElem?] at paid
          exact unpaid payment (List.mem_cons_of_mem _ member) paid

theorem within_addBonus {finder : StdString}
    (before : ∀ key nValue, coinbase.mapOutputs[key]? = some nValue → within key nValue) :
    ∀ key nValue, (addBonus finder coinbase).mapOutputs[key]? = some nValue →
      bonusAddedTo finder coinbase ≠ some key → within key nValue := by
  intro key nValue output exempt
  rw [addBonus, Coinbase.addTransaction] at output
  rw [bonusAddedTo] at exempt
  split at output
  · exact before key nValue output
  · rename_i incomplete
    split at output
    · exact before key nValue output
    · rename_i fits
      rw [if_neg (not_or.mpr ⟨incomplete, fits⟩), ne_eq, Option.some.injEq] at exempt
      rw [getElem?_addOutput, if_neg exempt] at output
      exact before key nValue output

end Build

variable {D : Type} [Double D]

def resetCoinbase (globals : Globals D) (nReward : UInt64) : Coinbase :=
  { globals.cGlobalCoinbase with nPoolFee := poolFee globals.lfPoolFee nReward }.reset
    (nReward - poolFee globals.lfPoolFee nReward)

def buildsBonusFor (globals : Globals D) (AccountDB : Records StdString Account) (vAccounts : List StdString)
    (nReward : UInt64) : Option StdString :=
  bonusAddedTo globals.LAST_ROUND_BLOCKFINDER (addPayouts AccountDB vAccounts (resetCoinbase globals nReward))

def BuildsOnce (globals : Globals D) (AccountDB : Records StdString Account) (vAccounts : List StdString)
    (nReward : UInt64) : Prop :=
  PaysOnce (payments AccountDB vAccounts) (resetCoinbase globals nReward) ∧ balanceOf AccountDB [] = 0

instance (globals : Globals D) (AccountDB : Records StdString Account) (vAccounts : List StdString)
    (nReward : UInt64) : Decidable (BuildsOnce globals AccountDB vAccounts nReward) :=
  inferInstanceAs (Decidable (_ ∧ _))

theorem backed_blockReward {globals : Globals D} {databases : Databases} {vAccounts : List StdString} {nReward : UInt64}
    (builds : Pool.Builds globals) (sorted : SortedAccounts databases.AccountDB vAccounts)
    (once : BuildsOnce globals databases.AccountDB vAccounts nReward) :
    Backed databases (blockReward globals databases.AccountDB vAccounts nReward).cGlobalCoinbase.mapOutputs
      (buildsBonusFor globals databases.AccountDB vAccounts nReward) := by
  have built : (blockReward globals databases.AccountDB vAccounts nReward).cGlobalCoinbase =
      addBonus globals.LAST_ROUND_BLOCKFINDER (addPayouts databases.AccountDB vAccounts (resetCoinbase globals nReward)) := by
    rw [blockReward, if_pos ⟨builds.1, builds.2⟩]
    rfl
  rw [built, buildsBonusFor, addPayouts_eq]
  refine within_addBonus (within_addPayments once.1 ?_ ?_ (nodup_payments sorted) ?_ ?_)
  · exact UInt64.zero_le
  · intro payment member nValue less
    obtain ⟨-, value, positive⟩ := mem_payments member
    refine ⟨fun unnamed => ?_, UInt64.le_trans less (UInt64.le_of_eq value)⟩
    rw [value, unnamed, once.2] at positive
    exact absurd positive (by decide)
  · exact fun payment member paid => ExtTreeMap.not_mem_empty paid
  · intro key nValue output
    exact absurd (output.symm.trans ExtTreeMap.getElem?_empty) (Option.some_ne_none nValue)

end PrimePool.Core

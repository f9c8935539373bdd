import PrimePool.Core.SettlementEffect
import PrimePool.Core.ShareAcceptance

/-!
# Filed accounts

`GetRecord` of a missing account stores a blank record, whose own key is empty. So in a store that was read
from disk an account stays under its own key, or it is blank, whatever the pool does; and no program
changes an account through the record of another one, but for the account of the empty key.
-/

namespace PrimePool.Core

open PrimePool.General PrimePool.LLD Std

variable {databases : Databases} {key : StdString}

def Filed (databases : Databases) : Prop :=
  ∀ key, (databases.account key).cKey = key ∨ (databases.account key).cKey = []

theorem filed_of_wellKeyed (wellKeyed : databases.AccountDB.WellKeyed) : Filed databases := by
  intro key
  apply Databases.account_cases (P := fun key cAccount => cAccount.cKey = key ∨ cAccount.cKey = [])
  · exact fun key => Or.inr rfl
  · exact fun entry member => Or.inl ((Records.wellKeyed_iff_toList _).mp wellKeyed entry member)

theorem Filed.perform (filed : Filed databases) (op : DatabaseCall) : Filed (perform op databases).2 := by
  intro key
  rw [account_perform]
  split
  · split
    · exact Or.inl ‹_›
    · exact filed key
  · exact filed key

theorem Filed.run {α : Type} (filed : Filed databases) (p : DatabaseProgram α) :
    Filed (General.run Core.perform p databases).2 := by
  apply run_of_invariant (I := Filed) Core.perform _ p filed
  intro op databases filed
  exact filed.perform op

/-! ## One account changes -/

def modifyAccount (caller : Caller) (cKey : StdString) (f : Account → Account) : DatabaseProgram Unit := do
  let cAccount ← getAccount caller cKey
  updateAccount caller (f cAccount)

def Owned (databases : Databases) (key : StdString) : Prop := (databases.account key).cKey = key

instance (databases : Databases) (key : StdString) : Decidable (Owned databases key) :=
  inferInstanceAs (Decidable (_ = _))

theorem account_updateAccount (caller : Caller) (cRecord : Account) (databases : Databases) (key : StdString) :
    (run perform (updateAccount caller cRecord) databases).2.account key =
      if cRecord.cKey = key then cRecord else databases.account key :=
  account_perform _ _ _

/-- The empty key is apart from the others only where these have records of their own: an account without one is read
as a blank record, which is stored under the empty key. -/
theorem account_modifyAccount (filed : Filed databases) (caller : Caller) (cKey : StdString)
    (apart : key = [] → Owned databases cKey) {f : Account → Account} (keeps : ∀ a, (f a).cKey = a.cKey) :
    (run perform (modifyAccount caller cKey f) databases).2.account key =
      if cKey = key ∧ Owned databases key then f (databases.account key) else databases.account key := by
  have read : (perform (.getAccount caller cKey) databases).2.account key = databases.account key := account_perform _ _ _
  have result : (run perform (modifyAccount caller cKey f) databases).2.account key =
      if (f (databases.account cKey)).cKey = key then f (databases.account cKey) else databases.account key := by
    rw [← read]
    exact account_updateAccount _ _ _ _
  rw [result, keeps]
  by_cases same : cKey = key
  · subst same
    simp only [true_and, Owned]
  · rw [if_neg, if_neg fun both => same both.1]
    rcases filed cKey with own | blank
    · rwa [own]
    · rw [blank]
      rintro rfl
      exact same ((apart rfl).symm.trans blank)

theorem owned_modifyAccount (filed : Filed databases) (caller : Caller) (cKey : StdString)
    (apart : key = [] → Owned databases cKey) {f : Account → Account} (keeps : ∀ a, (f a).cKey = a.cKey) :
    Owned (run perform (modifyAccount caller cKey f) databases).2 key ↔ Owned databases key := by
  rw [Owned, account_modifyAccount filed _ _ apart keeps]
  split
  · rw [keeps, Owned]
  · rfl

/-! ## Loops over the entries of an amount map -/

section Entries

variable {body : Unit → StdString × UInt64 → DatabaseProgram Unit} {caller : Caller} {f : UInt64 → Account → Account}
  {entry : StdString × UInt64} {entries : List (StdString × UInt64)}

theorem owned_tail (runs : ∀ entry, body () entry = modifyAccount caller entry.1 (f entry.2))
    (keeps : ∀ nValue a, (f nValue a).cKey = a.cKey) (filed : Filed databases)
    (apart : key = [] → ∀ other ∈ entry :: entries, Owned databases other.1) (empty : key = []) :
    ∀ other ∈ entries, Owned (run perform (body () entry) databases).2 other.1 := by
  intro other member
  have owned := apart empty
  rw [runs, owned_modifyAccount filed caller _ (fun _ => owned entry List.mem_cons_self) (keeps entry.2)]
  exact owned other (List.mem_cons_of_mem _ member)

theorem account_foldlM_others (runs : ∀ entry, body () entry = modifyAccount caller entry.1 (f entry.2))
    (keeps : ∀ nValue a, (f nValue a).cKey = a.cKey) (others : ∀ entry ∈ entries, entry.1 ≠ key)
    (filed : Filed databases) (apart : key = [] → ∀ entry ∈ entries, Owned databases entry.1) :
    (run perform (entries.foldlM body ()) databases).2.account key = databases.account key := by
  induction entries generalizing databases with
  | nil => rfl
  | cons entry entries ih =>
      rw [List.foldlM_cons, run_bind, ih (fun other member => others other (List.mem_cons_of_mem _ member)) (filed.run _)
        (owned_tail runs keeps filed apart), runs,
        account_modifyAccount filed _ _ (fun empty => apart empty entry List.mem_cons_self) (keeps entry.2), if_neg]
      exact fun both => others entry List.mem_cons_self both.1

theorem account_foldlM_mem (runs : ∀ entry, body () entry = modifyAccount caller entry.1 (f entry.2))
    (keeps : ∀ nValue a, (f nValue a).cKey = a.cKey) {nValue : UInt64}
    (distinct : (entries.map Prod.fst).Nodup) (member : (key, nValue) ∈ entries) (filed : Filed databases)
    (apart : key = [] → ∀ entry ∈ entries, Owned databases entry.1) :
    (run perform (entries.foldlM body ()) databases).2.account key =
      if Owned databases key then f nValue (databases.account key) else databases.account key := by
  induction entries generalizing databases with
  | nil => cases member
  | cons entry entries ih =>
      rw [List.map_cons, List.nodup_cons] at distinct
      have first (empty : key = []) : Owned databases entry.1 := apart empty entry List.mem_cons_self
      have tail := owned_tail runs keeps filed apart
      rw [List.foldlM_cons, run_bind]
      rcases List.mem_cons.mp member with rfl | later
      · have others : ∀ entry ∈ entries, entry.1 ≠ key :=
          fun entry present same => distinct.1 (List.mem_map.mpr ⟨entry, present, same⟩)
        rw [account_foldlM_others runs keeps others (filed.run _) tail, runs,
          account_modifyAccount filed _ _ first (keeps nValue)]
        simp only [true_and]
      · have different : entry.1 ≠ key := fun same => distinct.1 (same ▸ List.mem_map.mpr ⟨_, later, rfl⟩)
        have same : (run perform (body () entry) databases).2.account key = databases.account key := by
          rw [runs, account_modifyAccount filed _ _ first (keeps entry.2), if_neg fun both => different both.1]
        have owner : Owned (run perform (body () entry) databases).2 key ↔ Owned databases key := by
          rw [runs, owned_modifyAccount filed _ _ first (keeps entry.2)]
        rw [ih distinct.2 later (filed.run _) tail, same]
        exact if_congr owner rfl rfl

theorem account_foldlM_toList (runs : ∀ entry, body () entry = modifyAccount caller entry.1 (f entry.2))
    (keeps : ∀ nValue a, (f nValue a).cKey = a.cKey) (zero : f 0 = id) (amounts : AmountMap) (filed : Filed databases)
    (apart : key = [] → ∀ name ∈ amounts, Owned databases name) :
    (run perform (amounts.toList.foldlM body ()) databases).2.account key =
      if Owned databases key then f (amounts.getD key 0) (databases.account key) else databases.account key := by
  have listed (empty : key = []) : ∀ entry ∈ amounts.toList, Owned databases entry.1 := fun entry member =>
    apart empty entry.1 (mem_of_getElem? (ExtTreeMap.mem_toList_iff_getElem?_eq_some.mp member))
  rw [ExtTreeMap.getD_eq_getD_getElem?]
  cases found : amounts[key]? with
  | some nValue =>
      have distinct : (amounts.toList.map Prod.fst).Nodup := by
        rw [ExtTreeMap.map_fst_toList_eq_keys]
        exact ExtTreeMap.nodup_keys
      exact account_foldlM_mem runs keeps distinct (ExtTreeMap.mem_toList_iff_getElem?_eq_some.mpr found) filed listed
  | none =>
      rw [account_foldlM_others runs keeps _ filed listed, Option.getD_none, zero, id, ite_self]
      rintro entry member rfl
      have present := ExtTreeMap.mem_toList_iff_getElem?_eq_some.mp member
      rw [found] at present
      cases present

end Entries

/-! ## Refunds -/

/-- Every account that the block names has a record of its own. -/
def NamesOwned (databases : Databases) (cBlock : Block) : Prop :=
  (∀ name ∈ cBlock.cCredits.mapCredits, Owned databases name) ∧
    ∀ name ∈ cBlock.cCoinbase.mapOutputs, Owned databases name

theorem account_removeCredits (filed : Filed databases) {credits : AmountMap}
    (apart : key = [] → ∀ name ∈ credits, Owned databases name) :
    (run perform (credits.toList.foldlM removeCredit ()) databases).2.account key =
      if Owned databases key then withdraw (credits.getD key 0) (databases.account key) else databases.account key :=
  account_foldlM_toList (f := withdraw) (fun _ => rfl) (fun _ _ => rfl) withdraw_zero credits filed apart

theorem owned_removeCredits (filed : Filed databases) {credits : AmountMap}
    (apart : key = [] → ∀ name ∈ credits, Owned databases name) :
    Owned (run perform (credits.toList.foldlM removeCredit ()) databases).2 key ↔ Owned databases key := by
  rw [Owned, account_removeCredits filed apart]
  split
  · rw [withdraw, Owned]
  · rfl

theorem account_refundOutputs (filed : Filed databases) {outputs : AmountMap}
    (apart : key = [] → ∀ name ∈ outputs, Owned databases name) :
    (run perform (outputs.toList.foldlM refundOutput ()) databases).2.account key =
      if Owned databases key then deposit (outputs.getD key 0) (databases.account key) else databases.account key :=
  account_foldlM_toList (f := deposit) (fun _ => rfl) (fun _ _ => rfl) deposit_zero outputs filed apart

theorem account_refundLoops (filed : Filed databases) {cBlock : Block} (apart : key = [] → NamesOwned databases cBlock) :
    (run perform (refundLoops cBlock) databases).2.account key =
      if Owned databases key then refundAccount cBlock key (databases.account key) else databases.account key := by
  have credits (empty : key = []) := (apart empty).1
  have outputs (empty : key = []) : ∀ name ∈ cBlock.cCoinbase.mapOutputs,
      Owned (run perform (cBlock.cCredits.mapCredits.toList.foldlM removeCredit ()) databases).2 name :=
    fun name member => (owned_removeCredits filed fun _ => credits empty).mpr ((apart empty).2 name member)
  rw [refundLoops, run_bind, account_refundOutputs (filed.run _) outputs, account_removeCredits filed credits]
  by_cases owned : Owned databases key
  · rw [if_pos ((owned_removeCredits filed credits).mpr owned), if_pos owned, if_pos owned, refundAccount]
  · rw [if_neg (mt (owned_removeCredits filed credits).mp owned), if_neg owned, if_neg owned]

theorem account_refundPayouts (filed : Filed databases) (hashBlock : Uint1024)
    (apart : key = [] → NamesOwned databases (databases.BlockDB.getRecord hashBlock).1) :
    (run perform (refundPayouts hashBlock) databases).2.account key =
      let cBlock := (databases.BlockDB.getRecord hashBlock).1
      if cBlock.nCoinbaseValue ≠ 0 ∧ Owned databases key then refundAccount cBlock key (databases.account key)
      else databases.account key := by
  let cBlock := (databases.BlockDB.getRecord hashBlock).1
  let read := (perform (.getBlock hashBlock) databases).2
  have result : run perform (refundPayouts hashBlock) databases = run perform (refundBlock cBlock) read := by
    rw [refundPayouts_eq, run_bind]
    rfl
  have filed' : Filed read := filed
  have apart' : key = [] → NamesOwned read cBlock := apart
  rw [result, refundBlock]
  by_cases processed : cBlock.nCoinbaseValue = 0
  · rw [if_pos processed, if_neg fun both => both.1 processed]
    rfl
  · rw [if_neg processed, run_bind]
    refine (account_refundLoops filed' apart').trans ?_
    exact if_congr (iff_and_self.mpr fun _ => processed) rfl rfl

end PrimePool.Core

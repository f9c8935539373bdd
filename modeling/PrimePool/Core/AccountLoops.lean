import PrimePool.Core.Databases
import PrimePool.General.TreeMap

/-!
# Loops over accounts

A loop that reads each of some distinct accounts and stores it back changed, on a store of accounts in
which every record is under its own key and every account the loop names has a record.
-/

namespace PrimePool.Core

open PrimePool.General PrimePool.LLD Std

namespace Databases

def account (databases : Databases) (key : StdString) : Account :=
  databases.AccountDB.getD key Account.blank

def change (databases : Databases) (key : StdString) (f : Account → Account) : Databases :=
  { databases with AccountDB := databases.AccountDB.modify key f }

def mapAccounts (databases : Databases) (f : StdString → Account → Account) : Databases :=
  { databases with AccountDB := databases.AccountDB.map f }

theorem mapAccounts_mapAccounts (databases : Databases) (f g : StdString → Account → Account) :
    (databases.mapAccounts f).mapAccounts g = databases.mapAccounts fun key a => g key (f key a) := by
  rw [mapAccounts, mapAccounts, ExtTreeMap.map_map]
  rfl

theorem getElem?_mapAccounts (databases : Databases) (f : StdString → Account → Account) (key : StdString) :
    (databases.mapAccounts f).AccountDB[key]? = databases.AccountDB[key]?.map (f key) :=
  ExtTreeMap.getElem?_map

@[simp] theorem mem_mapAccounts (databases : Databases) (f : StdString → Account → Account) (key : StdString) :
    key ∈ (databases.mapAccounts f).AccountDB ↔ key ∈ databases.AccountDB := by
  simp only [mapAccounts, ExtTreeMap.mem_map]

theorem change_eq_mapAccounts (databases : Databases) (key : StdString) (f : Account → Account) :
    databases.change key f = databases.mapAccounts fun other => if other = key then f else id := by
  have accounts : databases.AccountDB.modify key f =
      databases.AccountDB.map fun other => if other = key then f else id := by
    apply ExtTreeMap.ext_getElem?
    intro other
    simp only [ExtTreeMap.getElem?_modify, ExtTreeMap.getElem?_map, LawfulEqCmp.compare_eq_iff_eq]
    by_cases same : key = other
    · rw [if_pos same, if_pos same.symm, same]
    · rw [if_neg same, if_neg (Ne.symm same), Option.map_id, id]
  rw [change, accounts, mapAccounts]

theorem getElem?_change (databases : Databases) (key other : StdString) (f : Account → Account) :
    (databases.change key f).AccountDB[other]? =
      if key = other then databases.AccountDB[other]?.map f else databases.AccountDB[other]? := by
  simp only [change, ExtTreeMap.getElem?_modify, LawfulEqCmp.compare_eq_iff_eq]
  split
  · rename_i same
    rw [same]
  · rfl

theorem account_of_getElem? {databases : Databases} {key : StdString} {cAccount : Account}
    (found : databases.AccountDB[key]? = some cAccount) : databases.account key = cAccount := by
  rw [account, ExtTreeMap.getD_eq_getD_getElem?, found, Option.getD_some]

theorem account_cases {databases : Databases} {P : StdString → Account → Prop} (blank : ∀ key, P key Account.blank)
    (records : ∀ entry ∈ databases.AccountDB.toList, P entry.1 entry.2) (key : StdString) :
    P key (databases.account key) := by
  cases found : databases.AccountDB[key]? with
  | none =>
      rw [account, ExtTreeMap.getD_eq_getD_getElem?, found]
      exact blank key
  | some cAccount =>
      rw [account_of_getElem? found]
      exact records (key, cAccount) (ExtTreeMap.mem_toList_iff_getElem?_eq_some.mpr found)

theorem change_change (databases : Databases) (key : StdString) (f g : Account → Account) :
    (databases.change key f).change key g = databases.change key fun a => g (f a) := by
  rw [change_eq_mapAccounts, change_eq_mapAccounts, change_eq_mapAccounts, mapAccounts_mapAccounts]
  congr 1
  funext other a
  split <;> rfl

theorem account_change (databases : Databases) {key : StdString} (present : key ∈ databases.AccountDB)
    (f : Account → Account) : (databases.change key f).account key = f (databases.account key) := by
  obtain ⟨cAccount, found⟩ := getElem?_of_mem present
  rw [account_of_getElem? found]
  apply account_of_getElem?
  rw [getElem?_change, if_pos rfl, found, Option.map_some]

theorem mem_change (databases : Databases) (key other : StdString) (f : Account → Account) :
    other ∈ (databases.change key f).AccountDB ↔ other ∈ databases.AccountDB := by
  simp only [change, ExtTreeMap.mem_modify]

end Databases

/-! ## Loops over accounts -/

variable {databases : Databases} {key : StdString} {β ι : Type}

theorem run_getAccount (caller : Caller) (present : key ∈ databases.AccountDB) :
    run perform (getAccount caller key) databases = (databases.account key, databases) := by
  simp only [getAccount, run_perform, perform]
  rw [Records.getRecord_of_mem present]
  rfl

theorem run_updateAccount_change (caller : Caller) (wellKeyed : databases.AccountDB.WellKeyed)
    (present : key ∈ databases.AccountDB) {f : Account → Account} (keeps : ∀ a, (f a).cKey = a.cKey) :
    run perform (updateAccount caller (f (databases.account key))) databases =
      ((), databases.change key f) := by
  have stored := Records.updateRecord_change wellKeyed present keeps
  simp only [updateAccount, run_perform, perform, Databases.change]
  rw [← stored]
  rfl

theorem run_foldlM_accounts {body : β → ι → DatabaseProgram β} (keyOf : ι → StdString)
    (next : β → ι → Account → β) (f : ι → Account → Account)
    (runs : ∀ b i (databases : Databases), databases.AccountDB.WellKeyed → keyOf i ∈ databases.AccountDB →
      run perform (body b i) databases =
        (next b i (databases.account (keyOf i)), databases.change (keyOf i) (f i)))
    (keeps : ∀ i a, (f i a).cKey = a.cKey) {items : List ι} (distinct : (items.map keyOf).Nodup) (b : β)
    (wellKeyed : databases.AccountDB.WellKeyed) (present : ∀ i ∈ items, keyOf i ∈ databases.AccountDB) :
    run perform (items.foldlM body b) databases =
      (items.foldl (fun b i => next b i (databases.account (keyOf i))) b,
        items.foldl (fun databases i => databases.change (keyOf i) (f i)) databases) := by
  induction items generalizing b databases with
  | nil => rfl
  | cons i items ih =>
      rw [List.map_cons, List.nodup_cons] at distinct
      have first := runs b i databases wellKeyed (present i List.mem_cons_self)
      have unchanged (b : β) :
          items.foldl (fun b j => next b j ((databases.change (keyOf i) (f i)).account (keyOf j))) b =
            items.foldl (fun b j => next b j (databases.account (keyOf j))) b := by
        apply List.foldl_ext
        intro b j member
        have different : keyOf i ≠ keyOf j :=
          fun same => distinct.1 (same ▸ List.mem_map.mpr ⟨j, member, rfl⟩)
        simp only [Databases.account, ExtTreeMap.getD_eq_getD_getElem?, Databases.getElem?_change,
          if_neg different]
      rw [List.foldlM_cons, run_bind, first, ih distinct.2 _ (wellKeyed.modify _ (keeps i)), unchanged]
      · rfl
      · intro j member
        simp only [Databases.change, ExtTreeMap.mem_modify]
        exact present j (List.mem_cons_of_mem i member)

theorem foldl_change (items : List ι) (keyOf : ι → StdString) (f : ι → Account → Account) (databases : Databases) :
    items.foldl (fun databases i => databases.change (keyOf i) (f i)) databases =
      { databases with
        AccountDB := items.foldl (fun accounts i => accounts.modify (keyOf i) (f i)) databases.AccountDB } := by
  induction items generalizing databases with
  | nil => rfl
  | cons i items ih => rw [List.foldl_cons, ih]; rfl

theorem run_foldlM_keys {body : β → StdString → DatabaseProgram β} (next : β → StdString → Account → β)
    (f : StdString → Account → Account)
    (runs : ∀ b key (databases : Databases), databases.AccountDB.WellKeyed → key ∈ databases.AccountDB →
      run perform (body b key) databases =
        (next b key (databases.account key), databases.change key (f key)))
    (keeps : ∀ key a, (f key a).cKey = a.cKey) (b : β) (wellKeyed : databases.AccountDB.WellKeyed) :
    run perform (databases.AccountDB.keys.foldlM body b) databases =
      (databases.AccountDB.keys.foldl (fun b key => next b key (databases.account key)) b,
        databases.mapAccounts f) := by
  have distinct : (databases.AccountDB.keys.map id).Nodup := by simpa using ExtTreeMap.nodup_keys
  have loop := run_foldlM_accounts id next f runs keeps distinct b wellKeyed
    fun key member => ExtTreeMap.mem_keys.mp member
  have changed := foldl_change databases.AccountDB.keys id f databases
  simp only [id] at loop changed
  rw [loop, changed, foldl_modify_keys, Databases.mapAccounts]

theorem Databases.change_congr {f g : Account → Account} (present : key ∈ databases.AccountDB)
    (same : f (databases.account key) = g (databases.account key)) :
    databases.change key f = databases.change key g := by
  obtain ⟨cAccount, found⟩ := getElem?_of_mem present
  rw [Databases.account_of_getElem? found] at same
  have accounts : databases.AccountDB.modify key f = databases.AccountDB.modify key g := by
    apply ExtTreeMap.ext_getElem?
    intro other
    simp only [ExtTreeMap.getElem?_modify]
    split
    · rw [found, Option.map_some, Option.map_some, same]
    · rfl
  rw [Databases.change, accounts, Databases.change]

theorem Databases.change_eq_self {f : Account → Account} (present : key ∈ databases.AccountDB)
    (same : f (databases.account key) = databases.account key) : databases.change key f = databases := by
  rw [change_congr (g := id) present same, change_eq_mapAccounts]
  simp only [ite_self]
  exact congrArg (fun AccountDB => { databases with AccountDB }) ExtTreeMap.map_id

theorem foldl_keys_mapAccounts (next : β → StdString → Account → β) (f : StdString → Account → Account)
    (blind : ∀ b key a, next b key (f key a) = next b key a) (b : β) :
    (databases.mapAccounts f).AccountDB.keys.foldl
        (fun b key => next b key ((databases.mapAccounts f).account key)) b =
      databases.AccountDB.keys.foldl (fun b key => next b key (databases.account key)) b := by
  have keys : (databases.mapAccounts f).AccountDB.keys = databases.AccountDB.keys := ExtTreeMap.keys_map
  rw [keys]
  apply List.foldl_ext
  intro b key member
  have present := ExtTreeMap.mem_keys.mp member
  obtain ⟨cAccount, found⟩ := getElem?_of_mem present
  have mapped : (databases.mapAccounts f).account key = f key cAccount := by
    apply Databases.account_of_getElem?
    rw [Databases.getElem?_mapAccounts, found, Option.map_some]
  rw [mapped, blind, Databases.account_of_getElem? found]

theorem run_foldlM_entries {amounts : AmountMap} {body : Unit → StdString × UInt64 → DatabaseProgram Unit}
    {f : UInt64 → Account → Account}
    (runs : ∀ entry (databases : Databases), databases.AccountDB.WellKeyed → entry.1 ∈ databases.AccountDB →
      run perform (body () entry) databases = ((), databases.change entry.1 (f entry.2)))
    (keeps : ∀ nValue a, (f nValue a).cKey = a.cKey) (zero : f 0 = id)
    (wellKeyed : databases.AccountDB.WellKeyed) (present : ∀ key ∈ amounts, key ∈ databases.AccountDB) :
    run perform (amounts.toList.foldlM body ()) databases =
      ((), databases.mapAccounts fun key => f (amounts.getD key 0)) := by
  have distinct : (amounts.toList.map Prod.fst).Nodup := by
    rw [ExtTreeMap.map_fst_toList_eq_keys]
    exact ExtTreeMap.nodup_keys
  have recorded : ∀ entry ∈ amounts.toList, entry.1 ∈ databases.AccountDB := by
    intro entry member
    have found := ExtTreeMap.mem_toList_iff_getElem?_eq_some.mp member
    exact present entry.1 (mem_of_getElem? found)
  have mapped : amounts.toList.foldl (fun accounts entry => accounts.modify entry.1 (f entry.2)) databases.AccountDB =
      databases.AccountDB.map fun key => f (amounts.getD key 0) := by
    apply ExtTreeMap.ext_getElem?
    intro key
    rw [getElem?_foldl_modify_toList, ExtTreeMap.getElem?_map, ExtTreeMap.getD_eq_getD_getElem?]
    cases amounts[key]? with
    | some nValue => rfl
    | none => simp only [Option.getD_none, zero, Option.map_id, id]
  rw [run_foldlM_accounts Prod.fst (fun b _ _ => b) (fun entry => f entry.2)
    (fun b entry => runs entry) (fun entry => keeps entry.2) distinct () wellKeyed recorded, foldl_change, mapped,
    Databases.mapAccounts]

end PrimePool.Core

import Mathlib.Data.List.Basic

/-!
# Ordered maps

What the standard library does not say about `ExtTreeMap`: the effect of a loop that changes the
records of a list of distinct keys, and rebuilding a map from its entries.
-/

namespace PrimePool.General

open Std

variable {K V ι : Type} [Ord K] [TransOrd K]

theorem mem_of_getElem? {m : ExtTreeMap K V} {k : K} {v : V} (found : m[k]? = some v) : k ∈ m :=
  ExtTreeMap.mem_iff_isSome_getElem?.mpr (Option.isSome_iff_exists.mpr ⟨v, found⟩)

theorem getElem?_of_mem {m : ExtTreeMap K V} {k : K} (present : k ∈ m) : ∃ v, m[k]? = some v :=
  Option.isSome_iff_exists.mp (ExtTreeMap.mem_iff_isSome_getElem?.mp present)

theorem map_snd_toList (m : ExtTreeMap K V) : m.toList.map Prod.snd = m.values := by
  obtain ⟨inner⟩ := m
  induction inner using ExtDTreeMap.inductionOn with
  | mk tree =>
      show (DTreeMap.Internal.Impl.Const.toList tree.inner).map Prod.snd = tree.inner.values
      rw [DTreeMap.Internal.Impl.Const.toList_eq_toListModel_map,
        DTreeMap.Internal.Impl.values_eq_map_snd, List.map_map]
      rfl

variable [LawfulEqOrd K]

theorem getElem?_foldl_modify_of_forall_ne (key : ι → K) (change : ι → V → V) {k : K} (items : List ι)
    (m : ExtTreeMap K V) (others : ∀ i ∈ items, key i ≠ k) :
    (items.foldl (fun m i => m.modify (key i) (change i)) m)[k]? = m[k]? := by
  induction items generalizing m with
  | nil => rfl
  | cons i items ih =>
      rw [List.foldl_cons, ih _ fun other member => others other (List.mem_cons_of_mem i member),
        ExtTreeMap.getElem?_modify, if_neg]
      rw [LawfulEqCmp.compare_eq_iff_eq]
      exact others i List.mem_cons_self

theorem getElem?_foldl_modify_of_mem (key : ι → K) (change : ι → V → V) {items : List ι}
    (distinct : (items.map key).Nodup) {i : ι} (member : i ∈ items) (m : ExtTreeMap K V) :
    (items.foldl (fun m i => m.modify (key i) (change i)) m)[key i]? = m[key i]?.map (change i) := by
  induction items generalizing m with
  | nil => cases member
  | cons j items ih =>
      rw [List.map_cons, List.nodup_cons] at distinct
      rw [List.foldl_cons]
      rcases List.mem_cons.mp member with rfl | later
      · have others : ∀ other ∈ items, key other ≠ key i :=
          fun other present same => distinct.1 (List.mem_map.mpr ⟨other, present, same⟩)
        rw [getElem?_foldl_modify_of_forall_ne key change items _ others, ExtTreeMap.getElem?_modify_self]
      · have different : key j ≠ key i :=
          fun same => distinct.1 (same ▸ List.mem_map.mpr ⟨i, later, rfl⟩)
        rw [ih distinct.2 later, ExtTreeMap.getElem?_modify, if_neg]
        rwa [LawfulEqCmp.compare_eq_iff_eq]

theorem foldl_modify_keys (m : ExtTreeMap K V) (change : K → V → V) :
    m.keys.foldl (fun m k => m.modify k (change k)) m = m.map change := by
  apply ExtTreeMap.ext_getElem?
  intro k
  rw [ExtTreeMap.getElem?_map]
  by_cases member : k ∈ m
  · exact getElem?_foldl_modify_of_mem id change (by simpa using ExtTreeMap.nodup_keys)
      (ExtTreeMap.mem_keys.mpr member) m
  · have others : ∀ other ∈ m.keys, id other ≠ k := by
      rintro other present rfl
      exact member (ExtTreeMap.mem_keys.mp present)
    rw [ExtTreeMap.getElem?_eq_none member, Option.map_none, ← ExtTreeMap.getElem?_eq_none member]
    exact getElem?_foldl_modify_of_forall_ne id change m.keys m others

theorem getElem?_foldl_modify_toList {W : Type} (m : ExtTreeMap K V) (entries : ExtTreeMap K W)
    (change : W → V → V) (k : K) :
    (entries.toList.foldl (fun m entry => m.modify entry.1 (change entry.2)) m)[k]? =
      match entries[k]? with
      | some w => m[k]?.map (change w)
      | none => m[k]? := by
  cases found : entries[k]? with
  | some w =>
      have distinct : (entries.toList.map Prod.fst).Nodup := by
        rw [ExtTreeMap.map_fst_toList_eq_keys]
        exact ExtTreeMap.nodup_keys
      exact getElem?_foldl_modify_of_mem Prod.fst (fun entry => change entry.2) distinct
        (ExtTreeMap.mem_toList_iff_getElem?_eq_some.mpr found) m
  | none =>
      apply getElem?_foldl_modify_of_forall_ne Prod.fst (fun entry => change entry.2)
      rintro entry member rfl
      have present := ExtTreeMap.mem_toList_iff_getElem?_eq_some.mp member
      rw [found] at present
      cases present

/-- A loop that inserts items leaves one of them under their keys, and the rest of the map as it was. -/
theorem getElem?_foldl_insert (key : V → K) (items : List V) (m : ExtTreeMap K V) (k : K) :
    (∃ v ∈ items, key v = k ∧ (items.foldl (fun m v => m.insert (key v) v) m)[k]? = some v) ∨
      (∀ v ∈ items, key v ≠ k) ∧ (items.foldl (fun m v => m.insert (key v) v) m)[k]? = m[k]? := by
  induction items generalizing m with
  | nil => exact Or.inr ⟨fun _ member => (List.not_mem_nil member).elim, rfl⟩
  | cons w items ih =>
      rcases ih (m.insert (key w) w) with ⟨v, member, same, found⟩ | ⟨others, found⟩
      · exact Or.inl ⟨v, List.mem_cons_of_mem w member, same, found⟩
      · rw [ExtTreeMap.getElem?_insert] at found
        split at found
        · rename_i same
          exact Or.inl ⟨w, List.mem_cons_self, LawfulEqCmp.compare_eq_iff_eq.mp same, found⟩
        · rename_i different
          rw [LawfulEqCmp.compare_eq_iff_eq] at different
          refine Or.inr ⟨fun v member => ?_, found⟩
          rcases List.mem_cons.mp member with rfl | later
          · exact different
          · exact others v later

variable [DecidableEq K]

theorem ofList_toList (m : ExtTreeMap K V) : ExtTreeMap.ofList m.toList = m := by
  apply ExtTreeMap.ext_getElem?
  intro k
  cases found : m[k]? with
  | none =>
      apply ExtTreeMap.getElem?_ofList_of_contains_eq_false
      rw [ExtTreeMap.map_fst_toList_eq_keys]
      simpa using found
  | some v =>
      have member : (k, v) ∈ m.toList := ExtTreeMap.mem_toList_iff_getElem?_eq_some.mpr found
      exact ExtTreeMap.getElem?_ofList_of_mem (ReflCmp.compare_self) ExtTreeMap.distinct_keys_toList member

theorem foldl_insert_toList (m : ExtTreeMap K V) :
    m.toList.foldl (fun acc entry => acc.insert entry.1 entry.2) ∅ = m :=
  ExtTreeMap.ofList_eq_foldl.symm.trans (ofList_toList m)

end PrimePool.General

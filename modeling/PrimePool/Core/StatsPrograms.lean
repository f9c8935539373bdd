import PrimePool.Core.StatsCollector

/-!
# Settlements with statistics

The settlement programs name accounts of the pool only, to the databases and to the persister, where the block finder
and the accounts of the refunded block are among them.
-/

namespace PrimePool.Core

open PrimePool.General PrimePool.LLD Std Program

/-- The accounts are under their own keys, and just those in question. -/
structure Holds (present : StdString → Prop) (AccountDB : Records StdString Account) : Prop where
  wellKeyed : AccountDB.WellKeyed
  keys (key : StdString) : key ∈ AccountDB ↔ present key

def Names (present : StdString → Prop) : DatabaseCall ⊕ Query → Prop
  | .inl (.getAccount _ cKey) => present cKey
  | .inl (.updateAccount _ cRecord) => present cRecord.cKey
  | .inl _ => True
  | .inr query => present query.address

def Answers (present : StdString → Prop) : (op : DatabaseCall ⊕ Query) → LogRes DatabaseCall.Result Query op → Prop
  | .inl .accountKeys, vKeys => ∀ key ∈ vKeys, present key
  | .inl (.getAccount _ cKey), cAccount => cAccount.cKey = cKey
  | _, _ => True

variable {present : StdString → Prop} {α : Type}

/-- A program that names accounts in question only. -/
def Sticks (present : StdString → Prop) (p : StatsProgram α) : Prop :=
  Obeys (Names present) (Answers present) (fun _ => True) p

theorem Holds.getRecord {AccountDB : Records StdString Account} (holds : Holds present AccountDB) {cKey : StdString}
    (named : present cKey) :
    Holds present (AccountDB.getRecord cKey).2 ∧ (AccountDB.getRecord cKey).1.cKey = cKey := by
  have stored : cKey ∈ AccountDB := (holds.keys cKey).mpr named
  have same : (AccountDB.getRecord cKey).2 = AccountDB := Records.getRecord_of_mem stored
  rw [same]
  exact ⟨holds, holds.wellKeyed.getRecord stored⟩

theorem Holds.updateRecord {AccountDB : Records StdString Account} (holds : Holds present AccountDB) {cRecord : Account}
    (named : present cRecord.cKey) : Holds present (AccountDB.updateRecord cRecord) where
  wellKeyed := holds.wellKeyed.updateRecord cRecord
  keys key := by
    rw [Records.updateRecord, ExtTreeMap.mem_insert, LawfulEqCmp.compare_eq_iff_eq, holds.keys]
    refine or_iff_right_of_imp fun same => ?_
    rw [← same]
    exact named

theorem logged_perform {op : DatabaseCall ⊕ Query} {s : Databases × List Query} {allowed : Query → Prop}
    (asked : ∀ query, present query.address → allowed query)
    (holds : Holds present s.1.AccountDB ∧ ∀ query ∈ s.2, allowed query) (names : Names present op) :
    (Holds present (logged perform op s).2.1.AccountDB ∧ ∀ query ∈ (logged perform op s).2.2, allowed query) ∧
      Answers present op (logged perform op s).1 := by
  cases op with
  | inr query =>
      refine ⟨⟨holds.1, fun other member => ?_⟩, trivial⟩
      rcases List.mem_append.mp member with old | new
      · exact holds.2 other old
      · rw [List.mem_singleton.mp new]
        exact asked query names
  | inl op =>
      cases op with
      | accountKeys => exact ⟨holds, fun key member => (holds.1.keys key).mp (ExtTreeMap.mem_keys.mp member)⟩
      | getAccount caller cKey =>
          obtain ⟨kept, own⟩ := holds.1.getRecord names
          exact ⟨⟨kept, holds.2⟩, own⟩
      | updateAccount caller cRecord => exact ⟨⟨holds.1.updateRecord names, holds.2⟩, trivial⟩
      | _ => exact ⟨holds, trivial⟩

/-- What a state of the databases and the queries so far have to be, for programs that name such accounts. -/
def Logs (present : StdString → Prop) (allowed : Query → Prop) (s : Databases × List Query) : Prop :=
  Holds present s.1.AccountDB ∧ ∀ query ∈ s.2, allowed query

theorem Sticks.run {p : StatsProgram α} (sticks : Sticks present p) {s : Databases × List Query}
    (allowed : Query → Prop) (asked : ∀ query, present query.address → allowed query) (logs : Logs present allowed s) :
    Logs present allowed (General.run (logged perform) p s).2 :=
  (Obeys.run sticks (Logs present allowed) (fun _ _ holds names => logged_perform asked holds names) logs).1

theorem Sticks.bind {β : Type} {p : StatsProgram α} {f : α → StatsProgram β} (first : Sticks present p)
    (rest : ∀ value, Sticks present (f value)) : Sticks present (p >>= f) :=
  Obeys.bind first fun value _ => rest value

theorem Sticks.foldlM {β κ : Type} {f : β → κ → StatsProgram β} {keys : List κ}
    (body : ∀ k ∈ keys, ∀ b, Sticks present (f b k)) (b : β) : Sticks present (keys.foldlM f b) :=
  Obeys.foldlM (fun k member b _ => body k member b) trivial

section Programs

variable {D : Type} [Double D]

theorem sticks_refundLoops (cBlock : Block) (credits : ∀ credit ∈ cBlock.cCredits.mapCredits.toList, present credit.1)
    (outputs : ∀ output ∈ cBlock.cCoinbase.mapOutputs.toList, present output.1) :
    Sticks present (do
      cBlock.cCredits.mapCredits.toList.foldlM Stats.removeCredit ()
      cBlock.cCoinbase.mapOutputs.toList.foldlM Stats.refundOutput ()
      (updateBlock cBlock).quiet
      writeBlocks.quiet) := by
  refine Sticks.bind (Sticks.foldlM (fun credit member _ => ?_) ()) fun _ =>
    Sticks.bind (Sticks.foldlM (fun output member _ => ?_) ()) fun _ => ⟨trivial, fun _ _ => ⟨trivial, fun _ _ => trivial⟩⟩
  · have named := credits credit member
    exact ⟨named, fun cAccount own => ⟨own ▸ named, fun _ _ => ⟨named, fun _ _ => trivial⟩⟩⟩
  · have named := outputs output member
    exact ⟨named, fun cAccount own => ⟨own ▸ named, fun _ _ => ⟨named, fun _ _ => trivial⟩⟩⟩

theorem sticks_creditFinder {finder : StdString} (named : present finder) (nReward : UInt64) :
    Sticks present (Stats.creditFinder D finder nReward) := by
  rw [Stats.creditFinder]
  split
  · trivial
  · exact ⟨named, fun cAccount own => ⟨own ▸ named, fun _ _ => ⟨named, fun _ _ => trivial⟩⟩⟩

theorem obeys_deductPayout {outputs : AmountMap} {key : StdString} (named : present key) {cAccount : Account}
    (own : cAccount.cKey = key) :
    Obeys (Names present) (Answers present) (fun cAccount => cAccount.cKey = key)
      (Stats.deductPayout outputs key cAccount) := by
  rw [Stats.deductPayout]
  cases outputs[key]? with
  | none => exact own
  | some nValue => exact ⟨own ▸ named, fun _ _ => ⟨named, fun _ _ => own⟩⟩

theorem sticks_creditAccount {key : StdString} (named : present key) {cAccount : Account} (own : cAccount.cKey = key)
    (nTotalWeight nReward : UInt64) (credited : Credits × UInt64) :
    Sticks present (Stats.creditAccount D nTotalWeight nReward credited key cAccount) := by
  rw [Stats.creditAccount]
  split
  · trivial
  · exact ⟨own ▸ named, fun _ _ => ⟨named, fun _ _ => trivial⟩⟩

theorem sticks_settleAccount {key : StdString} (named : present key) (outputs : AmountMap)
    (nTotalWeight nReward : UInt64) (credited : Credits × UInt64) :
    Sticks present (Stats.settleAccount D outputs nTotalWeight nReward credited key) := by
  refine ⟨named, fun cAccount own => ?_⟩
  exact (obeys_deductPayout named own).bind fun cAccount own =>
    sticks_creditAccount named own nTotalWeight nReward credited

theorem sticks_giveRemainder {finder : StdString} (named : present finder) (nReward nTotalReward : UInt64) :
    Sticks present (Stats.giveRemainder finder nReward nTotalReward) := by
  rw [Stats.giveRemainder]
  split
  · exact ⟨named, fun cAccount own => ⟨own ▸ named, fun _ _ => ⟨named, fun _ _ => trivial⟩⟩⟩
  · trivial

theorem sticks_totalWeight : Sticks present totalWeight.quiet := by
  apply Obeys.quiet
  refine ⟨trivial, fun vKeys listed => Obeys.foldlM (fun key member _ _ => ?_) trivial⟩
  have named : present key := listed key member
  exact ⟨named, fun _ _ => trivial⟩

theorem sticks_clearShares : Sticks present clearShares.quiet := by
  apply Obeys.quiet
  refine ⟨trivial, fun vKeys listed => Obeys.foldlM (fun key member _ _ => ?_) trivial⟩
  have named : present key := listed key member
  exact ⟨named, fun cAccount own => ⟨own ▸ named, fun _ _ => trivial⟩⟩

theorem sticks_newRound (round : Round D) (named : present round.LAST_ROUND_BLOCKFINDER) :
    Sticks present (Stats.newRound round) := by
  refine Sticks.bind ⟨named, fun _ _ => trivial⟩ fun _ => Sticks.bind ?_ fun _ => sticks_clearShares
  refine Sticks.bind (sticks_creditFinder named _) fun credited => Sticks.bind sticks_totalWeight fun nTotalWeight => ?_
  have keys : Obeys (Names present) (Answers present) (fun vKeys => ∀ key ∈ vKeys, present key) accountKeys.quiet :=
    ⟨trivial, fun _ listed => listed⟩
  refine Obeys.bind keys fun vKeys listed => ?_
  refine Sticks.bind (Sticks.foldlM (fun key member b => ?_) _) fun settled => ?_
  · exact sticks_settleAccount (listed key member) _ _ _ b
  · exact Sticks.bind (sticks_giveRemainder named _ _) fun _ =>
      ⟨trivial, fun _ _ => ⟨trivial, fun _ _ => ⟨trivial, fun _ _ => trivial⟩⟩⟩

theorem Holds.acceptShare {databases : Databases} (holds : Holds present databases.AccountDB) {ADDRESS : StdString}
    (named : present ADDRESS) (nWeight : UInt64) :
    Holds present (run perform (acceptShare ADDRESS nWeight) databases).2.AccountDB := by
  obtain ⟨kept, own⟩ := holds.getRecord named
  have stays : present (databases.AccountDB.getRecord ADDRESS).1.cKey := by
    rw [own]
    exact named
  apply kept.updateRecord
  exact stays

end Programs

end PrimePool.Core

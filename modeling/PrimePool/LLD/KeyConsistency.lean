import PrimePool.LLD.Database

/-!
# Key consistency

Which sequences of database operations keep every record under its own key.
-/

namespace PrimePool.LLD.Database

open Std

inductive Operation (Key R : Type) where
  | hasKey (cKey : Key)
  | getKeys
  | getRecord (cKey : Key)
  | updateRecord (cRecord : R)
  | eraseRecord (cKey : Key)
  | writeToDisk
  | readIntoMemory

variable {Key R : Type} [Ord Key] [TransOrd Key] [Record Key R]

/-- The database an operation leaves behind; `none` when `ReadIntoMemory` does not return. -/
def perform (database : Database Key R) : Operation Key R → Option (Database Key R)
  | .hasKey _ => some database
  | .getKeys => some database
  | .getRecord cKey => some { database with mapRecords := (database.mapRecords.getRecord cKey).2 }
  | .updateRecord cRecord => some { database with mapRecords := database.mapRecords.updateRecord cRecord }
  | .eraseRecord cKey => some { database with mapRecords := database.mapRecords.eraseRecord cKey }
  | .writeToDisk => some database.writeToDisk
  | .readIntoMemory => database.readIntoMemory

def KeepsKeys (database : Database Key R) (operation : Operation Key R) : Prop :=
  ∀ after, database.perform operation = some after → ∀ cKey, cKey ∈ after.mapRecords ↔ cKey ∈ database.mapRecords

def UpdatesOnly (database : Database Key R) (cKey : Key) : Prop :=
  ∀ cRecord : R, Record.cKey cRecord = Record.cKey (database.mapRecords.getRecord cKey).1 →
    let stored := (database.mapRecords.getRecord cKey).2.updateRecord cRecord
    stored[cKey]? = some cRecord ∧ ∀ other, other ≠ cKey → stored[other]? = database.mapRecords[other]?

/-- Along the whole sequence every record is stored under its own key, `HasKey` and `GetRecord` keep the
set of stored keys, and a record that was read can be changed and stored back. -/
def Consistent : Database Key R → List (Operation Key R) → Prop
  | database, [] => database.mapRecords.WellKeyed
  | database, operation :: operations =>
      database.mapRecords.WellKeyed ∧
      (∀ cKey, operation = .hasKey cKey → database.KeepsKeys operation) ∧
      (∀ cKey, operation = .getRecord cKey → database.KeepsKeys operation ∧ database.UpdatesOnly cKey) ∧
      ∀ after, database.perform operation = some after → Consistent after operations

def ReadsPresent : Database Key R → List (Operation Key R) → Prop
  | _, [] => True
  | database, operation :: operations =>
      (∀ cKey, operation = .getRecord cKey → database.mapRecords.hasKey cKey = true) ∧
      ∀ after, database.perform operation = some after → ReadsPresent after operations

variable [LawfulEqOrd Key] {database after : Database Key R}

theorem keepsKeys_getRecord (database : Database Key R) (cKey : Key) :
    database.KeepsKeys (.getRecord cKey) ↔ cKey ∈ database.mapRecords := by
  constructor
  · intro keeps
    rw [← keeps _ rfl cKey, Records.mem_getRecord]
    exact Or.inl rfl
  · intro present after performed
    cases performed
    rw [Records.getRecord_of_mem present]
    exact fun _ => Iff.rfl

theorem readsPresent_of_consistent {operations : List (Operation Key R)}
    (consistent : database.Consistent operations) : database.ReadsPresent operations := by
  induction operations generalizing database with
  | nil => trivial
  | cons operation operations ih =>
      obtain ⟨-, -, reads, rest⟩ := consistent
      refine ⟨?_, fun after performed => ih (rest after performed)⟩
      rintro cKey rfl
      simp only [Records.hasKey, ExtTreeMap.contains_iff_mem]
      exact (keepsKeys_getRecord database cKey).mp (reads cKey rfl).1

variable [DecidableEq Key]

theorem updatesOnly_of_mem (wellKeyed : database.mapRecords.WellKeyed) {cKey : Key}
    (present : cKey ∈ database.mapRecords) : database.UpdatesOnly cKey := by
  intro cRecord same
  rw [wellKeyed.getRecord present] at same
  rw [Records.getRecord_of_mem present]
  refine ⟨by rw [Records.getElem?_updateRecord, if_pos same], fun other different => ?_⟩
  rw [Records.getElem?_updateRecord, if_neg (fun equal => different (equal.symm.trans same))]

theorem wellKeyed_perform (wellKeyed : database.mapRecords.WellKeyed) (operation : Operation Key R)
    (reads : ∀ cKey, operation = .getRecord cKey → cKey ∈ database.mapRecords)
    (performed : database.perform operation = some after) : after.mapRecords.WellKeyed := by
  cases operation with
  | hasKey cKey => cases performed; exact wellKeyed
  | getKeys => cases performed; exact wellKeyed
  | getRecord cKey =>
      cases performed
      rw [Records.getRecord_of_mem (reads cKey rfl)]
      exact wellKeyed
  | updateRecord cRecord => cases performed; exact wellKeyed.updateRecord cRecord
  | eraseRecord cKey => cases performed; exact wellKeyed.eraseRecord cKey
  | writeToDisk => cases performed; exact wellKeyed
  | readIntoMemory => exact wellKeyed_readIntoMemory performed

theorem consistent_of_readsPresent {operations : List (Operation Key R)}
    (wellKeyed : database.mapRecords.WellKeyed) (reads : database.ReadsPresent operations) :
    database.Consistent operations := by
  induction operations generalizing database with
  | nil => exact wellKeyed
  | cons operation operations ih =>
      obtain ⟨present, rest⟩ := reads
      simp only [Records.hasKey, ExtTreeMap.contains_iff_mem] at present
      refine ⟨wellKeyed, ?_, ?_, ?_⟩
      · rintro cKey rfl after performed
        cases performed
        exact fun _ => Iff.rfl
      · rintro cKey rfl
        exact ⟨(keepsKeys_getRecord database cKey).mpr (present cKey rfl),
          updatesOnly_of_mem wellKeyed (present cKey rfl)⟩
      · intro after performed
        exact ih (wellKeyed_perform wellKeyed operation present performed) (rest after performed)

/-- A sequence of operations on a database that was opened from its file is consistent exactly when it
reads no missing key. -/
theorem consistent_iff {file : Option Bytes} (opened : new file = some database)
    (operations : List (Operation Key R)) :
    database.Consistent operations ↔ database.ReadsPresent operations :=
  ⟨readsPresent_of_consistent, consistent_of_readsPresent (wellKeyed_readIntoMemory opened)⟩

def strangerAddress : StdString := [50, 83]

def emptyAccountDB : Database StdString Account := { mapRecords := ∅, file := none }

theorem emptyAccountDB_consistent_iff :
    new none = some emptyAccountDB ∧
      (emptyAccountDB.Consistent [.updateRecord (Account.new strangerAddress), .getRecord strangerAddress] ↔
        emptyAccountDB.ReadsPresent
          [.updateRecord (Account.new strangerAddress), .getRecord strangerAddress]) :=
  ⟨rfl, consistent_iff (show new none = some emptyAccountDB from rfl) _⟩

theorem getRecord_stranger_inconsistent :
    ¬ emptyAccountDB.Consistent [.getRecord strangerAddress] := by
  intro consistent
  have wellKeyed := consistent.2.2.2 _ rfl
  have stored : (emptyAccountDB.mapRecords.getRecord strangerAddress).2[strangerAddress]? =
      some Account.blank := rfl
  have keyed := wellKeyed strangerAddress Account.blank stored
  simp [Record.cKey, Account.blank, Account.new, strangerAddress] at keyed

end PrimePool.LLD.Database

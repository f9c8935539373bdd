import PrimePool.General.TreeMap
import PrimePool.LLD.Record

/-!
# The database

`LLD/database.h`: a map of records in memory, and the file `WriteToDisk` and `ReadIntoMemory`
exchange it with.
-/

namespace PrimePool.LLD

open PrimePool.General Std

/-- What the database template asks of its record type. -/
class Record (Key : outParam Type) (R : Type) where
  cKey : R → Key
  blank : R
  serialize : R → Bytes
  deserialize : Bytes → Option R

instance : Record StdString Account where
  cKey := Account.cKey
  blank := Account.blank
  serialize := Account.serialize
  deserialize := Account.deserialize

instance : Record Uint1024 Block where
  cKey := Block.cKey
  blank := Block.blank
  serialize := Block.serialize
  deserialize := Block.deserialize

/-! ## Records in memory -/

abbrev Records (Key R : Type) [Ord Key] : Type := ExtTreeMap Key R

namespace Records

variable {Key R : Type} [Ord Key] [TransOrd Key] [Record Key R]

def getKeys (records : Records Key R) : List Key := records.keys

def hasKey (records : Records Key R) (cKey : Key) : Bool := records.contains cKey

def eraseRecord (records : Records Key R) (cKey : Key) : Records Key R := records.erase cKey

def getRecord (records : Records Key R) (cKey : Key) : R × Records Key R :=
  -- `mapRecords[cKey]` inserts a blank record for a missing key
  (records.getD cKey Record.blank, records.insertIfNew cKey Record.blank)

def updateRecord (records : Records Key R) (cRecord : R) : Records Key R :=
  records.insert (Record.cKey cRecord) cRecord

def WellKeyed (records : Records Key R) : Prop :=
  ∀ (cKey : Key) (cRecord : R), records[cKey]? = some cRecord → Record.cKey cRecord = cKey

theorem wellKeyed_empty : WellKeyed (∅ : Records Key R) := by
  intro cKey cRecord found
  simp at found

theorem WellKeyed.eraseRecord {records : Records Key R} (wellKeyed : WellKeyed records) (cKey : Key) :
    WellKeyed (records.eraseRecord cKey) := by
  intro other cRecord found
  simp only [Records.eraseRecord, ExtTreeMap.getElem?_erase] at found
  split at found
  · cases found
  · exact wellKeyed other cRecord found

theorem WellKeyed.getRecord {records : Records Key R} (wellKeyed : WellKeyed records) {cKey : Key} (present : cKey ∈ records) :
    Record.cKey (records.getRecord cKey).1 = cKey := by
  obtain ⟨cRecord, found⟩ := getElem?_of_mem present
  simp only [Records.getRecord, ExtTreeMap.getD_eq_getD_getElem?, found, Option.getD_some]
  exact wellKeyed cKey cRecord found

variable [LawfulEqOrd Key] {records : Records Key R}

theorem mem_getRecord (records : Records Key R) (cKey other : Key) :
    other ∈ (records.getRecord cKey).2 ↔ cKey = other ∨ other ∈ records := by
  simp only [getRecord, ExtTreeMap.mem_insertIfNew, LawfulEqCmp.compare_eq_iff_eq]

theorem getRecord_getRecord (records : Records Key R) (cKey : Key) :
    ((records.getRecord cKey).2.getRecord cKey).1 = (records.getRecord cKey).1 := by
  simp only [getRecord, ExtTreeMap.getD_insertIfNew, LawfulEqCmp.compare_eq_iff_eq, true_and]
  split
  · rename_i missing
    rw [ExtTreeMap.getD_eq_fallback missing]
  · rfl

theorem getRecord_of_mem {cKey : Key} (present : cKey ∈ records) :
    (records.getRecord cKey).2 = records := by
  apply ExtTreeMap.ext_getElem?
  intro other
  simp only [getRecord, ExtTreeMap.getElem?_insertIfNew, LawfulEqCmp.compare_eq_iff_eq]
  split
  · rename_i missing
    exact absurd present missing.2
  · rfl

theorem WellKeyed.modify (wellKeyed : WellKeyed records) (cKey : Key) {change : R → R}
    (keeps : ∀ cRecord, Record.cKey (change cRecord) = Record.cKey cRecord) :
    WellKeyed (records.modify cKey change) := by
  intro other cRecord found
  rw [ExtTreeMap.getElem?_modify] at found
  split at found
  · rename_i same
    rw [LawfulEqCmp.compare_eq_iff_eq] at same
    obtain ⟨before, stored, rfl⟩ := Option.map_eq_some_iff.mp found
    rw [keeps]
    exact wellKeyed other before (same ▸ stored)
  · exact wellKeyed other cRecord found

theorem getRecord_of_getElem? {cKey : Key} {cRecord : R} (found : records[cKey]? = some cRecord) :
    records.getRecord cKey = (cRecord, records) := by
  have present : cKey ∈ records := mem_of_getElem? found
  refine Prod.ext ?_ (getRecord_of_mem present)
  simp only [getRecord, ExtTreeMap.getD_eq_getD_getElem?, found, Option.getD_some]

theorem WellKeyed.map (wellKeyed : WellKeyed records) {change : Key → R → R}
    (keeps : ∀ cKey cRecord, Record.cKey (change cKey cRecord) = Record.cKey cRecord) :
    WellKeyed (records.map change) := by
  intro cKey cRecord found
  rw [ExtTreeMap.getElem?_map] at found
  obtain ⟨before, stored, rfl⟩ := Option.map_eq_some_iff.mp found
  rw [keeps]
  exact wellKeyed cKey before stored

theorem wellKeyed_iff_toList (records : Records Key R) :
    WellKeyed records ↔ ∀ entry ∈ records.toList, Record.cKey entry.2 = entry.1 := by
  constructor
  · intro wellKeyed entry member
    exact wellKeyed entry.1 entry.2 (ExtTreeMap.mem_toList_iff_getElem?_eq_some.mp member)
  · intro each cKey cRecord found
    exact each (cKey, cRecord) (ExtTreeMap.mem_toList_iff_getElem?_eq_some.mpr found)

instance [DecidableEq Key] (records : Records Key R) : Decidable (WellKeyed records) :=
  decidable_of_iff _ (wellKeyed_iff_toList records).symm

variable [DecidableEq Key]

theorem getElem?_getRecord (records : Records Key R) (cKey other : Key) :
    (records.getRecord cKey).2[other]? =
      if cKey = other ∧ cKey ∉ records then some Record.blank else records[other]? := by
  simp only [getRecord, ExtTreeMap.getElem?_insertIfNew, LawfulEqCmp.compare_eq_iff_eq]

theorem getElem?_getRecord_self (records : Records Key R) (cKey : Key) :
    (records.getRecord cKey).2[cKey]? = some (records.getRecord cKey).1 := by
  rw [getElem?_getRecord, getRecord, ExtTreeMap.getD_eq_getD_getElem?]
  by_cases present : cKey ∈ records
  · obtain ⟨cRecord, found⟩ := getElem?_of_mem present
    rw [if_neg fun missing => missing.2 present, found, Option.getD_some]
  · rw [if_pos ⟨rfl, present⟩, ExtTreeMap.getElem?_eq_none present, Option.getD_none]

theorem getElem?_getRecord_of_some {cKey other : Key} {cRecord : R} (found : records[other]? = some cRecord) :
    (records.getRecord cKey).2[other]? = some cRecord := by
  have present : other ∈ records := mem_of_getElem? found
  rw [getElem?_getRecord, if_neg fun missing => missing.2 (missing.1 ▸ present), found]

theorem eq_blank_or_of_getRecord {cKey other : Key} {cRecord : R}
    (found : (records.getRecord cKey).2[other]? = some cRecord) : cRecord = Record.blank ∨ records[other]? = some cRecord := by
  rw [getElem?_getRecord] at found
  split at found
  · exact Or.inl (Option.some.inj found).symm
  · exact Or.inr found

theorem getElem?_updateRecord (records : Records Key R) (cRecord : R) (cKey : Key) :
    (records.updateRecord cRecord)[cKey]? =
      if Record.cKey cRecord = cKey then some cRecord else records[cKey]? := by
  simp [updateRecord, ExtTreeMap.getElem?_insert]

theorem WellKeyed.updateRecord (wellKeyed : WellKeyed records) (cRecord : R) :
    WellKeyed (records.updateRecord cRecord) := by
  intro cKey found present
  rw [getElem?_updateRecord] at present
  split at present
  · rename_i same
    cases present
    exact same
  · exact wellKeyed cKey found present

theorem updateRecord_change (wellKeyed : WellKeyed records) {cKey : Key} (present : cKey ∈ records)
    {change : R → R} (keeps : ∀ cRecord, Record.cKey (change cRecord) = Record.cKey cRecord) :
    records.updateRecord (change (records.getRecord cKey).1) = records.modify cKey change := by
  have keyed := wellKeyed.getRecord present
  obtain ⟨cRecord, found⟩ := getElem?_of_mem present
  apply ExtTreeMap.ext_getElem?
  intro other
  rw [getElem?_updateRecord, ExtTreeMap.getElem?_modify, keeps, keyed]
  simp only [LawfulEqCmp.compare_eq_iff_eq]
  split
  · rename_i same
    subst same
    simp [Records.getRecord, ExtTreeMap.getD_eq_getD_getElem?, found]
  · rfl

end Records

/-! ## The file -/

structure Ifstream where
  content : Bytes
  position : Option Nat

namespace Ifstream

def tellg (stream : Ifstream) : Int :=
  match stream.position with
  | some position => position
  | none => -1

def read (stream : Ifstream) (buffer : Bytes) : Bytes × Ifstream :=
  match stream.position with
  | none => (buffer, stream)
  | some position =>
      -- a read that fails leaves the bytes it did not reach as they were
      let got := (stream.content.drop position).take buffer.length
      (got ++ buffer.drop got.length,
        { stream with position := if got.length = buffer.length then some (position + buffer.length) else none })

end Ifstream

structure Database (Key R : Type) [Ord Key] where
  mapRecords : Records Key R
  /-- The bytes behind `strFilename`; `none` when the file cannot be opened. -/
  file : Option Bytes

namespace Database

variable {Key R : Type} [Ord Key] [TransOrd Key] [Record Key R]

def writeRecord (cRecord : R) : Bytes :=
  let vData := Record.serialize cRecord
  uint2bytes vData.length.toUInt32 ++ vData

def fileOf (mapRecords : Records Key R) : Bytes := mapRecords.values.flatMap writeRecord

def writeToDisk (database : Database Key R) : Database Key R :=
  { database with file := some (fileOf database.mapRecords) }

def readRecords (nLength : UInt32) : Nat → Ifstream → Records Key R → Option (Records Key R)
  -- the loop does not end: behind a failed read `tellg` stays below `nLength`
  | 0, _, _ => none
  | fuel + 1, fIncoming, mapRecords =>
      if fIncoming.tellg < nLength.toNat then do
        let (vSize, fIncoming) := fIncoming.read (List.replicate 4 0)
        let nSize := bytes2uint vSize 0
        let (vData, fIncoming) := fIncoming.read (List.replicate nSize.toNat 0)
        let cRecord ← Record.deserialize vData
        readRecords nLength fuel fIncoming (mapRecords.updateRecord cRecord)
      else
        some mapRecords

def readIntoMemory (database : Database Key R) : Option (Database Key R) :=
  match database.file with
  | none => some { database with mapRecords := ∅ }
  | some content => do
      -- an iteration that does not fail moves the position by at least the four bytes of the size
      let mapRecords ← readRecords content.length.toUInt32 (content.length + 1) ⟨content, some 0⟩ ∅
      return { database with mapRecords }

def new (file : Option Bytes) : Option (Database Key R) :=
  readIntoMemory { mapRecords := ∅, file }

theorem wellKeyed_readRecords [LawfulEqOrd Key] [DecidableEq Key] {nLength : UInt32} {fuel : Nat}
    {fIncoming : Ifstream} {mapRecords read : Records Key R} (wellKeyed : mapRecords.WellKeyed)
    (finished : readRecords nLength fuel fIncoming mapRecords = some read) : read.WellKeyed := by
  induction fuel generalizing fIncoming mapRecords with
  | zero => cases finished
  | succ fuel ih =>
      rw [readRecords] at finished
      split at finished
      · simp only [Option.bind_eq_bind, Option.bind_eq_some_iff] at finished
        obtain ⟨cRecord, -, rest⟩ := finished
        exact ih (wellKeyed.updateRecord cRecord) rest
      · cases finished
        exact wellKeyed

theorem wellKeyed_readIntoMemory [LawfulEqOrd Key] [DecidableEq Key] {database after : Database Key R}
    (read : database.readIntoMemory = some after) : after.mapRecords.WellKeyed := by
  unfold readIntoMemory at read
  split at read
  · cases read
    exact Records.wellKeyed_empty
  · simp only [Option.bind_eq_bind, Option.bind_eq_some_iff] at read
    obtain ⟨mapRecords, finished, result⟩ := read
    cases result
    exact wellKeyed_readRecords Records.wellKeyed_empty finished

end Database

end PrimePool.LLD

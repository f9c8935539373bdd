import Mathlib.Data.List.Flatten
import PrimePool.General.TreeMap
import PrimePool.LLD.Database

/-!
# The account file

What `ReadIntoMemory` makes of a file of `WriteToDisk`, whole or cut short.
-/

namespace PrimePool.LLD

open PrimePool.General Std

namespace Ifstream

theorem read_inside (stream : Ifstream) (buffer before part after : Bytes)
    (content : stream.content = before ++ part ++ after) (position : stream.position = some before.length)
    (sized : buffer.length = part.length) :
    stream.read buffer = (part, { stream with position := some (before.length + part.length) }) := by
  have got : (stream.content.drop before.length).take buffer.length = part := by
    rw [content, sized, List.append_assoc, List.drop_left, List.take_left]
  simp only [read, position, got, ← sized, List.drop_length, List.append_nil, if_true]

end Ifstream

namespace Database

variable {Key R : Type} [Record Key R]

/-- The records `ReadIntoMemory` constructs, in their order. -/
def recordsRead (nLength : UInt32) : Nat → Ifstream → Option (List R)
  | 0, _ => none
  | fuel + 1, fIncoming =>
      if fIncoming.tellg < nLength.toNat then do
        let (vSize, fIncoming) := fIncoming.read (List.replicate 4 0)
        let nSize := bytes2uint vSize 0
        let (vData, fIncoming) := fIncoming.read (List.replicate nSize.toNat 0)
        let cRecord ← Record.deserialize vData
        let records ← recordsRead nLength fuel fIncoming
        return cRecord :: records
      else
        some []

/-- The records that lie wholly within the first `nBytes` bytes written for `records`. -/
def wholeRecords : List R → Nat → List R
  | [], _ => []
  | cRecord :: records, nBytes =>
      if (writeRecord cRecord).length ≤ nBytes then
        cRecord :: wholeRecords records (nBytes - (writeRecord cRecord).length)
      else []

theorem length_writeRecord (cRecord : R) :
    (writeRecord cRecord).length = 4 + (Record.serialize cRecord).length := by
  simp [writeRecord]

theorem length_wholeRecords_le (records : List R) (nBytes : Nat) :
    ((wholeRecords records nBytes).flatMap writeRecord).length ≤ nBytes := by
  induction records generalizing nBytes with
  | nil => exact Nat.zero_le _
  | cons cRecord records ih =>
      rw [wholeRecords]
      split
      · rename_i fits
        have rest := ih (nBytes - (writeRecord cRecord).length)
        rw [List.flatMap_cons, List.length_append]
        omega
      · exact Nat.zero_le _

theorem wholeRecords_all (records : List R) :
    wholeRecords records (records.flatMap writeRecord).length = records := by
  induction records with
  | nil => rfl
  | cons cRecord records ih =>
      rw [List.flatMap_cons, List.length_append, wholeRecords, if_pos (Nat.le_add_right _ _),
        Nat.add_sub_cancel_left, ih]

/-- A reader at `start` that takes `nLength` for the length of the file stops exactly behind `records`. -/
structure StopsBehind (nLength : UInt32) (start : Nat) (records : List R) : Prop where
  sizes : ∀ cRecord ∈ records, (Record.serialize cRecord).length < 2 ^ 32
  continues : records ≠ [] → start + (records.dropLast.flatMap writeRecord).length < nLength.toNat
  stops : nLength.toNat ≤ start + (records.flatMap writeRecord).length

theorem stopsBehind_nil {nLength : UInt32} {start : Nat} :
    StopsBehind nLength start ([] : List R) ↔ nLength.toNat ≤ start :=
  ⟨fun h => h.stops, fun stops =>
    { sizes := fun _ member => (List.not_mem_nil member).elim
      continues := fun nonempty => absurd rfl nonempty
      stops }⟩

theorem stopsBehind_cons {nLength : UInt32} {start : Nat} {cRecord : R} {records : List R} :
    StopsBehind nLength start (cRecord :: records) ↔
      start < nLength.toNat ∧ (Record.serialize cRecord).length < 2 ^ 32 ∧
        StopsBehind nLength (start + (writeRecord cRecord).length) records := by
  constructor
  · intro h
    have reached := h.continues (List.cons_ne_nil _ _)
    have stops := h.stops
    rw [List.flatMap_cons, List.length_append] at stops
    refine ⟨by omega, h.sizes _ List.mem_cons_self, fun _ member => h.sizes _ (List.mem_cons_of_mem _ member),
      fun nonempty => ?_, by omega⟩
    rw [List.dropLast_cons_of_ne_nil nonempty, List.flatMap_cons, List.length_append] at reached
    omega
  · rintro ⟨reached, small, rest⟩
    have stops := rest.stops
    refine ⟨?_, fun _ => ?_, by rw [List.flatMap_cons, List.length_append]; omega⟩
    · intro other member
      rcases List.mem_cons.mp member with rfl | later
      · exact small
      · exact rest.sizes other later
    · cases records with
      | nil => exact reached
      | cons next records =>
          have further := rest.continues (List.cons_ne_nil _ _)
          rw [List.dropLast_cons_of_ne_nil (List.cons_ne_nil _ _), List.flatMap_cons, List.length_append]
          omega

theorem stopsBehind_iff_of_lt {nBytes : Nat} {records : List R} (short : nBytes < 2 ^ 32)
    (inside : (records.flatMap writeRecord).length ≤ nBytes) :
    StopsBehind nBytes.toUInt32 0 records ↔ (records.flatMap writeRecord).length = nBytes := by
  have nLength : nBytes.toUInt32.toNat = nBytes := by
    rw [Nat.toUInt32_eq, UInt32.toNat_ofNat', Nat.mod_eq_of_lt short]
  constructor
  · intro stopsBehind
    have stops := stopsBehind.stops
    omega
  · intro all
    refine ⟨fun cRecord member => ?_, fun nonempty => ?_, by omega⟩
    · have written := ((List.singleton_sublist.mpr member).flatMap writeRecord).length_le
      rw [List.flatMap_singleton, length_writeRecord] at written
      omega
    · have last := congrArg (fun records => (records.flatMap writeRecord).length)
        (List.dropLast_append_getLast nonempty)
      simp only [List.flatMap_append, List.flatMap_singleton, List.length_append, length_writeRecord] at last
      omega

theorem recordsRead_step {nLength : UInt32} {fuel : Nat} {content : Bytes} {nSize : UInt32}
    (before vData after : Bytes) (layout : content = before ++ uint2bytes nSize ++ vData ++ after)
    (sized : nSize.toNat = vData.length) (inside : before.length < nLength.toNat) :
    recordsRead (R := R) nLength (fuel + 1) ⟨content, some before.length⟩ =
      (Record.deserialize vData).bind fun cRecord =>
        (recordsRead nLength fuel ⟨content, some (before.length + 4 + vData.length)⟩).map (cRecord :: ·) := by
  have size := Ifstream.read_inside ⟨content, some before.length⟩ (List.replicate 4 0)
    before (uint2bytes nSize) (vData ++ after) (by simp [layout]) rfl rfl
  have word : bytes2uint (uint2bytes nSize) 0 = nSize := bytes2uint_eq [] [] (by simp) rfl
  have data := Ifstream.read_inside ⟨content, some (before.length + 4)⟩
    (List.replicate nSize.toNat 0) (before ++ uint2bytes nSize) vData after layout (by simp)
    (by simp [sized])
  rw [recordsRead, if_pos (by simpa [Ifstream.tellg] using inside)]
  simp only [size, length_uint2bytes, word, data, List.length_append]
  congr 1
  funext cRecord
  cases recordsRead (R := R) nLength fuel _ with
  | none => rfl
  | some records => rfl

theorem recordsRead_eq_nil_iff {nLength : UInt32} {position : Nat} (fuel : Nat) (content : Bytes) :
    recordsRead (R := R) nLength (fuel + 1) ⟨content, some position⟩ = some [] ↔ nLength.toNat ≤ position := by
  rw [recordsRead]
  simp only [Ifstream.tellg, Int.ofNat_lt]
  split
  · rename_i inside
    constructor
    · intro read
      simp only [Option.bind_eq_bind, Option.bind_eq_some_iff] at read
      obtain ⟨cRecord, -, records, -, made⟩ := read
      cases made
    · intro outside
      omega
  · rename_i outside
    exact ⟨fun _ => Nat.le_of_not_lt outside, fun _ => rfl⟩

section Cut

variable (faithful : ∀ cRecord : R, Record.deserialize (Record.serialize cRecord) = some cRecord)
  (sized : ∀ (vData : Bytes) (cRecord : R), Record.deserialize vData = some cRecord →
    vData.length = (Record.serialize cRecord).length)

include faithful in
theorem recordsRead_small {nLength : UInt32} {fuel : Nat} {cRecord : R} (before after : Bytes)
    (small : (Record.serialize cRecord).length < 2 ^ 32) (inside : before.length < nLength.toNat) :
    recordsRead nLength (fuel + 1) ⟨before ++ writeRecord cRecord ++ after, some before.length⟩ =
      (recordsRead nLength fuel
        ⟨before ++ writeRecord cRecord ++ after, some (before ++ writeRecord cRecord).length⟩).map (cRecord :: ·) := by
  have size : (Record.serialize cRecord).length.toUInt32.toNat = (Record.serialize cRecord).length := by
    rw [Nat.toUInt32_eq, UInt32.toNat_ofNat', Nat.mod_eq_of_lt small]
  have layout : before ++ writeRecord cRecord ++ after =
      before ++ uint2bytes (Record.serialize cRecord).length.toUInt32 ++ Record.serialize cRecord ++ after := by
    simp only [writeRecord, List.append_assoc]
  have next : (before ++ writeRecord cRecord).length = before.length + 4 + (Record.serialize cRecord).length := by
    rw [List.length_append, length_writeRecord, Nat.add_assoc]
  rw [recordsRead_step before _ after layout size inside, faithful, next]
  rfl

include sized in
/-- The four bytes of the size are too few for such a record, so another one is read in its place. -/
theorem recordsRead_large {nLength : UInt32} {cRecord : R} (fuel : Nat) (records : List R) (before after : Bytes)
    (large : 2 ^ 32 ≤ (Record.serialize cRecord).length) (inside : before.length < nLength.toNat) :
    recordsRead nLength (fuel + 1) ⟨before ++ writeRecord cRecord ++ after, some before.length⟩ ≠
      some (cRecord :: records) := by
  let vData := Record.serialize cRecord
  let nSize := vData.length.toUInt32
  have short : nSize.toNat < vData.length := Nat.lt_of_lt_of_le nSize.toNat_lt large
  have layout : before ++ writeRecord cRecord ++ after =
      before ++ uint2bytes nSize ++ vData.take nSize.toNat ++ (vData.drop nSize.toNat ++ after) := by
    rw [writeRecord, List.append_assoc _ (vData.take _), ← List.append_assoc (vData.take _),
      List.take_append_drop]
    simp only [List.append_assoc, vData, nSize]
  have taken : (vData.take nSize.toNat).length = nSize.toNat := by
    rw [List.length_take, Nat.min_eq_left (Nat.le_of_lt short)]
  rw [recordsRead_step before _ _ layout taken.symm inside]
  intro read
  obtain ⟨other, made, rest⟩ := Option.bind_eq_some_iff.mp read
  obtain ⟨_, -, same⟩ := Option.map_eq_some_iff.mp rest
  cases same
  have equal := sized _ _ made
  rw [taken] at equal
  exact Nat.ne_of_lt short equal

include faithful sized in
theorem recordsRead_cut_iff (nLength : UInt32) (fuel nBytes : Nat) (before : Bytes) (records : List R)
    (enough : nBytes < fuel) :
    recordsRead nLength fuel ⟨before ++ (records.flatMap writeRecord).take nBytes, some before.length⟩ =
        some (wholeRecords records nBytes) ↔
      StopsBehind nLength before.length (wholeRecords records nBytes) := by
  obtain ⟨fuel, rfl⟩ := Nat.exists_eq_add_one_of_ne_zero (Nat.ne_of_gt (Nat.zero_lt_of_lt enough))
  induction records generalizing nBytes before fuel with
  | nil => exact (recordsRead_eq_nil_iff _ _).trans stopsBehind_nil.symm
  | cons cRecord records ih =>
      rw [wholeRecords]
      split
      · rename_i fits
        have cut : (List.flatMap writeRecord (cRecord :: records)).take nBytes = writeRecord cRecord ++
            (records.flatMap writeRecord).take (nBytes - (writeRecord cRecord).length) := by
          rw [List.flatMap_cons, List.take_append, List.take_of_length_le fits]
        rw [cut, ← List.append_assoc, stopsBehind_cons]
        by_cases inside : before.length < nLength.toNat
        · by_cases small : (Record.serialize cRecord).length < 2 ^ 32
          · have positive := length_writeRecord cRecord
            obtain ⟨fuel, rfl⟩ : ∃ less, fuel = less + 1 := ⟨fuel - 1, by omega⟩
            have rest := ih (nBytes - (writeRecord cRecord).length)
              (before ++ writeRecord cRecord) fuel (by omega)
            rw [recordsRead_small faithful before _ small inside, ← List.length_append, ← rest]
            simp only [inside, small, true_and, Option.map_eq_some_iff, List.cons.injEq, exists_eq_right]
          · have lost := recordsRead_large sized fuel (wholeRecords records
              (nBytes - (writeRecord cRecord).length)) before
              ((records.flatMap writeRecord).take (nBytes - (writeRecord cRecord).length))
              (Nat.le_of_not_lt small) inside
            simp only [small, false_and, and_false, iff_false]
            exact lost
        · rw [(recordsRead_eq_nil_iff fuel _).mpr (Nat.le_of_not_lt inside)]
          simp [inside]
      · exact (recordsRead_eq_nil_iff _ _).trans stopsBehind_nil.symm

end Cut

variable [Ord Key] [TransOrd Key]

theorem readRecords_eq (nLength : UInt32) (fuel : Nat) (fIncoming : Ifstream) (mapRecords : Records Key R) :
    readRecords nLength fuel fIncoming mapRecords =
      (recordsRead nLength fuel fIncoming).map (List.foldl Records.updateRecord mapRecords) := by
  induction fuel generalizing fIncoming mapRecords with
  | zero => rfl
  | succ fuel ih =>
      rw [readRecords, recordsRead]
      split
      · simp only [ih, Option.bind_eq_bind, Option.map_bind]
        congr 1
        funext cRecord
        simp only [Function.comp_apply, Option.map_bind, Option.pure_def]
        cases recordsRead (R := R) nLength fuel _ with
        | none => rfl
        | some records => rfl
      · rfl

theorem foldl_updateRecord_values [LawfulEqOrd Key] [DecidableEq Key] {mapRecords : Records Key R}
    (wellKeyed : mapRecords.WellKeyed) :
    mapRecords.values.foldl Records.updateRecord ∅ = mapRecords := by
  have keyed := (Records.wellKeyed_iff_toList mapRecords).mp wellKeyed
  have inserts : ∀ (entries : List (Key × R)) (filled : Records Key R),
      (∀ entry ∈ entries, Record.cKey entry.2 = entry.1) →
      (entries.map Prod.snd).foldl Records.updateRecord filled =
        entries.foldl (fun filled entry => filled.insert entry.1 entry.2) filled := by
    intro entries
    induction entries with
    | nil => exact fun _ _ => rfl
    | cons entry entries ih =>
        intro filled keyed
        rw [List.map_cons, List.foldl_cons, List.foldl_cons, Records.updateRecord, keyed entry List.mem_cons_self]
        exact ih _ fun other member => keyed other (List.mem_cons_of_mem entry member)
  rw [← map_snd_toList, inserts _ _ keyed]
  exact foldl_insert_toList mapRecords

end Database

namespace Account

theorem deserialize_serialize (account : Account) : deserialize account.serialize = some account := by
  have balance : bytes2uint64 account.serialize 0 = account.nAccountBalance :=
    bytes2uint64_eq [] (uint2bytes64 account.nRoundShares ++ uint2bytes account.nBlocksFound ++ account.cKey)
      (by simp [serialize]) rfl
  have shares : bytes2uint64 account.serialize 8 = account.nRoundShares :=
    bytes2uint64_eq (uint2bytes64 account.nAccountBalance) (uint2bytes account.nBlocksFound ++ account.cKey)
      (by simp [serialize]) rfl
  have blocks : bytes2uint account.serialize 16 = account.nBlocksFound :=
    bytes2uint_eq (uint2bytes64 account.nAccountBalance ++ uint2bytes64 account.nRoundShares) account.cKey
      (by simp [serialize]) rfl
  have key : slice account.serialize 20 account.serialize.length = some account.cKey :=
    slice_eq (uint2bytes64 account.nAccountBalance ++ uint2bytes64 account.nRoundShares ++
      uint2bytes account.nBlocksFound) [] (by simp [serialize]) rfl (by simp [serialize]; omega)
  rw [deserialize, key, balance, shares, blocks]
  rfl

theorem length_of_deserialize (vInputData : Bytes) (account : Account)
    (read : deserialize vInputData = some account) : vInputData.length = account.serialize.length := by
  obtain ⟨cKey, taken, made⟩ := Option.bind_eq_some_iff.mp read
  obtain ⟨length, inside⟩ := length_of_slice taken
  cases made
  simp only [serialize, List.length_append, length_uint2bytes64, length_uint2bytes]
  unfold slice at taken
  split at taken
  · omega
  · cases taken

end Account

namespace Database

/-- `ReadIntoMemory` on a file of these bytes constructs the records that lie wholly in it, and stores these. -/
def LoadsWholeRecords (written : List Account) (cut : Bytes) : Prop :=
  recordsRead cut.length.toUInt32 (cut.length + 1) ⟨cut, some 0⟩ = some (wholeRecords written cut.length) ∧
    new (some cut) = some ⟨(wholeRecords written cut.length).foldl Records.updateRecord ∅, some cut⟩

theorem new_of_recordsRead {cut : Bytes} {records : List Account}
    (read : recordsRead cut.length.toUInt32 (cut.length + 1) ⟨cut, some 0⟩ = some records) :
    new (some cut) = some ⟨records.foldl Records.updateRecord ∅, some cut⟩ := by
  have stored := readRecords_eq cut.length.toUInt32 (cut.length + 1) ⟨cut, some 0⟩
    (∅ : Records StdString Account)
  rw [read] at stored
  simp only [new, readIntoMemory, stored]
  rfl

theorem loadsWholeRecords_iff (mapRecords : Records StdString Account) (nBytes : Nat) :
    let cut := (fileOf mapRecords).take nBytes
    LoadsWholeRecords mapRecords.values cut ↔
      StopsBehind cut.length.toUInt32 0 (wholeRecords mapRecords.values cut.length) := by
  intro cut
  have taken : cut = (mapRecords.values.flatMap writeRecord).take cut.length := by
    rw [List.length_take, ← fileOf, ← List.take_eq_take_min]
  have read := recordsRead_cut_iff Account.deserialize_serialize Account.length_of_deserialize
    cut.length.toUInt32 (cut.length + 1) cut.length [] mapRecords.values (Nat.lt_succ_self cut.length)
  rw [← taken] at read
  exact ⟨fun loads => read.mp loads.1, fun stops => ⟨read.mpr stops, new_of_recordsRead (read.mpr stops)⟩⟩

theorem new_writeToDisk {database : Database StdString Account} (wellKeyed : database.mapRecords.WellKeyed)
    (short : (fileOf database.mapRecords).length < 2 ^ 32) :
    new database.writeToDisk.file = some database.writeToDisk := by
  have stops : StopsBehind (fileOf database.mapRecords).length.toUInt32 0 database.mapRecords.values :=
    (stopsBehind_iff_of_lt short (Nat.le_refl _)).mpr rfl
  have loads := (loadsWholeRecords_iff database.mapRecords (fileOf database.mapRecords).length).mpr
  simp only [List.take_length, fileOf, wholeRecords_all] at loads
  have opened := (loads stops).2
  rw [wholeRecords_all, foldl_updateRecord_values wellKeyed] at opened
  exact opened

/-- A pool that starts on the file of the last one has its records, and so has an object that held any others. -/
theorem readIntoMemory_writeToDisk (database : Database StdString Account)
    (wellKeyed : database.mapRecords.WellKeyed) (short : (fileOf database.mapRecords).length < 2 ^ 32) :
    new database.writeToDisk.file = some database.writeToDisk ∧
      ∀ before : Records StdString Account,
        readIntoMemory { mapRecords := before, file := database.writeToDisk.file } = some database.writeToDisk :=
  -- what was in memory is cleared before the file is read
  ⟨new_writeToDisk wellKeyed short, fun _ => new_writeToDisk wellKeyed short⟩

def threeAccounts : Database StdString Account where
  mapRecords :=
    let account (cKey : StdString) (nAccountBalance nRoundShares : UInt64) (nBlocksFound : UInt32) : StdString × Account :=
      (cKey, { cKey, nAccountBalance, nRoundShares, nBlocksFound })
    .ofList [account [77] 9223372036854775813 25 3, account [78, 0, 255] 1000000 0 1,
      account [] 0 18446744073709551615 4294967295]
  file := none

def otherAccount : Records StdString Account := Records.updateRecord ∅ (Account.new [65])

theorem readIntoMemory_writeToDisk_threeAccounts :
    new (some (fileOf threeAccounts.mapRecords)) = some threeAccounts.writeToDisk ∧
      readIntoMemory { mapRecords := otherAccount, file := threeAccounts.writeToDisk.file } =
        some threeAccounts.writeToDisk := by
  obtain ⟨opened, again⟩ := readIntoMemory_writeToDisk threeAccounts (by decide +kernel) (by decide +kernel)
  exact ⟨opened, again otherAccount⟩

/-- The records wholly in a cut file are what `ReadIntoMemory` loads exactly when its loop stops behind the last
of them; for a cut below 2^32 bytes, exactly when the cut leaves no part of a further record. -/
theorem loadsWholeRecords_cut (mapRecords : Records StdString Account) (nBytes : Nat) :
    let cut := (fileOf mapRecords).take nBytes
    let whole := wholeRecords mapRecords.values cut.length
    (LoadsWholeRecords mapRecords.values cut ↔ StopsBehind cut.length.toUInt32 0 whole) ∧
      (cut.length < 2 ^ 32 →
        (LoadsWholeRecords mapRecords.values cut ↔ (whole.flatMap writeRecord).length = cut.length)) := by
  intro cut whole
  have loads := loadsWholeRecords_iff mapRecords nBytes
  exact ⟨loads, fun short => loads.trans (stopsBehind_iff_of_lt short (length_wholeRecords_le _ _))⟩

theorem cut_in_key_not_loaded :
    let mapRecords := Records.updateRecord (∅ : Records StdString Account) (Account.new [77])
    let cut := (fileOf mapRecords).take 24
    cut.length = 24 ∧ ¬ LoadsWholeRecords mapRecords.values cut := by
  intro mapRecords cut
  have nothing : recordsRead (R := Account) cut.length.toUInt32 (cut.length + 1) ⟨cut, some 0⟩ = none := by
    decide +kernel
  refine ⟨by decide +kernel, fun loads => ?_⟩
  have read := loads.1
  rw [nothing] at read
  cases read

end Database

end PrimePool.LLD

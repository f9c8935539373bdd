import PrimePool.General.TreeMap
import PrimePool.LLD.Record

/-!
# The block format

Which block records survive `Block::Serialize` followed by `Block::Deserialize`.
-/

namespace PrimePool

open PrimePool.General Std

/-! ## Lists of records -/

def recordBytes (entry : StdString × UInt64) : Bytes :=
  entry.1.length.toUInt8 :: (entry.1 ++ uint2bytes64 entry.2)

theorem serialize_eq_flatMap (amounts : AmountMap) :
    amounts.serialize = amounts.toList.flatMap recordBytes := rfl

structure Writable (amounts : AmountMap) : Prop where
  count : amounts.size < 256
  lengths : ∀ address ∈ amounts, address.length < 256

theorem deserializeRecords_succ (address : StdString) (nValue : UInt64) (short : address.length < 256)
    (before after : Bytes) (nSize : Nat) (amounts : AmountMap) (nCurrentValue : UInt64) :
    deserializeRecords (before ++ recordBytes (address, nValue) ++ after) (nSize + 1) before.length
        amounts nCurrentValue =
      deserializeRecords (before ++ recordBytes (address, nValue) ++ after) nSize
        (before ++ recordBytes (address, nValue)).length (amounts.insert address nValue)
        (nCurrentValue + nValue) := by
  have count : address.length.toUInt8.toNat = address.length := by simpa using short
  have data : before ++ recordBytes (address, nValue) ++ after =
      before ++ address.length.toUInt8 :: (address ++ (uint2bytes64 nValue ++ after)) := by
    simp [recordBytes]
  have key := slice_append (before ++ [address.length.toUInt8]) address (uint2bytes64 nValue ++ after)
  have value := slice_append (before ++ address.length.toUInt8 :: address) (uint2bytes64 nValue) after
  have word := bytes2uint64_append [] [] nValue
  simp only [List.append_assoc, List.cons_append, List.nil_append, List.length_append,
    List.length_cons, List.length_nil, length_uint2bytes64, List.append_nil, Nat.zero_add] at key value word
  have start : before.length + 1 + address.length = before.length + (address.length + 1) := by omega
  have behind : before.length + (address.length + 9) =
      (before ++ recordBytes (address, nValue)).length := by
    simp only [recordBytes, List.length_append, List.length_cons, length_uint2bytes64]
  rw [start] at key
  rw [data, deserializeRecords]
  simp only [List.getElem?_append_right (Nat.le_refl before.length), Nat.sub_self,
    List.getElem?_cons_zero, Option.bind_eq_bind, Option.bind_some, count, key, start, value, word]
  rw [behind]

theorem deserializeRecords_recordBytes (entries : List (StdString × UInt64)) (before after : Bytes)
    (amounts : AmountMap) (nCurrentValue : UInt64) (short : ∀ entry ∈ entries, entry.1.length < 256) :
    deserializeRecords (before ++ entries.flatMap recordBytes ++ after) entries.length before.length
        amounts nCurrentValue =
      some (entries.foldl (fun acc entry => acc.insert entry.1 entry.2) amounts,
        entries.foldl (fun acc entry => acc + entry.2) nCurrentValue) := by
  induction entries generalizing before amounts nCurrentValue with
  | nil => rfl
  | cons entry entries ih =>
      have one := deserializeRecords_succ entry.1 entry.2 (short entry (by simp)) before
        (entries.flatMap recordBytes ++ after) entries.length amounts nCurrentValue
      have rest := ih (before ++ recordBytes entry) (amounts.insert entry.1 entry.2)
        (nCurrentValue + entry.2) fun other member => short other (by simp [member])
      simp only [List.flatMap_cons, List.append_assoc, List.length_cons, List.foldl_cons] at one rest ⊢
      rw [one, rest]

theorem deserializeRecords_bounds {vData : Bytes} {nSize nIterator : Nat} {amounts amounts' : AmountMap}
    {nCurrentValue nCurrentValue' : UInt64}
    (read : deserializeRecords vData nSize nIterator amounts nCurrentValue = some (amounts', nCurrentValue')) :
    amounts'.size ≤ amounts.size + nSize ∧
      ∀ address ∈ amounts', address ∈ amounts ∨ address.length < 256 := by
  induction nSize generalizing nIterator amounts nCurrentValue with
  | zero =>
      simp only [deserializeRecords, Option.some.injEq, Prod.mk.injEq] at read
      obtain ⟨rfl, -⟩ := read
      exact ⟨Nat.le_refl _, fun address member => Or.inl member⟩
  | succ nSize ih =>
      simp only [deserializeRecords, Option.bind_eq_bind, Option.bind_eq_some_iff] at read
      obtain ⟨nLength, -, strAddress, key, vValue, -, rest⟩ := read
      obtain ⟨size, lengths⟩ := ih rest
      have grows := ExtTreeMap.size_insert_le (t := amounts) (k := strAddress) (v := bytes2uint64 vValue 0)
      refine ⟨by omega, fun address member => ?_⟩
      rcases lengths address member with inserted | short
      · rw [ExtTreeMap.mem_insert] at inserted
        rcases inserted with same | old
        · have length := (length_of_slice key).1
          rw [LawfulEqCmp.compare_eq_iff_eq] at same
          subst same
          have byte := nLength.toNat_lt
          exact Or.inr (by omega)
        · exact Or.inl old
      · exact Or.inr short

theorem Writable.roundTrip {amounts : AmountMap} (writable : Writable amounts) (before after : Bytes)
    (nCurrentValue : UInt64) :
    ∃ total, deserializeRecords (before ++ amounts.serialize ++ after) amounts.size.toUInt8.toNat
      before.length ∅ nCurrentValue = some (amounts, total) := by
  have count : amounts.size.toUInt8.toNat = amounts.toList.length := by
    rw [ExtTreeMap.length_toList]
    simpa using writable.count
  have short : ∀ entry ∈ amounts.toList, entry.1.length < 256 := by
    intro entry member
    have found := ExtTreeMap.mem_toList_iff_getElem?_eq_some.mp member
    exact writable.lengths entry.1 (mem_of_getElem? found)
  rw [serialize_eq_flatMap, count, deserializeRecords_recordBytes _ _ _ _ _ short, foldl_insert_toList]
  exact ⟨_, rfl⟩

theorem writable_of_read {vData : Bytes} {nSize : UInt8} {nIterator : Nat} {amounts : AmountMap}
    {start total : UInt64}
    (read : deserializeRecords vData nSize.toNat nIterator ∅ start = some (amounts, total)) :
    Writable amounts := by
  obtain ⟨size, lengths⟩ := deserializeRecords_bounds read
  have byte := nSize.toNat_lt
  rw [ExtTreeMap.size_empty] at size
  refine ⟨by omega, fun address member => ?_⟩
  rcases lengths address member with impossible | short
  · simp at impossible
  · exact short

namespace LLD

/-! ## Blocks -/

/-- Reading the bytes of a block gives back its hash, round, coinbase value, pool fee, payout outputs
and credits. -/
def RoundTrips (block : Block) : Prop :=
  ∃ read, Block.deserialize block.serialize = some read ∧ read.cKey = block.cKey ∧
    read.nRound = block.nRound ∧ read.nCoinbaseValue = block.nCoinbaseValue ∧
    read.cCoinbase.nPoolFee = block.cCoinbase.nPoolFee ∧
    read.cCoinbase.mapOutputs = block.cCoinbase.mapOutputs ∧ read.cCredits = block.cCredits

theorem length_serialize_le {amounts : AmountMap} (writable : Writable amounts) :
    amounts.serialize.length ≤ 264 * amounts.size := by
  have each : ∀ entry ∈ amounts.toList, (recordBytes entry).length ≤ 264 := by
    intro entry member
    have found := ExtTreeMap.mem_toList_iff_getElem?_eq_some.mp member
    have short := writable.lengths entry.1 (mem_of_getElem? found)
    simp only [recordBytes, List.length_cons, List.length_append, length_uint2bytes64]
    omega
  rw [serialize_eq_flatMap, ← ExtTreeMap.length_toList]
  generalize amounts.toList = entries at each
  induction entries with
  | nil => simp
  | cons entry entries ih =>
      have first := each entry (by simp)
      have rest := ih fun other member => each other (by simp [member])
      simp only [List.flatMap_cons, List.length_append, List.length_cons]
      omega

theorem length_coinbase_lt {coinbase : Coinbase} (writable : Writable coinbase.mapOutputs) :
    coinbase.serialize.length < 2 ^ 32 := by
  have records := length_serialize_le writable
  have count := writable.count
  simp only [Coinbase.serialize, List.length_cons, List.length_append, length_uint2bytes64]
  omega

theorem coinbase_deserialize_serialize {coinbase : Coinbase} (writable : Writable coinbase.mapOutputs)
    (nValue : UInt64) :
    ∃ read, Coinbase.new.deserialize coinbase.serialize nValue = some read ∧
      read.nPoolFee = coinbase.nPoolFee ∧ read.mapOutputs = coinbase.mapOutputs := by
  obtain ⟨total, records⟩ := writable.roundTrip
    (coinbase.mapOutputs.size.toUInt8 :: uint2bytes64 coinbase.nPoolFee) [] coinbase.nPoolFee
  have fee := bytes2uint64_append [coinbase.mapOutputs.size.toUInt8] coinbase.mapOutputs.serialize
    coinbase.nPoolFee
  simp only [List.length_cons, List.length_nil, length_uint2bytes64, List.append_nil,
    List.cons_append, List.nil_append, Nat.zero_add, Nat.reduceAdd] at records fee
  simp only [Coinbase.deserialize, Coinbase.serialize, Coinbase.new, List.getElem?_cons_zero,
    Option.bind_eq_bind, Option.bind_some, fee, records]
  exact ⟨_, rfl, rfl, rfl⟩

theorem credits_deserialize_serialize {credits : Credits} (writable : Writable credits.mapCredits) :
    Credits.new.deserialize credits.serialize = some credits := by
  obtain ⟨total, records⟩ := writable.roundTrip [credits.mapCredits.size.toUInt8] [] 0
  simp only [List.length_cons, List.length_nil, List.append_nil, List.cons_append, List.nil_append,
    Nat.zero_add] at records
  simp only [Credits.deserialize, Credits.serialize, Credits.new, List.getElem?_cons_zero,
    Option.bind_eq_bind, Option.bind_some, records]
  rfl

theorem Coinbase.writable_of_deserialize {vData : Bytes} {nValue : UInt64} {read : Coinbase}
    (deserialized : Coinbase.new.deserialize vData nValue = some read) : Writable read.mapOutputs := by
  simp only [Coinbase.deserialize, Option.bind_eq_bind, Option.bind_eq_some_iff, Coinbase.new] at deserialized
  obtain ⟨nSize, -, ⟨outputs, total⟩, records, result⟩ := deserialized
  cases result
  exact writable_of_read records

theorem Credits.writable_of_deserialize {vData : Bytes} {read : Credits}
    (deserialized : Credits.new.deserialize vData = some read) : Writable read.mapCredits := by
  simp only [Credits.deserialize, Option.bind_eq_bind, Option.bind_eq_some_iff, Credits.new] at deserialized
  obtain ⟨nSize, -, ⟨credits, total⟩, records, result⟩ := deserialized
  cases result
  exact writable_of_read records

theorem writable_of_roundTrips {block : Block} (roundTrips : RoundTrips block) :
    Writable block.cCoinbase.mapOutputs ∧ Writable block.cCredits.mapCredits := by
  obtain ⟨read, deserialized, -, -, -, -, outputs, credits⟩ := roundTrips
  unfold Block.deserialize at deserialized
  obtain ⟨vCoinbase, -, deserialized⟩ := Option.bind_eq_some_iff.mp deserialized
  obtain ⟨cCoinbase, coinbaseRead, deserialized⟩ := Option.bind_eq_some_iff.mp deserialized
  obtain ⟨-, -, deserialized⟩ := Option.bind_eq_some_iff.mp deserialized
  obtain ⟨vCredits, -, deserialized⟩ := Option.bind_eq_some_iff.mp deserialized
  obtain ⟨cCredits, creditsRead, deserialized⟩ := Option.bind_eq_some_iff.mp deserialized
  obtain ⟨vRound, -, deserialized⟩ := Option.bind_eq_some_iff.mp deserialized
  obtain ⟨vKey, -, deserialized⟩ := Option.bind_eq_some_iff.mp deserialized
  obtain ⟨cKey, -, result⟩ := Option.bind_eq_some_iff.mp deserialized
  cases result
  rw [← outputs, ← credits]
  exact ⟨Coinbase.writable_of_deserialize coinbaseRead, Credits.writable_of_deserialize creditsRead⟩

theorem roundTrips_of_writable {block : Block} (outputs : Writable block.cCoinbase.mapOutputs)
    (credits : Writable block.cCredits.mapCredits) : RoundTrips block := by
  obtain ⟨cCoinbase, coinbaseRead, nPoolFee, mapOutputs⟩ :=
    coinbase_deserialize_serialize outputs block.nCoinbaseValue
  have creditsRead := credits_deserialize_serialize credits
  have size := length_coinbase_lt outputs
  have keyBytes : block.cKey.getBytes.length = 128 := by simp
  have keyRead := BaseUint.setBytes_getBytes block.cKey
  have layout : block.serialize = uint2bytes64 block.nCoinbaseValue ++
      uint2bytes block.cCoinbase.serialize.length.toUInt32 ++ block.cCoinbase.serialize ++
      block.cCredits.serialize ++ uint2bytes block.nRound ++ block.cKey.getBytes := rfl
  generalize block.cCoinbase.serialize = vCoinbase at coinbaseRead size layout
  generalize block.cCredits.serialize = vCredits at creditsRead layout
  generalize block.cKey.getBytes = vKey at keyBytes keyRead layout
  have nBytes : vCoinbase.length.toUInt32.toNat = vCoinbase.length := by simpa using size
  have total : block.serialize.length = vCoinbase.length + vCredits.length + 144 := by
    rw [layout]
    simp only [List.length_append, length_uint2bytes64, length_uint2bytes, keyBytes]
    omega
  have value : bytes2uint64 block.serialize 0 = block.nCoinbaseValue :=
    bytes2uint64_eq [] _ (by rw [layout]; simp only [List.append_assoc, List.nil_append]; rfl) rfl
  have length : bytes2uint block.serialize 8 = vCoinbase.length.toUInt32 :=
    bytes2uint_eq (uint2bytes64 block.nCoinbaseValue) _
      (by rw [layout]; simp only [List.append_assoc]; rfl) rfl
  have coinbaseSlice : slice block.serialize 12 (vCoinbase.length + 12) = some vCoinbase :=
    slice_eq (uint2bytes64 block.nCoinbaseValue ++ uint2bytes vCoinbase.length.toUInt32) _
      (by rw [layout]; simp only [List.append_assoc]; rfl) rfl (Nat.add_comm _ _)
  have creditsSlice : slice block.serialize (vCoinbase.length + 12) (block.serialize.length - 132) =
      some vCredits := by
    apply slice_eq (uint2bytes64 block.nCoinbaseValue ++
      uint2bytes vCoinbase.length.toUInt32 ++ vCoinbase) _
      (by rw [layout]; simp only [List.append_assoc]; rfl)
    · simp only [List.length_append, length_uint2bytes64, length_uint2bytes]
      omega
    · simp only [List.length_append, length_uint2bytes64, length_uint2bytes]
      omega
  have roundSlice : slice block.serialize (block.serialize.length - 132) (block.serialize.length - 128) =
      some (uint2bytes block.nRound) := by
    apply slice_eq (uint2bytes64 block.nCoinbaseValue ++
      uint2bytes vCoinbase.length.toUInt32 ++ vCoinbase ++ vCredits) _ layout
    · simp only [List.length_append, length_uint2bytes64, length_uint2bytes]
      omega
    · simp only [List.length_append, length_uint2bytes64, length_uint2bytes]
      omega
  have keySlice : slice block.serialize (block.serialize.length - 128) block.serialize.length = some vKey := by
    apply slice_eq (uint2bytes64 block.nCoinbaseValue ++
      uint2bytes vCoinbase.length.toUInt32 ++ vCoinbase ++ vCredits ++ uint2bytes block.nRound) []
      (by rw [layout, List.append_nil])
    · simp only [List.length_append, length_uint2bytes64, length_uint2bytes]
      omega
    · simp only [List.length_append, length_uint2bytes64, length_uint2bytes]
      omega
  have long : (guard (132 ≤ block.serialize.length) : Option Unit) = some () := if_pos (by omega)
  have round : bytes2uint (uint2bytes block.nRound) 0 = block.nRound :=
    bytes2uint_eq [] [] (List.append_nil _).symm rfl
  refine ⟨{ block with cCoinbase }, ?_, rfl, rfl, rfl, nPoolFee, mapOutputs, rfl⟩
  unfold Block.deserialize
  dsimp only [Option.bind_eq_bind, Option.pure_def]
  rw [value, length, nBytes, coinbaseSlice, Option.bind_some, coinbaseRead, Option.bind_some, long, Option.bind_some,
    creditsSlice, Option.bind_some, creditsRead, Option.bind_some, roundSlice, Option.bind_some, keySlice,
    Option.bind_some, keyRead, Option.bind_some, round]

/-- A block survives the round trip exactly when the one-byte counts and lengths of its two lists can
describe it. -/
theorem roundTrips_iff (block : Block) :
    RoundTrips block ↔ Writable block.cCoinbase.mapOutputs ∧ Writable block.cCredits.mapCredits :=
  ⟨writable_of_roundTrips, fun ⟨outputs, credits⟩ => roundTrips_of_writable outputs credits⟩

def crowdedBlock : Block :=
  { Block.new (BaseUint.ofUInt64 1) with
    cCoinbase :=
      { Coinbase.new with
        mapOutputs := Std.ExtTreeMap.ofList <| (List.range 256).map fun i =>
          ([(65 + i / 16).toUInt8, (65 + i % 16).toUInt8] ++ List.replicate 49 50, (45000000 : UInt64)) } }

theorem crowdedBlock_lost : ¬ RoundTrips crowdedBlock := by
  intro roundTrips
  have count := (writable_of_roundTrips roundTrips).1.count
  have size : crowdedBlock.cCoinbase.mapOutputs.size = 256 := by decide +kernel
  omega

end LLD

end PrimePool

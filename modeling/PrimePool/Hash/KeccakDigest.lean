import PrimePool.Hash.KeccakPadding

/-!
# Digests

A message comes in whole pieces and a last one that may end within a byte. Its digest is what the sponge gives out once
the bits of the message, those of the suffix and the padding are taken in.
-/

namespace PrimePool.Keccak
open General

/-! ## The last byte and the suffix -/

theorem toNat_joined {lastByte suffix : UInt8} {count : Nat} (within : count < 8)
    (clear : lastByte.toNat < 2 ^ count) :
    (lastByte.toUInt16 ||| (suffix.toUInt16 <<< count.toUInt16)).toNat = lastByte.toNat + 2 ^ count * suffix.toNat := by
  have shift : count.toUInt16.toNat % 16 = count := by
    rw [Nat.toUInt16_eq, UInt16.toNat_ofNat_of_lt' (by simp only [UInt16.size]; omega)]
    omega
  have power : 2 ^ count ≤ 2 ^ 7 := Nat.pow_le_pow_right (by decide) (by omega)
  have fits : suffix.toNat * 2 ^ count < 2 ^ 16 := by
    have := Nat.mul_le_mul (Nat.le_of_lt suffix.toNat_lt) power
    omega
  rw [UInt16.toNat_or, UInt16.toNat_shiftLeft, shift, UInt8.toNat_toUInt16, UInt8.toNat_toUInt16, Nat.shiftLeft_eq,
    Nat.mod_eq_of_lt fits, Nat.or_comm, Nat.mul_comm, ← Nat.two_pow_add_eq_or_of_lt clear, Nat.add_comm]

theorem high_none (word : UInt16) : word &&& 0xFF00 = 0 ↔ word.toNat < 2 ^ 8 := by
  have value : (word &&& 0xFF00).toNat = word.toNat &&& 0xFF00 := UInt16.toNat_and _ _
  have low : (word.toNat &&& 0xFF00) % 2 ^ 8 = 0 := by
    rw [Nat.and_mod_two_pow]
    exact Nat.and_zero _
  have high : (word.toNat &&& 0xFF00) / 2 ^ 8 = word.toNat / 2 ^ 8 % 2 ^ 8 := by
    rw [Nat.and_div_two_pow]
    exact Nat.and_two_pow_sub_one_eq_mod _ 8
  have bound := word.toNat_lt
  rw [← UInt16.toNat_inj, value]
  show (word.toNat &&& 0xFF00) = 0 ↔ _
  omega

theorem toNat_lowByte (word : UInt16) : (word &&& 0xFF).toUInt8.toNat = word.toNat % 2 ^ 8 := by
  have low : word.toNat &&& 0xFF = word.toNat % 2 ^ 8 := Nat.and_two_pow_sub_one_eq_mod _ 8
  rw [UInt16.toNat_toUInt8, UInt16.toNat_and]
  show (word.toNat &&& 0xFF) % 2 ^ 8 = _
  rw [low, Nat.mod_mod]

theorem toNat_highByte (word : UInt16) : ((word >>> 8) &&& 0xFF).toUInt8.toNat = word.toNat / 2 ^ 8 := by
  have bound := word.toNat_lt
  rw [toNat_lowByte, UInt16.toNat_shiftRight]
  show (word.toNat >>> 8) % 2 ^ 8 = _
  rw [Nat.shiftRight_eq_div_pow]
  omega

/-! ## Messages -/

section

variable {rateInBytes : Nat} (positive : 0 < rateInBytes)

theorem hashUpdate_pieces {hash : HashInstance} (ready : hash.sponge.Absorbing rateInBytes) {pieces : List Bytes}
    (short : ∀ piece ∈ pieces, piece.length + 200 ≤ 2 ^ 32) :
    pieces.foldlM (fun hash piece => hashUpdate hash piece (8 * piece.length)) hash =
      some { hash with sponge := hash.sponge.absorbed positive pieces.flatten } := by
  induction pieces generalizing hash with
  | nil => rfl
  | cons piece pieces ih =>
      have whole : hashUpdate hash piece (8 * piece.length) =
          some { hash with sponge := hash.sponge.absorbed positive piece } := by
        rw [hashUpdate, Nat.mul_div_cancel_left _ (by decide), List.take_length,
          SpongeInstance.absorb_eq positive ready (short piece List.mem_cons_self), Option.bind_some,
          if_pos (Nat.mul_mod_right 8 _)]
      have later : ∀ piece ∈ pieces, piece.length + 200 ≤ 2 ^ 32 := fun later member =>
        short later (List.mem_cons_of_mem _ member)
      rw [List.foldlM_cons, whole, List.flatten_cons, SpongeInstance.absorbed_append]
      exact ih (ready.absorbed positive piece) later

/-- The bits of the last piece are taken in, or wait in front of those of the suffix. -/
theorem hashUpdate_last {hash : HashInstance} (ready : hash.sponge.Absorbing rateInBytes)
    (some : hash.delimitedSuffix ≠ 0) {last : Bytes} {count : Nat} (enough : count ≤ 8 * last.length)
    (short : count / 8 + 200 ≤ 2 ^ 32)
    (clear : count % 8 ≠ 0 → (last.getD (count / 8) 0).toNat < 2 ^ (count % 8)) :
    ∃ (taken : Bytes) (suffix : UInt8), suffix ≠ 0 ∧
      bits taken ++ bitsBelowTop suffix.toNat = (bits last).take count ++ bitsBelowTop hash.delimitedSuffix.toNat ∧
      hashUpdate hash last count =
        .some { hash with sponge := hash.sponge.absorbed positive taken, delimitedSuffix := suffix } := by
  have shortHead : (last.take (count / 8)).length + 200 ≤ 2 ^ 32 := by
    rw [List.length_take]
    omega
  have head := SpongeInstance.absorb_eq positive ready shortHead
  by_cases none : count % 8 = 0
  · refine ⟨last.take (count / 8), hash.delimitedSuffix, some, ?_, ?_⟩
    · rw [bits_take enough, none, bitsOf_none, List.append_nil]
    · rw [hashUpdate, head, Option.bind_some, if_pos none]
  · have nonzero : hash.delimitedSuffix.toNat ≠ 0 := fun zero => some (UInt8.toNat_inj.mp zero)
    have value := @toNat_joined _ hash.delimitedSuffix _ (Nat.mod_lt count (by decide)) (clear none)
    have joined := bitsBelowTop_add (clear none) nonzero
    rw [← value] at joined
    simp only [hashUpdate, head, Option.bind_some, if_neg none, bits_take enough, List.append_assoc, ← joined]
    have wordNonzero : (((last.getD (count / 8) 0).toUInt16 |||
        (hash.delimitedSuffix.toUInt16 <<< (count % 8).toUInt16)).toNat) ≠ 0 := by
      have := Nat.mul_pos (Nat.two_pow_pos (count % 8)) (Nat.pos_of_ne_zero nonzero)
      omega
    generalize ((last.getD (count / 8) 0).toUInt16 |||
      (hash.delimitedSuffix.toUInt16 <<< (count % 8).toUInt16)) = word at wordNonzero
    have lowByte := toNat_lowByte word
    have highByte := toNat_highByte word
    by_cases small : word &&& 0xFF00 = 0
    · have below := (high_none word).mp small
      have same : (word &&& 0xFF).toUInt8.toNat = word.toNat := lowByte.trans (Nat.mod_eq_of_lt below)
      refine ⟨last.take (count / 8), (word &&& 0xFF).toUInt8, ?_, ?_, ?_⟩
      · rintro zero
        rw [zero] at same
        exact wordNonzero same.symm
      · rw [same]
      · rw [if_pos small]
    · have above : ¬ word.toNat < 2 ^ 8 := fun below => small ((high_none word).mpr below)
      have parts : word.toNat = (word &&& 0xFF).toUInt8.toNat + 2 ^ 8 * ((word >>> 8) &&& 0xFF).toUInt8.toNat := by
        rw [lowByte, highByte]
        omega
      have highNonzero : ((word >>> 8) &&& 0xFF).toUInt8.toNat ≠ 0 := by
        rw [highByte]
        omega
      have ready' := ready.absorbed positive (last.take (count / 8))
      refine ⟨last.take (count / 8) ++ [(word &&& 0xFF).toUInt8], ((word >>> 8) &&& 0xFF).toUInt8, ?_, ?_, ?_⟩
      · rintro zero
        rw [zero] at highNonzero
        exact highNonzero rfl
      · rw [bits_append, bits_singleton, parts,
          bitsBelowTop_add (UInt8.toNat_lt (word &&& 0xFF).toUInt8) highNonzero, List.append_assoc]
      · rw [if_neg small, SpongeInstance.absorb_eq positive ready' (by rw [List.length_singleton]; decide), Option.map_some,
          SpongeInstance.absorbed_append]

/-- What the sponge gives out once it has taken in whole blocks. -/
def digestOf (padded : Bytes) (count : Nat) : Bytes :=
  (List.range count).map ((byteSponge rateInBytes positive).output
    ((blocks rateInBytes padded).foldl (byteSponge rateInBytes positive).absorbBlock stateInitialize))

include positive in
theorem dvd_length_padded (data : Bytes) (suffix : UInt8) :
    rateInBytes ∣ (data ++ padding rateInBytes (data.length % rateInBytes) suffix).length := by
  have inside := Nat.mod_lt data.length positive
  have divided := Nat.div_add_mod data.length rateInBytes
  rw [List.length_append, padding]
  generalize data.length % rateInBytes = index at inside divided
  generalize data.length / rateInBytes = whole at divided
  split
  · refine ⟨whole + 1, ?_⟩
    simp only [List.length_cons, List.length_append, List.length_replicate, List.length_nil, Nat.mul_succ]
    omega
  · split
    · refine ⟨whole + 1, ?_⟩
      simp only [List.length_cons, List.length_nil, Nat.mul_succ]
      omega
    · refine ⟨whole + 2, ?_⟩
      simp only [List.length_cons, List.length_append, List.length_replicate, List.length_nil, Nat.mul_succ]
      omega

theorem hashFinal_eq {hash : HashInstance} (ready : hash.sponge.Absorbing rateInBytes)
    (fresh : hash.sponge.wet = ⟨stateInitialize, 0⟩) (small : hash.fixedOutputLength < 2 ^ 32) (data : Bytes)
    {suffix : UInt8} (some : suffix ≠ 0) :
    hashFinal { hash with sponge := hash.sponge.absorbed positive data, delimitedSuffix := suffix } =
      .some (digestOf positive (data ++ padding rateInBytes (data.length % rateInBytes) suffix)
        (hash.fixedOutputLength / 8)) := by
  have begun (data : Bytes) : ((hash.sponge.absorbed positive data).wet) =
      ⟨(byteSponge rateInBytes positive).injectAll
          ((blocks rateInBytes data).foldl (byteSponge rateInBytes positive).absorbBlock stateInitialize) 0
          (data.drop (data.length / rateInBytes * rateInBytes)), data.length % rateInBytes⟩ := by
    rw [SpongeInstance.absorbed, SpongeInstance.wet_moved, fresh]
    exact Sponge.absorbAll_fresh (byteSponge rateInBytes positive) stateInitialize data
  have index : (hash.sponge.absorbed positive data).byteIOIndex = data.length % rateInBytes :=
    congrArg Wet.index (begun data)
  have closes := SpongeInstance.absorbLastFewBits_eq positive (ready.absorbed positive data) some
  rw [index, ← SpongeInstance.absorbed_append] at closes
  have whole := dvd_length_padded positive data suffix
  have begun' := begun (data ++ padding rateInBytes (data.length % rateInBytes) suffix)
  rw [digestOf]
  generalize data ++ padding rateInBytes (data.length % rateInBytes) suffix = padded at closes whole begun'
  rw [Nat.div_mul_cancel whole, Nat.mod_eq_zero_of_dvd whole, List.drop_length, Sponge.injectAll] at begun'
  have ready' := ready.absorbed positive padded
  have squeezing : ({ hash.sponge.absorbed positive padded with squeezing := true }).Squeezing rateInBytes :=
    ⟨ready'.rate, ready'.small, Nat.le_of_lt ready'.inside, rfl⟩
  have out := @SpongeInstance.squeeze_eq _ positive _ squeezing (hash.fixedOutputLength / 8) (by omega)
  have given : (({ hash.sponge.absorbed positive padded with squeezing := true }).squeezed positive
      (hash.fixedOutputLength / 8)).2 = ((byteSponge rateInBytes positive).squeezeMany (hash.fixedOutputLength / 8)
        (hash.sponge.absorbed positive padded).wet).1 := rfl
  rw [hashFinal, closes, Option.bind_some, out, Option.map_some, given, begun', Sponge.squeezeMany_fresh]

end

/-! ## From the first call to the last -/

theorem hashInitialize_spec {rate capacity length : Nat} {suffix : UInt8} {hash : HashInstance}
    (set : hashInitialize rate capacity length suffix = some hash) :
    hash.delimitedSuffix ≠ 0 ∧ rate % 8 = 0 ∧ hash.sponge.Absorbing (rate / 8) ∧
      hash.sponge.wet = ⟨stateInitialize, 0⟩ ∧ hash.fixedOutputLength = length ∧ hash.delimitedSuffix = suffix := by
  rw [hashInitialize, spongeInitialize] at set
  split_ifs at set with none size rates
  · cases set
  · cases set
  obtain rfl := Option.some.inj set
  simp only [not_or, not_lt, not_not] at rates
  have inside : 0 < rate / 8 := by omega
  have bound : rate / 8 ≤ 200 := by omega
  exact ⟨none, rates.2.2, ⟨rfl, bound, inside, rfl⟩, rfl, rfl, rfl⟩

section

variable {rate capacity length : Nat} {suffix : UInt8} {hash : HashInstance}

/-- The bits of a message behind its last whole byte go into the suffix. -/
theorem hash_pieces (set : hashInitialize rate capacity length suffix = some hash) (positive : 0 < rate / 8)
    (small : length < 2 ^ 32) {pieces : List Bytes} (short : ∀ piece ∈ pieces, piece.length + 200 ≤ 2 ^ 32) {last : Bytes}
    {count : Nat} (enough : count ≤ 8 * last.length) (shortLast : count / 8 + 200 ≤ 2 ^ 32)
    (clear : count % 8 ≠ 0 → (last.getD (count / 8) 0).toNat < 2 ^ (count % 8)) :
    ∃ taken suffix', suffix' ≠ 0 ∧
      bits taken ++ bitsBelowTop suffix'.toNat = (bits last).take count ++ bitsBelowTop suffix.toNat ∧
      ((pieces.foldlM (fun hash piece => hashUpdate hash piece (8 * piece.length)) hash).bind fun hash =>
          (hashUpdate hash last count).bind hashFinal) =
        some (digestOf positive (pieces.flatten ++ taken ++
          padding (rate / 8) ((pieces.flatten ++ taken).length % (rate / 8)) suffix') (length / 8)) := by
  obtain ⟨some, -, ready, fresh, fixed, same⟩ := hashInitialize_spec set
  subst fixed same
  have ready' := ready.absorbed positive pieces.flatten
  obtain ⟨taken, suffix, nonzero, joined, updated⟩ := @hashUpdate_last _ positive
    { hash with sponge := hash.sponge.absorbed positive pieces.flatten } ready' some _ _ enough shortLast clear
  refine ⟨taken, suffix, nonzero, joined, ?_⟩
  rw [hashUpdate_pieces positive ready short, Option.bind_some, updated, Option.bind_some,
    ← SpongeInstance.absorbed_append]
  exact hashFinal_eq positive ready fresh small _ nonzero

theorem bits_padded (set : hashInitialize rate capacity length suffix = some hash) (positive : 0 < rate / 8)
    (message : Bytes) {taken : Bytes} {suffix' : UInt8} (nonzero : suffix' ≠ 0) {bit : List Bool}
    (joined : bits taken ++ bitsBelowTop suffix'.toNat = bit ++ bitsBelowTop suffix.toNat) :
    bits (message ++ taken ++ padding (rate / 8) ((message ++ taken).length % (rate / 8)) suffix') =
      bits message ++ bit ++ bitsBelowTop suffix.toNat ++
        pad101 rate (8 * message.length + bit.length + suffix.toNat.log2) := by
  obtain ⟨-, rateOk, -⟩ := hashInitialize_spec set
  have lengths := congrArg List.length joined
  simp only [List.length_append, length_bits, bitsBelowTop, length_bitsOf] at lengths
  have total : 8 * (message ++ taken).length + suffix'.toNat.log2 =
      8 * message.length + bit.length + suffix.toNat.log2 := by
    rw [List.length_append]
    omega
  have bytes : 8 * (rate / 8) = rate := Nat.mul_div_cancel' (Nat.dvd_of_mod_eq_zero rateOk)
  rw [bits_append, bits_padding positive _ nonzero, total, bytes, bits_append, List.append_assoc _ (bits taken),
    ← List.append_assoc (bits taken), joined]
  simp only [List.append_assoc]

theorem hash_message (set : hashInitialize rate capacity length suffix = some hash) (positive : 0 < rate / 8)
    (small : length < 2 ^ 32) {pieces : List Bytes} (short : ∀ piece ∈ pieces, piece.length + 200 ≤ 2 ^ 32) {last : Bytes}
    {count : Nat} (enough : count ≤ 8 * last.length) (shortLast : count / 8 + 200 ≤ 2 ^ 32)
    (clear : count % 8 ≠ 0 → (last.getD (count / 8) 0).toNat < 2 ^ (count % 8)) :
    ∃ padded : Bytes,
      bits padded = bits pieces.flatten ++ (bits last).take count ++ bitsBelowTop suffix.toNat ++
        pad101 rate (8 * pieces.flatten.length + count + suffix.toNat.log2) ∧
      ((pieces.foldlM (fun hash piece => hashUpdate hash piece (8 * piece.length)) hash).bind fun hash =>
          (hashUpdate hash last count).bind hashFinal) = some (digestOf positive padded (length / 8)) := by
  obtain ⟨taken, suffix', nonzero, joined, computed⟩ := hash_pieces set positive small short enough shortLast clear
  refine ⟨_, ?_, computed⟩
  have padded := bits_padded set positive pieces.flatten nonzero joined
  rwa [List.length_take, length_bits, Nat.min_eq_left enough] at padded

end

theorem hash_message_sha3_256 :
    ∃ padded : Bytes,
      bits padded = bits [0x61, 0x62] ++ (bits [0x05]).take 3 ++ bitsBelowTop 6 ++ pad101 1088 (8 * 2 + 3 + 2) ∧
      (([[0x61], [0x62]].foldlM (fun hash piece => hashUpdate hash piece (8 * piece.length))
          ⟨⟨stateInitialize, 1088, 0, false⟩, 256, 0x06⟩).bind fun hash =>
            (hashUpdate hash [0x05] 3).bind hashFinal) =
        some (@digestOf 136 (by decide) padded 32) :=
  @hash_message 1088 512 256 0x06 ⟨⟨stateInitialize, 1088, 0, false⟩, 256, 0x06⟩ rfl (by decide) (by decide)
    [[0x61], [0x62]] (by decide) [0x05] 3 (by decide) (by decide) (by decide)

end PrimePool.Keccak

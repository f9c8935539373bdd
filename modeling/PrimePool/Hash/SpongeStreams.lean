import Mathlib.Data.List.GetD
import PrimePool.Hash.KeccakSponge

/-!
# Streams through the Keccak sponge

The fast lane, the lanes of the state and the message queue together take one byte after the other, so a message may
come in pieces of any length, and a digest be read in pieces of any length.
-/

namespace PrimePool.Keccak
open General

/-! ## Bytes of the state -/

theorem getElem_xorBytes (state : State) (start : Nat) (data : Bytes) {i : Nat} (inside : i < 8 * 25) :
    (xorBytes state start data)[i] =
      if start ≤ i ∧ i < start + data.length then state[i] ^^^ data.getD (i - start) 0 else state[i] := by
  simp only [xorBytes, Vector.getElem_ofFn, Vector.get_eq]

@[simp] theorem xorBytes_nil (state : State) (start : Nat) : xorBytes state start [] = state := by
  apply Vector.ext
  intro i inside
  rw [getElem_xorBytes]
  exact if_neg (by rw [List.length_nil]; omega)

theorem xorBytes_append (state : State) (start : Nat) (first second : Bytes) :
    xorBytes state start (first ++ second) = xorBytes (xorBytes state start first) (start + first.length) second := by
  apply Vector.ext
  intro i inside
  simp only [getElem_xorBytes, List.length_append]
  by_cases early : i < start + first.length
  · have notLater : ¬ (start + first.length ≤ i ∧ i < start + first.length + second.length) := by omega
    rw [if_neg notLater]
    by_cases reached : start ≤ i
    · rw [if_pos ⟨reached, by omega⟩, if_pos ⟨reached, early⟩, List.getD_append _ _ _ _ (by omega)]
    · rw [if_neg (by omega), if_neg (by omega)]
  · have notEarlier : ¬ (start ≤ i ∧ i < start + first.length) := by omega
    rw [if_neg notEarlier]
    by_cases later : i < start + first.length + second.length
    · rw [if_pos ⟨by omega, by omega⟩, if_pos ⟨by omega, later⟩, List.getD_append_right _ _ _ _ (by omega),
        Nat.sub_add_eq]
    · rw [if_neg (by omega), if_neg (by omega)]

theorem xorBytes_comm (state : State) (start start' : Nat) (data data' : Bytes) :
    xorBytes (xorBytes state start data) start' data' = xorBytes (xorBytes state start' data') start data := by
  apply Vector.ext
  intro i inside
  simp only [getElem_xorBytes]
  split_ifs
  · rw [UInt8.xor_assoc, UInt8.xor_assoc, UInt8.xor_comm (data.getD _ _)]
  all_goals rfl

/-- The sponge that takes and gives one byte at a time. -/
def byteSponge (rateInBytes : Nat) (positive : 0 < rateInBytes) : Sponge State UInt8 where
  inject state i byte := xorBytes state i [byte]
  extract state i := state.toList.getD i 0
  permute := statePermute
  rate := rateInBytes
  positive := positive

section

variable {rateInBytes : Nat} (positive : 0 < rateInBytes)

theorem injectAll_byteSponge (state : State) (start : Nat) (data : Bytes) :
    (byteSponge rateInBytes positive).injectAll state start data = xorBytes state start data := by
  induction data generalizing state start with
  | nil => exact (xorBytes_nil state start).symm
  | cons byte data ih =>
      rw [Sponge.injectAll, ih, ← List.singleton_append, xorBytes_append]
      rfl

theorem absorbBlock_byteSponge (state : State) (block : Bytes) :
    (byteSponge rateInBytes positive).absorbBlock state block = statePermute (xorBytes state 0 block) := by
  rw [Sponge.absorbBlock, injectAll_byteSponge]
  rfl

theorem extractAll_byteSponge (state : State) {start count : Nat} (fits : start + count ≤ 200) :
    (byteSponge rateInBytes positive).extractAll state start count = (state.toList.drop start).take count := by
  have length : state.toList.length = 200 := Vector.length_toList
  apply List.ext_getElem
  · rw [Sponge.extractAll, List.length_map, List.length_range', List.length_take, List.length_drop]
    omega
  · intro i first second
    rw [Sponge.extractAll, List.length_map, List.length_range'] at first
    have item : (byteSponge rateInBytes positive).extract state (start + i) = state.toList.getD (start + i) 0 := rfl
    simp only [Sponge.extractAll, List.getElem_map, List.getElem_range', Nat.one_mul, item, List.getElem_take,
      List.getElem_drop]
    exact List.getD_eq_getElem _ _ (by omega)

end

/-! ## Absorbing -/

theorem absorbLanes (state : State) (byteIOIndex : Nat) (data : Bytes) {fuel : Nat} (enough : data.length < fuel) :
    loop SpongeInstance.absorbLane fuel (state, byteIOIndex, data) =
      some (xorBytes state byteIOIndex data, byteIOIndex + data.length, []) := by
  refine loop_eq (fun _ => True) (fun s => s.2.2.length)
    (fun s => (xorBytes s.1 s.2.1 s.2.2, s.2.1 + s.2.2.length, [])) ?_ ?_ trivial enough
  · rintro ⟨state, byteIOIndex, data⟩ s' - next
    rw [SpongeInstance.absorbLane] at next
    split at next
    · cases next
    · rename_i some
      have positive := List.length_pos_iff.mpr some
      obtain rfl := Option.some.inj next
      have lane : byteIOIndex / laneInBytes * 8 + byteIOIndex % laneInBytes = byteIOIndex :=
        Nat.div_add_mod' byteIOIndex 8
      have left : 0 < laneInBytes - byteIOIndex % laneInBytes := by
        have := Nat.mod_lt byteIOIndex (by decide : 0 < laneInBytes)
        omega
      simp only [stateXORBytesInLane, lane]
      generalize laneInBytes - byteIOIndex % laneInBytes = room at left
      have taken : (data.take (min room data.length)).length = min room data.length := by
        rw [List.length_take]
        omega
      refine ⟨trivial, ?_, ?_⟩
      · rw [List.length_drop]
        omega
      · have whole := xorBytes_append state byteIOIndex (data.take (min room data.length))
          (data.drop (min room data.length))
        rw [List.take_append_drop, taken] at whole
        rw [whole, List.length_drop]
        simp only [Prod.mk.injEq, true_and, and_true]
        omega
  · rintro ⟨state, byteIOIndex, data⟩ - stops
    rw [SpongeInstance.absorbLane] at stops
    split at stops
    · rename_i none
      rw [none]
      simp
    · cases stops

/-- The whole lanes of a block and the bytes after them make up the block. -/
theorem wholeBlock {rateInBytes : Nat} (positive : 0 < rateInBytes) (state : State) {data : Bytes}
    (full : rateInBytes ≤ data.length) :
    stateXORPermute
        (if 0 < rateInBytes % laneInBytes then
          stateXORBytesInLane state (rateInBytes / laneInBytes)
            (data.drop (rateInBytes / laneInBytes * laneInBytes)) 0 (rateInBytes % laneInBytes)
        else state) data (rateInBytes / laneInBytes) =
      (byteSponge rateInBytes positive).absorbBlock state (data.take rateInBytes) := by
  have divided : rateInBytes / laneInBytes * laneInBytes + rateInBytes % laneInBytes = rateInBytes :=
    Nat.div_add_mod' rateInBytes laneInBytes
  have eight : rateInBytes / laneInBytes * 8 = rateInBytes / laneInBytes * laneInBytes := rfl
  have head : (data.take (rateInBytes / laneInBytes * laneInBytes)).length =
      rateInBytes / laneInBytes * laneInBytes := by
    rw [List.length_take]
    omega
  have cut : data.take rateInBytes = data.take (rateInBytes / laneInBytes * laneInBytes) ++
      (data.drop (rateInBytes / laneInBytes * laneInBytes)).take (rateInBytes % laneInBytes) := by
    rw [← List.take_add, divided]
  rw [absorbBlock_byteSponge, cut, xorBytes_append, head, Nat.zero_add, stateXORPermute, stateXORLanes, eight]
  split
  · rw [stateXORBytesInLane, eight, Nat.add_zero, xorBytes_comm]
  · rename_i none
    rw [Nat.eq_zero_of_not_pos none, List.take_zero, xorBytes_nil]

theorem absorbWholeBlocks {rateInBytes : Nat} (positive : 0 < rateInBytes) (state : State) (data : Bytes) {fuel : Nat}
    (enough : data.length < fuel) :
    loop (SpongeInstance.absorbWholeBlock rateInBytes) fuel (state, data) =
      some ((blocks rateInBytes data).foldl (byteSponge rateInBytes positive).absorbBlock state,
        data.drop (data.length / rateInBytes * rateInBytes)) := by
  refine loop_eq (fun _ => True) (fun s => s.2.length)
    (fun s => ((blocks rateInBytes s.2).foldl (byteSponge rateInBytes positive).absorbBlock s.1,
      s.2.drop (s.2.length / rateInBytes * rateInBytes))) ?_ ?_ trivial enough
  · rintro ⟨state, data⟩ s' - next
    rw [SpongeInstance.absorbWholeBlock] at next
    split at next
    · rename_i full
      obtain rfl := Option.some.inj next
      have length : (data.take rateInBytes).length = rateInBytes := by
        rw [List.length_take]
        omega
      have count : data.length / rateInBytes = (data.length - rateInBytes) / rateInBytes + 1 := by
        rw [← Nat.add_div_right _ positive, Nat.sub_add_cancel full]
      refine ⟨trivial, ?_, ?_⟩
      · show (data.drop rateInBytes).length < data.length
        rw [List.length_drop]
        omega
      · have whole := blocks_append positive length (data.drop rateInBytes)
        rw [List.take_append_drop] at whole
        simp only [wholeBlock positive state full, whole, List.foldl_cons, List.length_drop, List.drop_drop, count, Nat.succ_mul,
          Nat.add_comm rateInBytes]
    · cases next
  · rintro ⟨state, data⟩ - stops
    rw [SpongeInstance.absorbWholeBlock] at stops
    split at stops
    · cases stops
    · rename_i short
      simp only [blocks_of_short (Nat.lt_of_not_le short), Nat.div_eq_of_lt (Nat.lt_of_not_le short), Nat.zero_mul,
        List.drop_zero, List.foldl_nil]

namespace SpongeInstance

def wet (sponge : SpongeInstance) : Wet State := ⟨sponge.state, sponge.byteIOIndex⟩

def moved (sponge : SpongeInstance) (s : Wet State) : SpongeInstance :=
  { sponge with state := s.state, byteIOIndex := s.index }

theorem wet_moved (sponge : SpongeInstance) (s : Wet State) : (sponge.moved s).wet = s := rfl

theorem moved_moved (sponge : SpongeInstance) (s s' : Wet State) : (sponge.moved s).moved s' = sponge.moved s' := rfl

/-- What holds of a sponge before each call that absorbs. -/
structure Absorbing (sponge : SpongeInstance) (rateInBytes : Nat) : Prop where
  rate : sponge.rateInBytes = rateInBytes
  small : rateInBytes ≤ 200
  inside : sponge.byteIOIndex < rateInBytes
  open' : sponge.squeezing = false

section

variable {rateInBytes : Nat} (positive : 0 < rateInBytes)

def absorbed (sponge : SpongeInstance) (data : Bytes) : SpongeInstance :=
  sponge.moved ((byteSponge rateInBytes positive).absorbAll sponge.wet data)

@[simp] theorem absorbed_nil (sponge : SpongeInstance) : sponge.absorbed positive [] = sponge := rfl

theorem absorbed_append (sponge : SpongeInstance) (first second : Bytes) :
    sponge.absorbed positive (first ++ second) = (sponge.absorbed positive first).absorbed positive second := by
  rw [absorbed, Sponge.absorbAll_append]
  rfl

theorem Absorbing.absorbed {sponge : SpongeInstance} (ready : sponge.Absorbing rateInBytes) (data : Bytes) :
    (sponge.absorbed positive data).Absorbing rateInBytes where
  rate := ready.rate
  small := ready.small
  inside := (byteSponge rateInBytes positive).absorbAll_index_lt ready.inside data
  open' := ready.open'

variable {sponge : SpongeInstance}

theorem partialBlock_eq (small : sponge.rateInBytes ≤ 200) (inside : sponge.byteIOIndex < sponge.rateInBytes)
    {left : Nat} (short : left + 200 ≤ 2 ^ 32) :
    sponge.partialBlock left = min left (sponge.rateInBytes - sponge.byteIOIndex) := by
  have whole : left % 2 ^ 32 = left := Nat.mod_eq_of_lt (by omega)
  have sum : (left + sponge.byteIOIndex) % 2 ^ 32 = left + sponge.byteIOIndex := Nat.mod_eq_of_lt (by omega)
  simp only [partialBlock, whole, sum]
  split
  · omega
  · omega

theorem absorbQueue_eq (ready : sponge.Absorbing rateInBytes) {data : Bytes} (some : data ≠ [])
    (fits : sponge.byteIOIndex + data.length ≤ rateInBytes) :
    sponge.absorbQueue data = .some (sponge.absorbed positive data) := by
  have queued : sponge.absorbQueue data =
      .some (if sponge.byteIOIndex + data.length = sponge.rateInBytes then
          { sponge with state := statePermute (xorBytes sponge.state sponge.byteIOIndex data), byteIOIndex := 0 }
        else { sponge with
          state := xorBytes sponge.state sponge.byteIOIndex data, byteIOIndex := sponge.byteIOIndex + data.length }) := by
    by_cases start : sponge.byteIOIndex = 0 ∧ laneInBytes ≤ data.length
    · have eight : data.length / laneInBytes * 8 = data.length / laneInBytes * laneInBytes := rfl
      have head : (data.take (data.length / laneInBytes * laneInBytes)).length =
          data.length / laneInBytes * laneInBytes := by
        rw [List.length_take, Nat.min_eq_left (Nat.div_mul_le_self _ _)]
      have whole := xorBytes_append sponge.state 0 (data.take (data.length / laneInBytes * laneInBytes))
        (data.drop (data.length / laneInBytes * laneInBytes))
      rw [List.take_append_drop, head, Nat.zero_add] at whole
      have length : data.length / laneInBytes * laneInBytes +
          (data.drop (data.length / laneInBytes * laneInBytes)).length = data.length := by
        rw [List.length_drop]
        exact Nat.add_sub_cancel' (Nat.div_mul_le_self _ _)
      simp only [absorbQueue, if_pos start]
      rw [absorbLanes _ _ _ (by omega), stateXORLanes, eight, ← whole, length, start.1, Nat.zero_add]
      rfl
    · simp only [absorbQueue, if_neg start]
      rw [absorbLanes _ _ _ (Nat.lt_succ_self _)]
      rfl
  rw [queued, absorbed, ready.rate]
  split
  · rename_i full
    rw [Sponge.absorbAll_fills _ some full, injectAll_byteSponge]
    rfl
  · rename_i room
    have within : sponge.wet.index + data.length < (byteSponge rateInBytes positive).rate := by
      show sponge.byteIOIndex + data.length < rateInBytes
      omega
    rw [Sponge.absorbAll_within _ within, injectAll_byteSponge]
    rfl

/-- What one turn of the outer loop takes of the data. -/
theorem absorbTurn_eq (ready : sponge.Absorbing rateInBytes) {data : Bytes} (some : data ≠ [])
    (short : data.length + 200 ≤ 2 ^ 32) :
    ∃ count, 0 < count ∧ count ≤ data.length ∧
      absorbTurn (sponge, data) = .some (sponge.absorbed positive (data.take count), data.drop count) := by
  have inside := ready.inside
  have length := List.length_pos_iff.mpr some
  by_cases fast : sponge.byteIOIndex = 0 ∧ rateInBytes ≤ data.length
  · have enough := Nat.div_mul_le_self data.length rateInBytes
    refine ⟨data.length / rateInBytes * rateInBytes, Nat.mul_pos (Nat.div_pos fast.2 positive) positive, enough, ?_⟩
    have start : sponge.wet = ⟨sponge.state, 0⟩ := congrArg (Wet.mk sponge.state) fast.1
    have full : ∀ block ∈ takeBlocks rateInBytes (data.length / rateInBytes) data, block.length = rateInBytes :=
      fun block member => length_of_mem_takeBlocks enough member
    have stays (state : State) : { sponge with state } = sponge.moved ⟨state, 0⟩ := by
      rw [moved, ← fast.1]
    rw [absorbTurn, if_neg some, ready.rate, if_pos fast, absorbWholeBlocks positive _ _ (Nat.lt_succ_self _), absorbed,
      start, ← takeBlocks_flatten, Sponge.absorbAll_blocks _ full, ← blocks, ← stays]
    rfl
  · refine ⟨min data.length (rateInBytes - sponge.byteIOIndex), by omega, by omega, ?_⟩
    have part : data.take (min data.length (rateInBytes - sponge.byteIOIndex)) ≠ [] := by
      apply List.ne_nil_of_length_pos
      rw [List.length_take]
      omega
    have queued := absorbQueue_eq positive ready part (by rw [List.length_take]; omega)
    have taken := partialBlock_eq (ready.rate ▸ ready.small) (ready.rate ▸ inside) short
    rw [ready.rate] at taken
    rw [← ready.rate] at fast
    simp only [absorbTurn, if_neg some, if_neg fast, taken, queued, Option.map_some]

theorem absorb_eq (ready : sponge.Absorbing rateInBytes) {data : Bytes} (short : data.length + 200 ≤ 2 ^ 32) :
    sponge.absorb data = some (sponge.absorbed positive data) := by
  have run := @loop_eq _ absorbTurn (fun s => s.1.Absorbing rateInBytes ∧ s.2.length + 200 ≤ 2 ^ 32)
    (fun s => s.2.length) (fun s => (s.1.absorbed positive s.2, [])) ?_ ?_ (data.length + 1) (sponge, data) ⟨ready, short⟩
    (Nat.lt_succ_self data.length)
  · rw [absorb, ready.open', run]
    rfl
  · rintro ⟨sponge, data⟩ s' ⟨ready, short⟩ next
    have some : data ≠ [] := by
      rintro rfl
      cases next
    obtain ⟨count, positive', enough, taken⟩ := absorbTurn_eq positive ready some short
    obtain rfl := Option.some.inj (taken.symm.trans next)
    have length : (data.drop count).length = data.length - count := List.length_drop
    simp only at short
    refine ⟨⟨ready.absorbed positive _, by simp only [length]; omega⟩, by simp only [length]; omega, ?_⟩
    rw [← absorbed_append, List.take_append_drop]
  · rintro ⟨sponge, data⟩ ⟨ready, short⟩ stops
    by_cases none : data = []
    · rw [none]
      rfl
    · obtain ⟨count, -, -, taken⟩ := absorbTurn_eq positive ready none short
      exact absurd (taken.symm.trans stops) (by simp)

/-- A message may come in any pieces. -/
theorem absorb_pieces (ready : sponge.Absorbing rateInBytes) {pieces : List Bytes}
    (short : ∀ piece ∈ pieces, piece.length + 200 ≤ 2 ^ 32) :
    pieces.foldlM absorb sponge = some (sponge.absorbed positive pieces.flatten) := by
  induction pieces generalizing sponge with
  | nil => rfl
  | cons piece pieces ih =>
      rw [List.foldlM_cons, absorb_eq positive ready (short piece List.mem_cons_self), List.flatten_cons,
        absorbed_append]
      exact ih (ready.absorbed positive piece) fun later member => short later (List.mem_cons_of_mem _ member)

theorem absorb_pieces_sha3 :
    [[0x61, 0x62], [], [0x63]].foldlM absorb ⟨stateInitialize, 1088, 0, false⟩ =
      some (absorbed (by decide : 0 < 136) ⟨stateInitialize, 1088, 0, false⟩ [0x61, 0x62, 0x63]) :=
  absorb_pieces (by decide) ⟨rfl, by decide, by decide, rfl⟩ (by decide)

/-- The part of the data that goes through the queue is an `unsigned int`: where it is 0, a turn does nothing. -/
theorem absorb_never_ends (ready : sponge.Absorbing rateInBytes) (begun : sponge.byteIOIndex ≠ 0) {data : Bytes}
    (some : data ≠ []) (whole : data.length % 2 ^ 32 = 0) (fuel : Nat) :
    loop absorbTurn fuel (sponge, data) = none := by
  have inside := ready.inside
  have small := ready.small
  apply loop_of_fixed
  have none : sponge.partialBlock data.length = 0 := by
    have sum : (0 + sponge.byteIOIndex) % 2 ^ 32 = sponge.byteIOIndex := by omega
    simp only [partialBlock, whole, sum, ready.rate]
    exact if_neg (by omega)
  have slow : ¬ (sponge.byteIOIndex = 0 ∧ sponge.rateInBytes ≤ data.length) := fun fast => begun fast.1
  have room : sponge.byteIOIndex ≠ sponge.rateInBytes := by
    rw [ready.rate]
    omega
  have queued : sponge.absorbQueue [] = .some sponge := by
    have start : ¬ (sponge.byteIOIndex = 0 ∧ laneInBytes ≤ ([] : Bytes).length) := fun start => begun start.1
    simp only [absorbQueue, if_neg start]
    rw [absorbLanes _ _ _ (Nat.lt_succ_self _), xorBytes_nil, List.length_nil, Nat.add_zero, Option.map_some]
    simp only [if_neg room]
  simp only [absorbTurn, if_neg some, if_neg slow, none, List.take_zero, queued, Option.map_some, List.drop_zero]

theorem absorb_never_ends_sha3 :
    loop absorbTurn 100 (⟨stateInitialize, 1088, 1, false⟩, List.replicate (2 ^ 32) 0) = none :=
  absorb_never_ends ⟨rfl, by decide, by decide, rfl⟩ (by decide)
    (List.ne_nil_of_length_pos (by rw [List.length_replicate]; decide))
    (by rw [List.length_replicate, Nat.mod_self]) 100

end

end SpongeInstance

/-! ## Squeezing -/

theorem squeezeLanes (state : State) (byteIOIndex : Nat) (data : Bytes) (left : Nat) {fuel : Nat}
    (enough : left < fuel) :
    loop (SpongeInstance.squeezeLane state) fuel (byteIOIndex, data, left) =
      some (byteIOIndex + left, data ++ (state.toList.drop byteIOIndex).take left, 0) := by
  refine loop_eq (fun _ => True) (fun s => s.2.2)
    (fun s => (s.1 + s.2.2, s.2.1 ++ (state.toList.drop s.1).take s.2.2, 0)) ?_ ?_ trivial enough
  · rintro ⟨byteIOIndex, data, left⟩ s' - next
    rw [SpongeInstance.squeezeLane] at next
    split at next
    · cases next
    · rename_i some
      obtain rfl := Option.some.inj next
      have lane : byteIOIndex / laneInBytes * 8 + byteIOIndex % laneInBytes = byteIOIndex :=
        Nat.div_add_mod' byteIOIndex 8
      have room : 0 < laneInBytes - byteIOIndex % laneInBytes := by
        have := Nat.mod_lt byteIOIndex (by decide : 0 < laneInBytes)
        omega
      simp only [stateExtractBytesInLane, lane]
      generalize laneInBytes - byteIOIndex % laneInBytes = room' at room
      have cut := List.take_add (l := state.toList.drop byteIOIndex) (i := min room' left) (j := left - min room' left)
      rw [Nat.add_sub_cancel' (Nat.min_le_right _ _), List.drop_drop] at cut
      refine ⟨trivial, by omega, ?_⟩
      rw [List.append_assoc, cut]
      simp only [Prod.mk.injEq, and_true]
      omega
  · rintro ⟨byteIOIndex, data, left⟩ - stops
    rw [SpongeInstance.squeezeLane] at stops
    split at stops
    · rename_i none
      simp [none]
    · cases stops

section

variable {rateInBytes : Nat} (positive : 0 < rateInBytes)

theorem squeezeMany_block {state : State} (small : rateInBytes ≤ 200) :
    (byteSponge rateInBytes positive).squeezeMany rateInBytes ⟨state, rateInBytes⟩ =
      ((statePermute state).toList.take rateInBytes, ⟨statePermute state, rateInBytes⟩) := by
  rw [Sponge.squeezeMany_full _ (Nat.ne_of_gt positive) rfl, Sponge.squeezeMany_within _ (by exact Nat.le_of_eq (Nat.zero_add _)),
    extractAll_byteSponge positive _ (by simpa using small)]
  simp only [Nat.zero_add, List.drop_zero]
  rfl

theorem squeezeMany_blocks (small : rateInBytes ≤ 200) (state : State) (count : Nat) :
    ((byteSponge rateInBytes positive).squeezeMany (count * rateInBytes) ⟨state, rateInBytes⟩).2.index =
      rateInBytes := by
  induction count generalizing state with
  | zero =>
      rw [Nat.zero_mul]
      rfl
  | succ count ih => rw [Nat.succ_mul, Nat.add_comm, Sponge.squeezeMany_add, squeezeMany_block positive small, ih]

theorem squeezeWholeBlocks (small : rateInBytes ≤ 200) (state : State) (data : Bytes) (left : Nat) {fuel : Nat}
    (enough : left < fuel) :
    loop (SpongeInstance.squeezeWholeBlock rateInBytes) fuel (state, data, left) =
      let squeezed := (byteSponge rateInBytes positive).squeezeMany (left / rateInBytes * rateInBytes)
        ⟨state, rateInBytes⟩
      some (squeezed.2.state, data ++ squeezed.1, left % rateInBytes) := by
  refine loop_eq (fun _ => True) (fun s => s.2.2)
    (fun s =>
      let squeezed := (byteSponge rateInBytes positive).squeezeMany (s.2.2 / rateInBytes * rateInBytes)
        ⟨s.1, rateInBytes⟩
      (squeezed.2.state, s.2.1 ++ squeezed.1, s.2.2 % rateInBytes)) ?_ ?_ trivial enough
  · rintro ⟨state, data, left⟩ s' - next
    rw [SpongeInstance.squeezeWholeBlock] at next
    split at next
    · rename_i full
      obtain rfl := Option.some.inj next
      have count : left / rateInBytes = (left - rateInBytes) / rateInBytes + 1 := by
        rw [← Nat.add_div_right _ positive, Nat.sub_add_cancel full]
      have block : stateExtractLanes (statePermute state) (rateInBytes / laneInBytes) ++
          (if 0 < rateInBytes % laneInBytes then
            stateExtractBytesInLane (statePermute state) (rateInBytes / laneInBytes) 0 (rateInBytes % laneInBytes)
          else []) = (statePermute state).toList.take rateInBytes := by
        have divided : rateInBytes / laneInBytes * 8 + rateInBytes % laneInBytes = rateInBytes :=
          Nat.div_add_mod' rateInBytes 8
        have cut := List.take_add (l := (statePermute state).toList) (i := rateInBytes / laneInBytes * 8)
          (j := rateInBytes % laneInBytes)
        rw [divided] at cut
        rw [cut, stateExtractLanes]
        split
        · rfl
        · rename_i none
          rw [Nat.eq_zero_of_not_pos none, List.take_zero]
      refine ⟨trivial, by simp only; omega, ?_⟩
      simp only [block, count, Nat.succ_mul, Nat.add_comm _ rateInBytes, Sponge.squeezeMany_add,
        squeezeMany_block positive small, List.append_assoc, Nat.mod_eq_sub_mod full]
    · cases next
  · rintro ⟨state, data, left⟩ - stops
    rw [SpongeInstance.squeezeWholeBlock] at stops
    split at stops
    · cases stops
    · rename_i short
      have less := Nat.lt_of_not_le short
      simp only [Nat.div_eq_of_lt less, Nat.mod_eq_of_lt less, Nat.zero_mul, Sponge.squeezeMany, List.append_nil]

end

namespace SpongeInstance

/-- What holds of a sponge before each call that squeezes. -/
structure Squeezing (sponge : SpongeInstance) (rateInBytes : Nat) : Prop where
  rate : sponge.rateInBytes = rateInBytes
  small : rateInBytes ≤ 200
  inside : sponge.byteIOIndex ≤ rateInBytes
  closed : sponge.squeezing = true

section

variable {rateInBytes : Nat} (positive : 0 < rateInBytes)

def squeezed (sponge : SpongeInstance) (count : Nat) : SpongeInstance × Bytes :=
  let squeezed := (byteSponge rateInBytes positive).squeezeMany count sponge.wet
  (sponge.moved squeezed.2, squeezed.1)

theorem squeezed_add (sponge : SpongeInstance) (first second : Nat) :
    sponge.squeezed positive (first + second) =
      (((sponge.squeezed positive first).1.squeezed positive second).1,
        (sponge.squeezed positive first).2 ++ ((sponge.squeezed positive first).1.squeezed positive second).2) := by
  simp only [squeezed, Sponge.squeezeMany_add]
  rfl

variable {sponge : SpongeInstance}

theorem squeezeQueue_eq (small : rateInBytes ≤ 200) {count : Nat} (fits : sponge.byteIOIndex + count ≤ rateInBytes) :
    sponge.squeezeQueue count = some (sponge.squeezed positive count) := by
  have within : sponge.squeezed positive count = ({ sponge with byteIOIndex := sponge.byteIOIndex + count },
      (sponge.state.toList.drop sponge.byteIOIndex).take count) := by
    rw [squeezed, Sponge.squeezeMany_within _ fits, extractAll_byteSponge positive _ (by simp only [wet]; omega)]
    rfl
  rw [within]
  by_cases start : sponge.byteIOIndex = 0 ∧ laneInBytes ≤ count
  · have lanes : count / laneInBytes * laneInBytes ≤ count := Nat.div_mul_le_self _ _
    have cut := List.take_add (l := sponge.state.toList) (i := count / laneInBytes * laneInBytes)
      (j := count - count / laneInBytes * laneInBytes)
    rw [Nat.add_sub_cancel' lanes] at cut
    simp only [squeezeQueue, if_pos start]
    rw [squeezeLanes _ _ _ _ (by omega), Nat.add_sub_cancel' lanes, start.1, List.drop_zero, Nat.zero_add, cut]
    rfl
  · simp only [squeezeQueue, if_neg start]
    rw [squeezeLanes _ _ _ _ (Nat.lt_succ_self _)]
    rfl

theorem Squeezing.moved (ready : sponge.Squeezing rateInBytes) {s : Wet State} (inside : s.index ≤ rateInBytes) :
    (sponge.moved s).Squeezing rateInBytes :=
  ⟨ready.rate, ready.small, inside, ready.closed⟩

/-- The sponge from which the queue gives out: permuted where every byte of the block is out. -/
def opened (sponge : SpongeInstance) : SpongeInstance :=
  if sponge.byteIOIndex = sponge.rateInBytes then sponge.moved ⟨statePermute sponge.state, 0⟩ else sponge

theorem Squeezing.opened (ready : sponge.Squeezing rateInBytes) :
    sponge.opened.Squeezing rateInBytes ∧ sponge.opened.byteIOIndex < rateInBytes ∧
      ∀ {count : Nat}, count ≠ 0 → sponge.opened.squeezed positive count = sponge.squeezed positive count := by
  have rate := ready.rate
  have inside := ready.inside
  rw [SpongeInstance.opened]
  split
  · rename_i full
    refine ⟨ready.moved (Nat.zero_le _), positive, fun some => ?_⟩
    have out := Sponge.squeezeMany_full (byteSponge rateInBytes positive) some (s := sponge.wet) (full.trans rate)
    have start : (sponge.moved ⟨statePermute sponge.state, 0⟩).wet =
      ⟨(byteSponge rateInBytes positive).permute sponge.wet.state, 0⟩ := wet_moved sponge _
    rw [SpongeInstance.squeezed, SpongeInstance.squeezed, start, ← out, moved_moved]
  · exact ⟨ready, by omega, fun _ => rfl⟩

/-- What one turn of the outer loop gives out. -/
theorem squeezeTurn_eq (ready : sponge.Squeezing rateInBytes) (data : Bytes) {left : Nat} (some : left ≠ 0)
    (short : left + 200 ≤ 2 ^ 32) :
    ∃ count, 0 < count ∧ count ≤ left ∧ (sponge.squeezed positive count).1.Squeezing rateInBytes ∧
      squeezeTurn (sponge, data, left) =
        .some ((sponge.squeezed positive count).1, data ++ (sponge.squeezed positive count).2, left - count) := by
  by_cases fast : sponge.byteIOIndex = sponge.rateInBytes ∧ sponge.rateInBytes ≤ left
  · have start : sponge.wet = ⟨sponge.state, rateInBytes⟩ := congrArg (Wet.mk sponge.state) (fast.1.trans ready.rate)
    have index := squeezeMany_blocks positive ready.small sponge.state (left / rateInBytes)
    have full : rateInBytes ≤ left := ready.rate ▸ fast.2
    have out : sponge.squeezed positive (left / rateInBytes * rateInBytes) =
        ({ sponge with state := ((byteSponge rateInBytes positive).squeezeMany (left / rateInBytes * rateInBytes)
            ⟨sponge.state, rateInBytes⟩).2.state },
          ((byteSponge rateInBytes positive).squeezeMany (left / rateInBytes * rateInBytes)
            ⟨sponge.state, rateInBytes⟩).1) := by
      rw [squeezed, start]
      simp only [moved, index, fast.1.trans ready.rate]
    refine ⟨left / rateInBytes * rateInBytes, Nat.mul_pos (Nat.div_pos full positive) positive,
      Nat.div_mul_le_self _ _, ?_, ?_⟩
    · rw [out]
      exact ⟨ready.rate, ready.small, ready.inside, ready.closed⟩
    · have rest : left - left / rateInBytes * rateInBytes = left % rateInBytes := by
        rw [Nat.mod_eq_sub, Nat.mul_comm]
      rw [out, rest]
      rw [squeezeTurn, if_neg some, if_pos fast, ready.rate,
        squeezeWholeBlocks positive ready.small _ _ _ (Nat.lt_succ_self _)]
      rfl
  · obtain ⟨ready', inside, same⟩ := ready.opened positive
    have part := @partialBlock_eq sponge.opened (ready'.rate ▸ ready'.small) (ready'.rate ▸ inside) left short
    rw [ready'.rate] at part
    have fits : sponge.opened.byteIOIndex + min left (rateInBytes - sponge.opened.byteIOIndex) ≤ rateInBytes := by omega
    have queued := squeezeQueue_eq positive ready'.small fits
    have within : ((sponge.opened.squeezed positive (min left (rateInBytes - sponge.opened.byteIOIndex))).1).Squeezing
        rateInBytes := by
      refine ⟨ready'.rate, ready'.small, ?_, ready'.closed⟩
      rw [squeezed, Sponge.squeezeMany_within _ fits]
      exact fits
    refine ⟨min left (rateInBytes - sponge.opened.byteIOIndex), by omega, Nat.min_le_left _ _, ?_, ?_⟩
    · rw [← same (by omega)]
      exact within
    · rw [← same (by omega)]
      have same' : (if sponge.byteIOIndex = sponge.rateInBytes then
          { sponge with state := statePermute sponge.state, byteIOIndex := 0 } else sponge) = sponge.opened := rfl
      simp only [squeezeTurn, if_neg some, if_neg fast, same', part, queued, Option.map_some]

theorem squeeze_eq (ready : sponge.Squeezing rateInBytes) {count : Nat} (short : count + 200 ≤ 2 ^ 32) :
    sponge.squeeze count = some (sponge.squeezed positive count) := by
  have run := @loop_eq _ squeezeTurn (fun s => s.1.Squeezing rateInBytes ∧ s.2.2 + 200 ≤ 2 ^ 32)
    (fun s => s.2.2) (fun s => ((s.1.squeezed positive s.2.2).1, s.2.1 ++ (s.1.squeezed positive s.2.2).2, 0))
    ?_ ?_ (count + 1) (sponge, [], count) ⟨ready, short⟩ (Nat.lt_succ_self count)
  · rw [squeeze, if_pos ready.closed, run]
    rfl
  · rintro ⟨sponge, data, left⟩ s' ⟨ready, short⟩ next
    have some : left ≠ 0 := by
      rintro rfl
      cases next
    obtain ⟨count, positive', enough, keeps, out⟩ := squeezeTurn_eq positive ready data some short
    obtain rfl := Option.some.inj (out.symm.trans next)
    simp only at short
    refine ⟨⟨keeps, by simp only; omega⟩, by simp only; omega, ?_⟩
    have whole := squeezed_add positive sponge count (left - count)
    rw [Nat.add_sub_cancel' enough] at whole
    simp only [whole, List.append_assoc]
  · rintro ⟨sponge, data, left⟩ ⟨ready, short⟩ stops
    by_cases none : left = 0
    · subst none
      simp only [squeezed, Sponge.squeezeMany, List.append_nil]
      rfl
    · obtain ⟨count, -, -, -, out⟩ := squeezeTurn_eq positive ready data none short
      exact absurd (out.symm.trans stops) (by simp)

theorem Squeezing.squeezed (ready : sponge.Squeezing rateInBytes) (count : Nat) :
    (sponge.squeezed positive count).1.Squeezing rateInBytes :=
  ⟨ready.rate, ready.small, (byteSponge rateInBytes positive).squeezeMany_index_le ready.inside count, ready.closed⟩

/-- What a digest is read as when it is read in pieces: the pieces one after the other. -/
def squeezePieces (sponge : SpongeInstance) : List Nat → Option (SpongeInstance × Bytes)
  | [] => some (sponge, [])
  | count :: counts => do
      let (sponge, data) ← sponge.squeeze count
      let (sponge, more) ← sponge.squeezePieces counts
      some (sponge, data ++ more)

theorem squeezePieces_eq (ready : sponge.Squeezing rateInBytes) {counts : List Nat}
    (short : ∀ count ∈ counts, count + 200 ≤ 2 ^ 32) :
    sponge.squeezePieces counts = some (sponge.squeezed positive counts.sum) := by
  induction counts generalizing sponge with
  | nil => rfl
  | cons count counts ih =>
      have later : ∀ count ∈ counts, count + 200 ≤ 2 ^ 32 := fun other member =>
        short other (List.mem_cons_of_mem _ member)
      rw [squeezePieces, squeeze_eq positive ready (short count List.mem_cons_self), List.sum_cons, squeezed_add]
      simp only [Option.bind_eq_bind, Option.bind_some, ih (ready.squeezed positive count) later]

theorem squeezePieces_sha3 :
    squeezePieces ⟨stateInitialize, 1088, 0, true⟩ [100, 0, 200] =
      some (squeezed (by decide : 0 < 136) ⟨stateInitialize, 1088, 0, true⟩ 300) :=
  squeezePieces_eq (by decide) ⟨rfl, by decide, by decide, rfl⟩ (by decide)

end

end SpongeInstance

end PrimePool.Keccak

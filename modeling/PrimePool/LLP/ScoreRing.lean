import PrimePool.LLP.DDOSScore

/-!
# The ring of a DDOS score

The slots hold the points that stand: those that no addition of a later cycle has come to or passed. What the source
holds in a slot is the sum of their scores.
-/

namespace PrimePool.LLP

open PrimePool.General

/-! ## One addition -/

namespace DDOSScore

variable {ι κ α β : Type} {tally : Tally ι α} {tally' : Tally κ β}

theorem getElem?_put (s : DDOSScore α) (nTime : Nat) (nScore : ι) (j : Nat) :
    (s.put tally nTime nScore).SCORE[j]? = s.SCORE[j]?.map fun slot =>
      let slot := if s.nIterator ≤ j ∧ j ≤ nTime then visit tally slot else slot
      if nTime = j then (slot.1, tally.plus slot.2 nScore) else slot := by
  have range : s.nIterator ≤ j ∧ j < s.nIterator + (nTime + 1 - s.nIterator) ↔ s.nIterator ≤ j ∧ j ≤ nTime := by omega
  simp only [put, List.getElem?_modify, getElem?_foldl_modify, range, Option.map_eq_map, Option.map_map]
  rfl

@[simp] theorem length_put (s : DDOSScore α) (nTime : Nat) (nScore : ι) :
    (s.put tally nTime nScore).SCORE.length = s.SCORE.length := by
  simp only [put, List.length_modify, length_foldl_modify]

theorem turn_eq (s : DDOSScore α) (now : Nat) :
    s.turn now = (if s.elapsed now ≥ s.SCORE.length then s.reset now else s, s.elapsed now % s.SCORE.length) := by
  unfold turn
  dsimp only
  split
  · rfl
  · rename_i within
    rw [Nat.mod_eq_of_lt (Nat.not_le.mp within)]

/-! The same ring with other contents. -/

def map (f : α → β) (s : DDOSScore α) : DDOSScore β :=
  { SCORE := s.SCORE.map fun slot => (slot.1, f slot.2), TIMER := s.TIMER, nIterator := s.nIterator }

variable {f : α → β}

theorem map_reset (s : DDOSScore α) (now : Nat) : (s.reset now).map f = (s.map f).reset now := by
  simp only [map, reset, List.map_map]
  rfl

theorem map_flush (zero : f tally.zero = tally'.zero) (s : DDOSScore α) (now : Nat) :
    (s.flush tally now).map f = (s.map f).flush tally' now := by
  simp only [map, flush, reset, List.map_map, ← zero]
  rfl

theorem map_new (zero : f tally.zero = tally'.zero) (nTimespan now : Nat) :
    (new tally nTimespan now).map f = new tally' nTimespan now := by
  simp only [map, new, List.map_replicate, zero]

theorem map_turn (s : DDOSScore α) (now : Nat) : (s.map f).turn now = ((s.turn now).1.map f, (s.turn now).2) := by
  have same : (s.map f).elapsed now = s.elapsed now := rfl
  have length : (s.map f).SCORE.length = s.SCORE.length := List.length_map _
  rw [turn_eq, turn_eq, same, length]
  split
  · rw [map_reset]
  · rfl

theorem map_put (zero : f tally.zero = tally'.zero) {nScore : ι} {nScore' : κ}
    (plus : ∀ a, f (tally.plus a nScore) = tally'.plus (f a) nScore') (s : DDOSScore α) (nTime : Nat) :
    (s.put tally nTime nScore).map f = (s.map f).put tally' nTime nScore' := by
  have slots : (s.put tally nTime nScore).SCORE.map (fun slot => (slot.1, f slot.2)) =
      ((s.map f).put tally' nTime nScore').SCORE := by
    apply List.ext_getElem?
    intro j
    rw [List.getElem?_map, getElem?_put, getElem?_put, map, List.getElem?_map, Option.map_map, Option.map_map]
    congr 1
    funext slot
    obtain ⟨seen, held⟩ := slot
    cases seen with
    | true =>
        simp only [Function.comp_apply, visit, ite_self, if_true]
        split
        · rw [plus]
        · rfl
    | false =>
        simp only [Function.comp_apply, visit, Bool.false_eq_true, if_false]
        by_cases range : s.nIterator ≤ j ∧ j ≤ nTime
        · simp only [range, and_self, if_true]
          split
          · rw [plus, zero]
          · rw [zero]
        · simp only [range, if_false]
          split
          · rw [plus]
          · rfl
  rw [map, slots]
  rfl

theorem map_add (zero : f tally.zero = tally'.zero) {nScore : ι} {nScore' : κ}
    (plus : ∀ a, f (tally.plus a nScore) = tally'.plus (f a) nScore') (s : DDOSScore α) (now : Nat) :
    (s.add tally now nScore).map f = (s.map f).add tally' now nScore' := by
  rw [add, add, map_put zero plus, map_turn]

end DDOSScore

/-! ## The ring and the points that stand -/

structure HoldsStanding (ring : DDOSScore (List Point)) (unflushed : List Point) (cycle : Nat) : Prop where
  contents : ∀ {j : Nat} {seen : Bool} {held : List Point}, ring.SCORE[j]? = some (seen, held) →
    held = (standing Point.cycle Point.slot unflushed).filter (·.slot = j)
  seen : ∀ {j : Nat} {held : List Point}, ring.SCORE[j]? = some (true, held) → ∀ point ∈ held, point.cycle = cycle
  unseen : ∀ {j : Nat} {held : List Point}, ring.SCORE[j]? = some (false, held) →
    ∀ point ∈ unflushed, point.cycle = cycle → point.slot < j
  behind : ∀ {j : Nat} {seen : Bool} {held : List Point}, ring.SCORE[j]? = some (seen, held) →
    j < ring.nIterator → seen = true
  latest : ∀ point ∈ unflushed, point.cycle ≤ cycle
  inside : ∀ point ∈ unflushed, point.slot < ring.SCORE.length

namespace HoldsStanding

variable {ring : DDOSScore (List Point)} {unflushed : List Point} {cycle : Nat}

theorem new (nTimespan now : Nat) : HoldsStanding (.new points nTimespan now) [] 0 where
  contents found := by
    simp only [DDOSScore.new, List.getElem?_replicate] at found
    split at found
    · cases found
      rfl
    · cases found
  seen found point member := by
    simp only [DDOSScore.new, List.getElem?_replicate] at found
    split at found
    · cases found
      cases member
    · cases found
  unseen _ point member := by cases member
  behind _ before := absurd before (Nat.not_lt_zero _)
  latest point member := by cases member
  inside point member := by cases member

theorem getElem?_reset {now j : Nat} {seen : Bool} {held : List Point}
    (found : (ring.reset now).SCORE[j]? = some (seen, held)) :
    seen = false ∧ ∃ before, ring.SCORE[j]? = some (before, held) := by
  simp only [DDOSScore.reset, List.getElem?_map, Option.map_eq_some_iff] at found
  obtain ⟨⟨before, held⟩, found, same⟩ := found
  cases same
  exact ⟨rfl, before, found⟩

theorem getElem?_flush {now j : Nat} {seen : Bool} {held : List Point}
    (found : (ring.flush points now).SCORE[j]? = some (seen, held)) : held = [] := by
  simp only [DDOSScore.flush, List.getElem?_map, Option.map_eq_some_iff] at found
  obtain ⟨slot, -, same⟩ := found
  exact (Prod.mk.inj same).2.symm

theorem flush (ring : DDOSScore (List Point)) (cycle now : Nat) : HoldsStanding (ring.flush points now) [] cycle where
  contents found := getElem?_flush found
  seen found point member := by
    rw [getElem?_flush found] at member
    cases member
  unseen _ point member := by cases member
  behind _ before := absurd before (Nat.not_lt_zero _)
  latest point member := by cases member
  inside point member := by cases member

theorem reset (holds : HoldsStanding ring unflushed cycle) (now : Nat) :
    HoldsStanding (ring.reset now) unflushed (cycle + 1) where
  contents found := by
    obtain ⟨-, before, found⟩ := getElem?_reset found
    exact holds.contents found
  seen found := by
    obtain ⟨seen, -⟩ := getElem?_reset found
    cases seen
  unseen _ point member current := by
    have latest := holds.latest point member
    omega
  behind _ before := absurd before (Nat.not_lt_zero _)
  latest point member := Nat.le_succ_of_le (holds.latest point member)
  inside point member := by
    rw [DDOSScore.reset, List.length_map]
    exact holds.inside point member

theorem slot_of_mem (holds : HoldsStanding ring unflushed cycle) {j : Nat} {seen : Bool} {held : List Point}
    (found : ring.SCORE[j]? = some (seen, held)) {point : Point} (member : point ∈ held) :
    point ∈ unflushed ∧ point.slot = j := by
  rw [holds.contents found, List.mem_filter, mem_standing, decide_eq_true_eq] at member
  exact ⟨member.1.1, member.2⟩

/-- A visit drops what the earlier cycles left. -/
theorem visit (holds : HoldsStanding ring unflushed cycle) {j : Nat} {seen : Bool} {held : List Point}
    (found : ring.SCORE[j]? = some (seen, held)) (nTime : Nat) :
    (if ring.nIterator ≤ j ∧ j ≤ nTime then DDOSScore.visit points (seen, held) else (seen, held)) =
      (seen || decide (j ≤ nTime), held.filter fun point => ¬ (point.cycle < cycle ∧ point.slot ≤ nTime)) := by
  cases seen with
  | true =>
      have kept : (held.filter fun point => ¬ (point.cycle < cycle ∧ point.slot ≤ nTime)) = held := by
        apply List.filter_eq_self.mpr
        intro point member
        have current := holds.seen found point member
        simp only [current, Nat.lt_irrefl, false_and, not_false_eq_true, decide_true]
      rw [kept, DDOSScore.visit, if_pos rfl, ite_self, Bool.true_or]
  | false =>
      have reached : ring.nIterator ≤ j := by
        apply Nat.le_of_not_lt
        intro before
        cases holds.behind found before
      by_cases within : j ≤ nTime
      · have dropped : (held.filter fun point => ¬ (point.cycle < cycle ∧ point.slot ≤ nTime)) = [] := by
          apply List.filter_eq_nil_iff.mpr
          intro point member
          obtain ⟨noted, place⟩ := holds.slot_of_mem found member
          have latest := holds.latest point noted
          have other : point.cycle ≠ cycle := fun current =>
            absurd (holds.unseen found point noted current) (by omega)
          simp only [decide_eq_true_eq, not_not]
          omega
        rw [if_pos ⟨reached, within⟩, dropped, DDOSScore.visit, if_neg Bool.false_ne_true, decide_eq_true within]
        rfl
      · have kept : (held.filter fun point => ¬ (point.cycle < cycle ∧ point.slot ≤ nTime)) = held := by
          apply List.filter_eq_self.mpr
          intro point member
          obtain ⟨-, place⟩ := holds.slot_of_mem found member
          simp only [place, within, and_false, not_false_eq_true, decide_true]
        rw [if_neg fun range => within range.2, kept, decide_eq_false within]
        rfl

theorem getElem?_put (holds : HoldsStanding ring unflushed cycle) (point : Point) {j : Nat} {seen : Bool}
    {held : List Point} (found : (ring.put points point.slot point).SCORE[j]? = some (seen, held)) :
    ∃ before held', ring.SCORE[j]? = some (before, held') ∧ seen = (before || decide (j ≤ point.slot)) ∧
      held = (held'.filter fun other => ¬ (other.cycle < cycle ∧ other.slot ≤ point.slot)) ++
        if point.slot = j then [point] else [] := by
  rw [DDOSScore.getElem?_put, Option.map_eq_some_iff] at found
  obtain ⟨⟨before, held'⟩, found, same⟩ := found
  refine ⟨before, held', found, ?_⟩
  dsimp only at same
  rw [holds.visit found] at same
  split at same
  · rename_i last
    rw [if_pos last]
    cases same
    exact ⟨rfl, rfl⟩
  · rename_i other
    rw [if_neg other, List.append_nil]
    cases same
    exact ⟨rfl, rfl⟩

theorem put {point : Point} (holds : HoldsStanding ring unflushed point.cycle)
    (inside : point.slot < ring.SCORE.length) :
    HoldsStanding (ring.put points point.slot point) (unflushed ++ [point]) point.cycle where
  contents found := by
    obtain ⟨before, held', stored, -, rfl⟩ := holds.getElem?_put point found
    rw [standing_append holds.latest, List.filter_append, List.filter_singleton, holds.contents stored,
      List.filter_comm]
    rw [Bool.cond_decide]
  seen found other member := by
    obtain ⟨before, held', stored, visited, rfl⟩ := holds.getElem?_put point found
    rcases List.mem_append.mp member with kept | added
    · obtain ⟨member, stands⟩ := List.mem_filter.mp kept
      obtain ⟨noted, place⟩ := holds.slot_of_mem stored member
      have latest := holds.latest other noted
      simp only [decide_eq_true_eq] at stands
      cases before with
      | true => exact holds.seen stored other member
      | false =>
          rw [Bool.false_or, eq_comm, decide_eq_true_eq] at visited
          omega
    · split at added
      · rw [List.mem_singleton.mp added]
      · cases added
  unseen found other member current := by
    obtain ⟨before, held', stored, visited, rfl⟩ := holds.getElem?_put point found
    rw [eq_comm, Bool.or_eq_false_iff, decide_eq_false_iff_not] at visited
    obtain ⟨rfl, beyond⟩ := visited
    rcases List.mem_append.mp member with noted | added
    · exact holds.unseen stored other noted current
    · rw [List.mem_singleton.mp added]
      exact Nat.not_le.mp beyond
  behind found before := by
    obtain ⟨_, held', -, visited, -⟩ := holds.getElem?_put point found
    have within : _ ≤ point.slot := Nat.le_of_lt before
    rw [visited, decide_eq_true within, Bool.or_true]
  latest other member := by
    rcases List.mem_append.mp member with noted | added
    · exact holds.latest other noted
    · rw [List.mem_singleton.mp added]
  inside other member := by
    rw [DDOSScore.length_put]
    rcases List.mem_append.mp member with noted | added
    · exact holds.inside other noted
    · rw [List.mem_singleton.mp added]
      exact inside

theorem add (holds : HoldsStanding ring unflushed cycle) (positive : 0 < ring.SCORE.length) {now : Nat} {point : Point}
    (slot : point.slot = (ring.turn now).2)
    (restarts : point.cycle = if ring.elapsed now ≥ ring.SCORE.length then cycle + 1 else cycle) :
    HoldsStanding (ring.add points now point) (unflushed ++ [point]) point.cycle := by
  have inside : point.slot < ring.SCORE.length := by
    rw [slot, DDOSScore.turn_eq]
    exact Nat.mod_lt _ positive
  rw [DDOSScore.add, ← slot]
  rw [DDOSScore.turn_eq]
  split at restarts
  · rename_i overflows
    rw [if_pos overflows]
    apply put (restarts ▸ holds.reset now)
    rw [DDOSScore.reset, List.length_map]
    exact inside
  · rename_i within
    rw [if_neg within]
    exact put (restarts ▸ holds) inside

theorem perm_counted (holds : HoldsStanding ring unflushed cycle) :
    (ring.SCORE.flatMap Prod.snd).Perm (standing Point.cycle Point.slot unflushed) := by
  let standing := standing Point.cycle Point.slot unflushed
  have slots : ring.SCORE.map Prod.snd =
      (List.range ring.SCORE.length).map fun j => standing.filter (·.slot = j) := by
    apply List.ext_getElem (by simp)
    intro j within _
    rw [List.getElem_map, List.getElem_map, List.getElem_range]
    rw [List.length_map] at within
    exact holds.contents (List.getElem?_eq_getElem within)
  have all : (standing.filter (·.slot < ring.SCORE.length)) = standing := by
    apply List.filter_eq_self.mpr
    intro point member
    exact decide_eq_true (holds.inside point (mem_standing.mp member).1)
  have perm := perm_flatMap_filter Point.slot standing ring.SCORE.length
  rw [all, List.flatMap_def, ← slots, ← List.flatMap_def] at perm
  exact perm

theorem mem_counted (holds : HoldsStanding ring unflushed cycle) (point : Point) :
    point ∈ ring.SCORE.flatMap Prod.snd ↔
      point ∈ unflushed ∧ ¬ Swept Point.cycle Point.slot unflushed point := by
  rw [holds.perm_counted.mem_iff, mem_standing]

end HoldsStanding

/-! ## The total of the source -/

def totalOf (held : List Point) : Int32 := (held.map Point.nScore).sum

theorem totalOf_append (held others : List Point) : totalOf (held ++ others) = totalOf held + totalOf others := by
  rw [totalOf, List.map_append, List.sum_append]
  rfl

theorem totalOf_zero : totalOf points.zero = scores.zero := rfl

theorem totalOf_plus (held : List Point) (point : Point) :
    totalOf (points.plus held point) = scores.plus (totalOf held) point.nScore := by
  show totalOf (held ++ [point]) = totalOf held + point.nScore
  rw [totalOf_append]
  congr 1
  exact Int32.add_zero _

theorem totalOf_perm {held others : List Point} (perm : held.Perm others) : totalOf held = totalOf others := by
  induction perm with
  | nil => rfl
  | cons point _ ih =>
      rw [← List.singleton_append, totalOf_append, ih, ← totalOf_append]
      rfl
  | swap first second rest =>
      have both (first second : Point) : first :: second :: rest = [first] ++ ([second] ++ rest) := rfl
      rw [both, both, totalOf_append, totalOf_append, totalOf_append [first], totalOf_append [second]]
      rw [← Int32.add_assoc, Int32.add_comm (totalOf [second]), Int32.add_assoc]
  | trans _ _ first second => exact first.trans second

theorem nMovingAverage_map (ring : DDOSScore (List Point)) :
    (ring.map totalOf).nMovingAverage = totalOf (ring.SCORE.flatMap Prod.snd) := by
  have sum (slots : List (Bool × List Point)) (before : Int32) :
      (slots.map fun slot => (slot.1, totalOf slot.2)).foldl (fun nMovingAverage slot => nMovingAverage + slot.2) before =
        before + totalOf (slots.flatMap Prod.snd) := by
    induction slots generalizing before with
    | nil => exact (Int32.add_zero before).symm
    | cons slot slots ih =>
        rw [List.map_cons, List.foldl_cons, ih, List.flatMap_cons, totalOf_append, Int32.add_assoc]
  exact (sum ring.SCORE 0).trans (Int32.zero_add _)

end PrimePool.LLP

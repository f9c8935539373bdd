import PrimePool.LLP.ScoreRing

/-!
# What a DDOS score forgets

The points of an addition leave the ring when an addition of a later cycle goes to their slot or to one behind it.
-/

namespace PrimePool.LLP

open PrimePool.General

/-- What the total behind a read is to count. -/
structure Forgets (nTimespan : Nat) (s : ScoreRun) : Prop where
  total : s.score.nMovingAverage = ((s.unflushed.filter (· ∈ s.counted)).map Point.nScore).sum
  recent : ∀ point ∈ s.unflushed, s.now < point.time + nTimespan → point ∈ s.counted
  old : ∀ point ∈ s.unflushed, point.time + 2 * nTimespan < s.now → point ∉ s.counted

def SweptAway (s : ScoreRun) (point : Point) : Prop := Swept Point.cycle Point.slot s.unflushed point

/-- Every old point is swept away. A recent one is not, except that a pause of 2^31 seconds, which the `int` does not
hold, can do it where the timespan is more than half as long. -/
def SweepsOld (nTimespan : Nat) (s : ScoreRun) : Prop :=
  ∀ point ∈ s.unflushed, (point.time + 2 * nTimespan < s.now → SweptAway s point) ∧
    (2 ^ 31 < 2 * nTimespan → s.now < point.time + nTimespan → ¬ SweptAway s point)

def AtReads (P : ScoreRun → Prop) (_ : ScoreRun) : ScoreEvent → ScoreRun → Prop
  | .read _, s => P s
  | _, _ => True

/-! ## The times of the points -/

theorem DDOSScore.elapsed_eq {α : Type} (s : DDOSScore α) (now : Nat) :
    s.elapsed now =
      if (now - s.TIMER) % 2 ^ 32 < 2 ^ 31 then (now - s.TIMER) % 2 ^ 32
      else 2 ^ 64 - 2 ^ 32 + (now - s.TIMER) % 2 ^ 32 := by
  have low : (now - s.TIMER).toUInt64.toNat % 2 ^ 32 = (now - s.TIMER) % 2 ^ 32 := by
    rw [Nat.toUInt64_eq, UInt64.toNat_ofNat']
    omega
  rw [elapsed, toNat_widenInt_narrowInt, low]

/-- A restart comes so late that what stands at the slot of the addition or below it is no longer recent. -/
theorem DDOSScore.restart_late {α : Type} {s : DDOSScore α} {nTimespan now : Nat} (wraps slot : Nat)
    (fits : 2 * nTimespan ≤ 2 ^ 31) (overflows : nTimespan ≤ s.elapsed now) (started : s.TIMER + 2 ^ 32 * wraps ≤ now)
    (inside : slot < nTimespan) (below : slot ≤ s.elapsed now % nTimespan) :
    s.TIMER + 2 ^ 32 * wraps + slot + nTimespan ≤ now := by
  rw [elapsed_eq] at overflows below
  split at overflows
  · rename_i short
    rw [if_pos short] at below
    have rest : ((now - s.TIMER) % 2 ^ 32) % nTimespan + nTimespan ≤ (now - s.TIMER) % 2 ^ 32 := by
      rw [Nat.mod_eq_sub_mod overflows]
      have less := Nat.mod_le ((now - s.TIMER) % 2 ^ 32 - nTimespan) nTimespan
      omega
    omega
  · omega

structure Timed (nTimespan TIMER now cycle : Nat) (unflushed : List Point) : Prop where
  started : TIMER ≤ now
  past : ∀ point ∈ unflushed, point.time ≤ now
  -- the seconds of a cycle wrap around at 2^32
  current : ∀ point ∈ unflushed, point.cycle = cycle →
    ∃ wraps, TIMER + 2 ^ 32 * wraps ≤ now ∧ point.time ≤ TIMER + 2 ^ 32 * wraps + point.slot
  earlier : ∀ point ∈ unflushed, point.cycle < cycle → point.time + nTimespan ≤ TIMER + point.slot
  apart : ∀ point ∈ unflushed, ∀ later ∈ unflushed, point.cycle < later.cycle → point.slot ≤ later.slot →
    point.time + nTimespan ≤ later.time

namespace Timed

variable {nTimespan TIMER now cycle : Nat} {unflushed : List Point}

theorem nil (nTimespan now cycle : Nat) : Timed nTimespan now now cycle [] where
  started := Nat.le_refl now
  past point member := by cases member
  current point member := by cases member
  earlier point member := by cases member
  apart point member := by cases member

theorem later (timed : Timed nTimespan TIMER now cycle unflushed) {time : Nat} (later : now ≤ time) :
    Timed nTimespan TIMER time cycle unflushed where
  started := Nat.le_trans timed.started later
  past point member := Nat.le_trans (timed.past point member) later
  current point member same := by
    obtain ⟨wraps, started, bound⟩ := timed.current point member same
    exact ⟨wraps, Nat.le_trans started later, bound⟩
  earlier := timed.earlier
  apart := timed.apart

theorem append {point : Point} (timed : Timed nTimespan TIMER point.time point.cycle unflushed)
    (latest : ∀ other ∈ unflushed, other.cycle ≤ point.cycle)
    (placed : ∃ wraps, TIMER + 2 ^ 32 * wraps ≤ point.time ∧ point.time ≤ TIMER + 2 ^ 32 * wraps + point.slot)
    (sweeps : ∀ other ∈ unflushed, other.cycle < point.cycle → other.slot ≤ point.slot →
      other.time + nTimespan ≤ point.time) :
    Timed nTimespan TIMER point.time point.cycle (unflushed ++ [point]) where
  started := timed.started
  past other member := by
    rcases List.mem_append.mp member with noted | added
    · exact timed.past other noted
    · rw [List.mem_singleton.mp added]
  current other member same := by
    rcases List.mem_append.mp member with noted | added
    · exact timed.current other noted same
    · rw [List.mem_singleton.mp added]
      exact placed
  earlier other member before := by
    rcases List.mem_append.mp member with noted | added
    · exact timed.earlier other noted before
    · rw [List.mem_singleton.mp added] at before
      exact absurd before (Nat.lt_irrefl _)
  apart other member later sweeping before below := by
    rcases List.mem_append.mp sweeping with noted' | added'
    · rcases List.mem_append.mp member with noted | added
      · exact timed.apart other noted later noted' before below
      · rw [List.mem_singleton.mp added] at before
        exact absurd (latest later noted') (Nat.not_le.mpr before)
    · rw [List.mem_singleton.mp added'] at before below ⊢
      rcases List.mem_append.mp member with noted | added
      · exact sweeps other noted before below
      · rw [List.mem_singleton.mp added] at before
        exact absurd before (Nat.lt_irrefl _)

variable (ring : DDOSScore (List Point)) (point : Point)

theorem add_within (timed : Timed nTimespan ring.TIMER point.time point.cycle unflushed)
    (fits : 2 * nTimespan ≤ 2 ^ 31) (within : ring.elapsed point.time < nTimespan)
    (slot : point.slot = ring.elapsed point.time) (latest : ∀ other ∈ unflushed, other.cycle ≤ point.cycle) :
    Timed nTimespan ring.TIMER point.time point.cycle (unflushed ++ [point]) := by
  have started := timed.started
  have elapsed : point.slot = (point.time - ring.TIMER) % 2 ^ 32 := by
    rw [DDOSScore.elapsed_eq] at within
    rw [slot, DDOSScore.elapsed_eq]
    split at within
    · rename_i short
      exact if_pos short
    · omega
  apply timed.append latest
  · exact ⟨(point.time - ring.TIMER) / 2 ^ 32, by omega, by omega⟩
  · intro other member before below
    have early := timed.earlier other member before
    omega

theorem add_overflow (timed : Timed nTimespan ring.TIMER point.time cycle unflushed) (fits : 2 * nTimespan ≤ 2 ^ 31)
    (positive : 0 < nTimespan) (overflows : nTimespan ≤ ring.elapsed point.time)
    (slot : point.slot = ring.elapsed point.time % nTimespan) (restarted : point.cycle = cycle + 1)
    (latest : ∀ other ∈ unflushed, other.cycle ≤ cycle) (inside : ∀ other ∈ unflushed, other.slot < nTimespan) :
    Timed nTimespan point.time point.time point.cycle (unflushed ++ [point]) := by
  -- what stands comes from the cycles before the restart
  have early (other : Point) (member : other ∈ unflushed) : other.time + nTimespan ≤ point.time + other.slot ∧
      (other.slot ≤ point.slot → other.time + nTimespan ≤ point.time) := by
    have place := inside other member
    rcases Nat.lt_or_eq_of_le (latest other member) with before | same
    · have bound := timed.earlier other member before
      have started := timed.started
      refine ⟨by omega, fun below => ?_⟩
      have late := DDOSScore.restart_late 0 other.slot fits overflows timed.started place (slot ▸ below)
      omega
    · obtain ⟨wraps, began, bound⟩ := timed.current other member same
      have late := DDOSScore.restart_late wraps 0 fits overflows began positive (Nat.zero_le _)
      refine ⟨by omega, fun below => ?_⟩
      have late := DDOSScore.restart_late wraps other.slot fits overflows began place (slot ▸ below)
      omega
  have turned : Timed nTimespan point.time point.time point.cycle unflushed := by
    refine ⟨Nat.le_refl _, timed.past, fun other member same => ?_, fun other member _ => (early other member).1, timed.apart⟩
    have bound := latest other member
    omega
  apply turned.append
  · intro other member
    rw [restarted]
    exact Nat.le_succ_of_le (latest other member)
  · exact ⟨0, Nat.le_refl _, Nat.le_add_right _ _⟩
  · intro other member _ below
    exact (early other member).2 below

end Timed

/-! ## Runs -/

structure Tracked (nTimespan : Nat) (s : ScoreRun) : Prop where
  holds : HoldsStanding s.ring s.unflushed s.cycle
  length : s.ring.SCORE.length = nTimespan
  score : s.score = s.ring.map totalOf
  timed : 2 * nTimespan ≤ 2 ^ 31 → Timed nTimespan s.ring.TIMER s.now s.cycle s.unflushed

namespace Tracked

variable {nTimespan : Nat} {s after : ScoreRun}

theorem start (nTimespan now : Nat) : Tracked nTimespan (.start nTimespan now) where
  holds := .new nTimespan now
  length := List.length_replicate
  score := by
    have map : (DDOSScore.new points nTimespan now).map totalOf = .new scores nTimespan now := DDOSScore.map_new totalOf_zero _ _
    exact map.symm
  timed _ := .nil nTimespan now 0

theorem add (tracked : Tracked nTimespan s) (positive : 0 < nTimespan) {time : Nat} (later : s.now ≤ time)
    (nScore : Int32) : Tracked nTimespan (s.add time nScore) where
  holds := tracked.holds.add (tracked.length ▸ positive) rfl rfl
  length := by
    have turned : (s.ring.turn time).1.SCORE.length = s.ring.SCORE.length := by
      rw [DDOSScore.turn_eq]
      dsimp only
      split
      · exact List.length_map _
      · rfl
    rw [← tracked.length, ← turned]
    exact DDOSScore.length_put _ _ _
  score := by
    let point : Point := { time, nScore, cycle := (s.add time nScore).cycle, slot := (s.ring.turn time).2 }
    have map : (s.ring.add points time point).map totalOf = (s.ring.map totalOf).add scores time nScore :=
      DDOSScore.map_add totalOf_zero (fun held => totalOf_plus held point) s.ring time
    rw [← tracked.score] at map
    exact map.symm
  timed fits := by
    let point : Point := { time, nScore, cycle := (s.add time nScore).cycle, slot := (s.ring.turn time).2 }
    have timed := (tracked.timed fits).later later
    have turn := DDOSScore.turn_eq s.ring time
    rw [tracked.length] at turn
    show Timed nTimespan (s.ring.turn time).1.TIMER point.time point.cycle (s.unflushed ++ [point])
    by_cases overflows : s.ring.elapsed time ≥ nTimespan
    · have restarted : point.cycle = s.cycle + 1 := if_pos (tracked.length ▸ overflows)
      have added := timed.add_overflow s.ring point fits positive overflows (congrArg Prod.snd turn) restarted
        tracked.holds.latest (tracked.length ▸ tracked.holds.inside)
      rw [turn, if_pos overflows]
      exact added
    · have same : point.cycle = s.cycle := if_neg (tracked.length ▸ overflows)
      rw [if_neg overflows, Nat.mod_eq_of_lt (Nat.not_le.mp overflows)] at turn
      rw [← same] at timed
      have added := timed.add_within s.ring point fits (Nat.not_le.mp overflows) (congrArg Prod.snd turn)
        (same ▸ tracked.holds.latest)
      rw [turn]
      exact added

theorem flush (tracked : Tracked nTimespan s) (time : Nat) : Tracked nTimespan (s.flush time) where
  holds := .flush s.ring s.cycle time
  length := by
    show (s.ring.flush points time).SCORE.length = nTimespan
    rw [DDOSScore.flush, DDOSScore.reset, List.length_map, List.length_map, tracked.length]
  score := by
    have map : (s.ring.flush points time).map totalOf = (s.ring.map totalOf).flush scores time :=
      DDOSScore.map_flush totalOf_zero s.ring time
    rw [← tracked.score] at map
    exact map.symm
  timed _ := .nil nTimespan time s.cycle

theorem read (tracked : Tracked nTimespan s) {time : Nat} (later : s.now ≤ time) :
    Tracked nTimespan { s with now := time } where
  holds := tracked.holds
  length := tracked.length
  score := tracked.score
  timed fits := (tracked.timed fits).later later

theorem step (tracked : Tracked nTimespan s) (positive : 0 < nTimespan) {event : ScoreEvent}
    (taken : s.step event = some after) : Tracked nTimespan after := by
  unfold ScoreRun.step at taken
  split at taken
  · cases taken
  · rename_i notEarlier
    have later := Nat.not_lt.mp notEarlier
    cases event with
    | add time nScore => exact Option.some.inj taken ▸ tracked.add positive later nScore
    | flush time => exact Option.some.inj taken ▸ tracked.flush time
    | read time => exact Option.some.inj taken ▸ tracked.read later

theorem total (tracked : Tracked nTimespan s) :
    s.score.nMovingAverage = ((s.unflushed.filter (· ∈ s.counted)).map Point.nScore).sum := by
  have counted : (s.unflushed.filter (· ∈ s.counted)) = standing Point.cycle Point.slot s.unflushed := by
    apply List.filter_congr
    intro point member
    rw [decide_eq_decide, ScoreRun.counted, tracked.holds.mem_counted, and_iff_right member]
  rw [tracked.score, nMovingAverage_map, totalOf_perm tracked.holds.perm_counted, counted]
  rfl

theorem forgets_iff (tracked : Tracked nTimespan s) : Forgets nTimespan s ↔ SweepsOld nTimespan s := by
  have counted (point : Point) (member : point ∈ s.unflushed) : point ∈ s.counted ↔ ¬ SweptAway s point :=
    (tracked.holds.mem_counted point).trans (and_iff_right member)
  constructor
  · intro forgets point member
    refine ⟨fun old => ?_, fun _ recent => ?_⟩
    · by_contra stands
      exact forgets.old point member old ((counted point member).mpr stands)
    · exact (counted point member).mp (forgets.recent point member recent)
  · intro sweeps
    refine ⟨tracked.total, fun point member recent => ?_, fun point member old => ?_⟩
    · rw [counted point member]
      by_cases fits : 2 * nTimespan ≤ 2 ^ 31
      · rintro ⟨later, sweeping, before, below⟩
        have timed := tracked.timed fits
        have apart := timed.apart point member later sweeping before below
        have past := timed.past later sweeping
        omega
      · exact (sweeps point member).2 (Nat.not_le.mp fits) recent
    · rw [counted point member, not_not]
      exact (sweeps point member).1 old

end Tracked

theorem reads_forget_iff (nTimespan now : Nat) (positive : 0 < nTimespan) (events : List ScoreEvent) :
    EachStep ScoreRun.step (AtReads (Forgets nTimespan)) events (.start nTimespan now) ↔
      EachStep ScoreRun.step (AtReads (SweepsOld nTimespan)) events (.start nTimespan now) := by
  have each {s after : ScoreRun} {event : ScoreEvent} (tracked : Tracked nTimespan s)
      (taken : s.step event = some after) :
      AtReads (Forgets nTimespan) s event after ↔ AtReads (SweepsOld nTimespan) s event after := by
    cases event with
    | add | flush => exact Iff.rfl
    | read time => exact (tracked.step positive taken).forgets_iff
  constructor
  · apply EachStep.of_invariant (Tracked nTimespan) _ (.start nTimespan now)
    intro s event after tracked taken forgets
    exact ⟨tracked.step positive taken, (each tracked taken).mp forgets⟩
  · apply EachStep.of_invariant (Tracked nTimespan) _ (.start nTimespan now)
    intro s event after tracked taken sweeps
    exact ⟨tracked.step positive taken, (each tracked taken).mpr sweeps⟩

theorem ten_seconds_forget_iff :
    EachStep ScoreRun.step (AtReads (Forgets 10)) [.add 0 1, .read 100] (.start 10 0) ↔
      EachStep ScoreRun.step (AtReads (SweepsOld 10)) [.add 0 1, .read 100] (.start 10 0) :=
  reads_forget_iff 10 0 (by decide) _

instance (nTimespan : Nat) (s : ScoreRun) : Decidable (Forgets nTimespan s) :=
  decidable_of_iff
    (s.score.nMovingAverage = ((s.unflushed.filter (· ∈ s.counted)).map Point.nScore).sum ∧
      (∀ point ∈ s.unflushed, s.now < point.time + nTimespan → point ∈ s.counted) ∧
      ∀ point ∈ s.unflushed, point.time + 2 * nTimespan < s.now → point ∉ s.counted)
    ⟨fun ⟨total, recent, old⟩ => ⟨total, recent, old⟩, fun forgets => ⟨forgets.total, forgets.recent, forgets.old⟩⟩

instance (P : ScoreRun → Prop) [DecidablePred P] (s after : ScoreRun) (event : ScoreEvent) :
    Decidable (AtReads P s event after) := by
  cases event with
  | add | flush => exact isTrue trivial
  | read time => exact inferInstanceAs (Decidable (P after))

/-- A read does not age the ring, and an addition after a pause ages the slots up to its own. -/
theorem old_points_counted :
    ¬ EachStep ScoreRun.step (AtReads (Forgets 10)) [.add 0 1, .read 100] (.start 10 0) ∧
      ¬ EachStep ScoreRun.step (AtReads (Forgets 10)) [.add 5 1, .add 1000 1, .read 1000] (.start 10 0) := by
  decide +kernel

end PrimePool.LLP

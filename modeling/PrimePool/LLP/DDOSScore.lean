import PrimePool.CoinbaseAmounts
import PrimePool.General.Machine
import PrimePool.General.Sweeps

/-!
# The DDOS score

`LLP/types.h`: a ring of seconds that later additions age. An addition at `nTimespan` seconds or more restarts the
timer and goes to the slot of the remainder; every addition clears the slots up to its own that no addition of its
cycle has visited.
-/

namespace PrimePool.LLP

open PrimePool.General

structure Tally (ι α : Type) where
  zero : α
  plus : α → ι → α

structure DDOSScore (α : Type) where
  SCORE : List (Bool × α)
  /-- The second in which the timer was started. -/
  TIMER : Nat
  nIterator : Nat

namespace DDOSScore

variable {ι α : Type} (tally : Tally ι α)

def new (nTimespan now : Nat) : DDOSScore α :=
  { SCORE := List.replicate nTimespan (true, tally.zero), TIMER := now, nIterator := 0 }

def reset (s : DDOSScore α) (now : Nat) : DDOSScore α :=
  { SCORE := s.SCORE.map fun slot => (false, slot.2), TIMER := now, nIterator := 0 }

def flush (s : DDOSScore α) (now : Nat) : DDOSScore α :=
  let s := s.reset now
  { s with SCORE := s.SCORE.map fun slot => (slot.1, tally.zero) }

/-- `int nTime = TIMER.Elapsed()`, as it compares with a size. -/
def elapsed (s : DDOSScore α) (now : Nat) : Nat := (widenInt (narrowInt (now - s.TIMER).toUInt64)).toNat

/-- The score and the slot of an addition, after a restart if it is due. -/
def turn (s : DDOSScore α) (now : Nat) : DDOSScore α × Nat :=
  let nTime := s.elapsed now
  if nTime ≥ s.SCORE.length then (s.reset now, nTime % s.SCORE.length) else (s, nTime)

def visit (slot : Bool × α) : Bool × α := if slot.1 then slot else (true, tally.zero)

def put (s : DDOSScore α) (nTime : Nat) (nScore : ι) : DDOSScore α :=
  let SCORE := (List.range' s.nIterator (nTime + 1 - s.nIterator)).foldl
    (fun SCORE i => SCORE.modify i (visit tally)) s.SCORE
  { s with
    SCORE := SCORE.modify nTime fun slot => (slot.1, tally.plus slot.2 nScore)
    nIterator := nTime }

def add (s : DDOSScore α) (now : Nat) (nScore : ι) : DDOSScore α :=
  (s.turn now).1.put tally (s.turn now).2 nScore

end DDOSScore

def scores : Tally Int32 Int32 := { zero := 0, plus := (· + ·) }

def DDOSScore.nMovingAverage (s : DDOSScore Int32) : Int32 := s.SCORE.foldl (fun nMovingAverage slot => nMovingAverage + slot.2) 0

/-- The quotient is one of sizes. -/
def DDOSScore.score (s : DDOSScore Int32) : Int32 :=
  (widenInt s.nMovingAverage / s.SCORE.length.toUInt64).toUInt32.toInt32

/-! ## Additions, flushes and reads -/

/-- An addition. Its cycle is the number of restarts before it. -/
structure Point where
  time : Nat
  nScore : Int32
  cycle : Nat
  slot : Nat
deriving DecidableEq

/-- A tally of the additions themselves. -/
def points : Tally Point (List Point) := { zero := [], plus := fun held point => held ++ [point] }

structure ScoreRun where
  score : DDOSScore Int32
  /-- The same ring with the additions that its slots hold. -/
  ring : DDOSScore (List Point)
  /-- The additions since the last flush. -/
  unflushed : List Point
  cycle : Nat
  now : Nat

inductive ScoreEvent where
  | add (time : Nat) (nScore : Int32)
  | flush (time : Nat)
  | read (time : Nat)

def ScoreEvent.time : ScoreEvent → Nat
  | .add time _ | .flush time | .read time => time

namespace ScoreRun

def start (nTimespan now : Nat) : ScoreRun :=
  { score := .new scores nTimespan now, ring := .new points nTimespan now, unflushed := [], cycle := 0, now }

def add (s : ScoreRun) (time : Nat) (nScore : Int32) : ScoreRun :=
  let cycle := if s.ring.elapsed time ≥ s.ring.SCORE.length then s.cycle + 1 else s.cycle
  let point := { time, nScore, cycle, slot := (s.ring.turn time).2 }
  { score := s.score.add scores time nScore
    ring := s.ring.add points time point
    unflushed := s.unflushed ++ [point]
    cycle
    now := time }

def flush (s : ScoreRun) (time : Nat) : ScoreRun :=
  { s with score := s.score.flush scores time, ring := s.ring.flush points time, unflushed := [], now := time }

def step (s : ScoreRun) (event : ScoreEvent) : Option ScoreRun :=
  if event.time < s.now then none
  else
    match event with
    | .add time nScore => some (s.add time nScore)
    | .flush time => some (s.flush time)
    | .read time => some { s with now := time }

def counted (s : ScoreRun) : List Point := s.ring.SCORE.flatMap Prod.snd

end ScoreRun

end PrimePool.LLP

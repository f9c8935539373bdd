import Mathlib.Data.List.Nodup
import PrimePool.Core.ShareAcceptance
import PrimePool.General.Machine
import PrimePool.LLP.PoolConnection

/-!
# Duplicate shares

The connections process their shares at the same time. A share is tested against `PRIMES_MAP` before its prime is
verified and entered into the map after that, each under `PRIMES_MUTEX`; the account is read and stored back by two
calls of the database. Shares of a client that is not logged in, and those that name no block of the connection or
an old one, do not get this far.
-/

namespace PrimePool.LLP

open PrimePool.Core PrimePool.General Std

/-- Where `ProcessPacket` is with the share of a connection. -/
inductive Processing where
  | idle
  | verify (ADDRESS : StdString) (hashPrime : Uint1024)
  | insert (ADDRESS : StdString) (hashPrime : Uint1024)
  | getRecord (ADDRESS : StdString) (hashPrime : Uint1024)
  | updateRecord (hashPrime : Uint1024) (cAccount : LLD.Account)

structure ShareThreads where
  PRIMES_MAP : ExtTreeSet Uint1024
  databases : Databases
  connections : List Processing
  /-- The primes whose weight has been added to an account. -/
  credited : List Uint1024

inductive ShareEvent where
  | submitShare (nConnection : Nat) (ADDRESS : StdString) (hashPrimeOrigin : Uint1024) (nNonce : UInt64)
  | next (nConnection : Nat)
  | databaseCall (op : DatabaseCall)

namespace ShareThreads

def start (databases : Databases) (nConnections : Nat) : ShareThreads where
  PRIMES_MAP := ∅
  databases
  connections := List.replicate nConnections .idle
  credited := []

def setConnection (s : ShareThreads) (nConnection : Nat) (processing : Processing) : ShareThreads :=
  { s with connections := s.connections.set nConnection processing }

def next (verification : Verification) (s : ShareThreads) (nConnection : Nat) : Processing → Option ShareThreads
  | .idle => none
  | .verify ADDRESS hashPrime =>
      if verification.fAccepted hashPrime then some (s.setConnection nConnection (.insert ADDRESS hashPrime))
      else some (s.setConnection nConnection .idle)
  | .insert ADDRESS hashPrime =>
      let PRIMES_MAP := if hashPrime ∈ s.PRIMES_MAP then s.PRIMES_MAP else s.PRIMES_MAP.insert hashPrime
      some ({ s with PRIMES_MAP }.setConnection nConnection (.getRecord ADDRESS hashPrime))
  | .getRecord ADDRESS hashPrime =>
      let (cAccount, databases) := perform (.getAccount .processPacket ADDRESS) s.databases
      let cAccount := { cAccount with nRoundShares := cAccount.nRoundShares + verification.nWeight hashPrime }
      some ({ s with databases }.setConnection nConnection (.updateRecord hashPrime cAccount))
  | .updateRecord hashPrime cAccount =>
      let databases := (perform (.updateAccount .processPacket cAccount) s.databases).2
      some ({ s with databases, credited := s.credited ++ [hashPrime] }.setConnection nConnection .idle)

def step (verification : Verification) (s : ShareThreads) : ShareEvent → Option ShareThreads
  | .submitShare nConnection ADDRESS hashPrimeOrigin nNonce => do
      let .idle ← s.connections[nConnection]? | none
      let hashPrime := hashPrimeOf hashPrimeOrigin nNonce
      if hashPrime ∈ s.PRIMES_MAP then return s
      else return s.setConnection nConnection (.verify ADDRESS hashPrime)
  | .next nConnection => do
      let processing ← s.connections[nConnection]?
      s.next verification nConnection processing
  | .databaseCall op => some { s with databases := (perform op s.databases).2 }

/-- Without a step of another thread between them the two calls are `acceptShare`. -/
theorem credit_eq_acceptShare {verification : Verification} {s : ShareThreads} {nConnection : Nat}
    {ADDRESS : StdString} {hashPrime : Uint1024}
    (found : s.connections[nConnection]? = some (.getRecord ADDRESS hashPrime)) :
    ((s.step verification (.next nConnection)).bind fun s => s.step verification (.next nConnection)) =
      some ({ s with
        databases := (run perform (acceptShare ADDRESS (verification.nWeight hashPrime)) s.databases).2
        credited := s.credited ++ [hashPrime] }.setConnection nConnection .idle) := by
  obtain ⟨inside, -⟩ := List.getElem?_eq_some_iff.mp found
  simp only [step, found, Option.bind_eq_bind, Option.bind_some, next, setConnection]
  rw [List.getElem?_set_self inside]
  simp only [Option.bind_some, List.set_set]
  rfl

/-- The prime a connection has entered into `PRIMES_MAP` and not yet credited. -/
def entered : Processing → Option Uint1024
  | .getRecord _ hashPrime => some hashPrime
  | .updateRecord hashPrime _ => some hashPrime
  | _ => none

def claims (s : ShareThreads) (hashPrime : Uint1024) : Nat :=
  s.credited.count hashPrime + s.connections.countP fun processing => entered processing = some hashPrime

def entering : Processing → Option Uint1024
  | .insert _ hashPrime => some hashPrime
  | _ => none

/-- The prime a connection is about to enter is not in the map: no other share of it was entered since the test. -/
def EntersNew (s : ShareThreads) : ShareEvent → Prop
  | .next nConnection =>
      ∀ processing ∈ s.connections[nConnection]?, ∀ hashPrime ∈ entering processing, hashPrime ∉ s.PRIMES_MAP
  | _ => True

instance (s : ShareThreads) (event : ShareEvent) : Decidable (s.EntersNew event) := by
  cases event with
  | next nConnection =>
      exact inferInstanceAs (Decidable
        (∀ processing ∈ s.connections[nConnection]?, ∀ hashPrime ∈ entering processing, ¬ hashPrime ∈ s.PRIMES_MAP))
  | submitShare nConnection ADDRESS hashPrimeOrigin nNonce => exact isTrue trivial
  | databaseCall op => exact isTrue trivial

/-- A prime is credited or about to be at most once, and then it is in the map. -/
def ClaimedOnce (s : ShareThreads) : Prop :=
  ∀ hashPrime, s.claims hashPrime ≤ 1 ∧ (0 < s.claims hashPrime → hashPrime ∈ s.PRIMES_MAP)

variable {verification : Verification} {s after : ShareThreads} {nConnection : Nat} {before processing : Processing}

theorem claims_setConnection (found : s.connections[nConnection]? = some before) (processing : Processing)
    (hashPrime : Uint1024) :
    (s.setConnection nConnection processing).claims hashPrime + (if entered before = some hashPrime then 1 else 0) =
      s.claims hashPrime + (if entered processing = some hashPrime then 1 else 0) := by
  obtain ⟨inside, stored⟩ := List.getElem?_eq_some_iff.mp found
  have least := List.boole_getElem_le_countP (p := fun processing => decide (entered processing = some hashPrime)) inside
  have counted := List.countP_set (p := fun processing => decide (entered processing = some hashPrime))
    (a := processing) inside
  simp only [stored, decide_eq_true_eq] at least counted
  simp only [claims, setConnection, counted]
  omega

theorem ClaimedOnce.of_same (claimed : s.ClaimedOnce) (claims : ∀ hashPrime, after.claims hashPrime = s.claims hashPrime)
    (primes : after.PRIMES_MAP = s.PRIMES_MAP) : after.ClaimedOnce := by
  intro hashPrime
  rw [claims, primes]
  exact claimed hashPrime

theorem ClaimedOnce.enter (claimed : s.ClaimedOnce) {ADDRESS : StdString} {hashPrime : Uint1024}
    (found : s.connections[nConnection]? = some (.insert ADDRESS hashPrime)) (new : hashPrime ∉ s.PRIMES_MAP)
    (taken : s.next verification nConnection (.insert ADDRESS hashPrime) = some after) : after.ClaimedOnce := by
  simp only [next, if_neg new] at taken
  cases taken
  intro other
  have claims : ({ s with PRIMES_MAP := s.PRIMES_MAP.insert hashPrime }.setConnection nConnection
      (.getRecord ADDRESS hashPrime)).claims other = s.claims other + (if hashPrime = other then 1 else 0) := by
    have moved := claims_setConnection found (.getRecord ADDRESS hashPrime) other
    simp only [entered, Option.some.injEq] at moved
    exact moved
  rw [claims]
  have before := claimed other
  by_cases same : hashPrime = other
  · subst same
    have unclaimed : s.claims hashPrime = 0 := Nat.eq_zero_of_not_pos fun positive => new (before.2 positive)
    rw [unclaimed, if_pos rfl]
    exact ⟨Nat.le_refl 1, fun _ => ExtTreeSet.mem_insert_self⟩
  · rw [if_neg same, Nat.add_zero]
    exact ⟨before.1, fun positive => ExtTreeSet.mem_insert.mpr (Or.inr (before.2 positive))⟩

theorem ClaimedOnce.next (claimed : s.ClaimedOnce) (found : s.connections[nConnection]? = some processing)
    (taken : s.next verification nConnection processing = some after)
    (enters : s.EntersNew (.next nConnection)) : after.ClaimedOnce := by
  cases processing with
  | idle => cases taken
  | verify ADDRESS hashPrime =>
      simp only [ShareThreads.next] at taken
      split at taken
      · cases taken
        exact claimed.of_same (claims_setConnection found _) rfl
      · cases taken
        exact claimed.of_same (claims_setConnection found _) rfl
  | insert ADDRESS hashPrime => exact claimed.enter found (enters _ found hashPrime rfl) taken
  | getRecord ADDRESS hashPrime =>
      cases taken
      refine claimed.of_same (fun other => ?_) rfl
      exact Nat.add_right_cancel (claims_setConnection found (.updateRecord hashPrime _) other)
  | updateRecord hashPrime cAccount =>
      cases taken
      refine claimed.of_same (fun other => ?_) rfl
      have moved := claims_setConnection found .idle other
      simp only [entered, Option.some.injEq, reduceCtorEq, if_false, Nat.add_zero] at moved
      rw [← moved]
      simp only [claims, setConnection, List.count_append, List.count_singleton, beq_iff_eq]
      omega

theorem ClaimedOnce.step (claimed : s.ClaimedOnce) (event : ShareEvent)
    (taken : s.step verification event = some after) (enters : s.EntersNew event) : after.ClaimedOnce := by
  cases event with
  | submitShare nConnection ADDRESS hashPrimeOrigin nNonce =>
      simp only [ShareThreads.step] at taken
      obtain ⟨processing, found, tested⟩ := Option.bind_eq_some_iff.mp taken
      cases processing with
      | idle =>
          dsimp only at tested
          split at tested
          · cases tested
            exact claimed
          · cases tested
            exact claimed.of_same (claims_setConnection found _) rfl
      | _ => cases tested
  | next nConnection =>
      obtain ⟨processing, found, moved⟩ := Option.bind_eq_some_iff.mp taken
      exact claimed.next found moved enters
  | databaseCall op =>
      cases taken
      exact claimed.of_same (fun _ => rfl) rfl

/-- Where every share enters a prime that is not in the map yet, no prime is credited twice. -/
theorem credited_once (verification : Verification) (databases : Databases) (nConnections : Nat)
    (events : List ShareEvent)
    (enters : EachStep (step verification) (fun s event _ => s.EntersNew event) events (start databases nConnections)) :
    EachStep (step verification) (fun _ _ after => after.credited.Nodup) events (start databases nConnections) := by
  refine EachStep.of_invariant ClaimedOnce ?_ ?_ enters
  · intro s event after claimed taken meets
    have next := claimed.step event taken meets
    refine ⟨next, List.nodup_iff_count_le_one.mpr fun hashPrime => ?_⟩
    exact Nat.le_trans (Nat.le_add_right _ _) (next hashPrime).1
  · intro hashPrime
    have none : (start databases nConnections).claims hashPrime = 0 := by
      simp [claims, start, List.countP_replicate, entered]
    rw [none]
    exact ⟨Nat.zero_le 1, fun positive => absurd positive (Nat.lt_irrefl 0)⟩

theorem credited_once_single :
    EachStep (step allAccepted) (fun _ _ after => after.credited.Nodup)
      [.submitShare 0 [77] (.ofUInt64 5) 2, .next 0, .next 0, .next 0, .next 0, .submitShare 1 [78] (.ofUInt64 4) 3]
      (start oneAccount 2) :=
  credited_once allAccepted oneAccount 2 _ (by decide +kernel)

theorem one_prime_credited_twice :
    ¬ EachStep (step allAccepted) (fun _ _ after => after.credited.Nodup)
      [.submitShare 0 [77] (.ofUInt64 5) 2, .submitShare 1 [78] (.ofUInt64 4) 3, .next 0, .next 1, .next 0, .next 1,
        .next 0, .next 1, .next 0, .next 1]
      (start oneAccount 2) := by
  decide +kernel

end ShareThreads

end PrimePool.LLP

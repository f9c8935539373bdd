import PrimePool.Core.ConnectionCounts

/-!
# Connection slots

`AssignConnection` and `RemoveConnection` of `LLP/daemon.cpp` with what a pool connection keeps of them: its handle, its
slot and its `GUID`. A connection is known by its pointer.
-/

namespace PrimePool.LLP

open PrimePool.Core PrimePool.General

variable {Pointer : Type}

structure HandleSlots (Pointer : Type) where
  ID : UInt32
  CONNECTIONS : List (Option Pointer)
  nTotalConnections : UInt32

namespace HandleSlots

def new (nID : UInt32) : HandleSlots Pointer := { ID := nID, CONNECTIONS := [], nTotalConnections := 0 }

def findConnection (handle : HandleSlots Pointer) : Option Nat := handle.CONNECTIONS.findIdx? Option.isNone

def assignConnection (handle : HandleSlots Pointer) (pConnection : Pointer) : Nat × HandleSlots Pointer :=
  let (nID, CONNECTIONS) :=
    match handle.findConnection with
    | some nID => (nID, handle.CONNECTIONS)
    | none => (handle.CONNECTIONS.length, handle.CONNECTIONS ++ [none])
  (nID, { handle with
    CONNECTIONS := CONNECTIONS.set nID (some pConnection)
    nTotalConnections := handle.nTotalConnections + 1 })

def removeConnection (handle : HandleSlots Pointer) (nIndex : Nat) : HandleSlots Pointer :=
  { handle with
    CONNECTIONS := handle.CONNECTIONS.set nIndex none
    nTotalConnections := handle.nTotalConnections - 1 }

theorem assignConnection_eq (handle : HandleSlots Pointer) (pConnection : Pointer) :
    handle.assignConnection pConnection =
      ((fill handle.CONNECTIONS pConnection).1,
        { handle with
          CONNECTIONS := (fill handle.CONNECTIONS pConnection).2
          nTotalConnections := handle.nTotalConnections + 1 }) := by
  unfold assignConnection findConnection fill
  cases handle.CONNECTIONS.findIdx? Option.isNone with
  | none => simp
  | some nID => rfl

end HandleSlots

/-- The handles of `Core/Pool` have these slots. -/
def slotsOf (nDaemon : UInt32) (handle : Core.DaemonHandle) : HandleSlots Core.PoolConnection where
  ID := nDaemon
  CONNECTIONS := handle.CONNECTIONS
  nTotalConnections := handle.nTotalConnections

theorem slotsOf_assignConnection (nDaemon : UInt32) (handle : Core.DaemonHandle) (connection : Core.PoolConnection) :
    slotsOf nDaemon (handle.assignConnection connection) =
      ((slotsOf nDaemon handle).assignConnection connection).2 := by
  rw [HandleSlots.assignConnection_eq, slotsOf, Pool.CONNECTIONS_assignConnection]
  rfl

theorem slotsOf_removeConnection (nDaemon : UInt32) (handle : Core.DaemonHandle) (nIndex : Nat) :
    slotsOf nDaemon (handle.removeConnection nIndex) = (slotsOf nDaemon handle).removeConnection nIndex := rfl

/-! ## Calls -/

/-- What a pool connection has since its connect event. -/
structure Assigned (Pointer : Type) where
  nDaemon : Nat
  nID : Nat
  pConnection : Pointer
  GUID : StdString

structure HandleConnections (Pointer : Type) where
  DAEMON_CONNECTIONS : List (HandleSlots Pointer)
  /-- Those that are not removed, the last one first. -/
  assigned : List (Assigned Pointer)

inductive SlotCall (Pointer : Type) where
  | assignConnection (nDaemon : Nat) (pConnection : Pointer)
  | removeConnection (nDaemon nID : Nat)

namespace HandleConnections

def start (IDs : List UInt32) : HandleConnections Pointer where
  DAEMON_CONNECTIONS := IDs.map HandleSlots.new
  assigned := []

def step (s : HandleConnections Pointer) : SlotCall Pointer → Option (HandleConnections Pointer)
  | .assignConnection nDaemon pConnection => do
      let handle ← s.DAEMON_CONNECTIONS[nDaemon]?
      let (nID, handle') := handle.assignConnection pConnection
      let GUID := connectionGUID handle.ID.toNat nID
      return { DAEMON_CONNECTIONS := s.DAEMON_CONNECTIONS.set nDaemon handle'
               assigned := { nDaemon, nID, pConnection, GUID } :: s.assigned }
  | .removeConnection nDaemon nID => do
      let handle ← s.DAEMON_CONNECTIONS[nDaemon]?
      if s.assigned.any fun connection => connection.nDaemon = nDaemon ∧ connection.nID = nID then
        return { DAEMON_CONNECTIONS := s.DAEMON_CONNECTIONS.set nDaemon (handle.removeConnection nID)
                 assigned := s.assigned.filter fun connection => ¬ (connection.nDaemon = nDaemon ∧ connection.nID = nID) }
      else none

def rows (s : HandleConnections Pointer) : List (List (Option Pointer)) :=
  s.DAEMON_CONNECTIONS.map HandleSlots.CONNECTIONS

/-- The counter of a handle has 32 bits. -/
structure SlotsUnique (s : HandleConnections Pointer) : Prop where
  counted (handle : HandleSlots Pointer) : handle ∈ s.DAEMON_CONNECTIONS →
    handle.nTotalConnections = UInt32.ofNat (occupied handle.CONNECTIONS)
  total (handle : HandleSlots Pointer) : handle ∈ s.DAEMON_CONNECTIONS → occupied handle.CONNECTIONS < 2 ^ 32 →
    handle.nTotalConnections.toNat = occupied handle.CONNECTIONS
  found (connection : Assigned Pointer) : connection ∈ s.assigned →
    entry s.rows connection.nDaemon connection.nID = some (some connection.pConnection)
  live (nDaemon nID : Nat) (pConnection : Pointer) : entry s.rows nDaemon nID = some (some pConnection) →
    ∃ connection ∈ s.assigned, connection.nDaemon = nDaemon ∧ connection.nID = nID
  names : (s.assigned.map Assigned.GUID).Nodup

structure Invariant (IDs : List UInt32) (s : HandleConnections Pointer) : Prop where
  counted (handle : HandleSlots Pointer) : handle ∈ s.DAEMON_CONNECTIONS →
    handle.nTotalConnections = UInt32.ofNat (occupied handle.CONNECTIONS)
  held (nDaemon nID : Nat) (pConnection : Pointer) : entry s.rows nDaemon nID = some (some pConnection) ↔
    ∃ connection ∈ s.assigned,
      connection.nDaemon = nDaemon ∧ connection.nID = nID ∧ connection.pConnection = pConnection
  once : (s.assigned.map fun connection => (connection.nDaemon, connection.nID)).Nodup
  IDs_eq : s.DAEMON_CONNECTIONS.map HandleSlots.ID = IDs
  named (connection : Assigned Pointer) : connection ∈ s.assigned →
    ∃ ID : UInt32, IDs[connection.nDaemon]? = some ID ∧ connection.GUID = connectionGUID ID.toNat connection.nID

variable {IDs : List UInt32} {s after : HandleConnections Pointer} {nDaemon nID : Nat} {handle handle' : HandleSlots Pointer}

theorem invariant_start (IDs : List UInt32) : Invariant IDs (start IDs : HandleConnections Pointer) where
  counted handle member := by
    obtain ⟨nID, -, rfl⟩ := List.mem_map.mp member
    rfl
  held nDaemon nID pConnection := by
    simp only [start, rows, entry, List.map_map, List.getElem?_map]
    cases IDs[nDaemon]? <;> simp [HandleSlots.new]
  once := List.nodup_nil
  IDs_eq := by
    rw [start, List.map_map]
    exact List.map_id IDs
  named _ member := nomatch member

theorem entry_setSlots (found : s.DAEMON_CONNECTIONS[nDaemon]? = some handle) (handle' : HandleSlots Pointer) (nID : Nat)
    (slot : Option Pointer)
    (changed : ∀ j, handle'.CONNECTIONS[j]? = if nID = j then some slot else handle.CONNECTIONS[j]?) (i j : Nat) :
    entry ((s.DAEMON_CONNECTIONS.set nDaemon handle').map HandleSlots.CONNECTIONS) i j =
      if nDaemon = i ∧ nID = j then some slot else entry s.rows i j := by
  have row : s.rows[nDaemon]? = some handle.CONNECTIONS := by rw [rows, List.getElem?_map, found, Option.map_some]
  rw [List.map_set, ← rows, entry_set row]
  by_cases same : nDaemon = i
  · subst same
    rw [if_pos rfl, changed j, entry, row]
    simp only [true_and]
    rfl
  · rw [if_neg same, if_neg fun both => same both.1]

theorem counted_set (counted : ∀ handle ∈ s.DAEMON_CONNECTIONS,
      handle.nTotalConnections = UInt32.ofNat (occupied handle.CONNECTIONS))
    (own : handle'.nTotalConnections = UInt32.ofNat (occupied handle'.CONNECTIONS)) :
    ∀ handle ∈ s.DAEMON_CONNECTIONS.set nDaemon handle',
      handle.nTotalConnections = UInt32.ofNat (occupied handle.CONNECTIONS) := by
  intro other member
  rcases List.mem_or_eq_of_mem_set member with before | rfl
  · exact counted other before
  · exact own

theorem IDs_set (found : s.DAEMON_CONNECTIONS[nDaemon]? = some handle) (handle' : HandleSlots Pointer)
    (same : handle'.ID = handle.ID) :
    (s.DAEMON_CONNECTIONS.set nDaemon handle').map HandleSlots.ID = s.DAEMON_CONNECTIONS.map HandleSlots.ID := by
  rw [List.map_set, same]
  apply set_same
  rw [List.getElem?_map, found, Option.map_some]

/-- What a table of slots holds is what the connections were given. -/
def Held (slots : Nat → Nat → Option (Option Pointer)) (assigned : List (Assigned Pointer)) : Prop :=
  ∀ nDaemon nID pConnection, slots nDaemon nID = some (some pConnection) ↔
    ∃ connection ∈ assigned, connection.nDaemon = nDaemon ∧ connection.nID = nID ∧ connection.pConnection = pConnection

section Held

variable {slots slots' : Nat → Nat → Option (Option Pointer)} {assigned : List (Assigned Pointer)} {own : Assigned Pointer}

theorem Held.fresh (held : Held slots assigned) (vacant : ∀ other, slots nDaemon nID ≠ some (some other))
    (connection : Assigned Pointer) (member : connection ∈ assigned) :
    ¬ (connection.nDaemon = nDaemon ∧ connection.nID = nID) := by
  rintro ⟨rfl, rfl⟩
  exact vacant _ ((held _ _ _).mpr ⟨connection, member, rfl, rfl, rfl⟩)

theorem Held.cons (held : Held slots assigned) (vacant : ∀ other, slots own.nDaemon own.nID ≠ some (some other))
    (filled : ∀ i j, slots' i j = if own.nDaemon = i ∧ own.nID = j then some (some own.pConnection) else slots i j) :
    Held slots' (own :: assigned) := by
  intro i j other
  rw [filled i j]
  split
  · rename_i here
    obtain ⟨rfl, rfl⟩ := here
    constructor
    · intro same
      exact ⟨own, List.mem_cons_self, rfl, rfl, Option.some.inj (Option.some.inj same)⟩
    · rintro ⟨connection, member, onDaemon, atSlot, rfl⟩
      rcases List.mem_cons.mp member with rfl | before
      · rfl
      · exact absurd ⟨onDaemon, atSlot⟩ (held.fresh vacant connection before)
  · rename_i elsewhere
    rw [held]
    constructor
    · rintro ⟨connection, member, rest⟩
      exact ⟨connection, List.mem_cons_of_mem _ member, rest⟩
    · rintro ⟨connection, member, onDaemon, atSlot, same⟩
      rcases List.mem_cons.mp member with rfl | before
      · exact absurd ⟨onDaemon, atSlot⟩ elsewhere
      · exact ⟨connection, before, onDaemon, atSlot, same⟩

theorem Held.filter (held : Held slots assigned)
    (cleared : ∀ i j, slots' i j = if nDaemon = i ∧ nID = j then some none else slots i j) :
    Held slots' (assigned.filter fun connection => ¬ (connection.nDaemon = nDaemon ∧ connection.nID = nID)) := by
  intro i j other
  rw [cleared i j]
  split
  · rename_i here
    obtain ⟨rfl, rfl⟩ := here
    constructor
    · intro nothing
      cases Option.some.inj nothing
    · rintro ⟨connection, kept, onDaemon, atSlot, -⟩
      have elsewhere := (List.mem_filter.mp kept).2
      exact absurd ⟨onDaemon, atSlot⟩ (of_decide_eq_true elsewhere)
  · rename_i elsewhere
    rw [held]
    constructor
    · rintro ⟨connection, before, onDaemon, atSlot, same⟩
      refine ⟨connection, List.mem_filter.mpr ⟨before, decide_eq_true ?_⟩, onDaemon, atSlot, same⟩
      rw [onDaemon, atSlot]
      exact fun both => elsewhere ⟨both.1.symm, both.2.symm⟩
    · rintro ⟨connection, kept, rest⟩
      exact ⟨connection, (List.mem_filter.mp kept).1, rest⟩

end Held

theorem Invariant.assignConnection {pConnection : Pointer} (invariant : Invariant IDs s)
    (taken : s.step (.assignConnection nDaemon pConnection) = some after) : Invariant IDs after := by
  obtain ⟨handle, found, made⟩ := Option.bind_eq_some_iff.mp taken
  rw [HandleSlots.assignConnection_eq] at made
  obtain rfl := Option.some.inj made
  have held : Held (entry s.rows) s.assigned := invariant.held
  have vacant (other : Pointer) : entry s.rows nDaemon (fill handle.CONNECTIONS pConnection).1 ≠ some (some other) := by
    rw [entry, rows, List.getElem?_map, found]
    exact fill_vacant handle.CONNECTIONS pConnection other
  constructor
  case counted =>
    apply counted_set invariant.counted
    rw [occupied_fill, UInt32.ofNat_add, invariant.counted handle (List.mem_of_getElem? found)]
    rfl
  case held => exact held.cons vacant (entry_setSlots found _ _ _ (getElem?_fill handle.CONNECTIONS pConnection))
  case once =>
    refine List.nodup_cons.mpr ⟨fun member => ?_, invariant.once⟩
    obtain ⟨connection, before, same⟩ := List.mem_map.mp member
    exact held.fresh vacant connection before (Prod.mk.inj same)
  case IDs_eq => exact (IDs_set found _ (by rfl)).trans invariant.IDs_eq
  case named =>
    intro connection member
    rcases List.mem_cons.mp member with rfl | before
    · refine ⟨handle.ID, ?_, rfl⟩
      rw [← invariant.IDs_eq, List.getElem?_map, found, Option.map_some]
    · exact invariant.named connection before

theorem Invariant.removeConnection (invariant : Invariant IDs s)
    (taken : s.step (.removeConnection nDaemon nID) = some after) : Invariant IDs after := by
  obtain ⟨handle, found, made⟩ := Option.bind_eq_some_iff.mp taken
  split at made
  swap
  · cases made
  rename_i present
  obtain rfl := Option.some.inj made
  obtain ⟨own, member, place⟩ := List.any_eq_true.mp present
  obtain ⟨rfl, rfl⟩ := of_decide_eq_true place
  have held : Held (entry s.rows) s.assigned := invariant.held
  have occupying := (held _ _ _).mpr ⟨own, member, rfl, rfl, rfl⟩
  have slot : handle.CONNECTIONS[own.nID]? = some (some own.pConnection) := by
    rwa [entry, rows, List.getElem?_map, found] at occupying
  have cleared (j : Nat) : (handle.removeConnection own.nID).CONNECTIONS[j]? =
      if own.nID = j then some none else handle.CONNECTIONS[j]? := by
    obtain ⟨inside, -⟩ := List.getElem?_eq_some_iff.mp slot
    rw [HandleSlots.removeConnection, List.getElem?_set, if_pos inside]
  constructor
  case counted =>
    apply counted_set invariant.counted
    have fewer := occupied_set_none slot
    have before := invariant.counted handle (List.mem_of_getElem? found)
    rw [HandleSlots.removeConnection, before, ← fewer, UInt32.ofNat_add]
    exact UInt32.add_sub_cancel _ _
  case held => exact held.filter (entry_setSlots found _ _ _ cleared)
  case once => exact invariant.once.sublist (List.Sublist.map _ List.filter_sublist)
  case IDs_eq => exact (IDs_set found _ (by rfl)).trans invariant.IDs_eq
  case named => exact fun connection kept => invariant.named connection (List.mem_filter.mp kept).1

theorem Invariant.slotsUnique (distinct : IDs.Nodup) (invariant : Invariant IDs s) : SlotsUnique s where
  counted := invariant.counted
  total handle member fits := by
    rw [invariant.counted handle member]
    exact UInt32.toNat_ofNat_of_lt' fits
  found connection member := (invariant.held _ _ _).mpr ⟨connection, member, rfl, rfl, rfl⟩
  live nDaemon nID pConnection held := by
    obtain ⟨connection, member, onDaemon, atSlot, -⟩ := (invariant.held _ _ _).mp held
    exact ⟨connection, member, onDaemon, atSlot⟩
  names := by
    apply List.Nodup.map_on _ (List.Nodup.of_map _ invariant.once)
    intro first inFirst second inSecond same
    obtain ⟨ID, atFirst, nameFirst⟩ := invariant.named first inFirst
    obtain ⟨ID', atSecond, nameSecond⟩ := invariant.named second inSecond
    rw [nameFirst, nameSecond] at same
    obtain ⟨sameID, slots⟩ := connectionGUID_injective same
    rw [← UInt32.toNat_inj.mp sameID] at atSecond
    have daemons : first.nDaemon = second.nDaemon :=
      (List.getElem?_inj (List.getElem?_eq_some_iff.mp atFirst).1 distinct).mp (atFirst.trans atSecond.symm)
    exact List.inj_on_of_nodup_map invariant.once inFirst inSecond (Prod.ext daemons slots)

theorem slots_unique (IDs : List UInt32) (distinct : IDs.Nodup) (calls : List (SlotCall Pointer)) :
    EachStep step (fun _ _ after => SlotsUnique after) calls (start IDs) := by
  apply eachStep_of_invariant (Invariant IDs) _ calls (invariant_start IDs)
  intro s call after invariant taken
  have kept : Invariant IDs after := by
    cases call with
    | assignConnection nDaemon pConnection => exact invariant.assignConnection taken
    | removeConnection nDaemon nID => exact invariant.removeConnection taken
  exact ⟨kept, kept.slotsUnique distinct⟩

theorem slots_unique_two_handles :
    EachStep step (fun _ _ after => SlotsUnique after)
      [.assignConnection 0 7, .assignConnection 1 8, .assignConnection 0 9, .removeConnection 0 0, .assignConnection 0 8]
      (start [0, 1] : HandleConnections Nat) :=
  slots_unique [0, 1] (by decide) _

end HandleConnections

end PrimePool.LLP

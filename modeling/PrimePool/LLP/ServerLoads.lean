import PrimePool.General.Grid
import PrimePool.General.Slots
import PrimePool.LLP.ServerBans

/-!
# Loads of the data threads

Each data thread counts the connections in its slots. It opens a slot only when all are taken, and while none is left
the connections of the threads differ by one at most.
-/

namespace PrimePool.LLP

open PrimePool.General Std

variable {Pointer : Type}

/-! ## Data threads -/

namespace DataThread

def load (thread : DataThread Pointer) : Nat := occupied thread.CONNECTIONS

/-- The counter of a thread has 32 bits. -/
def Counts (thread : DataThread Pointer) : Prop := thread.nConnections = UInt32.ofNat thread.load

theorem addConnection_eq (thread : DataThread Pointer) (connection : Pointer × UInt32) :
    thread.addConnection connection =
      { thread with
        CONNECTIONS := (fill thread.CONNECTIONS connection).2
        nConnections := thread.nConnections + 1 } := by
  unfold addConnection findSlot fill
  cases free : thread.CONNECTIONS.findIdx? Option.isNone with
  | some nSlot =>
      obtain ⟨inside, slot⟩ := List.findIdx?_eq_some_iff_findIdx_eq.mp free
      simp only [slot, if_neg (Nat.ne_of_lt inside)]
  | none =>
      have full := List.findIdx?_eq_none_iff_findIdx_eq.mp free
      simp only [full, if_true, List.set_append_right _ _ (Nat.le_refl _), Nat.sub_self, List.set_cons_zero]

theorem load_addConnection (thread : DataThread Pointer) (connection : Pointer × UInt32) :
    (thread.addConnection connection).load = thread.load + 1 := by
  rw [addConnection_eq, load, occupied_fill]
  rfl

theorem Counts.addConnection {thread : DataThread Pointer} (counts : thread.Counts) (connection : Pointer × UInt32) :
    (thread.addConnection connection).Counts := by
  have number : (thread.addConnection connection).nConnections = thread.nConnections + 1 := by rw [addConnection_eq]
  rw [Counts, load_addConnection, number, counts, UInt32.ofNat_add]
  rfl

theorem load_removeConnection {thread : DataThread Pointer} {index : Nat} {connection : Pointer × UInt32}
    (found : thread.CONNECTIONS[index]? = some (some connection)) :
    (thread.removeConnection index).load + 1 = thread.load := occupied_set_none found

theorem Counts.removeConnection {thread : DataThread Pointer} (counts : thread.Counts) {index : Nat}
    {connection : Pointer × UInt32} (found : thread.CONNECTIONS[index]? = some (some connection)) :
    (thread.removeConnection index).Counts := by
  have fewer := load_removeConnection found
  have number : (thread.removeConnection index).nConnections = thread.nConnections - 1 := rfl
  rw [Counts, number, counts, ← fewer, UInt32.ofNat_add]
  exact UInt32.add_sub_cancel _ _

theorem length_addConnection (thread : DataThread Pointer) (connection : Pointer × UInt32) :
    (thread.addConnection connection).CONNECTIONS.length ≤ max thread.CONNECTIONS.length (thread.load + 1) := by
  rw [addConnection_eq]
  exact length_fill_le thread.CONNECTIONS connection

end DataThread

/-! ## Steps -/

/-- The slots of a thread and their counter. -/
def DataThread.held (thread : DataThread Pointer) : List (Option (Pointer × UInt32)) × UInt32 :=
  (thread.CONNECTIONS, thread.nConnections)

namespace Server

variable {settings : ServerSettings} {server server' : Server Pointer} {event : ServerEvent Pointer} {deeds : List Deed}

def held (server : Server Pointer) : List (List (Option (Pointer × UInt32)) × UInt32) :=
  server.DATA_THREADS.map DataThread.held

/-- What a step does to the slots, and to the choice that the listener holds. -/
inductive HeldStep (chosen : Option Nat) (threads : List (DataThread Pointer)) (server' : Server Pointer) : Prop where
  | kept : server'.held = threads.map DataThread.held →
      (server'.nThread = chosen ∨ server'.nThread = none ∨
        server'.nThread = some (leastIndex (threads.map DataThread.nConnections))) →
      HeldStep chosen threads server'
  | added (nThread : Nat) (thread : DataThread Pointer) (connection : Pointer × UInt32) : chosen = some nThread →
      threads[nThread]? = some thread → server'.nThread = none →
      server'.held = (threads.map DataThread.held).set nThread (thread.addConnection connection).held →
      HeldStep chosen threads server'
  | removed (nThread nIndex : Nat) (thread : DataThread Pointer) (connection : Pointer × UInt32) :
      threads[nThread]? = some thread → thread.CONNECTIONS[nIndex]? = some (some connection) →
      server'.nThread = chosen →
      server'.held = (threads.map DataThread.held).set nThread (thread.removeConnection nIndex).held →
      HeldStep chosen threads server'

theorem connectionAt_eq {nThread nIndex : Nat} {thread : DataThread Pointer} {connection : Pointer × UInt32}
    (present : server.connectionAt nThread nIndex = some (thread, connection)) :
    server.DATA_THREADS[nThread]? = some thread ∧ thread.CONNECTIONS[nIndex]? = some (some connection) := by
  obtain ⟨thread', found, present⟩ := Option.bind_eq_some_iff.mp present
  obtain ⟨connection', slot, present⟩ := Option.bind_eq_some_iff.mp present
  obtain ⟨rfl, rfl⟩ := Prod.mk.inj (Option.some.inj present)
  exact ⟨found, Option.join_eq_some_iff.mp slot⟩

theorem held_setThread (server : Server Pointer) (nThread : Nat) (thread : DataThread Pointer) :
    (server.setThread nThread thread).held = server.held.set nThread thread.held := List.map_set

variable (settings server) in
theorem heldStep_accept {chosen : Option Nat} {nThread : Nat} {thread : DataThread Pointer} (choice : chosen = some nThread)
    (found : server.DATA_THREADS[nThread]? = some thread) (none : server.nThread = none) (ADDRESS : UInt32)
    (pConnection : Pointer) (fBannedIP : Bool) (now : Nat) :
    HeldStep chosen server.DATA_THREADS
      (server.accept settings nThread thread ADDRESS pConnection fBannedIP now).1 := by
  rw [accept]
  generalize (if settings.fDDOS && fBannedIP then [FilterCall.ban] else []) = calls
  dsimp only
  split
  · exact .kept rfl (.inr (.inl none))
  · exact .added nThread thread (pConnection, ADDRESS) choice found none (held_setThread _ _ _)

variable (settings server) in
theorem heldStep_turn {nThread nIndex : Nat} {thread : DataThread Pointer} {connection : Pointer × UInt32}
    (found : server.DATA_THREADS[nThread]? = some thread) (slot : thread.CONNECTIONS[nIndex]? = some (some connection))
    (now : Nat) (turn : Turn) :
    HeldStep server.nThread server.DATA_THREADS
      (server.turn settings nThread nIndex thread connection.2 now turn).1 := by
  cases turn with
  | failed => exact .removed nThread nIndex thread connection found slot rfl (held_setThread _ _ _)
  | waiting => exact .kept rfl (.inl rfl)
  | working work =>
      rw [Server.turn]
      generalize (if settings.fDDOS && exceeds settings (server.filterAt connection.2 now) then [FilterCall.ban] else []) =
        calls
      dsimp only
      split
      · exact .removed nThread nIndex thread connection found slot rfl (held_setThread _ _ _)
      · rw [serve]
        split
        · exact .kept rfl (.inl rfl)
        · exact .removed nThread nIndex thread connection found slot rfl (held_setThread _ _ _)
        · refine .kept ?_ (.inl rfl)
          have same : server.held[nThread]? = some thread.held := by rw [held, List.getElem?_map, found, Option.map_some]
          exact (held_setThread _ _ _).trans (set_same same)

theorem heldStep (taken : server.step settings event = some (server', deeds)) :
    HeldStep server.nThread server.DATA_THREADS server' := by
  cases event with
  | findThread =>
      obtain ⟨rfl, -⟩ := Prod.mk.inj (Option.some.inj taken)
      exact .kept rfl (.inr (.inr rfl))
  | meter =>
      obtain ⟨rfl, -⟩ := Prod.mk.inj (Option.some.inj taken)
      exact .kept rfl (.inl rfl)
  | clearRequests =>
      obtain ⟨rfl, -⟩ := Prod.mk.inj (Option.some.inj taken)
      refine .kept ?_ (.inl rfl)
      simp only [held, List.map_map]
      rfl
  | accept ADDRESS pConnection fBannedIP time =>
      obtain ⟨moved, advanced, taken⟩ := Option.bind_eq_some_iff.mp taken
      obtain ⟨nThread, choice, taken⟩ := Option.bind_eq_some_iff.mp taken
      obtain ⟨thread, found, taken⟩ := Option.bind_eq_some_iff.mp taken
      obtain ⟨-, rfl⟩ := advance_eq advanced
      have step := heldStep_accept settings { server with now := time, nThread := none }
        choice found rfl ADDRESS pConnection fBannedIP time
      rw [Option.some.inj taken] at step
      exact step
  | turn nThread nIndex turn time =>
      obtain ⟨moved, advanced, taken⟩ := Option.bind_eq_some_iff.mp taken
      obtain ⟨⟨thread, connection⟩, present, taken⟩ := Option.bind_eq_some_iff.mp taken
      obtain ⟨-, rfl⟩ := advance_eq advanced
      obtain ⟨found, slot⟩ := connectionAt_eq present
      have step := heldStep_turn settings { server with now := time } found slot time turn
      rw [Option.some.inj taken] at step
      exact step

/-! ## Runs -/

def loads (server : Server Pointer) : List Nat := server.DATA_THREADS.map DataThread.load

def Counts (server : Server Pointer) : Prop := ∀ thread ∈ server.DATA_THREADS, thread.Counts

/-- No thread's load falls, and the counters hold the loads. -/
def NoneLeaves (server server' : Server Pointer) : Prop :=
  (∀ loads ∈ server.loads.zip server'.loads, loads.1 ≤ loads.2) ∧ ∀ load ∈ server'.loads, load < 2 ^ 32

instance (server server' : Server Pointer) : Decidable (server.NoneLeaves server') := inferInstanceAs (Decidable (_ ∧ _))

theorem loads_eq (server : Server Pointer) : server.loads = server.held.map fun held => occupied held.1 := by
  rw [held, List.map_map]
  rfl

theorem counts_iff (server : Server Pointer) :
    server.Counts ↔ ∀ held ∈ server.held, held.2 = UInt32.ofNat (occupied held.1) := by
  rw [held, List.forall_mem_map]
  rfl

theorem loads_set {threads : List (DataThread Pointer)} {nThread : Nat} {thread : DataThread Pointer}
    (changed : server'.held = (threads.map DataThread.held).set nThread thread.held) :
    server'.loads = (threads.map DataThread.load).set nThread thread.load := by
  rw [loads_eq, changed, List.map_set, List.map_map]
  rfl

theorem counts_set {threads : List (DataThread Pointer)} (counts : ∀ thread ∈ threads, thread.Counts) {nThread : Nat}
    {thread : DataThread Pointer} (own : thread.Counts)
    (changed : server'.held = (threads.map DataThread.held).set nThread thread.held) : server'.Counts := by
  rw [counts_iff, changed]
  intro held member
  rcases List.mem_or_eq_of_mem_set member with before | rfl
  · obtain ⟨other, present, rfl⟩ := List.mem_map.mp before
    exact counts other present
  · exact own

theorem counts_step {chosen : Option Nat} {threads : List (DataThread Pointer)}
    (counts : ∀ thread ∈ threads, thread.Counts) (step : HeldStep chosen threads server') : server'.Counts := by
  cases step with
  | kept same => rw [counts_iff, same]; exact List.forall_mem_map.mpr counts
  | added nThread thread connection _ found _ changed =>
      exact counts_set counts ((counts thread (List.mem_of_getElem? found)).addConnection connection) changed
  | removed nThread nIndex thread connection found slot _ changed =>
      exact counts_set counts ((counts thread (List.mem_of_getElem? found)).removeConnection slot) changed

/-- The choice is a thread with the least load. -/
def ChoosesLeast (chosen : Option Nat) (loads : List Nat) : Prop :=
  ∀ nThread load, chosen = some nThread → loads[nThread]? = some load → ∀ other ∈ loads, load ≤ other

theorem choosesLeast_findThread {threads : List (DataThread Pointer)} (counts : ∀ thread ∈ threads, thread.Counts)
    (fits : ∀ load ∈ threads.map DataThread.load, load < 2 ^ 32) :
    ChoosesLeast (some (leastIndex (threads.map DataThread.nConnections))) (threads.map DataThread.load) := by
  have number : ∀ thread ∈ threads, thread.nConnections.toNat = thread.load := by
    intro thread member
    rw [counts thread member]
    exact UInt32.toNat_ofNat_of_lt' (fits _ (List.mem_map_of_mem member))
  intro nThread load choice found other member
  obtain rfl := Option.some.inj choice
  obtain ⟨thread, placed, rfl⟩ := Option.map_eq_some_iff.mp (List.getElem?_map ▸ found)
  obtain ⟨rival, present, rfl⟩ := List.mem_map.mp member
  have nonempty : threads.map DataThread.nConnections ≠ [] :=
    List.ne_nil_of_mem (List.mem_map_of_mem present)
  obtain ⟨least, chosen, below⟩ := leastIndex_eq nonempty
  rw [List.getElem?_map, placed, Option.map_some] at chosen
  have bound := UInt32.le_iff_toNat_le.mp (below _ (List.mem_map_of_mem present))
  rwa [← Option.some.inj chosen, number thread (List.mem_of_getElem? placed), number rival present] at bound

structure Levelled (server : Server Pointer) : Prop where
  counts : server.Counts
  level : Level server.loads
  fits : ∀ load ∈ server.loads, load < 2 ^ 32
  least : ChoosesLeast server.nThread server.loads

theorem Levelled.step (levelled : server.Levelled) (stays : NoneLeaves server server')
    (step : HeldStep server.nThread server.DATA_THREADS server') : server'.Levelled := by
  have counts := counts_step levelled.counts step
  cases step with
  | kept same choice =>
      have loads : server'.loads = server.loads := by rw [loads_eq, same, ← held, ← loads_eq]
      refine ⟨counts, loads ▸ levelled.level, stays.2, ?_⟩
      rw [loads]
      rcases choice with before | none | now
      · exact before ▸ levelled.least
      · exact fun nThread load chosen => nomatch none.symm.trans chosen
      · exact now ▸ choosesLeast_findThread levelled.counts levelled.fits
  | added nThread thread connection chosen found none changed =>
      have loads := loads_set changed
      have placed : server.loads[nThread]? = some thread.load := by rw [Server.loads, List.getElem?_map, found, Option.map_some]
      refine ⟨counts, ?_, stays.2, fun nThread load chosen => nomatch none.symm.trans chosen⟩
      rw [loads, DataThread.load_addConnection]
      exact levelled.level.add_least placed (levelled.least nThread thread.load chosen placed)
  | removed nThread nIndex thread connection found slot _ changed =>
      have fewer := DataThread.load_removeConnection slot
      have placed : server.loads[nThread]? = some thread.load := by rw [Server.loads, List.getElem?_map, found, Option.map_some]
      have left : server'.loads[nThread]? = some (thread.removeConnection nIndex).load := by
        obtain ⟨inside, -⟩ := List.getElem?_eq_some_iff.mp placed
        rw [loads_set changed, ← Server.loads, List.getElem?_set_self inside]
      have falls := stays.1 (thread.load, (thread.removeConnection nIndex).load)
        (List.mem_of_getElem? (List.getElem?_zip_eq_some.mpr ⟨placed, left⟩))
      simp only at falls
      omega

theorem Levelled.start (nMaxThreads : Nat) : (Server.start nMaxThreads : Server Pointer).Levelled := by
  have empty : ∀ load ∈ (Server.start nMaxThreads : Server Pointer).loads, load = 0 := by
    intro load member
    obtain ⟨thread, present, rfl⟩ := List.mem_map.mp member
    rw [List.eq_of_mem_replicate present]
    rfl
  refine ⟨fun thread member => ?_, fun load member load' _ => ?_, fun load member => ?_, fun _ _ choice => nomatch choice⟩
  · rw [List.eq_of_mem_replicate member]
    rfl
  · rw [empty load member]
    exact Nat.zero_le _
  · rw [empty load member]
    decide

theorem lengths_step {most : Nat} {chosen : Option Nat} {threads : List (DataThread Pointer)}
    (inside : ∀ thread ∈ threads, thread.CONNECTIONS.length ≤ most) (bound : ∀ load ∈ server'.loads, load ≤ most)
    (step : HeldStep chosen threads server') : ∀ thread ∈ server'.DATA_THREADS, thread.CONNECTIONS.length ≤ most := by
  suffices lengths : ∀ held ∈ server'.held, held.1.length ≤ most from List.forall_mem_map.mp lengths
  have slots : ∀ held ∈ threads.map DataThread.held, held.1.length ≤ most := by
    intro held member
    obtain ⟨thread, present, rfl⟩ := List.mem_map.mp member
    exact inside thread present
  cases step with
  | kept same =>
      rw [same]
      exact slots
  | added nThread thread connection _ found _ changed =>
      intro held member
      rw [changed] at member
      rcases List.mem_or_eq_of_mem_set member with before | rfl
      · exact slots held before
      · obtain ⟨here, -⟩ := List.getElem?_eq_some_iff.mp found
        have load : thread.load + 1 ≤ most := by
          apply bound
          rw [loads_set changed, DataThread.load_addConnection]
          exact List.mem_set (by rwa [List.length_map]) _
        exact Nat.le_trans (thread.length_addConnection connection)
          (Nat.max_le.mpr ⟨inside thread (List.mem_of_getElem? found), load⟩)
  | removed nThread nIndex thread connection found slot _ changed =>
      intro held member
      rw [changed] at member
      rcases List.mem_or_eq_of_mem_set member with before | rfl
      · exact slots held before
      · exact Nat.le_trans (Nat.le_of_eq List.length_set) (inside thread (List.mem_of_getElem? found))

end Server

namespace WatchedServer

variable {settings : ServerSettings}

theorem heldStep {s after : WatchedServer Pointer} {event : ServerEvent Pointer} (taken : s.step settings event = some after) :
    Server.HeldStep s.server.nThread s.server.DATA_THREADS after.server := by
  obtain ⟨⟨server, more⟩, stepped, rfl⟩ := Option.map_eq_some_iff.mp taken
  exact Server.heldStep stepped

theorem threads_level (settings : ServerSettings) (nMaxThreads : Nat) (events : List (ServerEvent Pointer))
    (stay : EachStep (step settings) (fun s _ after => s.server.NoneLeaves after.server) events (start nMaxThreads)) :
    EachStep (step settings) (fun _ _ after => Level after.server.loads) events (start nMaxThreads) := by
  apply EachStep.of_invariant (fun s => s.server.Levelled) _ _ stay
  · intro s event after levelled taken stays
    have kept := levelled.step stays (heldStep taken)
    exact ⟨kept, kept.level⟩
  · exact .start nMaxThreads

theorem threads_level_three_connections :
    EachStep (step { fDDOS := false, DDOS_rSCORE := 20, DDOS_cSCORE := 2 }) (fun _ _ after => Level after.server.loads)
      [.findThread, .accept 7 0 false 1, .findThread, .accept 8 1 false 1, .findThread, .accept 7 2 false 2]
      (start 2 : WatchedServer Nat) :=
  threads_level _ 2 _ (by decide +kernel)

/-- A data thread has no more slots than it held connections at once. -/
theorem slots_reused (settings : ServerSettings) (nMaxThreads most : Nat) (events : List (ServerEvent Pointer))
    (few : EachStep (step settings) (fun _ _ after => ∀ load ∈ after.server.loads, load ≤ most) events
      (start nMaxThreads)) :
    EachStep (step settings) (fun _ _ after => ∀ thread ∈ after.server.DATA_THREADS, thread.CONNECTIONS.length ≤ most)
      events (start nMaxThreads) := by
  refine EachStep.of_invariant (fun s => ∀ thread ∈ s.server.DATA_THREADS, thread.CONNECTIONS.length ≤ most) ?_ ?_ few
  · intro s event after inside taken bound
    have kept := Server.lengths_step inside bound (heldStep taken)
    exact ⟨kept, kept⟩
  · intro thread member
    obtain rfl := List.eq_of_mem_replicate member
    exact Nat.zero_le most

theorem slots_reused_two_connections :
    EachStep (step { fDDOS := false, DDOS_rSCORE := 20, DDOS_cSCORE := 2 })
      (fun _ _ after => ∀ thread ∈ after.server.DATA_THREADS, thread.CONNECTIONS.length ≤ 1)
      [.findThread, .accept 7 0 false 1, .turn 0 0 .failed 2, .findThread, .accept 8 1 false 3]
      (start 1 : WatchedServer Nat) :=
  slots_reused _ 1 1 _ (by decide +kernel)

end WatchedServer

end PrimePool.LLP

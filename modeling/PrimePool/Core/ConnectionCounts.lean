import PrimePool.Core.PoolSteps
import PrimePool.Core.StatsCollector
import PrimePool.General.Grid
import PrimePool.General.Machine
import PrimePool.General.Slots

/-!
# Connection counts

The collector counts the connections of an address by their `GUID`s. A login counts the connection under its new
address, and the disconnect takes it from the address it has then.
-/

namespace PrimePool.Core

open PrimePool.General PrimePool.LLD Std

/-! ## The names of connections -/

theorem eq_of_append_cons {α : Type} {mark : α} {first second : List α} {behind behind' : List α}
    (free : mark ∉ first) (free' : mark ∉ second) (same : first ++ mark :: behind = second ++ mark :: behind') :
    first = second ∧ behind = behind' := by
  induction first generalizing second with
  | nil =>
      cases second with
      | nil => exact ⟨rfl, (List.cons.inj same).2⟩
      | cons head second => exact absurd (List.cons.inj same).1 (List.ne_of_not_mem_cons free')
  | cons head first ih =>
      cases second with
      | nil => exact absurd (List.cons.inj same).1.symm (List.ne_of_not_mem_cons free)
      | cons head' second =>
          obtain ⟨rfl, rest⟩ := List.cons.inj same
          obtain ⟨rfl, behinds⟩ := ih (List.not_mem_of_not_mem_cons free) (List.not_mem_of_not_mem_cons free') rest
          exact ⟨rfl, behinds⟩

theorem toDigits_injective {n m : Nat} (same : Nat.toDigits 10 n = Nat.toDigits 10 m) : n = m := by
  rw [← Nat.ofDigitChars_ten_toDigits (n := n), same, Nat.ofDigitChars_ten_toDigits]

def guidText (nDaemon nID : Nat) : List Char := Nat.toDigits 10 nDaemon ++ '_' :: Nat.toDigits 10 nID

theorem toNat_guidText {nDaemon nID : Nat} {c : Char} (member : c ∈ guidText nDaemon nID) : c.toNat < 256 := by
  have digit {n : Nat} (member : c ∈ Nat.toDigits 10 n) : c.toNat < 256 := by
    have isDigit := Nat.isDigit_of_mem_toDigits (by decide) (by decide) member
    exact Nat.lt_of_le_of_lt (Char.isDigit_iff_toNat.mp isDigit).2 (by decide)
  rcases List.mem_append.mp member with daemon | rest
  · exact digit daemon
  · rcases List.mem_cons.mp rest with rfl | id
    · decide
    · exact digit id

theorem connectionGUID_injective {nDaemon nID nDaemon' nID' : Nat}
    (same : connectionGUID nDaemon nID = connectionGUID nDaemon' nID') : nDaemon = nDaemon' ∧ nID = nID' := by
  have texts : guidText nDaemon nID = guidText nDaemon' nID' := by
    have back {nDaemon nID : Nat} :
        (connectionGUID nDaemon nID).map (fun byte => Char.ofNat byte.toNat) = guidText nDaemon nID := by
      have text : connectionGUID nDaemon nID = (guidText nDaemon nID).map fun c => c.toNat.toUInt8 := rfl
      rw [text, List.map_map]
      conv_rhs => rw [← List.map_id (guidText nDaemon nID)]
      apply List.map_congr_left
      intro c member
      have small := toNat_guidText member
      show Char.ofNat c.toNat.toUInt8.toNat = c
      rw [Nat.toUInt8_eq, UInt8.toNat_ofNat', Nat.mod_eq_of_lt small, Char.ofNat_toNat]
    rw [← back, same, back]
  obtain ⟨daemons, ids⟩ := eq_of_append_cons Nat.underscore_not_in_toDigits Nat.underscore_not_in_toDigits texts
  exact ⟨toDigits_injective daemons, toDigits_injective ids⟩

/-! ## The addresses of the connections -/

def DaemonHandle.addresses (handle : DaemonHandle) : List (Option StdString) :=
  handle.CONNECTIONS.map (Option.map PoolConnection.ADDRESS)

theorem DaemonHandle.addresses_newBlock (handle : DaemonHandle) : handle.newBlock.addresses = handle.addresses := by
  simp only [addresses, newBlock, List.map_map]
  apply List.map_congr_left
  intro connection _
  cases connection <;> rfl

theorem DaemonHandle.addresses_addBlock (handle : DaemonHandle) : handle.addBlock.addresses = handle.addresses := by
  simp only [addresses, addBlock]
  split
  · apply List.ext_getElem?
    intro nID
    rw [List.getElem?_map, List.getElem?_map, List.getElem?_modify]
    cases handle.CONNECTIONS[nID]? with
    | none => rfl
    | some connection =>
        simp only [Option.map_some]
        split
        · cases connection <;> rfl
        · rfl
  · rfl

namespace Pool

variable {D : Type} {pool after : Pool D} {nDaemon nID : Nat} {handle handle' : DaemonHandle}

def addresses (pool : Pool D) : List (List (Option StdString)) := pool.DAEMON_CONNECTIONS.map DaemonHandle.addresses

def liveConnections (pool : Pool D) (ADDRESS : StdString) : Nat := pool.addresses.flatten.count (some ADDRESS)

theorem addresses_found (found : pool.DAEMON_CONNECTIONS[nDaemon]? = some handle) :
    pool.addresses[nDaemon]? = some handle.addresses := by
  rw [addresses, List.getElem?_map, found, Option.map_some]

theorem addresses_setHandle (pool : Pool D) (nDaemon : Nat) (handle' : DaemonHandle) :
    (pool.setHandle nDaemon handle').addresses = pool.addresses.set nDaemon handle'.addresses := List.map_set

theorem addresses_setHandle_same (found : pool.DAEMON_CONNECTIONS[nDaemon]? = some handle)
    (same : handle'.addresses = handle.addresses) : (pool.setHandle nDaemon handle').addresses = pool.addresses := by
  rw [addresses_setHandle, same]
  exact set_same (addresses_found found)

theorem addresses_resetDaemons (pool : Pool D) : pool.resetDaemons.addresses = pool.addresses := by
  rw [addresses, resetDaemons, List.map_map]
  rfl

theorem addresses_scanConnections (CONNECTIONS : List (Option PoolConnection)) :
    (scanConnections CONNECTIONS).2.map (Option.map PoolConnection.ADDRESS) =
      CONNECTIONS.map (Option.map PoolConnection.ADDRESS) := by
  induction CONNECTIONS with
  | nil => rfl
  | cons connection CONNECTIONS ih =>
      cases connection with
      | none => exact congrArg (List.cons none) ih
      | some connection =>
          rw [scanConnections]
          split
          · rfl
          · exact congrArg (List.cons (some connection.ADDRESS)) ih

variable {getHash : CBlock → Uint1024}

theorem addresses_scanSubmissions (globals : Globals D) (handle : DaemonHandle) :
    (scanSubmissions getHash globals handle).2.addresses = handle.addresses := by
  simp only [scanSubmissions]
  split
  · exact addresses_scanConnections handle.CONNECTIONS
  · exact addresses_scanConnections handle.CONNECTIONS

theorem addresses_daemonScan (globals : Globals D) (handle : DaemonHandle) :
    (daemonScan getHash globals handle).2.addresses = handle.addresses := by
  have fresh : ({ handle with fNewBlock := false } : DaemonHandle).newBlock.addresses = handle.addresses :=
    DaemonHandle.addresses_newBlock _
  simp only [daemonScan]
  split
  · rfl
  · split
    · split
      · exact fresh
      · exact (addresses_scanSubmissions globals _).trans fresh
    · exact addresses_scanSubmissions globals handle

end Pool

namespace Pool

variable {D : Type} {pool after : Pool D} {nDaemon nID : Nat} {handle handle' : DaemonHandle}
  {connection connection' : PoolConnection}

theorem handle_of_connectionAt (present : pool.connectionAt nDaemon nID = some connection) :
    ∃ handle, pool.DAEMON_CONNECTIONS[nDaemon]? = some handle ∧ handle.CONNECTIONS[nID]? = some (some connection) := by
  obtain ⟨handle, found, inside⟩ := Option.bind_eq_some_iff.mp present
  exact ⟨handle, found, Option.join_eq_some_iff.mp inside⟩

theorem connectionAt_of_handle (found : pool.DAEMON_CONNECTIONS[nDaemon]? = some handle)
    (inside : handle.CONNECTIONS[nID]? = some (some connection)) : pool.connectionAt nDaemon nID = some connection := by
  rw [connectionAt, found]
  exact Option.join_eq_some_iff.mpr inside

theorem addresses_present (present : handle.CONNECTIONS[nID]? = some (some connection)) :
    handle.addresses[nID]? = some (some connection.ADDRESS) := by
  rw [DaemonHandle.addresses, List.getElem?_map, present, Option.map_some, Option.map_some]

theorem entry_connectionAt (present : pool.connectionAt nDaemon nID = some connection) :
    entry pool.addresses nDaemon nID = some (some connection.ADDRESS) := by
  obtain ⟨handle, found, inside⟩ := handle_of_connectionAt present
  rw [entry, addresses_found found]
  exact addresses_present inside

/-- One slot of a handle has another address, or a connection is added behind the slots. -/
theorem entry_setHandle {ADDRESS : Option StdString} (found : pool.DAEMON_CONNECTIONS[nDaemon]? = some handle)
    (slots : ∀ j, handle'.addresses[j]? = if nID = j then some ADDRESS else handle.addresses[j]?) (i j : Nat) :
    entry (pool.setHandle nDaemon handle').addresses i j =
      if nDaemon = i ∧ nID = j then some ADDRESS else entry pool.addresses i j := by
  rw [addresses_setHandle, entry_set (addresses_found found)]
  by_cases same : nDaemon = i
  · subst same
    rw [if_pos rfl, slots j, entry, addresses_found found]
    simp only [true_and]
    rfl
  · rw [if_neg same, if_neg fun both => same both.1]

theorem addresses_set {slot : Option PoolConnection} (present : handle.CONNECTIONS[nID]? = some (some connection))
    (became : handle'.CONNECTIONS = handle.CONNECTIONS.set nID slot) (j : Nat) :
    handle'.addresses[j]? = if nID = j then some (slot.map PoolConnection.ADDRESS) else handle.addresses[j]? := by
  obtain ⟨inside, -⟩ := List.getElem?_eq_some_iff.mp present
  rw [DaemonHandle.addresses, List.getElem?_map, became, List.getElem?_set, if_pos inside]
  split
  · rfl
  · rw [DaemonHandle.addresses, List.getElem?_map]

theorem addresses_setConnection_same (found : pool.DAEMON_CONNECTIONS[nDaemon]? = some handle)
    (present : handle.CONNECTIONS[nID]? = some (some connection)) (same : connection'.ADDRESS = connection.ADDRESS) :
    (pool.setConnection nDaemon nID handle connection').addresses = pool.addresses := by
  apply addresses_setHandle_same found
  simp only [DaemonHandle.addresses, List.map_set, Option.map_some, same]
  exact set_same (addresses_present present)

theorem CONNECTIONS_assignConnection (handle : DaemonHandle) (connection : PoolConnection) :
    (handle.assignConnection connection).CONNECTIONS = (fill handle.CONNECTIONS connection).2 := by
  rw [DaemonHandle.assignConnection, DaemonHandle.findConnection, fill]
  cases handle.CONNECTIONS.findIdx? Option.isNone <;> rfl

theorem addresses_assignConnection (handle : DaemonHandle) :
    ∃ nID : Nat, (∀ ADDRESS, handle.addresses[nID]? ≠ some (some ADDRESS)) ∧
      ∀ j, (handle.assignConnection .new).addresses[j]? = if nID = j then some (some []) else handle.addresses[j]? := by
  refine ⟨(fill handle.CONNECTIONS .new).1, fun ADDRESS found => ?_, fun j => ?_⟩
  · rw [DaemonHandle.addresses, List.getElem?_map, Option.map_eq_some_iff] at found
    obtain ⟨slot, present, same⟩ := found
    obtain ⟨connection, rfl, -⟩ := Option.map_eq_some_iff.mp same
    exact fill_vacant _ _ _ present
  · rw [DaemonHandle.addresses, CONNECTIONS_assignConnection, List.getElem?_map, getElem?_fill, DaemonHandle.addresses,
      List.getElem?_map]
    split <;> rfl

theorem addresses_setConnection (pool : Pool D) (nDaemon nID : Nat) (handle : DaemonHandle)
    (connection : PoolConnection) :
    (pool.setConnection nDaemon nID handle connection).addresses =
      pool.addresses.set nDaemon (handle.addresses.set nID (some connection.ADDRESS)) := by
  rw [setConnection, addresses_setHandle, DaemonHandle.addresses, List.map_set]
  rfl

theorem miner_login (pool : Pool D) (nDaemon nID : Nat) (handle : DaemonHandle) (ADDRESS : StdString)
    (fValid fBanned : Bool) (out : connection.fLoggedIn = false) :
    ∃ databases connection', connection'.ADDRESS = ADDRESS ∧
      pool.miner nDaemon nID handle connection (.login ADDRESS fValid fBanned) =
        { pool with databases }.setConnection nDaemon nID handle connection' := by
  rw [miner, if_neg (Bool.eq_false_iff.mp out)]
  cases fValid with
  | false => exact ⟨pool.databases, { connection with ADDRESS }, rfl, rfl⟩
  | true => exact ⟨_, { connection with ADDRESS, fLoggedIn := !fBanned }, rfl, rfl⟩

variable [Double D]

theorem addresses_masterPacket {packet : MasterPacket} (handled : pool.masterPacket packet = some after) :
    after.addresses = pool.addresses := by
  cases packet with
  | blockHeight _ | newRound =>
      cases handled
      rfl
  | coinbaseSet =>
      obtain ⟨-, same⟩ := Option.ite_none_left_eq_some.mp handled
      cases same
      exact addresses_resetDaemons _
  | coinbaseFail =>
      obtain ⟨-, same⟩ := Option.ite_none_left_eq_some.mp handled
      cases same
      rfl
  | blockReward nReward vAccounts =>
      obtain ⟨-, handled⟩ := Option.ite_none_right_eq_some.mp handled
      split at handled
      · cases handled
        rfl
      · cases handled
        exact addresses_resetDaemons _

theorem addresses_daemonPacket {packet : DaemonPacket} (found : pool.DAEMON_CONNECTIONS[nDaemon]? = some handle)
    (handled : pool.daemonPacket nDaemon handle packet = some after) : after.addresses = pool.addresses := by
  cases packet with
  | good | fail | coinbaseSet | coinbaseFail =>
      obtain ⟨-, same⟩ := Option.ite_none_left_eq_some.mp handled
      cases same
      exact addresses_setHandle_same found rfl
  | blockData BLOCK =>
      rw [daemonPacket] at handled
      split at handled
      · cases handled
        exact addresses_setHandle_same found handle.addresses_addBlock
      · cases handled
        rfl

end Pool

/-! ## The miners of an address -/

namespace StatsCollector

variable {ADDRESS : StdString}

def minerData (collector : StatsCollector) (ADDRESS : StdString) : ExtTreeSet StdString :=
  (collector.connectionData ADDRESS).MINER_DATA

theorem minerData_setConnectionData (collector : StatsCollector) (ADDRESS other : StdString) (data : ConnectionData) :
    (collector.setConnectionData ADDRESS data).minerData other =
      if ADDRESS = other then data.MINER_DATA else collector.minerData other := by
  rw [minerData, connectionData_setConnectionData]
  split <;> rfl

theorem minerData_incConnectionCount (collector : StatsCollector) (ADDRESS GUID other : StdString) :
    (collector.incConnectionCount ADDRESS GUID).minerData other =
      if ADDRESS = other then (collector.minerData other).insert GUID else collector.minerData other := by
  rw [incConnectionCount, minerData_setConnectionData]
  split
  · rename_i same
    rw [← same, minerData]
  · rfl

theorem minerData_decConnectionCount (collector : StatsCollector) (ADDRESS GUID other : StdString) :
    (collector.decConnectionCount ADDRESS GUID).minerData other =
      if ADDRESS = other then (collector.minerData other).erase GUID else collector.minerData other := by
  have erased : (collector.setConnectionData ADDRESS { collector.connectionData ADDRESS with
      MINER_DATA := (collector.connectionData ADDRESS).MINER_DATA.erase GUID }).minerData other =
      if ADDRESS = other then (collector.minerData other).erase GUID else collector.minerData other := by
    rw [minerData_setConnectionData]
    split
    · rename_i same
      rw [← same, minerData]
    · rfl
  simp only [decConnectionCount]
  split
  · exact erased
  · exact erased

theorem minerData_getConnectionCount (collector : StatsCollector) (ADDRESS other : StdString) :
    (collector.getConnectionCount ADDRESS).2.minerData other = collector.minerData other := by
  rw [getConnectionCount, minerData_setConnectionData]
  split
  · rename_i same
    rw [← same, minerData]
  · rfl

theorem minerData_login {GUID : StdString} {connection : PoolConnection} {fValid fBanned : Bool}
    (collector : StatsCollector) (out : connection.fLoggedIn = false) (other : StdString) :
    (collector.miner GUID connection (.login ADDRESS fValid fBanned)).minerData other =
      if ADDRESS = other then (collector.minerData other).insert GUID else collector.minerData other := by
  rw [← minerData_incConnectionCount]
  simp only [miner, out]
  cases fValid with
  | false => rfl
  | true => exact minerData_getConnectionCount _ _ _

theorem mem_minerData_disconnect {GUID name other : StdString} {connection : PoolConnection}
    (collector : StatsCollector) (named : other ≠ []) :
    name ∈ (collector.miner GUID connection .disconnect).minerData other ↔
      ¬ (connection.ADDRESS = other ∧ GUID = name) ∧ name ∈ collector.minerData other := by
  rw [miner]
  split
  next unnamed =>
    rw [unnamed]
    exact (and_iff_right fun both => named both.1.symm).symm
  next =>
    rw [minerData_decConnectionCount]
    split
    next same => rw [ExtTreeSet.mem_erase, Ne, LawfulEqCmp.compare_eq_iff_eq, and_iff_right same]
    next different => exact (and_iff_right fun both => different both.1).symm

theorem minerData_updateConnectionData (collector : StatsCollector) (ADDRESS GUID : StdString) (fSave : Bool)
    (other : StdString) :
    (collector.updateConnectionData ADDRESS GUID fSave).minerData other =
      if ADDRESS = other then (collector.minerData other).insert GUID else collector.minerData other := by
  rw [← minerData_incConnectionCount, updateConnectionData]
  split <;> rfl

theorem minerData_updateAccount (collector : StatsCollector) (strAddress other : StdString) :
    (collector.updateAccount strAddress).minerData other = collector.minerData other := by
  rw [← minerData_getConnectionCount collector strAddress other]
  simp only [updateAccount]
  split <;> rfl

theorem minerData_updateAccountData (collector : StatsCollector) (AccountDB : Records StdString Account)
    (other : StdString) : (collector.updateAccountData AccountDB).minerData other = collector.minerData other := by
  have loop (keys : List StdString) (collector : StatsCollector) :
      (keys.foldl updateAccount collector).minerData other = collector.minerData other := by
    induction keys generalizing collector with
    | nil => rfl
    | cons key keys ih => rw [List.foldl_cons, ih, minerData_updateAccount]
  exact loop _ collector

end StatsCollector

/-! ## True counts -/

namespace StatsPool

variable {D : Type} {s after : StatsPool D}

/-- The connection counts of all addresses but the empty one are those of the live connections. -/
def CountsLive (s : StatsPool D) : Prop :=
  ∀ ADDRESS : StdString, ADDRESS ≠ [] → (s.collector.getConnectionCount ADDRESS).1 = s.pool.liveConnections ADDRESS

/-- The collector has just the names of the live connections of an address. -/
def Tracks (s : StatsPool D) : Prop :=
  ∀ ADDRESS GUID : StdString, ADDRESS ≠ [] →
    (GUID ∈ s.collector.minerData ADDRESS ↔
      ∃ nDaemon nID, entry s.pool.addresses nDaemon nID = some (some ADDRESS) ∧ connectionGUID nDaemon nID = GUID)

theorem Tracks.countsLive (tracks : s.Tracks) : s.CountsLive := by
  intro ADDRESS named
  have same : (s.collector.minerData ADDRESS).toList.Perm
      ((positions (some ADDRESS) s.pool.addresses).map fun position => connectionGUID position.1 position.2) := by
    rw [List.perm_ext_iff_of_nodup]
    · intro GUID
      rw [ExtTreeSet.mem_toList, tracks ADDRESS GUID named, List.mem_map]
      constructor
      · rintro ⟨nDaemon, nID, found, name⟩
        exact ⟨(nDaemon, nID), (mem_positions _ _ _ _).mpr found, name⟩
      · rintro ⟨⟨nDaemon, nID⟩, listed, name⟩
        exact ⟨nDaemon, nID, (mem_positions _ _ _ _).mp listed, name⟩
    · exact ExtTreeSet.distinct_toList.imp fun different same => different (LawfulEqCmp.compare_eq_iff_eq.mpr same)
    · apply (nodup_positions _ _).map
      intro first second name
      obtain ⟨daemons, ids⟩ := connectionGUID_injective name
      exact Prod.ext daemons ids
  have length := same.length_eq
  rw [ExtTreeSet.length_toList, List.length_map, length_positions] at length
  exact length

theorem Tracks.of_same (tracks : s.Tracks) (addresses : after.pool.addresses = s.pool.addresses)
    (miners : ∀ ADDRESS, after.collector.minerData ADDRESS = s.collector.minerData ADDRESS) : after.Tracks := by
  intro ADDRESS GUID named
  rw [addresses, miners]
  exact tracks ADDRESS GUID named

/-- One entry of the addresses is written, and its name is just with the address written there. -/
theorem Tracks.of_entry {nDaemon nID : Nat} {slot : Option StdString} (tracks : s.Tracks)
    (entries : ∀ i j, entry after.pool.addresses i j =
      if nDaemon = i ∧ nID = j then some slot else entry s.pool.addresses i j)
    (miners : ∀ ADDRESS GUID : StdString, ADDRESS ≠ [] → (GUID ∈ after.collector.minerData ADDRESS ↔
      if connectionGUID nDaemon nID = GUID then slot = some ADDRESS else GUID ∈ s.collector.minerData ADDRESS)) :
    after.Tracks := by
  intro ADDRESS GUID named
  rw [miners ADDRESS GUID named]
  by_cases own : connectionGUID nDaemon nID = GUID
  · rw [if_pos own]
    constructor
    · rintro rfl
      refine ⟨nDaemon, nID, ?_, own⟩
      rw [entries, if_pos ⟨rfl, rfl⟩]
    · rintro ⟨i, j, found, name⟩
      obtain ⟨rfl, rfl⟩ := connectionGUID_injective (name.trans own.symm)
      rw [entries, if_pos ⟨rfl, rfl⟩] at found
      exact Option.some.inj found
  · rw [if_neg own, tracks ADDRESS GUID named]
    apply exists_congr
    intro i
    apply exists_congr
    intro j
    apply and_congr_left
    intro name
    rw [entries, if_neg]
    rintro ⟨rfl, rfl⟩
    exact own name

/-- A name is with the address of its connection only. -/
theorem Tracks.mem_own {nDaemon nID : Nat} {connection : PoolConnection} {ADDRESS : StdString} (tracks : s.Tracks)
    (present : s.pool.connectionAt nDaemon nID = some connection) (named : ADDRESS ≠ []) :
    connectionGUID nDaemon nID ∈ s.collector.minerData ADDRESS ↔ connection.ADDRESS = ADDRESS := by
  rw [tracks ADDRESS _ named]
  constructor
  · rintro ⟨i, j, found, name⟩
    obtain ⟨rfl, rfl⟩ := connectionGUID_injective name
    rw [Pool.entry_connectionAt present] at found
    exact Option.some.inj (Option.some.inj found)
  · rintro rfl
    exact ⟨nDaemon, nID, Pool.entry_connectionAt present, rfl⟩

theorem tracks_start (SK256 : Bytes → Vector UInt8 32) (fTestNet : Bool) (databases : Databases) (lfPoolFee : D)
    (nMaxDaemons : Nat) : (start SK256 fTestNet databases lfPoolFee nMaxDaemons).Tracks := by
  intro ADDRESS GUID _
  apply iff_of_false
  · exact ExtTreeSet.not_mem_empty
  · rintro ⟨nDaemon, nID, found, -⟩
    obtain ⟨row, inside, present⟩ := Option.bind_eq_some_iff.mp found
    obtain ⟨handle, member, rfl⟩ := List.mem_map.mp (List.mem_of_getElem? inside)
    rw [List.eq_of_mem_replicate member] at present
    cases present

/-! ## Logins -/

/-- Once a connection has an address, it logs in with no other. -/
def KeepsAddress (s : StatsPool D) : StatsEvent → Prop
  | .pool (.miner nDaemon nID (.login ADDRESS _ _)) =>
      ∀ connection ∈ s.pool.connectionAt nDaemon nID,
        connection.fLoggedIn = false → connection.ADDRESS = [] ∨ connection.ADDRESS = ADDRESS
  | _ => True

variable {nDaemon nID : Nat} {connection : PoolConnection} {ADDRESS : StdString} {fValid fBanned : Bool}

theorem Tracks.login {handle : DaemonHandle} (tracks : s.Tracks)
    (found : s.pool.DAEMON_CONNECTIONS[nDaemon]? = some handle)
    (inside : handle.CONNECTIONS[nID]? = some (some connection)) (out : connection.fLoggedIn = false)
    (keeps : connection.ADDRESS = [] ∨ connection.ADDRESS = ADDRESS) :
    Tracks {
      pool := s.pool.miner nDaemon nID handle connection (.login ADDRESS fValid fBanned)
      collector := s.collector.miner (connectionGUID nDaemon nID) connection (.login ADDRESS fValid fBanned) } := by
  obtain ⟨databases, connection', rfl, became⟩ := Pool.miner_login s.pool nDaemon nID handle ADDRESS fValid fBanned out
  have present := Pool.connectionAt_of_handle found inside
  rw [became]
  apply tracks.of_entry (Pool.entry_setHandle found (Pool.addresses_set inside rfl))
  intro other GUID named
  rw [StatsCollector.minerData_login s.collector out]
  by_cases same : connection'.ADDRESS = other
  · rw [if_pos same, ExtTreeSet.mem_insert, LawfulEqCmp.compare_eq_iff_eq]
    split
    next own => exact iff_of_true (Or.inl own) (congrArg some same)
    next different => exact or_iff_right different
  · rw [if_neg same]
    split
    next own =>
      rw [← own, tracks.mem_own present named, Option.map_some, Option.some.injEq]
      rcases keeps with unnamed | kept
      · rw [unnamed]
        exact iff_of_false (Ne.symm named) same
      · rw [kept]
    next => rfl

theorem Tracks.disconnect {handle : DaemonHandle} (tracks : s.Tracks)
    (found : s.pool.DAEMON_CONNECTIONS[nDaemon]? = some handle)
    (inside : handle.CONNECTIONS[nID]? = some (some connection)) :
    Tracks {
      pool := s.pool.miner nDaemon nID handle connection .disconnect
      collector := s.collector.miner (connectionGUID nDaemon nID) connection .disconnect } := by
  have present := Pool.connectionAt_of_handle found inside
  apply tracks.of_entry (Pool.entry_setHandle found (Pool.addresses_set inside rfl))
  intro other GUID named
  rw [StatsCollector.mem_minerData_disconnect s.collector named]
  split
  next own =>
    rw [← own, tracks.mem_own present named]
    simp
  next different => exact and_iff_right fun both => different both.2

theorem Tracks.minerConnect {pool : Pool D} (tracks : s.Tracks) (connected : s.pool.minerConnect = some pool) :
    Tracks { s with pool } := by
  obtain ⟨handle, found, same⟩ := Option.bind_eq_some_iff.mp connected
  cases same
  obtain ⟨nID, free, slots⟩ := Pool.addresses_assignConnection handle
  apply tracks.of_entry (Pool.entry_setHandle found slots)
  intro ADDRESS GUID named
  split
  next own =>
    rw [tracks ADDRESS GUID named]
    apply iff_of_false
    · rintro ⟨i, j, present, name⟩
      obtain ⟨rfl, rfl⟩ := connectionGUID_injective (name.trans own.symm)
      rw [entry, Pool.addresses_found found] at present
      exact free ADDRESS present
    · exact fun same => named (Option.some.inj same).symm
  next => rfl

theorem Tracks.submitPPS (tracks : s.Tracks) (present : s.pool.connectionAt nDaemon nID = some connection)
    (fSave : Bool) :
    Tracks { s with
      collector := s.collector.updateConnectionData connection.ADDRESS (connectionGUID nDaemon nID) fSave } := by
  intro ADDRESS GUID named
  rw [← tracks ADDRESS GUID named, StatsCollector.minerData_updateConnectionData]
  split
  next same =>
    rw [ExtTreeSet.mem_insert, LawfulEqCmp.compare_eq_iff_eq]
    apply or_iff_right_of_imp
    rintro rfl
    exact (tracks.mem_own present named).mpr same
  next => rfl

theorem not_countsLive_of_login {handle : DaemonHandle} (fValid fBanned : Bool) (tracks : s.Tracks)
    (found : s.pool.DAEMON_CONNECTIONS[nDaemon]? = some handle)
    (inside : handle.CONNECTIONS[nID]? = some (some connection)) (out : connection.fLoggedIn = false)
    (named : connection.ADDRESS ≠ []) (different : connection.ADDRESS ≠ ADDRESS) :
    ¬ CountsLive {
      pool := s.pool.miner nDaemon nID handle connection (.login ADDRESS fValid fBanned)
      collector := s.collector.miner (connectionGUID nDaemon nID) connection (.login ADDRESS fValid fBanned) } := by
  intro counts
  obtain ⟨databases, connection', rfl, became⟩ :=
    Pool.miner_login s.pool nDaemon nID handle ADDRESS fValid fBanned out
  have before : (s.collector.minerData connection.ADDRESS).size = s.pool.liveConnections connection.ADDRESS :=
    tracks.countsLive connection.ADDRESS named
  have behind : ((s.collector.miner (connectionGUID nDaemon nID) connection
      (.login connection'.ADDRESS fValid fBanned)).minerData connection.ADDRESS).size = _ :=
    counts connection.ADDRESS named
  rw [StatsCollector.minerData_login s.collector out, if_neg (Ne.symm different), before, became] at behind
  have fewer : ({ s.pool with databases }.setConnection nDaemon nID handle connection').liveConnections
      connection.ADDRESS < s.pool.liveConnections connection.ADDRESS := by
    rw [Pool.liveConnections, Pool.addresses_setConnection]
    apply count_flatten_replace (Pool.addresses_found found) (Pool.addresses_present inside)
    exact fun same => different (Option.some.inj same).symm
  exact fewer.ne behind.symm

/-! ## Runs -/

theorem Tracks.miner {handle : DaemonHandle} {event : MinerEvent} (tracks : s.Tracks)
    (found : s.pool.DAEMON_CONNECTIONS[nDaemon]? = some handle)
    (inside : handle.CONNECTIONS[nID]? = some (some connection))
    (keeps : s.KeepsAddress (.pool (.miner nDaemon nID event))) :
    Tracks {
      pool := s.pool.miner nDaemon nID handle connection event
      collector := s.collector.miner (connectionGUID nDaemon nID) connection event } := by
  cases event with
  | disconnect => exact tracks.disconnect found inside
  | login ADDRESS fValid fBanned =>
      cases out : connection.fLoggedIn with
      | false => exact tracks.login found inside out (keeps connection (Pool.connectionAt_of_handle found inside) out)
      | true =>
          apply tracks.of_same
          · rw [Pool.miner, if_pos out]
          · intro other
            rw [StatsCollector.miner, if_pos out]
  | generic =>
      refine tracks.of_same ?_ fun _ => rfl
      simp only [Pool.miner]
      split
      · exact Pool.addresses_setConnection_same found inside rfl
      · rfl
  | getBlock =>
      refine tracks.of_same ?_ fun _ => rfl
      simp only [Pool.miner]
      split
      · exact Pool.addresses_setConnection_same found inside rfl
      · rfl
  | submitShare BLOCK nWeight fBlock =>
      refine tracks.of_same ?_ fun _ => rfl
      simp only [Pool.miner]
      split
      · split
        · exact Pool.addresses_setConnection_same found inside rfl
        · rfl
      · rfl

variable {SK256 : Bytes → Vector UInt8 32} {fTestNet : Bool} {getHash : CBlock → Uint1024} [Double D]

theorem collect_miner {event : MinerEvent} (present : s.pool.connectionAt nDaemon nID = some connection) :
    s.collect (.miner nDaemon nID event) = s.collector.miner (connectionGUID nDaemon nID) connection event := by
  simp only [collect, present]

theorem Tracks.pool {pool : Pool D} {event : Event} (tracks : s.Tracks)
    (moved : Pool.step getHash s.pool event = some pool) (keeps : s.KeepsAddress (.pool event)) :
    Tracks { pool, collector := s.collect event } := by
  have leads := Pool.leads_of_step moved
  cases event with
  | masterReconnect =>
      obtain ⟨-, rfl⟩ := leads
      exact tracks.of_same rfl fun _ => rfl
  | masterPacket packet => exact tracks.of_same (Pool.addresses_masterPacket leads.2) fun _ => rfl
  | orphanReconnect =>
      subst leads
      exact tracks.of_same rfl fun _ => rfl
  | orphanPacket packet =>
      subst leads
      cases packet with
      | orphanBlock _ | goodBlock _ => exact tracks.of_same rfl fun _ => rfl
  | daemonReconnect nDaemon =>
      obtain ⟨handle, found, rfl⟩ := leads
      exact tracks.of_same (Pool.addresses_setHandle_same found rfl) fun _ => rfl
  | daemonPacket nDaemon packet =>
      obtain ⟨handle, found, handled⟩ := leads
      refine tracks.of_same (Pool.addresses_daemonPacket found handled) ?_
      cases packet with
      | good | fail | coinbaseSet | coinbaseFail | blockData _ => exact fun _ => rfl
  | daemonScan nDaemon =>
      obtain ⟨handle, found, rfl⟩ := leads
      exact tracks.of_same (Pool.addresses_setHandle_same found (Pool.addresses_daemonScan _ handle)) fun _ => rfl
  | minerConnect => exact tracks.minerConnect leads
  | miner nDaemon nID event =>
      obtain ⟨handle, found, rest⟩ := Option.bind_eq_some_iff.mp moved
      obtain ⟨connection, inside, same⟩ := Option.bind_eq_some_iff.mp rest
      cases same
      have inside := Option.join_eq_some_iff.mp inside
      rw [collect_miner (Pool.connectionAt_of_handle found inside)]
      exact tracks.miner found inside keeps

theorem Tracks.after_step {event : StatsEvent} (tracks : s.Tracks) (keeps : s.KeepsAddress event)
    (taken : step SK256 fTestNet getHash s event = some after) : after.Tracks := by
  cases event with
  | pool event =>
      obtain ⟨pool, moved, judged⟩ := Option.bind_eq_some_iff.mp taken
      obtain ⟨-, same⟩ := Option.ite_none_right_eq_some.mp judged
      cases same
      exact tracks.pool moved keeps
  | submitPPS nDaemon nID fSave =>
      obtain ⟨connection, present, handled⟩ := Option.bind_eq_some_iff.mp taken
      split at handled
      · cases handled
        exact tracks.submitPPS present fSave
      · cases handled
        exact tracks
  | updateAccountData =>
      cases taken
      exact tracks.of_same rfl fun _ => StatsCollector.minerData_updateAccountData _ _ _

/-- A login under another address leaves the connection counted under both. -/
theorem Tracks.not_countsLive {event : StatsEvent} (tracks : s.Tracks) (moves : ¬ s.KeepsAddress event)
    (taken : step SK256 fTestNet getHash s event = some after) : ¬ after.CountsLive := by
  unfold KeepsAddress at moves
  split at moves
  · rename_i nDaemon nID ADDRESS fValid fBanned
    push Not at moves
    obtain ⟨connection, present, out, named, different⟩ := moves
    obtain ⟨handle, found, inside⟩ := Pool.handle_of_connectionAt present
    obtain ⟨pool, moved, judged⟩ := Option.bind_eq_some_iff.mp taken
    obtain ⟨-, same⟩ := Option.ite_none_right_eq_some.mp judged
    cases same
    have became : s.pool.miner nDaemon nID handle connection (.login ADDRESS fValid fBanned) = pool := by
      rw [Pool.step, found] at moved
      exact Option.some.inj ((congrArg (fun slot => slot.join >>= _) inside).symm.trans moved)
    have counted := not_countsLive_of_login fValid fBanned tracks found inside out named different
    rw [became] at counted
    rw [collect_miner present]
    exact counted
  · exact absurd trivial moves

theorem counts_live_iff (events : List StatsEvent) (databases : Databases) (lfPoolFee : D) (nMaxDaemons : Nat) :
    EachStep (step SK256 fTestNet getHash) (fun _ _ after => after.CountsLive) events
        (start SK256 fTestNet databases lfPoolFee nMaxDaemons) ↔
      EachStep (step SK256 fTestNet getHash) (fun s event _ => s.KeepsAddress event) events
        (start SK256 fTestNet databases lfPoolFee nMaxDaemons) := by
  have start := tracks_start SK256 fTestNet databases lfPoolFee nMaxDaemons
  constructor
  · apply EachStep.of_invariant Tracks _ start
    intro s event after tracks taken counts
    have keeps : s.KeepsAddress event := by
      by_contra moves
      exact tracks.not_countsLive moves taken counts
    exact ⟨tracks.after_step keeps taken, keeps⟩
  · apply EachStep.of_invariant Tracks _ start
    intro s event after tracks taken keeps
    have tracks' := tracks.after_step keeps taken
    exact ⟨tracks', tracks'.countsLive⟩

/-- The address of a banned account in two spellings: the first stays counted. -/
theorem banned_login_counted_twice :
    ¬ EachStep (step NexusAddress.noChecksum false sampleHash) (fun _ _ after => after.CountsLive)
      [.pool .minerConnect,
        .pool (.miner 0 0 (.login NexusAddress.plainAddress true true)),
        .pool (.miner 0 0 (.login (32 :: NexusAddress.plainAddress) true true))]
      (start NexusAddress.noChecksum false oneAccount (0 : Float) 1) := by
  intro counts
  have counted : EachStep (step NexusAddress.noChecksum false sampleHash)
      (fun _ _ after => (after.collector.getConnectionCount NexusAddress.plainAddress).1 =
        after.pool.liveConnections NexusAddress.plainAddress)
      [.pool .minerConnect,
        .pool (.miner 0 0 (.login NexusAddress.plainAddress true true)),
        .pool (.miner 0 0 (.login (32 :: NexusAddress.plainAddress) true true))]
      (start NexusAddress.noChecksum false oneAccount (0 : Float) 1) := by
    apply counts.of_invariant (fun _ => True) _ trivial
    exact fun s event after _ _ counts => ⟨trivial, counts _ (by decide)⟩
  revert counted
  decide +kernel

end StatsPool

end PrimePool.Core

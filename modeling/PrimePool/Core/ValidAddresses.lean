import PrimePool.Core.AddressSpelling
import PrimePool.Core.PoolSteps
import PrimePool.Core.StatsPrograms
import PrimePool.General.Machine

/-!
# The addresses in the queries

Which address strings the statistics collector hands to the persister.
-/

namespace PrimePool.Core

open PrimePool.General PrimePool.LLD Std Program

variable {SK256 : Bytes → Vector UInt8 32} {fTestNet : Bool}

/-! ## Valid addresses -/

def singleQuote : UInt8 := 39

def backslash : UInt8 := 92

/-- The address was accepted, and what a query shows of it has no quote and no backslash. -/
def SafeAddress (SK256 : Bytes → Vector UInt8 32) (fTestNet : Bool) (address : StdString) : Prop :=
  isValidAddress SK256 fTestNet address = true ∧ singleQuote ∉ c_str address ∧ backslash ∉ c_str address

instance (SK256 : Bytes → Vector UInt8 32) (fTestNet : Bool) (address : StdString) :
    Decidable (SafeAddress SK256 fTestNet address) :=
  inferInstanceAs (Decidable (_ ∧ _ ∧ _))

theorem base58_or_space {bn n : Nat} {psz : StdString} (read : readBase58 bn psz = some n) :
    ∀ c ∈ psz, c ∈ pszBase58 ∨ isspace c = true := by
  induction psz generalizing bn with
  | nil => exact fun c member => absurd member List.not_mem_nil
  | cons c psz ih =>
      rw [readBase58] at read
      split at read
      next =>
        have spaces := List.dropWhile_eq_nil_iff.mp (Option.ite_none_right_eq_some.mp read).1
        exact fun d member => Or.inr (spaces d member)
      next digit found =>
        intro d member
        rcases List.mem_cons.mp member with rfl | later
        · exact Or.inl (List.mem_of_getElem? (getElem_strchr found))
        · exact ih read d later

theorem base58_or_space_of_valid {address : StdString} (valid : isValidAddress SK256 fTestNet address = true) :
    ∀ c ∈ c_str address, c ∈ pszBase58 ∨ isspace c = true := by
  have decoded := NexusAddress.setString_of_isValid valid
  obtain ⟨vchRet, decoded, -⟩ := Option.bind_eq_some_iff.mp decoded
  obtain ⟨bn, read, -⟩ := Option.bind_eq_some_iff.mp decoded
  intro c member
  rw [← List.takeWhile_append_dropWhile (p := isspace) (l := c_str address), List.mem_append] at member
  rcases member with before | behind
  · exact Or.inr (List.mem_takeWhile_imp before)
  · exact base58_or_space read c behind

theorem safeAddress_of_valid {address : StdString} (valid : isValidAddress SK256 fTestNet address = true) :
    SafeAddress SK256 fTestNet address := by
  refine ⟨valid, fun quote => ?_, fun slash => ?_⟩
  · exact absurd (base58_or_space_of_valid valid _ quote) (by decide)
  · exact absurd (base58_or_space_of_valid valid _ slash) (by decide)

/-! ## The collector -/

namespace StatsCollector

variable {collector after : StatsCollector} {ADDRESS GUID : StdString} {allowed : StdString → Prop}

/-- An entry that `operator[]` made for an address with no connection has no address. -/
def Entered (collector : StatsCollector) (ADDRESS : StdString) : Prop :=
  (collector.connectionData ADDRESS).ADDRESS = ADDRESS

/-- No entry is lost, and every new query is about an allowed address. -/
structure Advances (allowed : StdString → Prop) (collector after : StatsCollector) : Prop where
  entered (ADDRESS : StdString) : collector.Entered ADDRESS → after.Entered ADDRESS
  queries (query : Query) : query ∈ after.queries → query ∈ collector.queries ∨ allowed query.address

theorem Advances.refl (collector : StatsCollector) : Advances allowed collector collector :=
  ⟨fun _ entered => entered, fun _ member => Or.inl member⟩

theorem Advances.trans {between : StatsCollector} (first : Advances allowed collector between)
    (second : Advances allowed between after) : Advances allowed collector after where
  entered ADDRESS entered := second.entered ADDRESS (first.entered ADDRESS entered)
  queries query member := by
    rcases second.queries query member with before | new
    · exact first.queries query before
    · exact Or.inr new

theorem advances_persist (collector : StatsCollector) {query : Query} (asked : allowed query.address) :
    Advances allowed collector (collector.persist query) where
  entered _ entered := entered
  queries other member := by
    rcases List.mem_append.mp member with before | new
    · exact Or.inl before
    · rw [List.mem_singleton.mp new]
      exact Or.inr asked

theorem advances_setConnectionData (collector : StatsCollector) {data : ConnectionData}
    (keeps : collector.Entered ADDRESS → data.ADDRESS = ADDRESS) :
    Advances allowed collector (collector.setConnectionData ADDRESS data) where
  entered other entered := by
    rw [Entered, connectionData_setConnectionData]
    split
    next same =>
      subst same
      exact keeps entered
    next => exact entered
  queries _ member := Or.inl member

theorem advances_incConnectionCount (collector : StatsCollector) (ADDRESS GUID : StdString) :
    Advances allowed collector (collector.incConnectionCount ADDRESS GUID) :=
  collector.advances_setConnectionData fun _ => rfl

theorem entered_incConnectionCount (collector : StatsCollector) (ADDRESS GUID : StdString) :
    (collector.incConnectionCount ADDRESS GUID).Entered ADDRESS := by
  rw [Entered, incConnectionCount, connectionData_setConnectionData, if_pos rfl]

theorem advances_getConnectionCount (collector : StatsCollector) (ADDRESS : StdString) :
    Advances allowed collector (collector.getConnectionCount ADDRESS).2 :=
  collector.advances_setConnectionData fun entered => entered

theorem Entered.getConnectionCount {other : StdString} (entered : collector.Entered other) (ADDRESS : StdString) :
    (collector.getConnectionCount ADDRESS).2.Entered other := by
  have advances : Advances (fun _ => True) collector (collector.getConnectionCount ADDRESS).2 :=
    collector.advances_getConnectionCount ADDRESS
  exact advances.entered other entered

theorem advances_decConnectionCount (entered : collector.Entered ADDRESS) (asked : allowed ADDRESS) :
    Advances allowed collector (collector.decConnectionCount ADDRESS GUID) := by
  have removed (MINER_DATA : ExtTreeSet StdString) : Advances allowed collector (collector.setConnectionData ADDRESS
      { ADDRESS := (collector.connectionData ADDRESS).ADDRESS, MINER_DATA }) :=
    collector.advances_setConnectionData fun entered => entered
  simp only [decConnectionCount]
  split
  · refine (removed _).trans (advances_persist _ ?_)
    rw [Query.address, entered]
    exact asked
  · exact removed _

theorem advances_updateConnectionData (collector : StatsCollector) (GUID : StdString) (fSave : Bool)
    (asked : allowed ADDRESS) : Advances allowed collector (collector.updateConnectionData ADDRESS GUID fSave) := by
  simp only [updateConnectionData]
  split
  · refine (collector.advances_incConnectionCount ADDRESS GUID).trans (advances_persist _ ?_)
    rw [Query.address, collector.entered_incConnectionCount ADDRESS GUID]
    exact asked
  · exact collector.advances_incConnectionCount ADDRESS GUID

theorem advances_updateAccount (collector : StatsCollector) (asked : allowed ADDRESS) :
    Advances allowed collector (collector.updateAccount ADDRESS) := by
  simp only [updateAccount]
  split
  · exact (collector.advances_getConnectionCount ADDRESS).trans (advances_persist _ asked)
  · exact collector.advances_getConnectionCount ADDRESS

theorem advances_updateAccountData (collector : StatsCollector) {AccountDB : Records StdString Account}
    (asked : ∀ key ∈ AccountDB, allowed key) : Advances allowed collector (collector.updateAccountData AccountDB) := by
  have keys : ∀ key ∈ AccountDB.getKeys, allowed key := fun key member => asked key (ExtTreeMap.mem_keys.mp member)
  rw [updateAccountData]
  generalize AccountDB.getKeys = vKeys at keys
  induction vKeys generalizing collector with
  | nil => exact .refl collector
  | cons key vKeys ih =>
      have first := collector.advances_updateAccount (keys key List.mem_cons_self)
      exact first.trans (ih _ fun other member => keys other (List.mem_cons_of_mem key member))

theorem advances_observe (collector : StatsCollector) {databases : Databases} {p : StatsProgram Unit}
    (asked : ∀ query ∈ (run (logged perform) p (databases, collector.queries)).2.2,
      query ∈ collector.queries ∨ allowed query.address) :
    Advances allowed collector (collector.observe databases p) :=
  ⟨fun _ entered => entered, asked⟩

end StatsCollector

/-! ## The connections -/

/-- A connection that is logged in or has a block to submit has an address, and the address is known. -/
structure Registered (known : StdString → Prop) (connection : PoolConnection) : Prop where
  named : connection.fLoggedIn = true ∨ connection.SUBMISSION_BLOCK.isSome = true → connection.ADDRESS ≠ []
  known : connection.ADDRESS ≠ [] → known connection.ADDRESS

section Connections

variable {D : Type} {pool after : Pool D} {nDaemon nID : Nat} {handle : DaemonHandle} {connection : PoolConnection}
  {known : StdString → Prop}

theorem Registered.mono {more : StdString → Prop} (registered : Registered known connection)
    (grows : ∀ ADDRESS, known ADDRESS → more ADDRESS) : Registered more connection :=
  ⟨registered.named, fun named => grows _ (registered.known named)⟩

theorem registered_new : Registered known .new where
  named busy := by
    rcases busy with loggedIn | submitted
    · cases loggedIn
    · cases submitted
  known named := absurd rfl named

/-- A connection of the second list is one of the first, with its flags and requests changed or its block taken. -/
def Inherits (CONNECTIONS later : List (Option PoolConnection)) : Prop :=
  ∀ connection, some connection ∈ later → ∃ before, some before ∈ CONNECTIONS ∧
    connection.ADDRESS = before.ADDRESS ∧ connection.fLoggedIn = before.fLoggedIn ∧
      (connection.SUBMISSION_BLOCK.isSome = true → before.SUBMISSION_BLOCK.isSome = true)

def RegisteredHandle (known : StdString → Prop) (handle : DaemonHandle) : Prop :=
  ∀ connection, some connection ∈ handle.CONNECTIONS → Registered known connection

def RegisteredPool (known : StdString → Prop) (pool : Pool D) : Prop :=
  ∀ handle ∈ pool.DAEMON_CONNECTIONS, RegisteredHandle known handle

theorem RegisteredPool.mono {more : StdString → Prop} (registered : RegisteredPool known pool)
    (grows : ∀ ADDRESS, known ADDRESS → more ADDRESS) : RegisteredPool more pool :=
  fun handle member connection present => (registered handle member connection present).mono grows

variable {CONNECTIONS later : List (Option PoolConnection)}

theorem Inherits.registered {handle' : DaemonHandle} (inherits : Inherits handle.CONNECTIONS handle'.CONNECTIONS)
    (registered : RegisteredHandle known handle) : RegisteredHandle known handle' := by
  intro connection member
  obtain ⟨before, present, ADDRESS, fLoggedIn, submission⟩ := inherits connection member
  have earlier := registered before present
  refine ⟨fun busy => ?_, fun named => ?_⟩
  · rw [ADDRESS]
    exact earlier.named (busy.imp (fun loggedIn => fLoggedIn ▸ loggedIn) submission)
  · rw [ADDRESS] at named ⊢
    exact earlier.known named

theorem inherits_refl (CONNECTIONS : List (Option PoolConnection)) : Inherits CONNECTIONS CONNECTIONS :=
  fun connection member => ⟨connection, member, rfl, rfl, id⟩

theorem Inherits.cons {first second : Option PoolConnection} (inherits : Inherits CONNECTIONS later)
    (head : Inherits [first] [second]) : Inherits (first :: CONNECTIONS) (second :: later) := by
  intro connection member
  rcases List.mem_cons.mp member with same | behind
  · obtain ⟨before, present, kept⟩ := head connection (List.mem_singleton.mpr same)
    exact ⟨before, List.mem_cons.mpr (Or.inl (List.mem_singleton.mp present)), kept⟩
  · obtain ⟨before, present, kept⟩ := inherits connection behind
    exact ⟨before, List.mem_cons_of_mem _ present, kept⟩

theorem inherits_single {before : PoolConnection} (ADDRESS : connection.ADDRESS = before.ADDRESS)
    (fLoggedIn : connection.fLoggedIn = before.fLoggedIn)
    (submission : connection.SUBMISSION_BLOCK.isSome = true → before.SUBMISSION_BLOCK.isSome = true) :
    Inherits [some before] [some connection] := by
  intro other member
  cases Option.some.inj (List.mem_singleton.mp member)
  exact ⟨before, List.mem_singleton.mpr rfl, ADDRESS, fLoggedIn, submission⟩

theorem inherits_newBlock (handle : DaemonHandle) : Inherits handle.CONNECTIONS handle.newBlock.CONNECTIONS := by
  intro connection member
  obtain ⟨slot, present, same⟩ := List.mem_map.mp member
  obtain ⟨before, rfl, rfl⟩ := Option.map_eq_some_iff.mp same
  exact ⟨before, present, rfl, rfl, id⟩

theorem inherits_addBlock (handle : DaemonHandle) : Inherits handle.CONNECTIONS handle.addBlock.CONNECTIONS := by
  intro connection member
  simp only [DaemonHandle.addBlock] at member
  split at member
  next nIndex _ =>
    obtain ⟨nID, found⟩ := List.mem_iff_getElem?.mp member
    rw [List.getElem?_modify] at found
    obtain ⟨slot, present, same⟩ := Option.map_eq_some_iff.mp found
    split at same
    · obtain ⟨before, rfl, rfl⟩ := Option.map_eq_some_iff.mp same
      exact ⟨before, List.mem_of_getElem? present, rfl, rfl, id⟩
    · exact ⟨connection, same ▸ List.mem_of_getElem? present, rfl, rfl, id⟩
  next => exact ⟨connection, member, rfl, rfl, id⟩

theorem inherits_scanConnections (CONNECTIONS : List (Option PoolConnection)) :
    Inherits CONNECTIONS (Pool.scanConnections CONNECTIONS).2 := by
  induction CONNECTIONS with
  | nil => exact inherits_refl []
  | cons slot CONNECTIONS ih =>
      cases slot with
      | none => exact ih.cons (inherits_refl [none])
      | some connection =>
          rw [Pool.scanConnections]
          split
          next => exact (inherits_refl CONNECTIONS).cons (inherits_single rfl rfl fun taken => absurd taken Bool.false_ne_true)
          next => exact ih.cons (inherits_single rfl rfl id)

theorem mem_of_scanConnections {ADDRESS : StdString} {BLOCK : CBlock}
    (found : (Pool.scanConnections CONNECTIONS).1 = some (ADDRESS, BLOCK)) :
    ∃ connection, some connection ∈ CONNECTIONS ∧ connection.ADDRESS = ADDRESS ∧
      connection.SUBMISSION_BLOCK.isSome = true := by
  induction CONNECTIONS with
  | nil => cases found
  | cons slot CONNECTIONS ih =>
      have behind (found : (Pool.scanConnections CONNECTIONS).1 = some (ADDRESS, BLOCK)) :
          ∃ connection, some connection ∈ slot :: CONNECTIONS ∧ connection.ADDRESS = ADDRESS ∧
            connection.SUBMISSION_BLOCK.isSome = true := by
        obtain ⟨connection, present, submits⟩ := ih found
        exact ⟨connection, List.mem_cons_of_mem slot present, submits⟩
      cases slot with
      | none => exact behind found
      | some connection =>
          rw [Pool.scanConnections] at found
          split at found
          next BLOCK' submitted =>
            cases found
            exact ⟨connection, List.mem_cons_self, rfl, by rw [submitted]; rfl⟩
          next => exact behind found

theorem registeredPool_setHandle {handle' : DaemonHandle} (registered : RegisteredPool known pool)
    (own : RegisteredHandle known handle') : RegisteredPool known (pool.setHandle nDaemon handle') := by
  intro other member
  rcases List.mem_or_eq_of_mem_set member with present | rfl
  · exact registered other present
  · exact own

theorem registeredPool_resetDaemons (registered : RegisteredPool known pool) :
    RegisteredPool known pool.resetDaemons := by
  intro handle' member
  obtain ⟨handle, present, rfl⟩ := List.mem_map.mp member
  exact registered handle present

theorem registeredHandle_of_getElem? (registered : RegisteredPool known pool)
    (found : pool.DAEMON_CONNECTIONS[nDaemon]? = some handle) : RegisteredHandle known handle :=
  registered handle (List.mem_of_getElem? found)

theorem registered_of_connectionAt (registered : RegisteredPool known pool)
    (found : pool.connectionAt nDaemon nID = some connection) : Registered known connection := by
  obtain ⟨handle, present, slot⟩ := Option.bind_eq_some_iff.mp found
  exact registeredHandle_of_getElem? registered present connection
    (List.mem_of_getElem? (Option.join_eq_some_iff.mp slot))

variable {getHash : CBlock → Uint1024}

theorem inherits_scanSubmissions (globals : Globals D) (handle : DaemonHandle) :
    Inherits handle.CONNECTIONS (Pool.scanSubmissions getHash globals handle).2.CONNECTIONS := by
  simp only [Pool.scanSubmissions]
  split
  · exact inherits_scanConnections handle.CONNECTIONS
  · exact inherits_scanConnections handle.CONNECTIONS

theorem registeredHandle_daemonScan {globals : Globals D} (registered : RegisteredHandle known handle) :
    RegisteredHandle known (Pool.daemonScan getHash globals handle).2 := by
  have fresh : RegisteredHandle known { handle with fNewBlock := false }.newBlock :=
    (inherits_newBlock { handle with fNewBlock := false }).registered registered
  simp only [Pool.daemonScan]
  split
  · exact registered
  · split
    · split
      · exact fresh
      · exact (inherits_scanSubmissions globals _).registered fresh
    · exact (inherits_scanSubmissions globals _).registered registered

theorem registeredPool_minerConnect (registered : RegisteredPool known pool)
    (connected : pool.minerConnect = some after) : RegisteredPool known after := by
  obtain ⟨handle, found, same⟩ := Option.bind_eq_some_iff.mp connected
  cases same
  apply registeredPool_setHandle registered
  intro connection member
  have old := registeredHandle_of_getElem? registered found
  simp only [DaemonHandle.assignConnection] at member
  split at member
  · rcases List.mem_or_eq_of_mem_set member with present | new
    · exact old connection present
    · cases new
      exact registered_new
  · rcases List.mem_append.mp member with present | new
    · exact old connection present
    · cases Option.some.inj (List.mem_singleton.mp new)
      exact registered_new

theorem registeredPool_setConnection (registered : RegisteredPool known pool)
    (found : pool.DAEMON_CONNECTIONS[nDaemon]? = some handle) (own : Registered known connection) :
    RegisteredPool known (pool.setConnection nDaemon nID handle connection) := by
  apply registeredPool_setHandle registered
  intro other member
  rcases List.mem_or_eq_of_mem_set member with present | new
  · exact registeredHandle_of_getElem? registered found other present
  · cases new
    exact own

variable [Double D]

theorem registeredPool_masterPacket {packet : MasterPacket} (registered : RegisteredPool known pool)
    (handled : pool.masterPacket packet = some after) : RegisteredPool known after := by
  cases packet with
  | blockHeight _ | newRound =>
      cases handled
      exact registered
  | coinbaseSet =>
      obtain ⟨-, same⟩ := Option.ite_none_left_eq_some.mp handled
      cases same
      exact registeredPool_resetDaemons registered
  | coinbaseFail =>
      obtain ⟨-, same⟩ := Option.ite_none_left_eq_some.mp handled
      cases same
      exact registered
  | blockReward nReward vAccounts =>
      obtain ⟨-, handled⟩ := Option.ite_none_right_eq_some.mp handled
      split at handled
      · cases handled
        exact registered
      · cases handled
        exact registeredPool_resetDaemons registered

theorem registeredPool_daemonPacket {packet : DaemonPacket} (registered : RegisteredPool known pool)
    (found : pool.DAEMON_CONNECTIONS[nDaemon]? = some handle)
    (handled : pool.daemonPacket nDaemon handle packet = some after) : RegisteredPool known after := by
  have same := registeredHandle_of_getElem? registered found
  cases packet with
  | blockData BLOCK =>
      rw [Pool.daemonPacket] at handled
      split at handled
      · cases handled
        exact registeredPool_setHandle registered ((inherits_addBlock handle).registered same)
      · cases handled
        exact registered
  | _ =>
      obtain ⟨-, answered⟩ := Option.ite_none_left_eq_some.mp handled
      cases answered
      exact registeredPool_setHandle registered same

end Connections

/-! ## The pool and its collector -/

namespace StatsPool

variable {D : Type} {s after : StatsPool D}

/-- The block names accounts of the pool only, or was refunded before. -/
def Refundable (databases : Databases) (hashBlock : Uint1024) : Prop :=
  (databases.BlockDB.getRecord hashBlock).1.nCoinbaseValue = 0 ∨
    (∀ credit ∈ (databases.BlockDB.getRecord hashBlock).1.cCredits.mapCredits.toList,
      credit.1 ∈ databases.AccountDB) ∧
    ∀ output ∈ (databases.BlockDB.getRecord hashBlock).1.cCoinbase.mapOutputs.toList, output.1 ∈ databases.AccountDB

instance (databases : Databases) (hashBlock : Uint1024) : Decidable (Refundable databases hashBlock) :=
  inferInstanceAs (Decidable (_ ∨ _ ∧ _))

/-- A client that is not logged in gives a valid address, and an orphaned block names accounts of the pool only. -/
def Meets (SK256 : Bytes → Vector UInt8 32) (fTestNet : Bool) (s : StatsPool D) : StatsEvent → Prop
  | .pool (.miner nDaemon nID (.login ADDRESS _ _)) =>
      ∀ connection ∈ s.pool.connectionAt nDaemon nID, connection.fLoggedIn = false →
        isValidAddress SK256 fTestNet ADDRESS = true
  | .pool (.orphanPacket (.orphanBlock hashOrphan)) => Refundable s.pool.databases hashOrphan
  | _ => True

instance (SK256 : Bytes → Vector UInt8 32) (fTestNet : Bool) (s : StatsPool D) :
    DecidablePred (Meets SK256 fTestNet s)
  | .pool (.miner nDaemon nID (.login ADDRESS _ _)) =>
      inferInstanceAs (Decidable (∀ connection ∈ s.pool.connectionAt nDaemon nID,
        connection.fLoggedIn = false → isValidAddress SK256 fTestNet ADDRESS = true))
  | .pool (.orphanPacket (.orphanBlock hashOrphan)) =>
      inferInstanceAs (Decidable (Refundable s.pool.databases hashOrphan))
  | .pool .masterReconnect | .pool (.masterPacket _) | .pool .orphanReconnect => isTrue trivial
  | .pool (.orphanPacket (.goodBlock _)) | .pool (.daemonReconnect _) | .pool (.daemonPacket _ _) => isTrue trivial
  | .pool (.daemonScan _) | .pool .minerConnect | .pool (.miner _ _ .disconnect) => isTrue trivial
  | .pool (.miner _ _ .generic) | .pool (.miner _ _ .getBlock) => isTrue trivial
  | .pool (.miner _ _ (.submitShare _ _ _)) | .submitPPS _ _ _ | .updateAccountData => isTrue trivial

structure Sound (SK256 : Bytes → Vector UInt8 32) (fTestNet : Bool) (s : StatsPool D) : Prop where
  wellKeyed : s.pool.databases.AccountDB.WellKeyed
  accounts : ∀ key ∈ s.pool.databases.AccountDB, isValidAddress SK256 fTestNet key = true
  connections : RegisteredPool (fun ADDRESS => ADDRESS ∈ s.pool.databases.AccountDB ∧ s.collector.Entered ADDRESS) s.pool
  finder : s.pool.inFlight ≠ [] → s.pool.globals.LAST_ROUND_BLOCKFINDER ∈ s.pool.databases.AccountDB
  queries : ∀ query ∈ s.collector.queries, isValidAddress SK256 fTestNet query.address = true

variable {SK256 : Bytes → Vector UInt8 32} {fTestNet : Bool} {nDaemon nID : Nat} {handle : DaemonHandle}

/-! ## The start -/

theorem c_str_of_zero_notMem {str : StdString} (plain : 0 ∉ str) : c_str str = str := by
  refine List.takeWhile_eq_self_iff.mpr fun c member => decide_eq_true fun zero => plain ?_
  rw [← zero]
  exact member

theorem foldl_eraseInvalid {vAccounts : List StdString} {AccountDB : Records StdString Account}
    (wellKeyed : AccountDB.WellKeyed)
    (stored : ∀ key ∈ vAccounts, isValidAddress SK256 fTestNet key = true ∧ key ∈ AccountDB ∨
      isValidAddress SK256 fTestNet key = false ∧ 0 ∉ key) :
    let erased := vAccounts.foldl
      (fun AccountDB account =>
        if isValidAddress SK256 fTestNet account then (AccountDB.getRecord account).2
        else AccountDB.eraseRecord (c_str account)) AccountDB
    erased.WellKeyed ∧ ∀ key ∈ erased, key ∈ AccountDB ∧ (key ∈ vAccounts → isValidAddress SK256 fTestNet key = true) := by
  induction vAccounts generalizing AccountDB with
  | nil => exact ⟨wellKeyed, fun key member => ⟨member, fun listed => absurd listed List.not_mem_nil⟩⟩
  | cons account vAccounts ih =>
      dsimp only [List.foldl_cons]
      rcases stored account List.mem_cons_self with ⟨valid, present⟩ | ⟨invalid, plain⟩
      · rw [if_pos valid, Records.getRecord_of_mem present]
        obtain ⟨kept, keys⟩ := ih wellKeyed fun key member => stored key (List.mem_cons_of_mem account member)
        refine ⟨kept, fun key member => ⟨(keys key member).1, fun listed => ?_⟩⟩
        rcases List.mem_cons.mp listed with rfl | later
        · exact valid
        · exact (keys key member).2 later
      · rw [invalid, if_neg Bool.false_ne_true, c_str_of_zero_notMem plain]
        have others (key : StdString) : key ∈ AccountDB.eraseRecord account ↔ account ≠ key ∧ key ∈ AccountDB := by
          rw [Records.eraseRecord, ExtTreeMap.mem_erase, ne_eq, LawfulEqCmp.compare_eq_iff_eq]
        obtain ⟨kept, keys⟩ := ih (wellKeyed.eraseRecord account) fun key member => by
          refine (stored key (List.mem_cons_of_mem account member)).imp_left fun both => ⟨both.1, ?_⟩
          refine (others key).mpr ⟨fun same => ?_, both.2⟩
          rw [← same, invalid] at both
          exact Bool.false_ne_true both.1
        refine ⟨kept, fun key member => ?_⟩
        obtain ⟨different, present⟩ := (others key).mp (keys key member).1
        refine ⟨present, fun listed => (keys key member).2 ?_⟩
        exact (List.mem_cons.mp listed).resolve_left fun same => different same.symm

theorem sound_start {databases : Databases} (lfPoolFee : D) (nMaxDaemons : Nat)
    (wellKeyed : databases.AccountDB.WellKeyed)
    (stored : ∀ key ∈ databases.AccountDB, isValidAddress SK256 fTestNet key = true ∨ 0 ∉ key) :
    Sound SK256 fTestNet (start SK256 fTestNet databases lfPoolFee nMaxDaemons) := by
  have erased : (eraseInvalid SK256 fTestNet databases.AccountDB).WellKeyed ∧
      ∀ key ∈ eraseInvalid SK256 fTestNet databases.AccountDB, key ∈ databases.AccountDB ∧
        (key ∈ databases.AccountDB.getKeys → isValidAddress SK256 fTestNet key = true) := by
    refine foldl_eraseInvalid wellKeyed fun key member => ?_
    have present : key ∈ databases.AccountDB := ExtTreeMap.mem_keys.mp member
    cases judged : isValidAddress SK256 fTestNet key with
    | true => exact Or.inl ⟨rfl, present⟩
    | false => exact Or.inr ⟨rfl, (stored key present).resolve_left fun valid => Bool.false_ne_true (judged.symm.trans valid)⟩
  refine ⟨erased.1, fun key member => ?_, fun handle member connection present => ?_, fun waiting => ?_, fun query member => ?_⟩
  · obtain ⟨present, valid⟩ := erased.2 key member
    exact valid (ExtTreeMap.mem_keys.mpr present)
  · rw [List.eq_of_mem_replicate member] at present
    cases present
  · exact absurd (Pool.inFlight_start _ lfPoolFee nMaxDaemons) waiting
  · cases member

/-! ## Steps -/

/-- The addresses a connection can have. -/
def Known (s : StatsPool D) (ADDRESS : StdString) : Prop :=
  ADDRESS ∈ s.pool.databases.AccountDB ∧ s.collector.Entered ADDRESS

theorem Sound.advance (sound : Sound SK256 fTestNet s)
    (holds : Holds (fun key => key ∈ s.pool.databases.AccountDB) after.pool.databases.AccountDB)
    (collector : s.collector.Advances (fun address => isValidAddress SK256 fTestNet address = true) after.collector)
    (connections : RegisteredPool s.Known after.pool)
    (finder : after.pool.inFlight ≠ [] →
      after.pool.globals.LAST_ROUND_BLOCKFINDER ∈ s.pool.databases.AccountDB) : Sound SK256 fTestNet after where
  wellKeyed := holds.wellKeyed
  accounts key member := sound.accounts key ((holds.keys key).mp member)
  connections := connections.mono fun ADDRESS known =>
    ⟨(holds.keys ADDRESS).mpr known.1, collector.entered ADDRESS known.2⟩
  finder waiting := (holds.keys _).mpr (finder waiting)
  queries query member := by
    rcases collector.queries query member with before | valid
    · exact sound.queries query before
    · exact valid

theorem Sound.holds (sound : Sound SK256 fTestNet s) :
    Holds (fun key => key ∈ s.pool.databases.AccountDB) s.pool.databases.AccountDB :=
  ⟨sound.wellKeyed, fun _ => Iff.rfl⟩

theorem Sound.of_frame (sound : Sound SK256 fTestNet s) {pool : Pool D}
    (accounts : pool.databases.AccountDB = s.pool.databases.AccountDB)
    (connections : RegisteredPool s.Known pool)
    (finder : pool.inFlight ≠ [] → pool.globals.LAST_ROUND_BLOCKFINDER ∈ s.pool.databases.AccountDB) :
    Sound SK256 fTestNet { s with pool } := by
  refine sound.advance ?_ (.refl _) connections finder
  dsimp only
  rw [accounts]
  exact sound.holds

theorem Sound.daemonScan (sound : Sound SK256 fTestNet s) (getHash : CBlock → Uint1024)
    (found : s.pool.DAEMON_CONNECTIONS[nDaemon]? = some handle) :
    Sound SK256 fTestNet { s with pool := s.pool.afterScan getHash nDaemon handle } := by
  have registered := registeredHandle_of_getElem? sound.connections found
  have connections : RegisteredPool s.Known (s.pool.afterScan getHash nDaemon handle) :=
    registeredPool_setHandle sound.connections (registeredHandle_daemonScan registered)
  cases Pool.scanEffect_afterScan getHash found with
  | idle _ globals inFlight | stale _ _ _ _ globals inFlight =>
      refine sound.of_frame rfl connections fun waiting => ?_
      rw [globals]
      exact sound.finder (inFlight ▸ waiting)
  | sent ADDRESS BLOCK picked height globals before behind inFlight inFlight' =>
      refine sound.of_frame rfl connections fun _ => ?_
      rw [globals]
      obtain ⟨-, scanned⟩ := Option.ite_none_left_eq_some.mp picked
      obtain ⟨connection, member, rfl, submits⟩ := mem_of_scanConnections scanned
      have own := registered connection member
      exact (own.known (own.named (Or.inr submits))).1

theorem Sound.login (sound : Sound SK256 fTestNet s) {connection : PoolConnection} {ADDRESS : StdString} {fBanned : Bool}
    (found : s.pool.DAEMON_CONNECTIONS[nDaemon]? = some handle) (valid : isValidAddress SK256 fTestNet ADDRESS = true)
    (GUID : StdString) {databases : Databases}
    (created : databases = if s.pool.databases.AccountDB.hasKey ADDRESS then s.pool.databases
      else (run perform (updateAccount .processPacket (.new ADDRESS)) s.pool.databases).2) :
    Sound SK256 fTestNet
      { pool := { s.pool with databases }.setConnection nDaemon nID handle
          { connection with ADDRESS, fLoggedIn := !fBanned }
        collector := ((s.collector.incConnectionCount ADDRESS GUID).getConnectionCount ADDRESS).2 } := by
  have stored : databases.AccountDB.WellKeyed ∧
      ∀ key, key ∈ databases.AccountDB ↔ key = ADDRESS ∨ key ∈ s.pool.databases.AccountDB := by
    rw [created]
    split
    next has =>
      exact ⟨sound.wellKeyed, fun key => (or_iff_right_of_imp fun same => by rw [same]; exact has).symm⟩
    next =>
      refine ⟨sound.wellKeyed.updateRecord (Account.new ADDRESS), fun key => ?_⟩
      apply ExtTreeMap.mem_insert.trans
      rw [LawfulEqCmp.compare_eq_iff_eq, eq_comm]
      exact Iff.rfl
  have advances : s.collector.Advances (fun address => isValidAddress SK256 fTestNet address = true)
      ((s.collector.incConnectionCount ADDRESS GUID).getConnectionCount ADDRESS).2 :=
    (s.collector.advances_incConnectionCount ADDRESS GUID).trans (StatsCollector.advances_getConnectionCount _ ADDRESS)
  have entered : ((s.collector.incConnectionCount ADDRESS GUID).getConnectionCount ADDRESS).2.Entered ADDRESS :=
    (s.collector.entered_incConnectionCount ADDRESS GUID).getConnectionCount ADDRESS
  have named : ADDRESS ≠ [] := by
    rintro rfl
    exact Bool.false_ne_true valid
  refine ⟨stored.1, fun key member => ?_, ?_, fun waiting => ?_, fun query member => ?_⟩
  · rcases (stored.2 key).mp member with rfl | old
    · exact valid
    · exact sound.accounts key old
  · have grows (other : StdString) (known : s.Known other) : other ∈ databases.AccountDB ∧
        ((s.collector.incConnectionCount ADDRESS GUID).getConnectionCount ADDRESS).2.Entered other :=
      ⟨(stored.2 other).mpr (Or.inr known.1), advances.entered other known.2⟩
    exact registeredPool_setConnection (sound.connections.mono grows) found
      ⟨fun _ => named, fun _ => ⟨(stored.2 ADDRESS).mpr (Or.inl rfl), entered⟩⟩
  · have same : ({ s.pool with databases }.setConnection nDaemon nID handle
        { connection with ADDRESS, fLoggedIn := !fBanned }).inFlight = s.pool.inFlight := Pool.inFlight_setHandle found rfl
    exact (stored.2 _).mpr (Or.inr (sound.finder (same ▸ waiting)))
  · rcases advances.queries query member with before | new
    · exact sound.queries query before
    · exact new

variable [Double D] {getHash : CBlock → Uint1024}

theorem Sound.masterPacket (sound : Sound SK256 fTestNet s) {packet : MasterPacket} {pool : Pool D}
    (handled : s.pool.masterPacket packet = some pool) : Sound SK256 fTestNet { s with pool } := by
  have kept : pool.databases.AccountDB = s.pool.databases.AccountDB ∧
      pool.globals.LAST_ROUND_BLOCKFINDER = s.pool.globals.LAST_ROUND_BLOCKFINDER := by
    cases packet with
    | blockHeight _ | newRound =>
        cases handled
        exact ⟨rfl, rfl⟩
    | coinbaseSet | coinbaseFail =>
        obtain ⟨-, same⟩ := Option.ite_none_left_eq_some.mp handled
        cases same
        exact ⟨rfl, rfl⟩
    | blockReward nReward vAccounts =>
        have finder : (blockReward s.pool.globals s.pool.databases.AccountDB vAccounts nReward).LAST_ROUND_BLOCKFINDER =
            s.pool.globals.LAST_ROUND_BLOCKFINDER := by
          rw [blockReward]
          split <;> rfl
        obtain ⟨-, handled⟩ := Option.ite_none_right_eq_some.mp handled
        split at handled
        · cases handled
          exact ⟨rfl, finder⟩
        · cases handled
          exact ⟨rfl, finder⟩
  refine sound.of_frame kept.1 (registeredPool_masterPacket sound.connections handled) fun waiting => ?_
  rw [(Pool.inFlight_masterPacket handled).1] at waiting
  rw [kept.2]
  exact sound.finder waiting

theorem logs_refundPayouts {databases : Databases} {queries : List Query} {present : StdString → Prop}
    (allowed : Query → Prop) {hashBlock : Uint1024} (asked : ∀ query, present query.address → allowed query)
    (logs : Logs present allowed (databases, queries)) (refundable : Refundable databases hashBlock) :
    Logs present allowed (run (logged perform) (do
      let _ ← (getBlock hashBlock).quiet
      Stats.refundPayouts hashBlock) (databases, queries)).2 := by
  have read (databases : Databases) : run (logged perform) (getBlock hashBlock).quiet (databases, queries) =
      ((databases.BlockDB.getRecord hashBlock).1,
        { databases with BlockDB := (databases.BlockDB.getRecord hashBlock).2 }, queries) := rfl
  rw [run_bind, read, Stats.refundPayouts, run_bind, read, Records.getRecord_getRecord]
  dsimp only
  split
  next => exact logs
  next pending =>
    obtain ⟨credits, outputs⟩ := refundable.resolve_left pending
    have sticks := sticks_refundLoops { (databases.BlockDB.getRecord hashBlock).1 with nCoinbaseValue := 0 }
      (fun credit member => (logs.1.keys credit.1).mp (credits credit member))
      (fun output member => (logs.1.keys output.1).mp (outputs output member))
    exact sticks.run allowed asked logs

theorem Sound.orphanPacket (sound : Sound SK256 fTestNet s) (packet : OrphanPacket)
    (meets : Meets SK256 fTestNet s (.pool (.orphanPacket packet))) :
    Sound SK256 fTestNet { pool := s.pool.orphanPacket packet, collector := s.collect (.orphanPacket packet) } := by
  cases packet with
  | orphanBlock hashOrphan =>
      have logs : Logs (fun key => key ∈ s.pool.databases.AccountDB)
          (fun query => query ∈ s.collector.queries ∨ isValidAddress SK256 fTestNet query.address = true)
          (s.pool.databases, s.collector.queries) := ⟨sound.holds, fun query before => Or.inl before⟩
      have after := logs_refundPayouts _ (fun query present => Or.inr (sound.accounts query.address present)) logs meets
      refine sound.advance ?_ (s.collector.advances_observe after.2) sound.connections sound.finder
      have kept := after.1
      rw [(run_logged perform _ _ _).2, erase_bind, erase_quiet] at kept
      simp only [Stats.erase_refundPayouts] at kept
      exact kept
  | goodBlock hashBlock => exact sound.of_frame rfl sound.connections sound.finder

theorem Sound.newRound (sound : Sound SK256 fTestNet s) (waiting : s.pool.inFlight ≠ []) :
    Holds (fun key => key ∈ s.pool.databases.AccountDB)
        (run perform (Core.newRound s.pool.globals.toRound) s.pool.databases).2.AccountDB ∧
      s.collector.Advances (fun address => isValidAddress SK256 fTestNet address = true)
        (s.collector.observe s.pool.databases (Stats.newRound s.pool.globals.toRound)) := by
  have after := (sticks_newRound s.pool.globals.toRound (sound.finder waiting)).run
    (fun query => query ∈ s.collector.queries ∨ isValidAddress SK256 fTestNet query.address = true)
    (fun query present => Or.inr (sound.accounts query.address present))
    (s := (s.pool.databases, s.collector.queries)) ⟨sound.holds, fun query before => Or.inl before⟩
  refine ⟨?_, s.collector.advances_observe after.2⟩
  have kept := after.1
  rw [(run_logged perform _ _ _).2, Stats.erase_newRound] at kept
  exact kept

theorem Sound.daemonPacket (sound : Sound SK256 fTestNet s) {packet : DaemonPacket} {pool : Pool D}
    (found : s.pool.DAEMON_CONNECTIONS[nDaemon]? = some handle)
    (handled : s.pool.daemonPacket nDaemon handle packet = some pool) :
    Sound SK256 fTestNet { pool, collector := s.collect (.daemonPacket nDaemon packet) } := by
  have connections : RegisteredPool s.Known pool := registeredPool_daemonPacket sound.connections found handled
  have frame (globals : pool.globals.LAST_ROUND_BLOCKFINDER = s.pool.globals.LAST_ROUND_BLOCKFINDER)
      (databases : pool.databases = s.pool.databases) (waits : pool.inFlight ≠ [] → s.pool.inFlight ≠ []) :
      Sound SK256 fTestNet { s with pool } := by
    refine sound.of_frame (congrArg Databases.AccountDB databases) connections fun waiting => ?_
    rw [globals]
    exact sound.finder (waits waiting)
  cases Pool.daemonEffect_of_daemonPacket found handled with
  | good answered databases globals =>
      obtain ⟨holds, advances⟩ := sound.newRound answered.waiting
      refine sound.advance ?_ advances connections fun _ => ?_
      · dsimp only
        rw [databases]
        exact holds
      · dsimp only
        rw [globals]
        exact sound.finder answered.waiting
  | fail answered databases globals =>
      exact frame (by rw [globals]) databases fun _ => answered.waiting
  | coinbaseSet inFlight databases globals => exact frame (by rw [globals]) databases fun waiting => inFlight ▸ waiting
  | coinbaseFail inFlight databases globals => exact frame (by rw [globals]) databases fun waiting => inFlight ▸ waiting
  | blockData BLOCK inFlight databases globals =>
      exact frame (by rw [globals]) databases fun waiting => inFlight ▸ waiting

theorem Sound.miner (sound : Sound SK256 fTestNet s) {event : MinerEvent} {connection : PoolConnection}
    (found : s.pool.DAEMON_CONNECTIONS[nDaemon]? = some handle)
    (slot : s.pool.connectionAt nDaemon nID = some connection)
    (judged : Judged SK256 fTestNet (.miner nDaemon nID event))
    (meets : Meets SK256 fTestNet s (.pool (.miner nDaemon nID event))) :
    Sound SK256 fTestNet
      { pool := s.pool.miner nDaemon nID handle connection event, collector := s.collect (.miner nDaemon nID event) } := by
  have own : Registered s.Known connection := registered_of_connectionAt sound.connections slot
  obtain ⟨globals, inFlight⟩ := Pool.miner_frame found nID connection event
  have finder : (s.pool.miner nDaemon nID handle connection event).inFlight ≠ [] →
      (s.pool.miner nDaemon nID handle connection event).globals.LAST_ROUND_BLOCKFINDER ∈
        s.pool.databases.AccountDB := by
    rw [globals, inFlight]
    exact sound.finder
  have replaced {connection' : PoolConnection} (registered : Registered s.Known connection') :
      RegisteredPool s.Known (s.pool.setConnection nDaemon nID handle connection') :=
    registeredPool_setConnection sound.connections found registered
  simp only [collect, slot, StatsCollector.miner]
  cases event with
  | disconnect =>
      have removed : RegisteredPool s.Known (s.pool.setHandle nDaemon (handle.removeConnection nID)) := by
        apply registeredPool_setHandle sound.connections
        intro other member
        rcases List.mem_or_eq_of_mem_set member with present | gone
        · exact registeredHandle_of_getElem? sound.connections found other present
        · cases gone
      dsimp only
      split
      next => exact sound.advance sound.holds (.refl _) removed finder
      next named =>
        have known := own.known named
        exact sound.advance sound.holds (StatsCollector.advances_decConnectionCount known.2 (sound.accounts _ known.1))
          removed finder
  | login ADDRESS fValid fBanned =>
      dsimp only [Judged] at judged
      dsimp only [Meets] at meets
      simp only [Pool.miner]
      split
      next => exact sound
      next out =>
        have valid := meets connection slot (Bool.eq_false_iff.mpr out)
        rw [valid] at judged
        simp only [judged, not_true_eq_false, if_true, if_false]
        exact sound.login found valid _ rfl
  | generic | getBlock =>
      refine sound.advance (by rw [Pool.miner]; split <;> exact sound.holds) (.refl _) ?_ finder
      rw [Pool.miner]
      split
      · exact replaced ⟨own.named, own.known⟩
      · exact sound.connections
  | submitShare BLOCK nWeight fBlock =>
      by_cases accepted : connection.fLoggedIn = true ∧ BLOCK.nHeight = s.pool.globals.nBestHeight
      · have named := own.named (Or.inl accepted.1)
        have credited := sound.holds.acceptShare (own.known named).1 nWeight
        have submits : Registered s.Known { connection with SUBMISSION_BLOCK := some BLOCK } := ⟨fun _ => named, own.known⟩
        refine sound.advance ?_ (.refl _) ?_ finder
        · simp only [Pool.miner, if_pos accepted]
          split
          · exact credited
          · exact credited
        · simp only [Pool.miner, if_pos accepted]
          split
          · exact replaced submits
          · exact sound.connections
      · simp only [Pool.miner, if_neg accepted]
        exact sound

theorem Sound.poolStep (sound : Sound SK256 fTestNet s) {event : Event} {pool : Pool D}
    (moved : s.pool.step getHash event = some pool) (judged : Judged SK256 fTestNet event)
    (meets : Meets SK256 fTestNet s (.pool event)) :
    Sound SK256 fTestNet { pool, collector := s.collect event } := by
  have leads := Pool.leads_of_step moved
  cases event with
  | masterReconnect =>
      obtain ⟨-, rfl⟩ := leads
      exact sound.of_frame rfl sound.connections sound.finder
  | masterPacket packet => exact sound.masterPacket leads.2
  | orphanReconnect =>
      cases leads
      exact sound.of_frame rfl sound.connections sound.finder
  | orphanPacket packet =>
      cases leads
      exact sound.orphanPacket packet meets
  | daemonReconnect nDaemon =>
      obtain ⟨handle, found, rfl⟩ := leads
      have same := registeredHandle_of_getElem? sound.connections found
      have connections : RegisteredPool s.Known (s.pool.daemonReconnect nDaemon handle) :=
        registeredPool_setHandle sound.connections same
      refine sound.of_frame rfl connections fun waiting => sound.finder fun nothing => waiting ?_
      have fewer : (s.pool.daemonReconnect nDaemon handle).inFlight ⊆ s.pool.inFlight :=
        Pool.inFlight_subset found (List.nil_subset _)
      rw [nothing] at fewer
      exact List.subset_nil.mp fewer
  | daemonPacket nDaemon packet =>
      obtain ⟨handle, found, handled⟩ := leads
      exact sound.daemonPacket found handled
  | daemonScan nDaemon =>
      obtain ⟨handle, found, rfl⟩ := leads
      exact sound.daemonScan getHash found
  | minerConnect =>
      obtain ⟨globals, databases, inFlight⟩ := Pool.minerConnect_frame leads
      refine sound.of_frame (congrArg Databases.AccountDB databases) (registeredPool_minerConnect sound.connections leads)
        fun waiting => ?_
      rw [globals]
      exact sound.finder (inFlight ▸ waiting)
  | miner nDaemon nID event =>
      obtain ⟨handle, found, rest⟩ := Option.bind_eq_some_iff.mp moved
      obtain ⟨connection, slot, same⟩ := Option.bind_eq_some_iff.mp rest
      cases same
      exact sound.miner found (Option.bind_eq_some_iff.mpr ⟨handle, found, slot⟩) judged meets

theorem Sound.step (sound : Sound SK256 fTestNet s) (event : StatsEvent)
    (taken : s.step SK256 fTestNet getHash event = some after) (meets : Meets SK256 fTestNet s event) :
    Sound SK256 fTestNet after := by
  cases event with
  | pool event =>
      obtain ⟨pool, moved, judging⟩ := Option.bind_eq_some_iff.mp taken
      obtain ⟨judged, same⟩ := Option.ite_none_right_eq_some.mp judging
      cases same
      exact sound.poolStep moved judged meets
  | submitPPS nDaemon nID fSave =>
      obtain ⟨connection, slot, updated⟩ := Option.bind_eq_some_iff.mp taken
      have own : Registered s.Known connection := registered_of_connectionAt sound.connections slot
      dsimp only at updated
      split at updated
      next loggedIn =>
        cases updated
        have known := own.known (own.named (Or.inl loggedIn))
        exact sound.advance sound.holds
          (s.collector.advances_updateConnectionData _ fSave (sound.accounts _ known.1)) sound.connections sound.finder
      next =>
        cases updated
        exact sound
  | updateAccountData =>
      cases taken
      exact sound.advance sound.holds (s.collector.advances_updateAccountData sound.accounts) sound.connections
        sound.finder

/-! ## Runs -/

def emptyDatabases : Databases where
  AccountDB := ∅
  BlockDB := ∅
  acctDat := none
  blkDat := none

/-- Where clients that are not logged in give valid addresses, and orphaned blocks name accounts of the pool, every
address in a query is a valid one. -/
theorem queries_safe (SK256 : Bytes → Vector UInt8 32) (fTestNet : Bool) (getHash : CBlock → Uint1024)
    (databases : Databases) (lfPoolFee : D) (nMaxDaemons : Nat) (wellKeyed : databases.AccountDB.WellKeyed)
    (stored : ∀ key ∈ databases.AccountDB, isValidAddress SK256 fTestNet key = true ∨ 0 ∉ key)
    (events : List StatsEvent)
    (meets : EachStep (step SK256 fTestNet getHash) (fun s event _ => Meets SK256 fTestNet s event) events
      (start SK256 fTestNet databases lfPoolFee nMaxDaemons)) :
    EachStep (step SK256 fTestNet getHash)
      (fun _ _ after => ∀ query ∈ after.collector.queries, SafeAddress SK256 fTestNet query.address) events
      (start SK256 fTestNet databases lfPoolFee nMaxDaemons) := by
  refine EachStep.of_invariant (Sound SK256 fTestNet) ?_ (sound_start lfPoolFee nMaxDaemons wellKeyed stored) meets
  intro s event after sound taken met
  have next := sound.step event taken met
  exact ⟨next, fun query member => safeAddress_of_valid (next.queries query member)⟩

theorem queries_safe_plainAddress :
    EachStep (step NexusAddress.noChecksum false sampleHash)
      (fun _ _ after => ∀ query ∈ after.collector.queries, SafeAddress NexusAddress.noChecksum false query.address)
      [.pool .minerConnect, .pool (.miner 0 0 (.login NexusAddress.plainAddress true false)), .submitPPS 0 0 true,
        .updateAccountData, .pool (.miner 0 0 .disconnect)]
      (start NexusAddress.noChecksum false emptyDatabases (0.02 : Float) 1) :=
  queries_safe NexusAddress.noChecksum false sampleHash emptyDatabases 0.02 1 Records.wellKeyed_empty
    (fun _ member => absurd member ExtTreeMap.not_mem_empty) _ (by decide +kernel)

theorem refused_login_in_query :
    ¬ EachStep (step NexusAddress.noChecksum false sampleHash)
      (fun _ _ after => ∀ query ∈ after.collector.queries, SafeAddress NexusAddress.noChecksum false query.address)
      [.pool .minerConnect, .pool (.miner 0 0 (.login [77, singleQuote] false false)), .pool (.miner 0 0 .disconnect)]
      (start NexusAddress.noChecksum false emptyDatabases (0.02 : Float) 1) := by
  decide +kernel

end StatsPool

end PrimePool.Core

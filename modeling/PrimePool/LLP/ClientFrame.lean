import PrimePool.LLP.MalformedPackets
import PrimePool.LLP.ProcessPacket

/-!
# Clients and accounts

The packets of any number of clients, handled one after the other, and the accounts that they can change. What other
threads do to the blocks of a connection and to the globals of the data threads is left open.
-/

namespace PrimePool.LLP

open PrimePool.Core PrimePool.General PrimePool.LLD Std

structure PoolClients where
  server : PoolServer
  CONNECTIONS : List (Option Client)

inductive ClientEvent where
  | connect
  | disconnect (nSlot : Nat)
  | packet (nSlot : Nat) (PACKET : Packet)
  | blocks (nSlot : Nat) (connection : PoolConnection)
  | globals (thread : PoolThread)

/-! ## What a client can change -/

/-- The accounts keep all but the shares, which only those of the owners do not, and the new records are new accounts
that were registered. -/
structure Confined (registered owners : StdString → Prop) (before after : Databases) : Prop where
  kept (key : StdString) (cAccount : Account) : before.AccountDB[key]? = some cAccount →
    ∃ nRoundShares, after.AccountDB[key]? = some { cAccount with nRoundShares } ∧
      (nRoundShares = cAccount.nRoundShares ∨ owners key)
  created (key : StdString) (cAccount : Account) : key ∉ before.AccountDB →
    after.AccountDB[key]? = some cAccount → registered key ∧
      ∃ nRoundShares, cAccount = { Account.new key with nRoundShares } ∧ (nRoundShares = 0 ∨ owners key)
  blocks : after.BlockDB = before.BlockDB

namespace Confined

variable {registered owners : StdString → Prop} {before between after : Databases}

theorem refl (databases : Databases) : Confined registered owners databases databases where
  kept _ cAccount found := ⟨cAccount.nRoundShares, found, Or.inl rfl⟩
  created _ _ missing found := absurd (mem_of_getElem? found) missing
  blocks := rfl

theorem mono {more richer : StdString → Prop} (confined : Confined registered owners before after)
    (registers : ∀ key, registered key → more key) (owns : ∀ key, owners key → richer key) :
    Confined more richer before after where
  kept key cAccount found := by
    obtain ⟨nRoundShares, stored, changed⟩ := confined.kept key cAccount found
    exact ⟨nRoundShares, stored, changed.imp_right (owns key)⟩
  created key cAccount missing found := by
    obtain ⟨entered, nRoundShares, rfl, changed⟩ := confined.created key cAccount missing found
    exact ⟨registers key entered, nRoundShares, rfl, changed.imp_right (owns key)⟩
  blocks := confined.blocks

theorem trans (first : Confined registered owners before between) (second : Confined registered owners between after) :
    Confined registered owners before after where
  kept key cAccount found := by
    obtain ⟨nRoundShares, stored, changed⟩ := first.kept key cAccount found
    obtain ⟨nRoundShares', stored', changed'⟩ := second.kept key _ stored
    refine ⟨nRoundShares', stored', ?_⟩
    rcases changed' with same | owner
    · exact changed.imp_left same.trans
    · exact Or.inr owner
  created key cAccount missing found := by
    by_cases present : key ∈ between.AccountDB
    · obtain ⟨created, stored⟩ := getElem?_of_mem present
      obtain ⟨entered, nRoundShares, rfl, changed⟩ := first.created key created missing stored
      obtain ⟨nRoundShares', stored', changed'⟩ := second.kept key _ stored
      cases stored'.symm.trans found
      refine ⟨entered, nRoundShares', rfl, ?_⟩
      rcases changed' with same | owner
      · exact changed.imp_left same.trans
      · exact Or.inr owner
    · exact second.created key cAccount present found
  blocks := second.blocks.trans first.blocks

theorem mem {key : StdString} (confined : Confined registered owners before after) (present : key ∈ before.AccountDB) :
    key ∈ after.AccountDB := by
  obtain ⟨cAccount, found⟩ := getElem?_of_mem present
  obtain ⟨nRoundShares, stored, -⟩ := confined.kept key cAccount found
  exact mem_of_getElem? stored

end Confined

/-- The new records of one step are new accounts without shares. -/
def Zeroed (before after : Databases) : Prop :=
  ∀ (key : StdString) (cAccount : Account), key ∉ before.AccountDB → after.AccountDB[key]? = some cAccount →
    cAccount = .new key

theorem Zeroed.refl (databases : Databases) : Zeroed databases databases :=
  fun _ _ missing found => absurd (mem_of_getElem? found) missing

/-! ## One packet -/

section Packets

variable {settings : Settings} {SK256 : Bytes → Vector UInt8 32} {client : Client} {databases after : Databases}
  {nWeight : Option UInt64}

def Packet.Registers (settings : Settings) (SK256 : Bytes → Vector UInt8 32) (PACKET : Packet) (ADDRESS : StdString) :
    Prop :=
  PACKET.HEADER = LOGIN ∧ PACKET.DATA = ADDRESS ∧
    (NexusAddress.setString SK256 ADDRESS).isValid settings.fTestNet = true

def Client.Owns (client : Client) (key : StdString) : Prop := client.fLoggedIn = true ∧ client.ADDRESS = key

theorem databases_read (present : client.ADDRESS ∈ databases.AccountDB) :
    (perform (.getAccount .processPacket client.ADDRESS) databases).2 = databases :=
  congrArg Prod.snd (run_getAccount .processPacket present)

theorem wellKeyed_of_effect (effect : PoolServer.DatabaseEffect settings SK256 client databases after nWeight)
    (wellKeyed : databases.AccountDB.WellKeyed) (known : client.fLoggedIn = true → client.ADDRESS ∈ databases.AccountDB) :
    after.AccountDB.WellKeyed := by
  cases effect with
  | idle => exact wellKeyed
  | register _ _ _ _ => exact wellKeyed.updateRecord _
  | read loggedIn =>
      rw [databases_read (known loggedIn)]
      exact wellKeyed
  | credit loggedIn nWeight =>
      rw [run_acceptShare wellKeyed (known loggedIn)]
      exact wellKeyed.modify _ fun _ => rfl

theorem confined_register {ADDRESS : StdString} {registered owners : StdString → Prop} (entered : registered ADDRESS)
    (missing : ADDRESS ∉ databases.AccountDB) :
    Confined registered owners databases (perform (.updateAccount .processPacket (.new ADDRESS)) databases).2 where
  kept key cAccount found := by
    have other : ADDRESS ≠ key := by
      rintro rfl
      exact missing (mem_of_getElem? found)
    exact ⟨cAccount.nRoundShares, (Records.getElem?_updateRecord _ _ _).trans ((if_neg other).trans found), Or.inl rfl⟩
  created key cAccount absent found := by
    have stored := (Records.getElem?_updateRecord _ _ _).symm.trans found
    split at stored
    next same =>
      cases same
      cases stored
      exact ⟨entered, 0, rfl, Or.inl rfl⟩
    next => exact absurd (mem_of_getElem? stored) absent
  blocks := rfl

theorem confined_change {ADDRESS : StdString} {registered owners : StdString → Prop} (owner : owners ADDRESS)
    (nWeight : UInt64) :
    Confined registered owners databases
      (databases.change ADDRESS fun cAccount => { cAccount with nRoundShares := cAccount.nRoundShares + nWeight }) where
  kept key cAccount found := by
    rw [Databases.getElem?_change, found]
    split
    next same => exact ⟨cAccount.nRoundShares + nWeight, rfl, Or.inr (same ▸ owner)⟩
    next => exact ⟨cAccount.nRoundShares, rfl, Or.inl rfl⟩
  created key cAccount absent found := by
    have present := mem_of_getElem? found
    exact absurd ((Databases.mem_change _ _ _ _).mp present) absent
  blocks := rfl

theorem confined_of_effect (effect : PoolServer.DatabaseEffect settings SK256 client databases after nWeight)
    (wellKeyed : databases.AccountDB.WellKeyed) (known : client.fLoggedIn = true → client.ADDRESS ∈ databases.AccountDB) :
    Confined (client.stream.INCOMING.Registers settings SK256) client.Owns databases after := by
  cases effect with
  | idle => exact .refl databases
  | register header _ valid missing => exact confined_register ⟨header, rfl, valid⟩ missing
  | read loggedIn =>
      rw [databases_read (known loggedIn)]
      exact .refl databases
  | credit loggedIn nWeight =>
      rw [run_acceptShare wellKeyed (known loggedIn)]
      exact confined_change ⟨loggedIn, rfl⟩ nWeight

theorem zeroed_of_effect (effect : PoolServer.DatabaseEffect settings SK256 client databases after nWeight)
    (wellKeyed : databases.AccountDB.WellKeyed) (known : client.fLoggedIn = true → client.ADDRESS ∈ databases.AccountDB) :
    Zeroed databases after := by
  cases effect with
  | idle => exact .refl databases
  | register _ _ _ _ =>
      intro key cAccount missing found
      have stored := (Records.getElem?_updateRecord _ _ _).symm.trans found
      split at stored
      next same =>
        cases same
        cases stored
        rfl
      next => exact absurd (mem_of_getElem? stored) missing
  | read loggedIn =>
      rw [databases_read (known loggedIn)]
      exact .refl databases
  | credit loggedIn nWeight =>
      rw [run_acceptShare wellKeyed (known loggedIn)]
      intro key cAccount missing found
      exact absurd ((Databases.mem_change _ _ _ _).mp (mem_of_getElem? found)) missing

end Packets

/-! ## Any number of clients -/

namespace PoolClients

variable (settings : Settings) (SK256 : Bytes → Vector UInt8 32) (GmpVerification : Uint1024 → Rat)
  (rounded : Rat → Rat) (pow : Rat → Rat → Rat)

def start (thread : PoolThread) (databases : Databases) (cGlobalCoinbase : Coinbase) : PoolClients where
  server := { thread, databases, cGlobalCoinbase }
  CONNECTIONS := []

def clientAt (s : PoolClients) (nSlot : Nat) : Option Client := s.CONNECTIONS[nSlot]?.join

def setClient (s : PoolClients) (nSlot : Nat) (client : Option Client) : PoolClients :=
  { s with CONNECTIONS := s.CONNECTIONS.set nSlot client }

def addConnection (s : PoolClients) : PoolClients :=
  match s.CONNECTIONS.findIdx? Option.isNone with
  | some nSlot => s.setClient nSlot (some .new)
  | none => { s with CONNECTIONS := s.CONNECTIONS ++ [some .new] }

/-- A connection is removed where `ProcessPacket` says false. -/
def step (s : PoolClients) : ClientEvent → Option PoolClients
  | .connect => some s.addConnection
  | .disconnect nSlot => some (s.setClient nSlot none)
  | .packet nSlot PACKET => do
      let client ← s.clientAt nSlot
      let handled := s.server.processPacket settings SK256 GmpVerification rounded pow
        { client with stream.INCOMING := PACKET }
      let client := if handled.result = some false then none else some handled.client
      return { s with server := handled.server }.setClient nSlot client
  | .blocks nSlot connection => do
      let client ← s.clientAt nSlot
      return s.setClient nSlot (some { client with connection })
  | .globals thread => some { s with server.thread := thread }

def Registers (event : ClientEvent) (ADDRESS : StdString) : Prop :=
  match event with
  | .packet _ PACKET => PACKET.Registers settings SK256 ADDRESS
  | _ => False

def SentBy (s : PoolClients) (event : ClientEvent) (key : StdString) : Prop :=
  match event with
  | .packet nSlot _ => ∃ client, s.clientAt nSlot = some client ∧ client.Owns key
  | _ => False

/-- All accounts are filed, and the clients that are logged in have one. -/
structure Accounted (s : PoolClients) : Prop where
  wellKeyed : s.server.databases.AccountDB.WellKeyed
  known (client : Client) : some client ∈ s.CONNECTIONS → client.fLoggedIn = true →
    client.ADDRESS ∈ s.server.databases.AccountDB

variable {settings SK256 GmpVerification rounded pow} {s after : PoolClients} {event : ClientEvent}

theorem Accounted.setClient {slot : Option Client} (accounted : s.Accounted) (nSlot : Nat)
    (known : ∀ client ∈ slot, client.fLoggedIn = true → client.ADDRESS ∈ s.server.databases.AccountDB) :
    (s.setClient nSlot slot).Accounted where
  wellKeyed := accounted.wellKeyed
  known client member := by
    rcases List.mem_or_eq_of_mem_set member with before | own
    · exact accounted.known client before
    · exact known client own.symm

theorem Accounted.addConnection (accounted : s.Accounted) : s.addConnection.Accounted := by
  have fresh : ∀ client ∈ some Client.new, client.fLoggedIn = true →
      client.ADDRESS ∈ s.server.databases.AccountDB := by
    intro client member loggedIn
    cases Option.mem_some_iff.mp member
    exact absurd loggedIn Bool.false_ne_true
  unfold PoolClients.addConnection
  split
  · exact accounted.setClient _ fresh
  · refine ⟨accounted.wellKeyed, fun client member => ?_⟩
    rcases List.mem_append.mp member with before | own
    · exact accounted.known client before
    · exact fresh client (List.mem_singleton.mp own).symm

theorem step_packet {client : Client} (accounted : s.Accounted) {nSlot : Nat} {PACKET : Packet}
    (present : s.clientAt nSlot = some client) {handled : Handled}
    (effects : s.server.Effects settings SK256 { client with stream.INCOMING := PACKET } handled) (slot : Option Client)
    (kept : ∀ client ∈ slot, client = handled.client) :
    ({ s with server := handled.server }.setClient nSlot slot).Accounted ∧
      Confined (Registers settings SK256 (.packet nSlot PACKET)) (s.SentBy (.packet nSlot PACKET)) s.server.databases
        handled.server.databases ∧
      Zeroed s.server.databases handled.server.databases := by
  have known := accounted.known client (List.mem_of_getElem? (Option.join_eq_some_iff.mp present))
  have confined := confined_of_effect effects.databases accounted.wellKeyed known
  have wellKeyed := wellKeyed_of_effect effects.databases accounted.wellKeyed known
  have others : ({ s with server := handled.server } : PoolClients).Accounted :=
    ⟨wellKeyed, fun other member loggedIn => confined.mem (accounted.known other member loggedIn)⟩
  refine ⟨others.setClient nSlot ?_, confined.mono (fun _ entered => entered) fun _ owns => ⟨client, present, owns⟩,
    zeroed_of_effect effects.databases accounted.wellKeyed known⟩
  intro after member loggedIn
  cases kept after member
  rcases effects.login loggedIn with ⟨before, ADDRESS⟩ | entered
  · rw [ADDRESS]
    exact confined.mem (known before)
  · exact entered

theorem step_confined (accounted : s.Accounted)
    (taken : step settings SK256 GmpVerification rounded pow s event = some after) :
    after.Accounted ∧ Confined (Registers settings SK256 event) (s.SentBy event) s.server.databases
        after.server.databases ∧
      Zeroed s.server.databases after.server.databases ∧ after.server.cGlobalCoinbase = s.server.cGlobalCoinbase := by
  cases event with
  | connect =>
      cases taken
      refine ⟨accounted.addConnection, ?_⟩
      unfold addConnection
      split
      · exact ⟨.refl _, .refl _, rfl⟩
      · exact ⟨.refl _, .refl _, rfl⟩
  | disconnect nSlot =>
      cases taken
      exact ⟨accounted.setClient nSlot fun _ member => absurd member (Option.not_mem_none _), .refl _, .refl _, rfl⟩
  | packet nSlot PACKET =>
      obtain ⟨client, present, same⟩ := Option.bind_eq_some_iff.mp taken
      cases same
      have effects : s.server.Effects settings SK256 { client with stream.INCOMING := PACKET } _ :=
        PoolServer.effects_processPacket GmpVerification rounded pow
      have slot (handled : Handled) :
          ∀ client ∈ if handled.result = some false then none else some handled.client, client = handled.client := by
        intro client member
        split at member
        · exact absurd member (Option.not_mem_none _)
        · exact (Option.mem_some_iff.mp member).symm
      obtain ⟨kept, confined, zeroed⟩ := step_packet accounted present effects _ (slot _)
      exact ⟨kept, confined, zeroed, effects.coinbase⟩
  | blocks nSlot connection =>
      obtain ⟨client, present, same⟩ := Option.bind_eq_some_iff.mp taken
      cases same
      have known := accounted.known client (List.mem_of_getElem? (Option.join_eq_some_iff.mp present))
      refine ⟨accounted.setClient nSlot ?_, .refl _, .refl _, rfl⟩
      intro other member
      cases Option.mem_some_iff.mp member
      exact known
  | globals thread =>
      cases taken
      exact ⟨⟨accounted.wellKeyed, accounted.known⟩, .refl _, .refl _, rfl⟩

theorem accounted_start {databases : Databases} (wellKeyed : databases.AccountDB.WellKeyed) (thread : PoolThread)
    (cGlobalCoinbase : Coinbase) : (start thread databases cGlobalCoinbase).Accounted :=
  ⟨wellKeyed, fun _ member => absurd member List.not_mem_nil⟩

theorem valid_of_registers {key : StdString} (registers : Registers settings SK256 event key) :
    (NexusAddress.setString SK256 key).isValid settings.fTestNet = true := by
  cases event with
  | packet nSlot PACKET => exact registers.2.2
  | connect | disconnect _ | blocks _ _ | globals _ => exact absurd registers id

/-- A step changes what its sender may change, and the run so far has changed shares only and made new accounts for
valid addresses. -/
structure Frame (settings : Settings) (SK256 : Bytes → Vector UInt8 32) (databases : Databases)
    (cGlobalCoinbase : Coinbase) (s : PoolClients) (event : ClientEvent) (after : PoolClients) : Prop where
  step : Confined (Registers settings SK256 event) (s.SentBy event) s.server.databases after.server.databases
  created : Zeroed s.server.databases after.server.databases
  run : Confined (fun key => (NexusAddress.setString SK256 key).isValid settings.fTestNet = true) (fun _ => True)
    databases after.server.databases
  coinbase : after.server.cGlobalCoinbase = cGlobalCoinbase

theorem clients_confined (settings : Settings) (SK256 : Bytes → Vector UInt8 32) (GmpVerification : Uint1024 → Rat)
    (rounded : Rat → Rat) (pow : Rat → Rat → Rat) (thread : PoolThread) (databases : Databases)
    (cGlobalCoinbase : Coinbase) (wellKeyed : databases.AccountDB.WellKeyed) (events : List ClientEvent) :
    EachStep (step settings SK256 GmpVerification rounded pow) (Frame settings SK256 databases cGlobalCoinbase) events
      (start thread databases cGlobalCoinbase) := by
  let valid (key : StdString) : Prop := (NexusAddress.setString SK256 key).isValid settings.fTestNet = true
  apply eachStep_of_invariant fun s => s.Accounted ∧ Confined valid (fun _ => True) databases s.server.databases ∧
    s.server.cGlobalCoinbase = cGlobalCoinbase
  · rintro s event after ⟨accounted, sofar, coinbase⟩ taken
    obtain ⟨kept, confined, zeroed, same⟩ := step_confined accounted taken
    have whole : Confined valid (fun _ => True) databases after.server.databases :=
      sofar.trans (confined.mono (fun _ => valid_of_registers) fun _ _ => trivial)
    exact ⟨⟨kept, whole, same.trans coinbase⟩, confined, zeroed, whole, same.trans coinbase⟩
  · exact ⟨accounted_start wellKeyed thread cGlobalCoinbase, .refl databases, rfl⟩

/-- A client logs in, is sent a block and has a share of it accepted, and another one logs in under its address. -/
def acceptedShare : List ClientEvent :=
  let blocks : PoolConnection :=
    { PoolConnection.new with
      MAP_BLOCKS := (∅ : ExtTreeMap Uint1024 HeapBlock).insert (.ofUInt64 0) { object := 0, BLOCK := sampleBlock 0 0 } }
  [.connect, .packet 0 { HEADER := LOGIN, LENGTH := 51, DATA := NexusAddress.plainAddress }, .blocks 0 blocks,
    .packet 0 { HEADER := SUBMIT_SHARE, LENGTH := 136, DATA := List.replicate 136 0 },
    .connect, .packet 1 { HEADER := LOGIN, LENGTH := 51, DATA := NexusAddress.plainAddress },
    .packet 1 { HEADER := GET_BALANCE, LENGTH := 0, DATA := [] }]

theorem acceptedShare_confined :
    EachStep (step PoolThread.withDDOS NexusAddress.noChecksum (fun _ => 5) id fun _ _ => 625)
        (Frame PoolThread.withDDOS NexusAddress.noChecksum oneAccount .new) acceptedShare (start .start oneAccount .new) ∧
      ((acceptedShare.foldlM (step PoolThread.withDDOS NexusAddress.noChecksum (fun _ => 5) id fun _ _ => 625)
          (start .start oneAccount .new)).bind fun s => s.server.databases.AccountDB[NexusAddress.plainAddress]?) =
        some { Account.new NexusAddress.plainAddress with nRoundShares := 625 } :=
  ⟨clients_confined _ _ _ _ _ _ _ _ (by decide +kernel) _, by decide +kernel⟩

end PoolClients

end PrimePool.LLP

import PrimePool.Core.PayoutBuild
import PrimePool.Core.PoolSteps
import PrimePool.General.Machine

/-!
# The balances behind the payouts

The coinbase is built from the balances, and `UpdateBalances` deducts it later. In between a refund can
lower a balance, and the flag `fCoinbasePending` is meant to have the coinbase built anew.
-/

namespace PrimePool.Core

open PrimePool.General PrimePool.LLD Std

variable {D : Type}

/-! ## The history of the coinbase -/

/-- What has happened to the coinbase since it was built. -/
structure History where
  bonusFinder : Option StdString
  /-- A round was settled with the coinbase, or a refund took from an account that it pays. -/
  outdated : Bool

structure Watched (D : Type) where
  pool : Pool D
  history : History

namespace Pool

def takesPayout (pool : Pool D) (hashOrphan : Uint1024) : Bool :=
  let cBlock := (pool.databases.BlockDB.getRecord hashOrphan).1
  cBlock.nCoinbaseValue != 0 && pool.globals.cGlobalCoinbase.mapOutputs.keys.any fun key =>
    let cAccount := pool.databases.account key
    (refundAccount cBlock key cAccount).nAccountBalance < cAccount.nAccountBalance

def note [Double D] (pool : Pool D) (history : History) : Event → History
  | .masterPacket (.blockReward nReward vAccounts) =>
      if Builds pool.globals then
        { bonusFinder := buildsBonusFor pool.globals pool.databases.AccountDB vAccounts nReward, outdated := false }
      else history
  | .orphanPacket (.orphanBlock hashOrphan) =>
      { history with outdated := history.outdated || pool.takesPayout hashOrphan }
  | .daemonPacket _ .good => { history with outdated := true }
  | _ => history

end Pool

namespace Watched

variable {getHash : CBlock → Uint1024} {pool after : Pool D} {history : History}

def step [Double D] (getHash : CBlock → Uint1024) (watched : Watched D) (event : Event) : Option (Watched D) := do
  let pool ← Pool.step getHash watched.pool event
  return { pool, history := watched.pool.note watched.history event }

def start (databases : Databases) (lfPoolFee : D) (nMaxDaemons : Nat) : Watched D where
  pool := .start databases lfPoolFee nMaxDaemons
  history := { bonusFinder := none, outdated := false }

/-- Where `UpdateBalances` runs, every account but the one with the leftover bonus has the balance for its
payout, both before the settlement and when the credit loop comes to it. -/
structure PayoutsBacked [Double D] (watched : Watched D) : Prop where
  current : ∀ key nValue, watched.pool.globals.cGlobalCoinbase.mapOutputs[key]? = some nValue →
    watched.history.bonusFinder ≠ some key → nValue ≤ (watched.pool.databases.account key).nAccountBalance
  settlement : EachCall perform
    (Covered watched.pool.globals.cGlobalCoinbase.mapOutputs watched.history.bonusFinder)
    (newRound watched.pool.globals.toRound) watched.pool.databases

def SettlesBacked [Double D] (watched : Watched D) : Event → Prop
  | .daemonPacket _ .good => PayoutsBacked watched
  | _ => True

/-- The master thread takes `fCoinbasePending` back only for a coinbase that is not outdated, a build pays no
account twice, no refund takes from an account of the coinbase while a block is submitted, and a settlement
is not followed by one with the same coinbase. -/
def Careful [Double D] (watched : Watched D) : Event → Prop
  | .masterPacket .coinbaseSet => watched.history.outdated = false
  | .masterPacket (.blockReward nReward vAccounts) =>
      if Pool.Builds watched.pool.globals then
        BuildsOnce watched.pool.globals watched.pool.databases.AccountDB vAccounts nReward
      else watched.pool.globals.fCoinbasePending = true → watched.history.outdated = false
  | .orphanPacket (.orphanBlock hashOrphan) =>
      watched.pool.takesPayout hashOrphan = true → watched.pool.inFlight = []
  | .daemonPacket _ .good =>
      watched.pool.inFlight.length ≤ 1 ∧ BonusFits watched.pool.globals.toRound watched.pool.databases
  | _ => True

/-- An outdated coinbase is pending, and no block is submitted with it. -/
structure KeepsBacked (watched : Watched D) : Prop where
  filed : Filed watched.pool.databases
  pending : watched.pool.globals.fCoinbasePending = false → watched.history.outdated = false
  inFlight : watched.pool.inFlight ≠ [] → watched.history.outdated = false
  backed : watched.history.outdated = false →
    Backed watched.pool.databases watched.pool.globals.cGlobalCoinbase.mapOutputs watched.history.bonusFinder

theorem KeepsBacked.of_frame (keeps : KeepsBacked ⟨pool, history⟩) (filed : Filed after.databases)
    (pending : after.globals.fCoinbasePending = false → pool.globals.fCoinbasePending = false)
    (inFlight : after.inFlight ⊆ pool.inFlight)
    (coinbase : after.globals.cGlobalCoinbase = pool.globals.cGlobalCoinbase)
    (balances : ∀ key ∈ pool.globals.cGlobalCoinbase.mapOutputs, key ≠ [] →
      (pool.databases.account key).nAccountBalance ≤ (after.databases.account key).nAccountBalance) :
    KeepsBacked ⟨after, history⟩ where
  filed := filed
  pending free := keeps.pending (pending free)
  inFlight some := keeps.inFlight fun none => some (List.subset_nil.mp (none ▸ inFlight))
  backed fresh := by
    intro key nValue output exempt
    rw [coinbase] at output
    obtain ⟨named, covers⟩ := keeps.backed fresh key nValue output exempt
    have paid := mem_of_getElem? output
    exact ⟨named, UInt64.le_trans covers (balances key paid named)⟩

theorem KeepsBacked.of_same (keeps : KeepsBacked ⟨pool, history⟩) (databases : after.databases = pool.databases)
    (pending : after.globals.fCoinbasePending = false → pool.globals.fCoinbasePending = false)
    (inFlight : after.inFlight ⊆ pool.inFlight)
    (coinbase : after.globals.cGlobalCoinbase = pool.globals.cGlobalCoinbase) : KeepsBacked ⟨after, history⟩ := by
  refine keeps.of_frame (databases ▸ keeps.filed) pending inFlight coinbase fun key _ _ => ?_
  rw [databases]
  exact UInt64.le_refl _

theorem keepsBacked_start {databases : Databases} (wellKeyed : databases.AccountDB.WellKeyed) (lfPoolFee : D)
    (nMaxDaemons : Nat) : KeepsBacked (start databases lfPoolFee nMaxDaemons) where
  filed := filed_of_wellKeyed wellKeyed
  pending _ := rfl
  inFlight _ := rfl
  backed _ _ nValue output := absurd (output.symm.trans ExtTreeMap.getElem?_empty) (Option.some_ne_none nValue)

/-! ## Steps -/

theorem balance_orphanBlock {hashOrphan : Uint1024} (filed : Filed pool.databases) (kept : pool.takesPayout hashOrphan = false)
    {key : StdString} (paid : key ∈ pool.globals.cGlobalCoinbase.mapOutputs) (named : key ≠ []) :
    (pool.databases.account key).nAccountBalance ≤
      ((pool.orphanPacket (.orphanBlock hashOrphan)).databases.account key).nAccountBalance := by
  let read := (perform (.getBlock hashOrphan) pool.databases).2
  have refunded : (pool.orphanPacket (.orphanBlock hashOrphan)).databases.account key =
      (run perform (refundPayouts hashOrphan) read).2.account key := rfl
  have filed' : Filed read := filed
  have same : (read.BlockDB.getRecord hashOrphan).1 = (pool.databases.BlockDB.getRecord hashOrphan).1 :=
    Records.getRecord_getRecord _ _
  rw [refunded, account_refundPayouts filed' _ fun empty => absurd empty named, same]
  dsimp only
  split
  · rename_i both
    simp only [Pool.takesPayout, Bool.and_eq_false_iff, bne_eq_false_iff_eq, List.any_eq_false, decide_eq_true_eq,
      ExtTreeMap.mem_keys] at kept
    exact UInt64.not_lt.mp (kept.resolve_left both.1 key paid)
  · exact UInt64.le_refl _

theorem KeepsBacked.afterScan {nDaemon : Nat} {handle : DaemonHandle} (keeps : KeepsBacked ⟨pool, history⟩)
    (found : pool.DAEMON_CONNECTIONS[nDaemon]? = some handle) :
    KeepsBacked ⟨pool.afterScan getHash nDaemon handle, history⟩ := by
  cases Pool.scanEffect_afterScan getHash found with
  | idle _ globals inFlight | stale _ _ _ _ globals inFlight =>
      exact keeps.of_same rfl (by rw [globals]; exact id) (inFlight ▸ List.Subset.refl _) (by rw [globals])
  | sent ADDRESS BLOCK picked height globals before behind inFlight inFlight' =>
      have waits := Pool.daemonWaits_of_pickedUp picked
      simp only [Pool.daemonWaits, Bool.or_eq_false_iff] at waits
      have fresh := keeps.pending waits.1.1.1
      exact
        { filed := keeps.filed
          pending := fun _ => fresh
          inFlight := fun _ => fresh
          backed := fun fresh => by
            have backed := keeps.backed fresh
            rw [globals]
            exact backed }

theorem balance_miner {nDaemon nID : Nat} {key : StdString} (filed : Filed pool.databases) (named : key ≠ [])
    (handle : DaemonHandle) (connection : PoolConnection) (event : MinerEvent) :
    ((pool.miner nDaemon nID handle connection event).databases.account key).nAccountBalance =
      (pool.databases.account key).nAccountBalance := by
  cases event with
  | disconnect => rfl
  | generic =>
      rw [Pool.miner]
      split <;> rfl
  | login ADDRESS fValid fBanned =>
      have opened (unknown : ¬ pool.databases.AccountDB.hasKey ADDRESS = true) :
          ((run perform (updateAccount .processPacket (.new ADDRESS)) pool.databases).2.account key).nAccountBalance =
            (pool.databases.account key).nAccountBalance := by
        rw [account_updateAccount]
        split
        · rename_i own
          have missing : key ∉ pool.databases.AccountDB := by
            intro present
            rw [← own] at present
            exact unknown (ExtTreeMap.contains_iff_mem.mpr present)
          rw [Databases.account, ExtTreeMap.getD_eq_fallback missing]
          rfl
        · rfl
      simp only [Pool.miner]
      split
      · rfl
      · split
        · rfl
        · simp only [Pool.setConnection, Pool.setHandle]
          split
          · rfl
          · rename_i unknown
            exact opened unknown
  | getBlock =>
      rw [Pool.miner]
      split <;> rfl
  | submitShare BLOCK nWeight fBlock =>
      have shared : ((run perform (acceptShare connection.ADDRESS nWeight) pool.databases).2.account key).nAccountBalance =
          (pool.databases.account key).nAccountBalance := by
        have accepted := account_modifyAccount filed .processPacket connection.ADDRESS (fun empty => absurd empty named)
          (f := fun a => { a with nRoundShares := a.nRoundShares + nWeight }) fun _ => rfl
        apply (congrArg Account.nAccountBalance accepted).trans
        split <;> rfl
      simp only [Pool.miner]
      split
      · split
        · exact shared
        · exact shared
      · rfl

theorem filed_miner {nDaemon nID : Nat} (filed : Filed pool.databases) (handle : DaemonHandle) (connection : PoolConnection)
    (event : MinerEvent) : Filed (pool.miner nDaemon nID handle connection event).databases := by
  cases event with
  | disconnect => exact filed
  | generic =>
      rw [Pool.miner]
      split <;> exact filed
  | login ADDRESS fValid fBanned =>
      simp only [Pool.miner]
      split
      · exact filed
      · split
        · exact filed
        · simp only [Pool.setConnection, Pool.setHandle]
          split
          · exact filed
          · exact filed.run _
  | getBlock =>
      rw [Pool.miner]
      split <;> exact filed
  | submitShare BLOCK nWeight fBlock =>
      simp only [Pool.miner]
      split
      · split
        · exact filed.run _
        · exact filed.run _
      · exact filed

theorem KeepsBacked.miner {nDaemon nID : Nat} {handle : DaemonHandle} (keeps : KeepsBacked ⟨pool, history⟩)
    (found : pool.DAEMON_CONNECTIONS[nDaemon]? = some handle) (connection : PoolConnection) (event : MinerEvent) :
    KeepsBacked ⟨pool.miner nDaemon nID handle connection event, history⟩ := by
  obtain ⟨globals, inFlight⟩ := Pool.miner_frame found nID connection event
  refine keeps.of_frame (filed_miner keeps.filed handle connection event) (by rw [globals]; exact id)
    (inFlight ▸ List.Subset.refl _) (by rw [globals]) fun key _ named => ?_
  exact UInt64.le_of_eq (balance_miner keeps.filed named handle connection event).symm

variable [Double D]

theorem KeepsBacked.orphanPacket {packet : OrphanPacket} (keeps : KeepsBacked ⟨pool, history⟩)
    (careful : Careful ⟨pool, history⟩ (.orphanPacket packet)) :
    KeepsBacked ⟨pool.orphanPacket packet, pool.note history (.orphanPacket packet)⟩ := by
  cases packet with
  | orphanBlock hashOrphan =>
      have filed : Filed (pool.orphanPacket (.orphanBlock hashOrphan)).databases := keeps.filed.run _
      cases taken : pool.takesPayout hashOrphan with
      | true =>
          have free := careful taken
          have outdated : (pool.note history (.orphanPacket (.orphanBlock hashOrphan))).outdated = true := by
            rw [Pool.note, taken, Bool.or_true]
          exact
            { filed
              pending := nofun
              inFlight := fun some => absurd free some
              backed := fun fresh => absurd (outdated.symm.trans fresh) nofun }
      | false =>
          have same : pool.note history (.orphanPacket (.orphanBlock hashOrphan)) = history := by
            rw [Pool.note, taken, Bool.or_false]
          rw [same]
          exact keeps.of_frame filed nofun (List.Subset.refl _) rfl fun key paid named =>
            balance_orphanBlock keeps.filed taken paid named
  | goodBlock hashBlock =>
      refine keeps.of_frame (keeps.filed.run _) id (List.Subset.refl _) rfl fun key _ _ => ?_
      exact UInt64.le_refl _

theorem KeepsBacked.masterPacket {packet : MasterPacket} (keeps : KeepsBacked ⟨pool, history⟩)
    (careful : Careful ⟨pool, history⟩ (.masterPacket packet)) (handled : pool.masterPacket packet = some after) :
    KeepsBacked ⟨after, pool.note history (.masterPacket packet)⟩ := by
  have inFlight : after.inFlight ⊆ pool.inFlight := by
    rw [(Pool.inFlight_masterPacket handled).1]
    exact List.Subset.refl _
  cases packet with
  | blockHeight nHeight =>
      cases handled
      refine keeps.of_same rfl (fun free => ?_) inFlight rfl
      exact (Bool.or_eq_false_iff.mp free).1
  | newRound =>
      cases handled
      exact keeps.of_same rfl nofun inFlight rfl
  | coinbaseSet =>
      obtain ⟨-, same⟩ := Option.ite_none_left_eq_some.mp handled
      cases same
      exact
        { filed := keeps.filed
          pending := fun _ => careful
          inFlight := fun _ => careful
          backed := keeps.backed }
  | coinbaseFail =>
      obtain ⟨-, same⟩ := Option.ite_none_left_eq_some.mp handled
      cases same
      exact keeps.of_same rfl nofun inFlight rfl
  | blockReward nReward vAccounts =>
      obtain ⟨sorted, handled⟩ := Option.ite_none_right_eq_some.mp handled
      by_cases builds : Pool.Builds pool.globals
      · rw [if_pos builds] at handled
        cases handled
        rw [Careful, if_pos builds] at careful
        rw [Pool.note, if_pos builds]
        exact
          { filed := keeps.filed
            pending := fun _ => rfl
            inFlight := fun _ => rfl
            backed := fun _ => backed_blockReward builds sorted careful }
      · rw [if_neg builds] at handled
        cases handled
        rw [Careful, if_neg builds] at careful
        rw [Pool.note, if_neg builds]
        have fresh : history.outdated = false := by
          cases pending : pool.globals.fCoinbasePending with
          | true => exact careful pending
          | false => exact keeps.pending pending
        have coinbase : (blockReward pool.globals pool.databases.AccountDB vAccounts nReward).cGlobalCoinbase =
            pool.globals.cGlobalCoinbase := by
          rw [blockReward, if_neg fun both => builds ⟨both.1, both.2⟩]
        exact
          { filed := keeps.filed
            pending := fun _ => fresh
            inFlight := fun _ => fresh
            backed := fun fresh => by
              have backed := keeps.backed fresh
              rw [← coinbase] at backed
              exact backed }

theorem KeepsBacked.daemonPacket {nDaemon : Nat} {handle : DaemonHandle} {packet : DaemonPacket}
    (keeps : KeepsBacked ⟨pool, history⟩) (found : pool.DAEMON_CONNECTIONS[nDaemon]? = some handle)
    (careful : Careful ⟨pool, history⟩ (.daemonPacket nDaemon packet))
    (handled : pool.daemonPacket nDaemon handle packet = some after) :
    KeepsBacked ⟨after, pool.note history (.daemonPacket nDaemon packet)⟩ := by
  cases Pool.daemonEffect_of_daemonPacket found handled with
  | good answered databases globals =>
      exact
        { filed := databases ▸ keeps.filed.run _
          pending := fun free => absurd (free.symm.trans (by rw [globals])) Bool.false_ne_true
          inFlight := fun some => absurd (answered.last careful.1) some
          backed := nofun }
  | fail answered databases globals =>
      exact keeps.of_same databases (by rw [globals]; exact id) answered.fewer (by rw [globals])
  | coinbaseSet inFlight databases globals =>
      exact keeps.of_same databases (by rw [globals]; exact id) (inFlight ▸ List.Subset.refl _) (by rw [globals])
  | coinbaseFail inFlight databases globals =>
      exact keeps.of_same databases (by rw [globals]; exact nofun) (inFlight ▸ List.Subset.refl _) (by rw [globals])
  | blockData BLOCK inFlight databases globals =>
      exact keeps.of_same databases (by rw [globals]; exact id) (inFlight ▸ List.Subset.refl _) (by rw [globals])

theorem KeepsBacked.step {watched after : Watched D} {event : Event} (keeps : KeepsBacked watched)
    (taken : Watched.step getHash watched event = some after) (careful : Careful watched event) : KeepsBacked after := by
  obtain ⟨pool, history⟩ := watched
  obtain ⟨stepped, poolTaken, same⟩ := Option.bind_eq_some_iff.mp taken
  cases same
  have leads := Pool.leads_of_step poolTaken
  cases event with
  | masterReconnect =>
      obtain ⟨-, rfl⟩ := leads
      exact keeps.of_same rfl nofun (List.Subset.refl _) rfl
  | masterPacket packet => exact keeps.masterPacket careful leads.2
  | orphanReconnect =>
      cases leads
      exact keeps.of_same rfl id (List.Subset.refl _) rfl
  | orphanPacket packet =>
      cases leads
      exact keeps.orphanPacket careful
  | daemonReconnect nDaemon =>
      obtain ⟨handle, found, rfl⟩ := leads
      exact keeps.of_same rfl nofun (Pool.inFlight_subset found (List.nil_subset _)) rfl
  | daemonPacket nDaemon packet =>
      obtain ⟨handle, found, handled⟩ := leads
      exact keeps.daemonPacket found careful handled
  | daemonScan nDaemon =>
      obtain ⟨handle, found, rfl⟩ := leads
      exact keeps.afterScan found
  | minerConnect =>
      obtain ⟨globals, databases, inFlight⟩ := Pool.minerConnect_frame leads
      exact keeps.of_same databases (by rw [globals]; exact id) (inFlight ▸ List.Subset.refl _) (by rw [globals])
  | miner nDaemon nID event =>
      obtain ⟨handle, connection, found, rfl⟩ := leads
      exact keeps.miner found connection event

theorem KeepsBacked.settlesBacked {watched : Watched D} {event : Event} (keeps : KeepsBacked watched)
    (careful : Careful watched event) {after : Watched D} (taken : Watched.step getHash watched event = some after) :
    SettlesBacked watched event := by
  unfold SettlesBacked
  split
  · rename_i nDaemon
    obtain ⟨after, stepped, -⟩ := Option.bind_eq_some_iff.mp taken
    obtain ⟨handle, found, handled⟩ := Pool.leads_of_step stepped
    cases Pool.daemonEffect_of_daemonPacket found handled with
    | good answered databases globals =>
        have backed := keeps.backed (keeps.inFlight answered.waiting)
        exact ⟨fun key nValue output exempt => (backed key nValue output exempt).2,
          eachCall_newRound keeps.filed backed careful.2⟩
  · trivial

/-- In every careful run each settlement finds the balances for its payouts. -/
theorem settlesBacked_of_careful {databases : Databases} {lfPoolFee : D} {nMaxDaemons : Nat} {events : List Event}
    (wellKeyed : databases.AccountDB.WellKeyed)
    (careful : EachStep (Watched.step getHash) (fun watched event _ => Careful watched event) events
      (start databases lfPoolFee nMaxDaemons)) :
    EachStep (Watched.step getHash) (fun watched event _ => SettlesBacked watched event) events
      (start databases lfPoolFee nMaxDaemons) := by
  refine EachStep.of_invariant KeepsBacked ?_ (keepsBacked_start wellKeyed lfPoolFee nMaxDaemons) careful
  intro watched event after keeps taken careful
  exact ⟨keeps.step taken careful, keeps.settlesBacked careful taken⟩

/-! ## A refund while a block is submitted -/

instance (watched : Watched D) (event : Event) : Decidable (Careful watched event) := by
  unfold Careful
  split
  all_goals infer_instance

instance (outputs : AmountMap) (bonusFinder : Option StdString) (op : DatabaseCall) (r : op.Result) :
    Decidable (Covered outputs bonusFinder op r) := by
  cases op with
  | getAccount caller key =>
      cases caller with
      | creditLoop =>
          exact inferInstanceAs (Decidable (bonusFinder ≠ some key → ∀ nValue ∈ outputs[key]?, nValue ≤ r.nAccountBalance))
      | _ => exact isTrue trivial
  | _ => exact isTrue trivial

omit [Double D] in
theorem current_iff (watched : Watched D) :
    (∀ key nValue, watched.pool.globals.cGlobalCoinbase.mapOutputs[key]? = some nValue →
      watched.history.bonusFinder ≠ some key → nValue ≤ (watched.pool.databases.account key).nAccountBalance) ↔
    ∀ output ∈ watched.pool.globals.cGlobalCoinbase.mapOutputs.toList,
      watched.history.bonusFinder ≠ some output.1 →
        output.2 ≤ (watched.pool.databases.account output.1).nAccountBalance := by
  simp only [Prod.forall, ExtTreeMap.mem_toList_iff_getElem?_eq_some]

instance (watched : Watched D) : Decidable (PayoutsBacked watched) :=
  decidable_of_iff (_ ∧ _) ⟨fun both => ⟨(current_iff watched).mpr both.1, both.2⟩,
    fun backed => ⟨(current_iff watched).mp backed.current, backed.settlement⟩⟩

instance (watched : Watched D) (event : Event) : Decidable (SettlesBacked watched event) := by
  unfold SettlesBacked
  split
  all_goals infer_instance

def submitted : List Event :=
  [.masterReconnect, .orphanReconnect, .daemonReconnect 0, .masterPacket (.blockHeight 1),
    .masterPacket (.blockReward 1000000 [minerAddress]), .masterPacket .coinbaseSet, .daemonScan 0,
    .daemonPacket 0 .coinbaseSet, .minerConnect, .miner 0 0 (.login otherAddress true false), .miner 0 0 .getBlock,
    .daemonScan 0, .daemonPacket 0 (.blockData (sampleBlock 1 0)),
    .miner 0 0 (.submitShare (sampleBlock 1 0) 10 true), .daemonScan 0]

theorem submitted_settlesBacked :
    EachStep (Watched.step sampleHash) (fun watched event _ => SettlesBacked watched event)
      (submitted ++ [.daemonPacket 0 .good]) (start atRest (0.02 : Float) 1) :=
  settlesBacked_of_careful ((Records.wellKeyed_iff_toList _).mpr (by decide +kernel)) (by decide +kernel)

def orphaned : List Event :=
  -- the block that credited the account is orphaned before the answer comes
  submitted ++ [.orphanPacket (.orphanBlock orphanHash), .daemonPacket 0 .good]

theorem orphaned_not_settlesBacked :
    ¬ ∀ (getHash : CBlock → Uint1024) (databases : Databases) (lfPoolFee : Float) (nMaxDaemons : Nat)
      (events : List Event), databases.AccountDB.WellKeyed →
      EachStep (Watched.step getHash) (fun watched event _ => SettlesBacked watched event) events
        (start databases lfPoolFee nMaxDaemons) := by
  intro settles
  have wellKeyed : atRest.AccountDB.WellKeyed := (Records.wellKeyed_iff_toList _).mpr (by decide +kernel)
  have unbacked : ¬ EachStep (Watched.step sampleHash) (fun watched event _ => SettlesBacked watched event) orphaned
      (start atRest (0.02 : Float) 1) := by decide +kernel
  exact unbacked (settles sampleHash atRest 0.02 1 orphaned wellKeyed)

end Watched

end PrimePool.Core

import PrimePool.Core.PoolSteps
import PrimePool.General.Machine

/-!
# The submission that a settlement answers

`UpdateBalances` reads the globals when a `GOOD` arrives: they have to be those of the `SUBMIT_BLOCK` it
answers. All handles share them, and the flags that guard them are reset by every reconnect and by the
failure of any handle's coinbase.
-/

namespace PrimePool.Core

open PrimePool.General PrimePool.LLD

namespace Pool

variable {D : Type} {pool after : Pool D} {getHash : CBlock → Uint1024} {nDaemon : Nat} {handle : DaemonHandle}

structure Answers (getHash : CBlock → Uint1024) (round : Round D) (submission : Submission) : Prop where
  hashBlock : round.hashBlockSubmission = getHash submission.BLOCK
  finder : round.LAST_ROUND_BLOCKFINDER = submission.ADDRESS
  coinbase : round.cGlobalCoinbase = submission.cGlobalCoinbase
  reward : round.nRoundReward = submission.nRoundReward

def oldestSubmission (pool : Pool D) (nDaemon : Nat) : Option Submission := do
  let handle ← pool.DAEMON_CONNECTIONS[nDaemon]?
  handle.CLIENT.submissions.head?

def SettlesAnswered (getHash : CBlock → Uint1024) (pool : Pool D) : Event → Prop
  | .daemonPacket nDaemon .good =>
      ∀ submission, pool.oldestSubmission nDaemon = some submission → Answers getHash pool.globals.toRound submission
  | _ => True

/-- While a request is in flight no reward arrives and no scan picks up a block. In all steps that test
`fSubmittingBlock` the flag sees to that as long as it is set. -/
def Guarded (pool : Pool D) : Event → Prop
  | .masterPacket (.blockReward _ _) => pool.inFlight = []
  | .daemonScan nDaemon =>
      ∀ handle, pool.DAEMON_CONNECTIONS[nDaemon]? = some handle →
        pickedUp pool.globals handle ≠ none → pool.inFlight = []
  | _ => True

instance (round : Round D) (submission : Submission) : Decidable (Answers getHash round submission) :=
  decidable_of_iff
    (round.hashBlockSubmission = getHash submission.BLOCK ∧ round.LAST_ROUND_BLOCKFINDER = submission.ADDRESS ∧
      round.cGlobalCoinbase = submission.cGlobalCoinbase ∧ round.nRoundReward = submission.nRoundReward)
    ⟨fun ⟨hashBlock, finder, coinbase, reward⟩ => ⟨hashBlock, finder, coinbase, reward⟩,
      fun ⟨hashBlock, finder, coinbase, reward⟩ => ⟨hashBlock, finder, coinbase, reward⟩⟩

instance (pool : Pool D) (event : Event) : Decidable (SettlesAnswered getHash pool event) := by
  cases event with
  | daemonPacket nDaemon packet =>
      cases packet with
      | good =>
          exact inferInstanceAs
            (Decidable (∀ submission ∈ pool.oldestSubmission nDaemon, Answers getHash pool.globals.toRound submission))
      | _ => exact isTrue trivial
  | _ => exact isTrue trivial

instance (pool : Pool D) (event : Event) : Decidable (Guarded pool event) := by
  cases event with
  | masterPacket packet =>
      cases packet with
      | blockReward nReward vAccounts => exact inferInstanceAs (Decidable (pool.inFlight = []))
      | _ => exact isTrue trivial
  | daemonScan nDaemon =>
      exact inferInstanceAs (Decidable
        (∀ handle ∈ pool.DAEMON_CONNECTIONS[nDaemon]?, pickedUp pool.globals handle ≠ none → pool.inFlight = []))
  | _ => exact isTrue trivial

/-! ## The requests in flight -/

section Matching

def Matched (getHash : CBlock → Uint1024) (pool : Pool D) : Prop :=
  ∀ submission ∈ pool.inFlight, Answers getHash pool.globals.toRound submission

theorem matched_of_none (none : pool.inFlight = []) : Matched getHash pool := by
  intro submission member
  rw [none] at member
  cases member

theorem Matched.of_subset (matched : Matched getHash pool) (fewer : after.inFlight ⊆ pool.inFlight)
    (round : after.globals.toRound = pool.globals.toRound) : Matched getHash after := by
  intro submission member
  rw [round]
  exact matched submission (fewer member)

theorem Matched.of_same (matched : Matched getHash pool) (inFlight : after.inFlight = pool.inFlight)
    (round : after.globals.toRound = pool.globals.toRound) : Matched getHash after :=
  matched.of_subset (fun _ member => inFlight ▸ member) round

theorem Matched.settlesAnswered (matched : Matched getHash pool) (event : Event) :
    SettlesAnswered getHash pool event := by
  unfold SettlesAnswered
  split
  · intro submission oldest
    obtain ⟨handle, found, first⟩ := Option.bind_eq_some_iff.mp oldest
    exact matched submission (List.mem_flatMap.mpr ⟨handle, List.mem_of_getElem? found, List.mem_of_head? first⟩)
  · trivial

theorem Matched.afterScan (matched : Matched getHash pool) (found : pool.DAEMON_CONNECTIONS[nDaemon]? = some handle)
    (guarded : Guarded pool (.daemonScan nDaemon)) : Matched getHash (pool.afterScan getHash nDaemon handle) := by
  cases scanEffect_afterScan getHash found with
  | idle picked globals inFlight => exact matched.of_same inFlight (by rw [globals])
  | stale ADDRESS BLOCK picked height globals inFlight =>
      exact matched_of_none (inFlight.trans (guarded handle found (by simp [picked])))
  | sent ADDRESS BLOCK picked height globals before behind inFlight inFlight' =>
      have free := guarded handle found (by simp [picked])
      rw [inFlight, List.append_eq_nil_iff] at free
      rw [free.1, free.2, List.nil_append] at inFlight'
      intro submission member
      rw [inFlight', List.mem_singleton] at member
      rw [globals, member]
      exact ⟨rfl, rfl, rfl, rfl⟩

variable [Double D]

theorem Matched.masterPacket {packet : MasterPacket} (matched : Matched getHash pool)
    (guarded : Guarded pool (.masterPacket packet)) (handled : pool.masterPacket packet = some after) :
    Matched getHash after := by
  obtain ⟨inFlight, -⟩ := inFlight_masterPacket handled
  cases packet with
  | blockHeight _ | newRound =>
      cases handled
      exact matched
  | coinbaseSet =>
      obtain ⟨-, same⟩ := Option.ite_none_left_eq_some.mp handled
      cases same
      exact matched.of_same inFlight rfl
  | coinbaseFail =>
      obtain ⟨-, same⟩ := Option.ite_none_left_eq_some.mp handled
      cases same
      exact matched
  | blockReward nReward vAccounts => exact matched_of_none (inFlight.trans guarded)

theorem Matched.daemonPacket {packet : DaemonPacket} (matched : Matched getHash pool)
    (found : pool.DAEMON_CONNECTIONS[nDaemon]? = some handle)
    (handled : pool.daemonPacket nDaemon handle packet = some after) : Matched getHash after := by
  cases daemonEffect_of_daemonPacket found handled with
  | good answered databases globals =>
      intro submission member
      obtain ⟨hashBlock, finder, coinbase, reward⟩ := matched submission (answered.fewer member)
      rw [globals]
      exact ⟨hashBlock, finder, coinbase, reward⟩
  | fail answered databases globals => exact matched.of_subset answered.fewer (by rw [globals])
  | coinbaseSet inFlight databases globals => exact matched.of_same inFlight (by rw [globals])
  | coinbaseFail inFlight databases globals => exact matched.of_same inFlight (by rw [globals])
  | blockData BLOCK inFlight databases globals => exact matched.of_same inFlight (by rw [globals])

theorem Matched.step {event : Event} (matched : Matched getHash pool)
    (taken : Pool.step getHash pool event = some after) (guarded : Guarded pool event) : Matched getHash after := by
  have leads := leads_of_step taken
  cases event with
  | masterReconnect =>
      obtain ⟨-, rfl⟩ := leads
      exact matched
  | masterPacket packet => exact matched.masterPacket guarded leads.2
  | orphanReconnect =>
      cases leads
      exact matched
  | orphanPacket packet =>
      cases leads
      cases packet with
      | orphanBlock hashOrphan => exact matched.of_same rfl rfl
      | goodBlock hashBlock => exact matched.of_same rfl rfl
  | daemonReconnect nDaemon =>
      obtain ⟨handle, found, rfl⟩ := leads
      exact matched.of_subset (inFlight_subset found (List.nil_subset _)) rfl
  | daemonPacket nDaemon packet =>
      obtain ⟨handle, found, handled⟩ := leads
      exact matched.daemonPacket found handled
  | daemonScan nDaemon =>
      obtain ⟨handle, found, rfl⟩ := leads
      exact matched.afterScan found guarded
  | minerConnect =>
      obtain ⟨globals, -, inFlight⟩ := minerConnect_frame leads
      exact matched.of_same inFlight (by rw [globals])
  | miner nDaemon nID event =>
      obtain ⟨handle, connection, found, rfl⟩ := leads
      obtain ⟨globals, inFlight⟩ := miner_frame found nID connection event
      exact matched.of_same inFlight (by rw [globals])

/-- In every run in which no reward and no other block comes while a request is in flight, each `GOOD`
settles the block that it is about. -/
theorem settlesAnswered_of_guarded {databases : Databases} {lfPoolFee : D} {nMaxDaemons : Nat} {events : List Event}
    (guarded : EachStep (Pool.step getHash) (fun pool event _ => Guarded pool event) events
      (start databases lfPoolFee nMaxDaemons)) :
    EachStep (Pool.step getHash) (fun pool event _ => SettlesAnswered getHash pool event) events
      (start databases lfPoolFee nMaxDaemons) := by
  refine EachStep.of_invariant (Matched getHash) ?_ (matched_of_none (inFlight_start _ _ _)) guarded
  intro pool event after matched taken guarded
  exact ⟨matched.step taken guarded, matched.settlesAnswered event⟩

end Matching

/-! ## What the flag guarantees -/

section Flag

/-- While a request is in flight nobody resets the flag: the orphan thread and the other handles do not
reconnect, and no handle is told that its coinbase failed. -/
def Undisturbed (pool : Pool D) : Event → Prop
  | .orphanReconnect => pool.inFlight = []
  | .daemonPacket _ .coinbaseFail => pool.inFlight = []
  | .daemonReconnect nDaemon => pool.inFlight = [] ∨ pool.oldestSubmission nDaemon ≠ none
  | _ => True

structure OneFlagged (pool : Pool D) : Prop where
  one : pool.inFlight.length ≤ 1
  flag : pool.inFlight ≠ [] → pool.globals.fSubmittingBlock = true

theorem oneFlagged_of_none (none : pool.inFlight = []) : OneFlagged pool where
  one := by simp [none]
  flag some := absurd none some

theorem OneFlagged.of_same (flagged : OneFlagged pool) (inFlight : after.inFlight = pool.inFlight)
    (flag : after.globals.fSubmittingBlock = pool.globals.fSubmittingBlock) : OneFlagged after where
  one := inFlight ▸ flagged.one
  flag some := by
    rw [flag]
    exact flagged.flag (inFlight ▸ some)

theorem OneFlagged.none_of_clear (flagged : OneFlagged pool) (clear : pool.globals.fSubmittingBlock = false) :
    pool.inFlight = [] := by
  by_contra some
  have set := flagged.flag some
  rw [clear] at set
  cases set

theorem OneFlagged.afterScan (flagged : OneFlagged pool) (found : pool.DAEMON_CONNECTIONS[nDaemon]? = some handle)
    (guarded : Guarded pool (.daemonScan nDaemon)) : OneFlagged (pool.afterScan getHash nDaemon handle) := by
  cases scanEffect_afterScan getHash found with
  | idle picked globals inFlight => exact flagged.of_same inFlight (by rw [globals])
  | stale ADDRESS BLOCK picked height globals inFlight =>
      exact oneFlagged_of_none (inFlight.trans (guarded handle found (by simp [picked])))
  | sent ADDRESS BLOCK picked height globals before behind inFlight inFlight' =>
      have free := guarded handle found (by simp [picked])
      rw [inFlight, List.append_eq_nil_iff] at free
      rw [free.1, free.2, List.nil_append] at inFlight'
      exact ⟨by simp [inFlight'], fun _ => by rw [globals]⟩

variable [Double D]

theorem OneFlagged.guarded {event : Event} (flagged : OneFlagged pool) (taken : Pool.step getHash pool event = some after) :
    Guarded pool event := by
  have leads := leads_of_step taken
  unfold Guarded
  split
  · have busy : pool.masterIdles = false := leads.1
    rw [masterIdles, Bool.or_eq_false_iff] at busy
    exact flagged.none_of_clear busy.2
  · intro handle _ picks
    obtain ⟨found, picked⟩ := Option.ne_none_iff_exists'.mp picks
    have waits := daemonWaits_of_pickedUp picked
    simp only [daemonWaits, Bool.or_eq_false_iff] at waits
    exact flagged.none_of_clear waits.1.1.2
  · trivial

theorem OneFlagged.daemonPacket {packet : DaemonPacket} (flagged : OneFlagged pool)
    (found : pool.DAEMON_CONNECTIONS[nDaemon]? = some handle)
    (undisturbed : Undisturbed pool (.daemonPacket nDaemon packet))
    (handled : pool.daemonPacket nDaemon handle packet = some after) : OneFlagged after := by
  cases daemonEffect_of_daemonPacket found handled with
  | good answered databases globals => exact oneFlagged_of_none (answered.last flagged.one)
  | fail answered databases globals => exact oneFlagged_of_none (answered.last flagged.one)
  | coinbaseSet inFlight databases globals => exact flagged.of_same inFlight (by rw [globals])
  | coinbaseFail inFlight databases globals => exact oneFlagged_of_none (inFlight.trans undisturbed)
  | blockData BLOCK inFlight databases globals => exact flagged.of_same inFlight (by rw [globals])

theorem OneFlagged.step {event : Event} (flagged : OneFlagged pool) (taken : Pool.step getHash pool event = some after)
    (undisturbed : Undisturbed pool event) : OneFlagged after := by
  have leads := leads_of_step taken
  have idle (busy : pool.masterIdles = false) : pool.inFlight = [] := by
    rw [masterIdles, Bool.or_eq_false_iff] at busy
    exact flagged.none_of_clear busy.2
  cases event with
  | masterReconnect =>
      obtain ⟨busy, rfl⟩ := leads
      exact oneFlagged_of_none (idle busy)
  | masterPacket packet => exact oneFlagged_of_none ((inFlight_masterPacket leads.2).1.trans (idle leads.1))
  | orphanReconnect =>
      cases leads
      exact oneFlagged_of_none undisturbed
  | orphanPacket packet =>
      cases leads
      cases packet with
      | orphanBlock hashOrphan => exact flagged.of_same rfl rfl
      | goodBlock hashBlock => exact flagged.of_same rfl rfl
  | daemonReconnect nDaemon =>
      obtain ⟨handle, found, rfl⟩ := leads
      rcases undisturbed with free | waiting
      · apply oneFlagged_of_none
        have fewer : (pool.daemonReconnect nDaemon handle).inFlight ⊆ pool.inFlight :=
          inFlight_subset found (List.nil_subset _)
        rw [free] at fewer
        exact List.subset_nil.mp fewer
      · rw [oldestSubmission, found] at waiting
        have some : handle.CLIENT.submissions ≠ [] := fun none => waiting (by simp [none])
        exact oneFlagged_of_none (inFlight_setHandle_of_lt found flagged.one (List.length_pos_iff.mpr some))
  | daemonPacket nDaemon packet =>
      obtain ⟨handle, found, handled⟩ := leads
      exact flagged.daemonPacket found undisturbed handled
  | daemonScan nDaemon =>
      have guarded := flagged.guarded taken
      obtain ⟨handle, found, rfl⟩ := leads
      exact flagged.afterScan found guarded
  | minerConnect =>
      obtain ⟨globals, -, inFlight⟩ := minerConnect_frame leads
      exact flagged.of_same inFlight (by rw [globals])
  | miner nDaemon nID event =>
      obtain ⟨handle, connection, found, rfl⟩ := leads
      obtain ⟨globals, inFlight⟩ := miner_frame found nID connection event
      exact flagged.of_same inFlight (by rw [globals])

theorem guarded_of_undisturbed {databases : Databases} {lfPoolFee : D} {nMaxDaemons : Nat} {events : List Event}
    (undisturbed : EachStep (Pool.step getHash) (fun pool event _ => Undisturbed pool event) events
      (start databases lfPoolFee nMaxDaemons)) :
    EachStep (Pool.step getHash) (fun pool event _ => Guarded pool event) events
      (start databases lfPoolFee nMaxDaemons) := by
  refine EachStep.of_invariant OneFlagged ?_ (oneFlagged_of_none (inFlight_start _ _ _)) undisturbed
  intro pool event after flagged taken undisturbed
  exact ⟨flagged.step taken undisturbed, flagged.guarded taken⟩

end Flag

/-! ## Two handles -/

def twoBlocks : List Event :=
  [.masterReconnect, .orphanReconnect, .daemonReconnect 0, .daemonReconnect 1, .masterPacket (.blockHeight 1),
    .masterPacket (.blockReward 1000000 [minerAddress]), .daemonScan 0, .daemonScan 1, .minerConnect, .minerConnect,
    .miner 0 0 (.login minerAddress true false), .miner 1 0 (.login otherAddress true false), .miner 0 0 .getBlock,
    .miner 1 0 .getBlock, .daemonScan 0, .daemonScan 1, .daemonPacket 0 (.blockData (sampleBlock 1 0)),
    .daemonPacket 1 (.blockData (sampleBlock 1 1)), .miner 0 0 (.submitShare (sampleBlock 1 0) 10 true),
    .miner 1 0 (.submitShare (sampleBlock 1 1) 10 true), .daemonScan 0]

theorem twoBlocks_settlesAnswered :
    EachStep (Pool.step sampleHash) (fun pool event _ => SettlesAnswered sampleHash pool event)
      (twoBlocks ++ [.daemonPacket 0 .good]) (start oneAccount (0.02 : Float) 2) :=
  settlesAnswered_of_guarded (by decide +kernel)

def reconnected : List Event :=
  -- the reconnect resets the flags, and the second block is submitted before the first has its answer
  twoBlocks ++ [.daemonReconnect 1, .masterPacket (.blockReward 1000000 [minerAddress, otherAddress]), .daemonScan 1,
    .daemonPacket 0 .good]

theorem reconnected_not_settlesAnswered :
    ¬ ∀ (getHash : CBlock → Uint1024) (databases : Databases) (lfPoolFee : Float) (nMaxDaemons : Nat)
      (events : List Event),
      EachStep (Pool.step getHash) (fun pool event _ => SettlesAnswered getHash pool event) events
        (start databases lfPoolFee nMaxDaemons) := by
  intro settles
  have wrong : ¬ EachStep (Pool.step sampleHash) (fun pool event _ => SettlesAnswered sampleHash pool event) reconnected
      (start oneAccount (0.02 : Float) 2) := by decide +kernel
  exact wrong (settles sampleHash oneAccount 0.02 2 reconnected)

end Pool

end PrimePool.Core

import PrimePool.Core.PoolSteps
import PrimePool.General.Machine

/-!
# The submission flag

While `fSubmittingBlock` is set the master thread reads no packets and no daemon handle asks for blocks, so
the flag has to be cleared again. The handlers of `GOOD` and `FAIL` clear it, which needs a `SUBMIT_BLOCK`
in flight.
-/

namespace PrimePool.Core

open PrimePool.General PrimePool.LLD

namespace Pool

variable {D : Type} {pool after : Pool D} {getHash : CBlock → Uint1024}

def FlagBacked (pool : Pool D) : Prop := pool.globals.fSubmittingBlock = true → pool.inFlight ≠ []

instance (pool : Pool D) : Decidable (FlagBacked pool) :=
  inferInstanceAs (Decidable (_ = true → ¬ _ = []))

def PicksUpCurrent (pool : Pool D) : Event → Prop
  | .daemonScan nDaemon =>
      ∀ handle, pool.DAEMON_CONNECTIONS[nDaemon]? = some handle →
        ∀ found, pickedUp pool.globals handle = some found →
          found.2.nHeight = pool.globals.nBestHeight ∨ pool.inFlight ≠ []
  | _ => True

theorem flagBacked_of_clear (clear : pool.globals.fSubmittingBlock = false) : FlagBacked pool := by
  intro set
  rw [clear] at set
  cases set

theorem FlagBacked.of_same (backed : FlagBacked pool)
    (flag : after.globals.fSubmittingBlock = pool.globals.fSubmittingBlock) (inFlight : after.inFlight = pool.inFlight) :
    FlagBacked after := by
  intro set
  rw [flag] at set
  rw [inFlight]
  exact backed set

theorem flagBacked_afterScan {nDaemon : Nat} {handle : DaemonHandle} (backed : FlagBacked pool)
    (found : pool.DAEMON_CONNECTIONS[nDaemon]? = some handle) :
    FlagBacked (pool.afterScan getHash nDaemon handle) ↔ PicksUpCurrent pool (.daemonScan nDaemon) := by
  have only : PicksUpCurrent pool (.daemonScan nDaemon) ↔
      ∀ found, pickedUp pool.globals handle = some found →
        found.2.nHeight = pool.globals.nBestHeight ∨ pool.inFlight ≠ [] := by
    rw [PicksUpCurrent, found]
    exact ⟨fun every => every handle rfl, fun every _ same => Option.some.inj same ▸ every⟩
  rw [only]
  cases scanEffect_afterScan getHash found with
  | idle picked globals inFlight =>
      rw [picked]
      exact iff_of_true (backed.of_same (by rw [globals]) inFlight) nofun
  | stale ADDRESS BLOCK picked height globals inFlight =>
      rw [picked, FlagBacked, globals, inFlight]
      simp [height]
  | sent ADDRESS BLOCK picked height globals before behind inFlight inFlight' =>
      rw [picked, FlagBacked, inFlight']
      simp [height]

theorem flagBacked_start (databases : Databases) (lfPoolFee : D) (nMaxDaemons : Nat) :
    FlagBacked (start databases lfPoolFee nMaxDaemons) := flagBacked_of_clear rfl

variable [Double D]

theorem flagBacked_step {event : Event} (backed : FlagBacked pool) (taken : step getHash pool event = some after) :
    FlagBacked after ↔ PicksUpCurrent pool event := by
  have leads := leads_of_step taken
  cases event with
  | masterReconnect =>
      obtain ⟨-, rfl⟩ := leads
      exact iff_of_true (flagBacked_of_clear rfl) trivial
  | masterPacket packet =>
      obtain ⟨inFlight, flag⟩ := inFlight_masterPacket leads.2
      exact iff_of_true (backed.of_same flag inFlight) trivial
  | orphanReconnect =>
      cases leads
      exact iff_of_true (flagBacked_of_clear rfl) trivial
  | orphanPacket packet =>
      cases leads
      refine iff_of_true (backed.of_same ?_ ?_) trivial <;> cases packet <;> rfl
  | daemonReconnect nDaemon =>
      obtain ⟨handle, -, rfl⟩ := leads
      exact iff_of_true (flagBacked_of_clear rfl) trivial
  | daemonPacket nDaemon packet =>
      obtain ⟨handle, found, handled⟩ := leads
      refine iff_of_true ?_ trivial
      cases daemonEffect_of_daemonPacket found handled with
      | good answered databases globals => exact flagBacked_of_clear (by rw [globals])
      | fail answered databases globals => exact flagBacked_of_clear (by rw [globals])
      | coinbaseSet inFlight databases globals => exact backed.of_same (by rw [globals]) inFlight
      | coinbaseFail inFlight databases globals => exact flagBacked_of_clear (by rw [globals])
      | blockData BLOCK inFlight databases globals => exact backed.of_same (by rw [globals]) inFlight
  | daemonScan nDaemon =>
      obtain ⟨handle, found, rfl⟩ := leads
      exact flagBacked_afterScan backed found
  | minerConnect =>
      obtain ⟨globals, -, inFlight⟩ := minerConnect_frame leads
      exact iff_of_true (backed.of_same (by rw [globals]) inFlight) trivial
  | miner nDaemon nID event =>
      obtain ⟨handle, connection, found, rfl⟩ := leads
      obtain ⟨globals, inFlight⟩ := miner_frame found nID connection event
      exact iff_of_true (backed.of_same (by rw [globals]) inFlight) trivial

/-- In every run the flag stands for a request in flight as long as no scan picks up a stale block while
none is in flight, and no longer. -/
theorem flagBacked_iff (getHash : CBlock → Uint1024) (databases : Databases) (lfPoolFee : D) (nMaxDaemons : Nat)
    (events : List Event) :
    EachStep (step getHash) (fun _ _ after => FlagBacked after) events (start databases lfPoolFee nMaxDaemons) ↔
      EachStep (step getHash) (fun pool event _ => PicksUpCurrent pool event) events
        (start databases lfPoolFee nMaxDaemons) := by
  apply EachStep.iff_of_exact FlagBacked
  · intro pool event after backed taken
    exact flagBacked_step backed taken
  · exact flagBacked_start databases lfPoolFee nMaxDaemons

/-! ## A block that goes stale -/

def staleBlock : List Event :=
  -- the block has height 1, and the height is 2 when the handle picks it up
  [.masterReconnect, .orphanReconnect, .daemonReconnect 0, .masterPacket (.blockHeight 1),
    .masterPacket (.blockReward 1000000 [minerAddress]), .daemonScan 0, .minerConnect,
    .miner 0 0 (.login minerAddress true false), .miner 0 0 .getBlock, .daemonScan 0,
    .daemonPacket 0 (.blockData (sampleBlock 1 0)), .miner 0 0 (.submitShare (sampleBlock 1 0) 10 true),
    .masterPacket (.blockHeight 2), .masterPacket (.blockReward 1000000 [minerAddress]), .daemonScan 0]

theorem staleBlock_not_flagBacked :
    ¬ ∀ (getHash : CBlock → Uint1024) (databases : Databases) (lfPoolFee : Float) (nMaxDaemons : Nat)
      (events : List Event),
      EachStep (step getHash) (fun _ _ after => FlagBacked after) events (start databases lfPoolFee nMaxDaemons) := by
  intro backed
  have stuck : ¬ EachStep (step sampleHash) (fun _ _ after => FlagBacked after) staleBlock
      (start oneAccount (0.02 : Float) 1) := by decide +kernel
  exact stuck (backed sampleHash oneAccount 0.02 1 staleBlock)

end Pool

end PrimePool.Core

import PrimePool.Core.SettlementCalls
import PrimePool.Core.ShareAcceptance

/-!
# Balance updates

Share acceptances on the pool threads next to one settlement, clearing or refund, with every database
call an atomic step of its own.
-/

namespace PrimePool.Core

open PrimePool.General PrimePool.LLD Std

structure Threads where
  databases : Databases
  acceptances : List (DatabaseProgram Unit)
  reading : StdString
  lastComputed : StdString → UInt64

namespace Threads

def start (databases : Databases) : Threads where
  databases
  acceptances := []
  reading := []
  lastComputed key := (databases.account key).nAccountBalance

def note (threads : Threads) : DatabaseCall → Threads
  | .getAccount _ cKey => { threads with reading := cKey }
  | .updateAccount .clearShares _ => threads
  | .updateAccount _ cRecord =>
      { threads with
        lastComputed := fun key =>
          if threads.reading = key then cRecord.nAccountBalance else threads.lastComputed key }
  | _ => threads

def call (op : DatabaseCall) (threads : Threads) : op.Result × Threads :=
  ((perform op threads.databases).1, { threads with databases := (perform op threads.databases).2 }.note op)

inductive Pool : Threads → Threads → Prop
  | submit {threads : Threads} (ADDRESS : StdString) (nWeight : UInt64)
      (loggedIn : LoggedIn threads.databases ADDRESS) :
      Pool threads { threads with acceptances := acceptShare ADDRESS nWeight :: threads.acceptances }
  | goOn {threads : Threads} (before behind : List (DatabaseProgram Unit)) (op : DatabaseCall)
      (next : op.Result → DatabaseProgram Unit) (running : threads.acceptances = before ++ .call op next :: behind) :
      Pool threads { threads with
        databases := (perform op threads.databases).2
        acceptances := before ++ next (perform op threads.databases).1 :: behind }

def pendingRecord : DatabaseProgram Unit → Option Account
  | .call (.updateAccount _ cRecord) _ => some cRecord
  | _ => none

/-- The operation stores a record under the key it was read from, and it changes no balance that a share
acceptance has read and not stored yet. -/
def Unhindered (op : DatabaseCall) (threads : Threads) : Prop :=
  match op with
  | .updateAccount caller cRecord =>
      cRecord.cKey = threads.reading ∧
        (caller ≠ .clearShares → ∀ acceptance ∈ threads.acceptances, ∀ cAccount ∈ pendingRecord acceptance,
          cAccount.cKey = cRecord.cKey → cAccount.nAccountBalance = cRecord.nAccountBalance)
  | _ => True

instance (op : DatabaseCall) (threads : Threads) : Decidable (Unhindered op threads) :=
  match op with
  | .updateAccount _ _ => inferInstanceAs (Decidable (_ ∧ (_ → _)))
  | .accountKeys | .getAccount _ _ | .writeAccounts | .getBlock _ | .updateBlock _ | .writeBlocks => isTrue trivial

def setting (allowed : DatabaseCall → Threads → Prop) : Setting DatabaseCall DatabaseCall.Result Threads where
  handler := call
  glued _ := false
  allowed
  env := Pool

def NoUpdateLost (threads : Threads) : Prop :=
  ∀ (key : StdString) (cAccount : Account), threads.databases.AccountDB[key]? = some cAccount →
    cAccount.nAccountBalance = threads.lastComputed key

/-! ## The invariant -/

inductive Current (threads : Threads) : DatabaseProgram Unit → Prop
  | reading (ADDRESS : StdString) (nWeight : UInt64) (loggedIn : LoggedIn threads.databases ADDRESS) :
      Current threads (acceptShare ADDRESS nWeight)
  | storing (cAccount : Account) (current : cAccount.nAccountBalance = threads.lastComputed cAccount.cKey) :
      Current threads (updateAccount .processPacket cAccount)
  | done : Current threads (.done ())

structure UpToDate (threads : Threads) : Prop where
  balances : ∀ key, (threads.databases.account key).nAccountBalance = threads.lastComputed key
  acceptances : ∀ acceptance ∈ threads.acceptances, Current threads acceptance

theorem UpToDate.noUpdateLost {threads : Threads} (upToDate : UpToDate threads) : NoUpdateLost threads := by
  intro key cAccount found
  rw [← upToDate.balances, Databases.account_of_getElem? found]

theorem upToDate_start (databases : Databases) : UpToDate (start databases) :=
  ⟨fun _ => rfl, fun _ member => absurd member List.not_mem_nil⟩

variable {threads : Threads}

theorem Current.mono {after : Threads} {acceptance : DatabaseProgram Unit} (current : Current threads acceptance)
    (logins : ∀ ADDRESS, LoggedIn threads.databases ADDRESS → LoggedIn after.databases ADDRESS)
    (balances : ∀ cAccount ∈ pendingRecord acceptance,
      after.lastComputed cAccount.cKey = threads.lastComputed cAccount.cKey) :
    Current after acceptance := by
  cases current with
  | reading ADDRESS nWeight loggedIn => exact .reading ADDRESS nWeight (logins ADDRESS loggedIn)
  | storing cAccount current => exact .storing cAccount (current.trans (balances cAccount rfl).symm)
  | done => exact .done

theorem stable_upToDate : Stable Pool UpToDate := by
  intro threads after upToDate step
  cases step with
  | submit ADDRESS nWeight loggedIn =>
      refine ⟨upToDate.balances, fun acceptance member => ?_⟩
      rcases List.mem_cons.mp member with rfl | member
      · exact .reading ADDRESS nWeight loggedIn
      · exact (upToDate.acceptances acceptance member).mono (fun _ => id) fun _ _ => rfl
  | goOn before behind op next running =>
      have others : ∀ acceptance ∈ before ++ behind, Current threads acceptance := by
        intro acceptance member
        apply upToDate.acceptances
        rw [running]
        rcases List.mem_append.mp member with first | last
        · exact List.mem_append_left _ first
        · exact List.mem_append_right _ (List.mem_cons_of_mem _ last)
      have mine : Current threads (.call op next) := by
        apply upToDate.acceptances
        rw [running]
        exact List.mem_append_right _ List.mem_cons_self
      have logins (ADDRESS : StdString) (loggedIn : LoggedIn threads.databases ADDRESS) := loggedIn.perform op
      generalize taken : Program.call op next = acceptance at mine
      cases mine with
      | reading ADDRESS nWeight loggedIn =>
          rw [acceptShare_eq] at taken
          cases taken
          refine ⟨fun key => (congrArg Account.nAccountBalance (account_perform _ _ key)).trans
            (upToDate.balances key), fun acceptance member => ?_⟩
          rcases List.mem_append.mp member with first | mineOrLast
          · exact (others acceptance (List.mem_append_left _ first)).mono logins fun _ _ => rfl
          · rcases List.mem_cons.mp mineOrLast with rfl | last
            · apply Current.storing
              rw [result_getAccount]
              apply (upToDate.balances ADDRESS).trans
              exact congrArg threads.lastComputed loggedIn.2.2.symm
            · exact (others acceptance (List.mem_append_right _ last)).mono logins fun _ _ => rfl
      | storing cAccount current =>
          cases taken
          refine ⟨fun key => ?_, fun acceptance member => ?_⟩
          · apply (congrArg Account.nAccountBalance (account_perform _ _ key)).trans
            dsimp only
            split
            · rename_i same
              exact same ▸ current
            · exact upToDate.balances key
          · rcases List.mem_append.mp member with first | mineOrLast
            · exact (others acceptance (List.mem_append_left _ first)).mono logins fun _ _ => rfl
            · rcases List.mem_cons.mp mineOrLast with rfl | last
              · exact .done
              · exact (others acceptance (List.mem_append_right _ last)).mono logins fun _ _ => rfl
      | done => cases taken

theorem upToDate_keep {op : DatabaseCall} (upToDate : UpToDate threads)
    (silent : (call op threads).2.lastComputed = threads.lastComputed)
    (acceptances : (call op threads).2.acceptances = threads.acceptances)
    (databases : (call op threads).2.databases = (perform op threads.databases).2)
    (stores : ∀ caller cRecord, op = .updateAccount caller cRecord →
      cRecord.nAccountBalance = threads.lastComputed cRecord.cKey) : UpToDate (call op threads).2 := by
  refine ⟨fun key => ?_, fun acceptance member => ?_⟩
  · rw [databases, silent, account_perform]
    split
    · rename_i caller cRecord
      split
      · rename_i same
        exact same ▸ stores caller cRecord rfl
      · exact upToDate.balances key
    · exact upToDate.balances key
  · rw [acceptances] at member
    refine (upToDate.acceptances acceptance member).mono (fun ADDRESS loggedIn => ?_) fun _ _ => by rw [silent]
    rw [databases]
    exact loggedIn.perform op

theorem upToDate_compute {caller : Caller} {cRecord : Account} (computes : caller ≠ .clearShares)
    (upToDate : UpToDate threads) (unhindered : Unhindered (.updateAccount caller cRecord) threads) :
    UpToDate (call (.updateAccount caller cRecord) threads).2 := by
  obtain ⟨own, alone⟩ := unhindered
  have noted : (call (.updateAccount caller cRecord) threads).2 =
      { threads with
        databases := (perform (.updateAccount caller cRecord) threads.databases).2
        lastComputed := fun key =>
          if threads.reading = key then cRecord.nAccountBalance else threads.lastComputed key } := by
    cases caller with
    | clearShares => exact absurd rfl computes
    | _ => rfl
  rw [noted]
  refine ⟨fun key => ?_, fun acceptance member => ?_⟩
  · apply (congrArg Account.nAccountBalance (account_perform _ _ key)).trans
    dsimp only
    rw [own]
    split
    · rfl
    · exact upToDate.balances key
  · have current := upToDate.acceptances acceptance member
    cases current with
    | reading ADDRESS nWeight loggedIn => exact .reading ADDRESS nWeight (loggedIn.perform _)
    | storing cAccount current =>
        apply Current.storing
        dsimp only
        split
        · rename_i same
          exact alone computes _ member cAccount rfl (same.symm.trans own.symm)
        · exact current
    | done => exact .done

/-! ## The operations -/

def StoresCleared : DatabaseCall → Prop
  | .updateAccount .clearShares _ => True
  | _ => False

theorem holds_of_crediting {α : Type} {p : DatabaseProgram α} (makes : Makes (fun op => ¬ StoresCleared op) p) :
    Holds (setting Unhindered) UpToDate p fun _ => UpToDate := by
  apply Holds.of_invariant stable_upToDate _ makes
  intro op computes threads upToDate unhindered
  cases op with
  | updateAccount caller cRecord =>
      apply upToDate_compute _ upToDate unhindered
      rintro rfl
      exact computes trivial
  | _ => exact upToDate_keep upToDate rfl rfl rfl nofun

def HasRead (cAccount : Account) (threads : Threads) : Prop :=
  UpToDate threads ∧ cAccount.nAccountBalance = threads.lastComputed threads.reading

theorem stable_hasRead (cAccount : Account) : Stable Pool (HasRead cAccount) := by
  rintro threads after ⟨upToDate, read⟩ step
  refine ⟨stable_upToDate threads after upToDate step, ?_⟩
  cases step with
  | submit => exact read
  | goOn => exact read

theorem holds_clearAccount (key : StdString) :
    Holds (setting Unhindered) UpToDate
      (do
        let cAccount ← getAccount .clearShares key
        updateAccount .clearShares { cAccount with nRoundShares := 0 })
      fun _ => UpToDate := by
  show Holds (setting Unhindered) UpToDate (.call (.getAccount .clearShares key) fun cAccount =>
    .call (.updateAccount .clearShares { cAccount with nRoundShares := 0 }) .done) _
  refine Holds.call (M := HasRead) (fun _ => stable_upToDate) (fun threads upToDate _ =>
    ⟨upToDate_keep upToDate rfl rfl rfl nofun, upToDate.balances key⟩) fun cAccount => ?_
  refine Holds.call (M := fun _ => UpToDate) (fun _ => stable_hasRead cAccount) ?_ fun _ => .done stable_upToDate fun _ => id
  rintro threads ⟨upToDate, read⟩ unhindered
  refine upToDate_keep upToDate rfl rfl rfl fun caller cRecord same => ?_
  cases same
  exact read.trans (congrArg threads.lastComputed unhindered.1.symm)

theorem holds_clearShares : Holds (setting Unhindered) UpToDate clearShares fun _ => UpToDate := by
  show Holds (setting Unhindered) UpToDate (.call .accountKeys fun vKeys => _) _
  refine Holds.call (M := fun _ => UpToDate) (fun _ => stable_upToDate)
    (fun _ upToDate _ => upToDate_keep upToDate rfl rfl rfl nofun) fun vKeys => ?_
  exact Holds.foldlM (I := fun _ _ => UpToDate) (fun _ => stable_upToDate) (fun key _ _ => holds_clearAccount key) vKeys ()

theorem Crediting.not_storesCleared (op : DatabaseCall) (crediting : Crediting op) : ¬ StoresCleared op := by
  unfold StoresCleared
  split
  · exact fun _ => crediting
  · exact id

theorem holds_operation {D : Type} [Double D] (operation : Operation D) :
    Holds (setting Unhindered) UpToDate operation.program fun _ => UpToDate := by
  cases operation with
  | updateBalances round nReward =>
      have commits (cCredits : Credits) : Makes (fun op => ¬ StoresCleared op) (commitBlock round cCredits) :=
        ⟨id, fun _ => ⟨id, fun _ => ⟨id, fun _ => trivial⟩⟩⟩
      rw [Operation.program, updateBalances_eq]
      exact holds_of_crediting (((makes_creditAccounts round nReward).mono Crediting.not_storesCleared).bind commits)
  | clearShares => exact holds_clearShares
  | refundPayouts hashBlock =>
      rw [Operation.program, refundPayouts_eq]
      refine holds_of_crediting ⟨id, fun cBlock => ?_⟩
      show Makes _ (refundBlock cBlock)
      rw [refundBlock]
      split
      · trivial
      · have crediting := (makes_refundLoops cBlock).mono (CalledBy.crediting (by decide))
        exact (crediting.mono Crediting.not_storesCleared).bind fun _ =>
          ⟨id, fun _ => ⟨id, fun _ => trivial⟩⟩

/-- No interleaving loses a balance, unless a balance changes while a share acceptance holds the record. -/
theorem no_update_lost {D : Type} [Double D] (operation : Operation D) (databases : Databases) (after : Threads)
    (steps : InterleavedRun (setting Unhindered) (operation.program, start databases) (.done (), after)) :
    NoUpdateLost after :=
  (holds_operation operation _ (upToDate_start databases) _ steps () rfl).noUpdateLost

/-! ## A share acceptance around a refund -/

theorem acceptances_progress {α : Type} (n : Nat) (c : DatabaseProgram α × Threads) :
    (progress call n c).2.acceptances = c.2.acceptances := by
  induction n generalizing c with
  | zero => rfl
  | succ n ih =>
      obtain ⟨p, threads⟩ := c
      cases p with
      | done value => rfl
      | call op next =>
          apply (ih _).trans
          cases op with
          | updateAccount caller cRecord => cases caller <;> rfl
          | _ => rfl

section

variable (databases : Databases) (ADDRESS : StdString)

def shareRead : Threads :=
  let request : DatabaseCall := .getAccount .processPacket ADDRESS
  let cAccount := databases.account ADDRESS
  { start databases with
    databases := (perform request databases).2
    acceptances := [updateAccount .processPacket { cAccount with nRoundShares := cAccount.nRoundShares + 1 }] }

def shareStored (threads : Threads) : Threads :=
  let cAccount := databases.account ADDRESS
  let update : DatabaseCall :=
    .updateAccount .processPacket { cAccount with nRoundShares := cAccount.nRoundShares + 1 }
  { threads with databases := (perform update threads.databases).2, acceptances := [.done ()] }

theorem interruptible (allowed : DatabaseCall → Threads → Prop) (p : DatabaseProgram Unit) :
    Interruptible (setting allowed) p := by
  cases p with
  | done value => trivial
  | call op next => rfl

variable {databases ADDRESS}

theorem run_shareRead (loggedIn : LoggedIn databases ADDRESS) (allowed : DatabaseCall → Threads → Prop)
    (p : DatabaseProgram Unit) :
    InterleavedRun (setting allowed) (p, start databases) (p, shareRead databases ADDRESS) :=
  .head (.environment (interruptible _ p) (.submit ADDRESS 1 loggedIn))
    (.head (.environment (interruptible _ p) (.goOn [] [] _ _ rfl)) .refl)

theorem run_shareStored (allowed : DatabaseCall → Threads → Prop) (p : DatabaseProgram Unit) {threads : Threads}
    (same : threads.acceptances = (shareRead databases ADDRESS).acceptances) :
    InterleavedRun (setting allowed) (p, threads) (p, shareStored databases ADDRESS threads) :=
  .single (.environment (interruptible _ p) (.goOn [] [] _ _ same))

end

instance (op : DatabaseCall) (threads : Threads) : Decidable ((setting Unhindered).allowed op threads) :=
  inferInstanceAs (Decidable (Unhindered op threads))

/-- While the account of the orphaned block is refunded, a share acceptance holds the record of another account. -/
def beside : Databases := { atRest with AccountDB := atRest.AccountDB.insert otherAddress (Account.new otherAddress) }

theorem beside_no_update_lost :
    NoUpdateLost
      (shareStored beside otherAddress (progress call 5 (refundPayouts orphanHash, shareRead beside otherAddress)).2) := by
  let refunded := progress call 5 (refundPayouts orphanHash, shareRead beside otherAddress)
  have finished : refunded.1 = .done () := Program.eq_done (by decide +kernel)
  have refund : InterleavedRun (setting Unhindered) (refundPayouts orphanHash, shareRead beside otherAddress)
      (.done (), refunded.2) := by
    rw [← finished]
    exact InterleavedRun.progress 5 _ (by decide +kernel)
  have run := ((run_shareRead (by decide +kernel) _ _).trans refund).trans
    (run_shareStored _ _ (acceptances_progress 5 _))
  exact no_update_lost (Operation.refundPayouts orphanHash : Operation Float) beside _ run

theorem atRest_update_lost :
    ¬ ∀ (operation : Operation Float) (databases : Databases) (after : Threads),
      InterleavedRun (setting fun _ _ => True) (operation.program, start databases) (.done (), after) →
        NoUpdateLost after := by
  intro noUpdateLost
  let refunded := progress call 5 (refundPayouts orphanHash, shareRead atRest minerAddress)
  have finished : refunded.1 = .done () := Program.eq_done (by decide +kernel)
  have refund : InterleavedRun (setting fun _ _ => True) (refundPayouts orphanHash, shareRead atRest minerAddress)
      (.done (), refunded.2) := by
    rw [← finished]
    exact InterleavedRun.progress 5 _ fun _ _ => by
      unfold AllowedNext
      split <;> trivial
  have run := ((run_shareRead (by decide +kernel) _ _).trans refund).trans
    (run_shareStored _ _ (acceptances_progress 5 _))
  have stored : (shareStored atRest minerAddress refunded.2).databases.AccountDB[minerAddress]?.map
      Account.nAccountBalance = some 100 := by decide +kernel
  have computed : (shareStored atRest minerAddress refunded.2).lastComputed minerAddress = 0 := by decide +kernel
  obtain ⟨cAccount, found, balance⟩ := Option.map_eq_some_iff.mp stored
  have same := noUpdateLost (.refundPayouts orphanHash) atRest _ run minerAddress cAccount found
  rw [computed, balance] at same
  exact absurd same (by decide)

end Threads

end PrimePool.Core

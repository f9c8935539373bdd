import PrimePool.Core.AccountLoops
import PrimePool.Core.Settlement
import PrimePool.General.Interleaving

/-!
# Share acceptance

`LLP/pool.cpp`: how `ProcessPacket` credits a share, next to the settlement that another thread runs.
-/

namespace PrimePool.Core

open PrimePool.General PrimePool.LLD Std

def acceptShare (ADDRESS : StdString) (nWeight : UInt64) : DatabaseProgram Unit := do
  let cAccount ← getAccount .processPacket ADDRESS
  updateAccount .processPacket { cAccount with nRoundShares := cAccount.nRoundShares + nWeight }

theorem acceptShare_eq (ADDRESS : StdString) (nWeight : UInt64) :
    acceptShare ADDRESS nWeight = .call (.getAccount .processPacket ADDRESS) fun cAccount =>
      updateAccount .processPacket { cAccount with nRoundShares := cAccount.nRoundShares + nWeight } := rfl

theorem run_acceptShare {databases : Databases} {ADDRESS : StdString} (wellKeyed : databases.AccountDB.WellKeyed)
    (present : ADDRESS ∈ databases.AccountDB) (nWeight : UInt64) :
    run perform (acceptShare ADDRESS nWeight) databases =
      ((), databases.change ADDRESS fun cAccount => { cAccount with nRoundShares := cAccount.nRoundShares + nWeight }) := by
  simp only [acceptShare, run_bind, run_getAccount _ present]
  exact run_updateAccount_change .processPacket wellKeyed present
    (f := fun cAccount => { cAccount with nRoundShares := cAccount.nRoundShares + nWeight }) fun _ => rfl

/-- What a login leaves behind: it is refused for an invalid address, and gives an address that `HasKey` does not find
a record under its own key. It does not where `GetRecord` has stored a blank record for the address before. -/
def LoggedIn (databases : Databases) (ADDRESS : StdString) : Prop :=
  ADDRESS ≠ [] ∧ ADDRESS ∈ databases.AccountDB ∧ (databases.account ADDRESS).cKey = ADDRESS

instance (databases : Databases) (ADDRESS : StdString) : Decidable (LoggedIn databases ADDRESS) :=
  inferInstanceAs (Decidable (_ ∧ _ ∧ _))

inductive Operation (D : Type) where
  | updateBalances (round : Round D) (nReward : UInt64)
  | clearShares
  | refundPayouts (hashBlock : Uint1024)

def Operation.program {D : Type} [Double D] : Operation D → DatabaseProgram Unit
  | .updateBalances round nReward => Core.updateBalances round nReward
  | .clearShares => Core.clearShares
  | .refundPayouts hashBlock => Core.refundPayouts hashBlock

/-! ## What one call does to an account -/

variable {databases : Databases} {key : StdString}

theorem account_perform (op : DatabaseCall) (databases : Databases) (key : StdString) :
    (perform op databases).2.account key =
      match op with
      | .updateAccount _ cRecord => if cRecord.cKey = key then cRecord else databases.account key
      | _ => databases.account key := by
  cases op with
  | getAccount caller cKey =>
      simp only [perform, Databases.account, Records.getRecord, ExtTreeMap.getD_insertIfNew,
        LawfulEqCmp.compare_eq_iff_eq]
      split
      · rename_i missing
        rw [← missing.1, ExtTreeMap.getD_eq_fallback missing.2]
        rfl
      · rfl
  | updateAccount caller cRecord =>
      simp only [perform, Databases.account, ExtTreeMap.getD_eq_getD_getElem?, Records.getElem?_updateRecord]
      split
      · rename_i same
        rw [if_pos (show cRecord.cKey = key from same), Option.getD_some]
      · rename_i different
        rw [if_neg (show ¬ cRecord.cKey = key from different)]
  | _ => rfl

theorem mem_perform (op : DatabaseCall) {databases : Databases} {key : StdString}
    (present : key ∈ databases.AccountDB) : key ∈ (perform op databases).2.AccountDB := by
  cases op with
  | getAccount caller cKey => exact (Records.mem_getRecord _ _ _).mpr (Or.inr present)
  | updateAccount caller cRecord => exact ExtTreeMap.mem_insert.mpr (Or.inr present)
  | _ => exact present

theorem LoggedIn.perform {ADDRESS : StdString} (loggedIn : LoggedIn databases ADDRESS) (op : DatabaseCall) :
    LoggedIn (perform op databases).2 ADDRESS := by
  refine ⟨loggedIn.1, mem_perform op loggedIn.2.1, ?_⟩
  rw [account_perform]
  split
  · split
    · assumption
    · exact loggedIn.2.2
  · exact loggedIn.2.2

theorem loggedIn_iff (databases : Databases) (key : StdString) :
    LoggedIn databases key ↔ key ≠ [] ∧ (databases.account key).cKey = key := by
  constructor
  · exact fun loggedIn => ⟨loggedIn.1, loggedIn.2.2⟩
  · rintro ⟨notEmpty, own⟩
    refine ⟨notEmpty, ?_, own⟩
    by_contra missing
    rw [Databases.account, ExtTreeMap.getD_eq_fallback missing] at own
    exact notEmpty own.symm

theorem result_getAccount (caller : Caller) (databases : Databases) (key : StdString) :
    (perform (.getAccount caller key) databases).1 = databases.account key := rfl

end PrimePool.Core

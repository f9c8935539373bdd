import PrimePool.Core.SettlementCalls
import PrimePool.Core.ShareAcceptance

/-!
# Counting the shares

Share acceptances on the pool threads next to `NewRound`, with each read-modify-write of an account as
one atomic step. A ledger follows every accepted share through the three passes over the accounts.
-/

namespace PrimePool.Core

open PrimePool.General PrimePool.LLD Std

/-! ## The ledger -/

/-- A share that was answered `ACCEPT` or `BLOCK`, and whether `TotalWeight` has read it, the credit of its
account was computed with it and `ClearShares` has set it to zero. -/
structure Share where
  ADDRESS : StdString
  nWeight : UInt64
  inTotal : Bool
  inOwn : Bool
  cleared : Bool
deriving DecidableEq

namespace Share

def accepted (ADDRESS : StdString) (nWeight : UInt64) : Share :=
  { ADDRESS, nWeight, inTotal := false, inOwn := false, cleared := false }

def settled (share : Share) : Bool := share.inTotal && share.inOwn && share.cleared

def kept (share : Share) : Bool := !share.inTotal && !share.inOwn && !share.cleared

def pending (key : StdString) (share : Share) : Bool := !share.cleared && share.ADDRESS = key

end Share

def weigh (counted : Share → Bool) : List Share → UInt64
  | [] => 0
  | share :: shares => (if counted share then share.nWeight else 0) + weigh counted shares

theorem weigh_congr {first second : Share → Bool} {shares : List Share}
    (same : ∀ share ∈ shares, first share = second share) : weigh first shares = weigh second shares := by
  induction shares with
  | nil => rfl
  | cons share shares ih =>
      rw [weigh, weigh, same share List.mem_cons_self,
        ih fun other member => same other (List.mem_cons_of_mem share member)]

theorem weigh_eq_zero {counted : Share → Bool} {shares : List Share}
    (none : ∀ share ∈ shares, counted share = false) : weigh counted shares = 0 := by
  induction shares with
  | nil => rfl
  | cons share shares ih =>
      rw [weigh, none share List.mem_cons_self,
        ih fun other member => none other (List.mem_cons_of_mem share member)]
      rfl

theorem weigh_map {counted : Share → Bool} {shares : List Share} {change : Share → Share}
    (keeps : ∀ share, (change share).nWeight = share.nWeight) :
    weigh counted (shares.map change) = weigh (fun share => counted (change share)) shares := by
  induction shares with
  | nil => rfl
  | cons share shares ih => rw [List.map_cons, weigh, weigh, ih, keeps]

theorem weigh_or {first second : Share → Bool} {shares : List Share}
    (disjoint : ∀ share ∈ shares, first share = true → second share = false) :
    weigh (fun share => first share || second share) shares = weigh first shares + weigh second shares := by
  induction shares with
  | nil => rfl
  | cons share shares ih =>
      have here := disjoint share List.mem_cons_self
      rw [weigh, weigh, weigh, ih fun other member => disjoint other (List.mem_cons_of_mem share member)]
      cases inFirst : first share with
      | true => simp [here inFirst, UInt64.add_assoc]
      | false =>
          rw [Bool.false_or, if_neg Bool.false_ne_true, UInt64.zero_add, ← UInt64.add_assoc,
            UInt64.add_comm _ (weigh first shares), UInt64.add_assoc]

structure Ledger where
  shares : List Share
  nTotalWeight : UInt64
  own : StdString → UInt64
  /-- The accounts that `TotalWeight` has read and `ClearShares` has not cleared since. -/
  weighed : List StdString

namespace Ledger

def mark (ledger : Ledger) (key : StdString) (change : Share → Share) : List Share :=
  ledger.shares.map fun share => if share.pending key then change share else share

def note (ledger : Ledger) (nRoundShares : UInt64) : DatabaseCall → Ledger
  | .getAccount .totalWeight key =>
      { ledger with
        shares := ledger.mark key fun share => { share with inTotal := true }
        nTotalWeight := ledger.nTotalWeight + nRoundShares
        weighed := key :: ledger.weighed }
  | .getAccount .creditLoop key =>
      { ledger with
        shares := ledger.mark key fun share => { share with inOwn := true }
        own := fun other => if key = other then nRoundShares else ledger.own other }
  | .updateAccount .clearShares cRecord =>
      { ledger with
        shares := ledger.mark cRecord.cKey fun share => { share with cleared := true }
        weighed := ledger.weighed.filter fun key => key ≠ cRecord.cKey }
  | _ => ledger

end Ledger

structure Counting where
  databases : Databases
  ledger : Ledger

namespace Counting

def sharesRead (databases : Databases) : DatabaseCall → UInt64
  | .getAccount _ key => (databases.account key).nRoundShares
  | _ => 0

def call (op : DatabaseCall) (counting : Counting) : op.Result × Counting :=
  ((perform op counting.databases).1,
    { databases := (perform op counting.databases).2
      ledger := counting.ledger.note (sharesRead counting.databases op) op })

inductive Accepts (timely : Counting → StdString → Prop) : Counting → Counting → Prop
  | share {counting : Counting} (ADDRESS : StdString) (nWeight : UInt64)
      (loggedIn : LoggedIn counting.databases ADDRESS) (time : timely counting ADDRESS) :
      Accepts timely counting
        { databases := (run perform (acceptShare ADDRESS nWeight) counting.databases).2
          ledger := { counting.ledger with shares := .accepted ADDRESS nWeight :: counting.ledger.shares } }

/-- An `UpdateRecord` follows the `GetRecord` before it at once. -/
def setting (timely : Counting → StdString → Prop) : Setting DatabaseCall DatabaseCall.Result Counting where
  handler := call
  glued op := op matches .updateAccount _ _
  allowed _ _ := True
  env := Accepts timely

/-- No share of an account is accepted after `TotalWeight` has read the account and before `ClearShares`
has cleared it. -/
def Timely (counting : Counting) (ADDRESS : StdString) : Prop := ADDRESS ∉ counting.ledger.weighed

/-- Every share is counted in both sums of this settlement, or in neither and left for the next one. -/
structure SettledOnce (counting : Counting) : Prop where
  once : ∀ share ∈ counting.ledger.shares, share.settled ∨ share.kept
  total : counting.ledger.nTotalWeight = weigh Share.settled counting.ledger.shares
  own : ∀ key, counting.ledger.own key =
    weigh (fun share => share.settled && share.ADDRESS = key) counting.ledger.shares
  next : ∀ (key : StdString) (cAccount : Account), counting.databases.AccountDB[key]? = some cAccount →
    cAccount.nRoundShares = weigh (fun share => share.kept && share.ADDRESS = key) counting.ledger.shares

/-! ## What holds throughout -/

/-- The records agree with the ledger; `accounts` are those of the miners who are logged in. -/
structure Sound (accounts : StdString → Prop) (counting : Counting) : Prop where
  filed : ∀ key, (counting.databases.account key).cKey = key ∨ (counting.databases.account key).cKey = []
  members : ∀ key, LoggedIn counting.databases key ↔ accounts key
  shares : ∀ share ∈ counting.ledger.shares, accounts share.ADDRESS
  rounds : ∀ key, (counting.databases.account key).nRoundShares = weigh (Share.pending key) counting.ledger.shares

variable {accounts : StdString → Prop} {counting after : Counting} {key : StdString}

theorem Sound.not_empty (sound : Sound accounts counting) : ¬ accounts [] :=
  fun member => ((sound.members []).mpr member).1 rfl

theorem Sound.weigh_pending (sound : Sound accounts counting) (stranger : ¬ accounts key) :
    weigh (Share.pending key) counting.ledger.shares = 0 := by
  apply weigh_eq_zero
  intro share member
  have different : share.ADDRESS ≠ key := fun same => stranger (same ▸ sound.shares share member)
  simp [Share.pending, different]

def Current (accounts : StdString → Prop) (ledger : Ledger) (cAccount : Account) : Prop :=
  cAccount.nRoundShares = weigh (Share.pending cAccount.cKey) ledger.shares ∧
    (cAccount.cKey = [] ∨ accounts cAccount.cKey)

theorem Sound.current (sound : Sound accounts counting) (key : StdString) :
    Current accounts counting.ledger (counting.databases.account key) := by
  by_cases known : accounts key
  · have own := ((sound.members key).mpr known).2.2
    refine ⟨?_, Or.inr (own.symm ▸ known)⟩
    rw [own, sound.rounds]
  · have empty : (counting.databases.account key).cKey = [] := by
      rcases sound.filed key with own | empty
      · by_contra notEmpty
        exact known ((sound.members key).mp ((loggedIn_iff _ key).mpr ⟨own ▸ notEmpty, own⟩))
      · exact empty
    refine ⟨?_, Or.inl empty⟩
    rw [empty, sound.rounds, sound.weigh_pending known, sound.weigh_pending sound.not_empty]

theorem Sound.frame (sound : Sound accounts counting)
    (same : ∀ key, after.databases.account key = counting.databases.account key) (change : Share → Share)
    (marked : after.ledger.shares = counting.ledger.shares.map change)
    (keeps : ∀ share, (change share).ADDRESS = share.ADDRESS ∧ (change share).nWeight = share.nWeight ∧
      (change share).cleared = share.cleared) : Sound accounts after := by
  refine ⟨fun key => ?_, fun key => ?_, fun share member => ?_, fun key => ?_⟩
  · rw [same]
    exact sound.filed key
  · rw [← sound.members, loggedIn_iff, loggedIn_iff, same]
  · rw [marked] at member
    obtain ⟨before, listed, rfl⟩ := List.mem_map.mp member
    rw [(keeps before).1]
    exact sound.shares before listed
  · rw [same, sound.rounds, marked, weigh_map fun share => (keeps share).2.1]
    apply weigh_congr
    intro share _
    rw [Share.pending, Share.pending, (keeps share).1, (keeps share).2.2]

theorem Sound.update (sound : Sound accounts counting) {cRecord : Account}
    (current : Current accounts counting.ledger cRecord)
    (stored : ∀ key, after.databases.account key =
      if cRecord.cKey = key then cRecord else counting.databases.account key)
    (same : after.ledger = counting.ledger) : Sound accounts after := by
  refine ⟨fun key => ?_, fun key => ?_, ?_, fun key => ?_⟩
  · rw [stored]
    split
    · exact Or.inl (by assumption)
    · exact sound.filed key
  · rw [loggedIn_iff, stored]
    split
    · rename_i here
      subst here
      rcases current.2 with empty | member
      · rw [empty]
        exact iff_of_false (fun both => both.1 rfl) sound.not_empty
      · exact iff_of_true ⟨((sound.members _).mpr member).1, rfl⟩ member
    · rw [← loggedIn_iff]
      exact sound.members key
  · rw [same]
    exact sound.shares
  · rw [stored, same]
    split
    · rename_i here
      subst here
      exact current.1
    · exact sound.rounds key

theorem Sound.clear (sound : Sound accounts counting) {cAccount : Account}
    (current : Current accounts counting.ledger cAccount)
    (stored : ∀ key, after.databases.account key =
      if cAccount.cKey = key then { cAccount with nRoundShares := 0 } else counting.databases.account key)
    (marked : after.ledger.shares =
      counting.ledger.mark cAccount.cKey fun share => { share with cleared := true }) : Sound accounts after := by
  -- the records and the logins change as in an update that keeps the round shares
  have kept : Sound accounts
      { counting with databases := (perform (.updateAccount .remainder cAccount) counting.databases).2 } :=
    sound.update current (fun key => account_perform _ _ key) rfl
  have keys (key : StdString) : (after.databases.account key).cKey =
      ((perform (.updateAccount .remainder cAccount) counting.databases).2.account key).cKey := by
    rw [stored, account_perform]
    dsimp only
    split <;> rfl
  refine ⟨fun key => ?_, fun key => ?_, fun share member => ?_, fun key => ?_⟩
  · rw [keys]
    exact kept.filed key
  · rw [loggedIn_iff, keys, ← kept.members, loggedIn_iff]
  · rw [marked, Ledger.mark] at member
    obtain ⟨before, listed, rfl⟩ := List.mem_map.mp member
    split <;> exact sound.shares before listed
  · rw [stored, marked, Ledger.mark, weigh_map (by intro share; split <;> rfl)]
    split
    · rename_i here
      symm
      apply weigh_eq_zero
      intro share _
      by_cases pending : share.pending cAccount.cKey = true
      · rw [if_pos pending]
        simp [Share.pending]
      · rw [if_neg pending, ← here]
        exact Bool.eq_false_iff.mpr pending
    · rename_i different
      rw [sound.rounds]
      apply weigh_congr
      intro share _
      by_cases pending : share.pending cAccount.cKey = true
      · have own : share.ADDRESS = cAccount.cKey := of_decide_eq_true (Bool.and_eq_true_iff.mp pending).2
        rw [if_pos pending]
        simp [Share.pending, own, different]
      · rw [if_neg pending]

theorem Sound.accept (sound : Sound accounts counting) {ADDRESS : StdString} {nWeight : UInt64}
    (loggedIn : LoggedIn counting.databases ADDRESS) :
    Sound accounts
      { databases := (run perform (acceptShare ADDRESS nWeight) counting.databases).2
        ledger := { counting.ledger with shares := .accepted ADDRESS nWeight :: counting.ledger.shares } } := by
  have stored (key : StdString) :
      (run perform (acceptShare ADDRESS nWeight) counting.databases).2.account key =
        if ADDRESS = key then
          { counting.databases.account key with
            nRoundShares := (counting.databases.account key).nRoundShares + nWeight }
        else counting.databases.account key := by
    simp only [acceptShare, run_bind, getAccount, updateAccount, run_perform, account_perform, result_getAccount]
    by_cases here : ADDRESS = key
    · subst here
      rw [if_pos loggedIn.2.2, if_pos rfl]
    · rw [if_neg (loggedIn.2.2.symm ▸ here), if_neg here]
  refine ⟨fun key => ?_, fun key => ?_, fun share member => ?_, fun key => ?_⟩
  · rw [stored]
    split <;> exact sound.filed key
  · rw [← sound.members, loggedIn_iff, loggedIn_iff, stored]
    split <;> exact Iff.rfl
  · rcases List.mem_cons.mp member with rfl | earlier
    · exact (sound.members ADDRESS).mp loggedIn
    · exact sound.shares share earlier
  · rw [stored, weigh]
    split
    · rename_i here
      simp only [sound.rounds, Share.accepted, Share.pending, here, decide_true, Bool.not_false, Bool.and_self, if_true]
      exact UInt64.add_comm _ _
    · rename_i different
      simp [sound.rounds, Share.accepted, Share.pending, different]

/-! ## The passes over the accounts -/

structure Untouched (accounts : StdString → Prop) (counting : Counting) : Prop where
  sound : Sound accounts counting
  shares : ∀ share ∈ counting.ledger.shares, share.kept
  weighed : counting.ledger.weighed = []
  total : counting.ledger.nTotalWeight = 0
  own : counting.ledger.own = fun _ => 0

structure TotalPass (accounts : StdString → Prop) (keys : List StdString) (nWeight : UInt64)
    (counting : Counting) : Prop where
  sound : Sound accounts counting
  distinct : keys.Nodup
  value : nWeight = counting.ledger.nTotalWeight
  weighed : ∀ key, accounts key → key ∈ keys ∨ key ∈ counting.ledger.weighed
  shares : ∀ share ∈ counting.ledger.shares,
    share.inTotal = decide (share.ADDRESS ∉ keys) ∧ share.inOwn = false ∧ share.cleared = false
  total : counting.ledger.nTotalWeight = weigh Share.inTotal counting.ledger.shares
  own : counting.ledger.own = fun _ => 0

structure CreditPass (accounts : StdString → Prop) (keys : List StdString) (counting : Counting) : Prop where
  sound : Sound accounts counting
  distinct : keys.Nodup
  weighed : ∀ key, accounts key → key ∈ counting.ledger.weighed
  shares : ∀ share ∈ counting.ledger.shares,
    share.inTotal = true ∧ share.inOwn = decide (share.ADDRESS ∉ keys) ∧ share.cleared = false
  total : counting.ledger.nTotalWeight = weigh Share.inTotal counting.ledger.shares
  own : ∀ key, counting.ledger.own key =
    weigh (fun share => share.inOwn && share.ADDRESS = key) counting.ledger.shares

structure ClearPass (accounts : StdString → Prop) (keys : List StdString) (counting : Counting) : Prop where
  sound : Sound accounts counting
  distinct : keys.Nodup
  weighed : ∀ key ∈ keys, accounts key → key ∈ counting.ledger.weighed
  shares : ∀ share ∈ counting.ledger.shares,
    if share.ADDRESS ∈ keys then share.inTotal = true ∧ share.inOwn = true ∧ share.cleared = false
    else share.settled ∨ share.kept
  total : counting.ledger.nTotalWeight = weigh Share.inTotal counting.ledger.shares
  own : ∀ key, counting.ledger.own key =
    weigh (fun share => share.inOwn && share.ADDRESS = key) counting.ledger.shares

/-! ### Shares that are accepted during a pass -/

theorem stable_untouched : Stable (Accepts Timely) (Untouched accounts) := by
  intro counting after before step
  cases step with
  | share ADDRESS nWeight loggedIn time =>
      refine ⟨before.sound.accept loggedIn, fun share member => ?_, before.weighed, before.total, before.own⟩
      rcases List.mem_cons.mp member with rfl | earlier
      · rfl
      · exact before.shares share earlier

theorem stable_totalPass {keys : List StdString} {nWeight : UInt64} :
    Stable (Accepts Timely) (TotalPass accounts keys nWeight) := by
  intro counting after pass step
  cases step with
  | share ADDRESS nWeight loggedIn time =>
      have toCome : ADDRESS ∈ keys := by
        rcases pass.weighed ADDRESS ((pass.sound.members ADDRESS).mp loggedIn) with toCome | weighed
        · exact toCome
        · exact absurd weighed time
      refine ⟨pass.sound.accept loggedIn, pass.distinct, pass.value, pass.weighed, fun share member => ?_, ?_, pass.own⟩
      · rcases List.mem_cons.mp member with rfl | earlier
        · simp [Share.accepted, toCome]
        · exact pass.shares share earlier
      · rw [pass.total, weigh]
        exact (UInt64.zero_add _).symm

theorem stable_of_weighed {P : Counting → Prop}
    (weighed : ∀ counting, P counting → ∀ key, LoggedIn counting.databases key → key ∈ counting.ledger.weighed) :
    Stable (Accepts Timely) P := by
  intro counting after holds step
  cases step with
  | share ADDRESS nWeight loggedIn time => exact absurd (weighed counting holds ADDRESS loggedIn) time

theorem CreditPass.allWeighed {keys : List StdString} (pass : CreditPass accounts keys counting) (key : StdString)
    (loggedIn : LoggedIn counting.databases key) : key ∈ counting.ledger.weighed :=
  pass.weighed key ((pass.sound.members key).mp loggedIn)

theorem stable_creditPass {keys : List StdString} : Stable (Accepts Timely) (CreditPass accounts keys) :=
  stable_of_weighed fun _ pass => pass.allWeighed

theorem stable_clearPass {keys : List StdString} : Stable (Accepts Timely) (ClearPass accounts keys) := by
  intro counting after pass step
  cases step with
  | share ADDRESS nWeight loggedIn time =>
      have past : ADDRESS ∉ keys :=
        fun toCome => time (pass.weighed ADDRESS toCome ((pass.sound.members ADDRESS).mp loggedIn))
      refine ⟨pass.sound.accept loggedIn, pass.distinct, pass.weighed, fun share member => ?_, ?_, fun key => ?_⟩
      · rcases List.mem_cons.mp member with rfl | earlier
        · rw [if_neg (show (Share.accepted ADDRESS nWeight).ADDRESS ∉ keys from past)]
          exact Or.inr rfl
        · exact pass.shares share earlier
      · rw [pass.total, weigh]
        exact (UInt64.zero_add _).symm
      · rw [pass.own, weigh]
        exact (UInt64.zero_add _).symm

/-! ### The calls of a pass -/

theorem Sound.quiet (sound : Sound accounts counting) {op : DatabaseCall}
    (same : ∀ key, (perform op counting.databases).2.account key = counting.databases.account key)
    (silent : (call op counting).2.ledger = counting.ledger) : Sound accounts (call op counting).2 :=
  sound.frame same id (by rw [silent, List.map_id]) fun _ => ⟨rfl, rfl, rfl⟩

theorem Sound.mark (sound : Sound accounts counting)
    (same : ∀ key, after.databases.account key = counting.databases.account key) (key : StdString)
    (change : Share → Share) (marked : after.ledger.shares = counting.ledger.mark key change)
    (keeps : ∀ share, (change share).ADDRESS = share.ADDRESS ∧ (change share).nWeight = share.nWeight ∧
      (change share).cleared = share.cleared) : Sound accounts after := by
  refine sound.frame same (fun share => if share.pending key then change share else share) marked fun share => ?_
  split
  · exact keeps share
  · exact ⟨rfl, rfl, rfl⟩

theorem Sound.mem_keys (sound : Sound accounts counting) (member : accounts key) :
    key ∈ counting.databases.AccountDB.keys :=
  ExtTreeMap.mem_keys.mpr ((sound.members key).mpr member).2.1

theorem pending_eq {share : Share} (there : share.cleared = false) : share.pending key = decide (share.ADDRESS = key) := by
  rw [Share.pending, there, Bool.not_false, Bool.true_and]

theorem Untouched.totalPass (before : Untouched accounts counting) :
    TotalPass accounts counting.databases.AccountDB.keys 0 (call .accountKeys counting).2 where
  sound := before.sound.quiet (fun _ => rfl) rfl
  distinct := ExtTreeMap.nodup_keys
  value := before.total.symm
  weighed key member := Or.inl (before.sound.mem_keys member)
  shares share member := by
    have kept := before.shares share member
    have listed := before.sound.mem_keys (before.sound.shares share member)
    simp only [Share.kept, Bool.and_eq_true, Bool.not_eq_true'] at kept
    exact ⟨by simpa [listed] using kept.1.1, kept.1.2, kept.2⟩
  total := by
    refine before.total.trans (weigh_eq_zero fun share member => ?_).symm
    have kept := before.shares share member
    simp only [Share.kept, Bool.and_eq_true, Bool.not_eq_true'] at kept
    exact kept.1.1
  own := before.own

theorem TotalPass.read {keys : List StdString} {nWeight : UInt64}
    (pass : TotalPass accounts (key :: keys) nWeight counting) :
    TotalPass accounts keys (nWeight + (counting.databases.account key).nRoundShares)
      (call (.getAccount .totalWeight key) counting).2 := by
  obtain ⟨first, distinct⟩ := List.nodup_cons.mp pass.distinct
  have here (share : Share) (member : share ∈ counting.ledger.shares) :
      share.pending key = decide (share.ADDRESS = key) := pending_eq (pass.shares share member).2.2
  refine ⟨pass.sound.mark (fun _ => account_perform _ _ _) key (fun share => { share with inTotal := true }) rfl
    fun _ => ⟨rfl, rfl, rfl⟩, distinct, ?_, fun other member => ?_, fun share member => ?_, ?_, pass.own⟩
  · exact congrArg (· + (counting.databases.account key).nRoundShares) pass.value
  · rcases pass.weighed other member with toCome | weighed
    · rcases List.mem_cons.mp toCome with rfl | later
      · exact Or.inr List.mem_cons_self
      · exact Or.inl later
    · exact Or.inr (List.mem_cons_of_mem key weighed)
  · obtain ⟨before, listed, rfl⟩ := List.mem_map.mp member
    have tags := pass.shares before listed
    rw [here before listed]
    by_cases same : before.ADDRESS = key
    · simp [same, first, tags]
    · simp [same, tags]
  · have marked : weigh Share.inTotal (counting.ledger.mark key fun share => { share with inTotal := true }) =
        weigh (fun share => share.inTotal || share.pending key) counting.ledger.shares := by
      rw [Ledger.mark, weigh_map (by intro share; split <;> rfl)]
      apply weigh_congr
      intro share _
      split
      · rename_i pending
        simp [pending]
      · rename_i notPending
        simp [notPending]
    refine Eq.trans ?_ marked.symm
    rw [weigh_or, ← pass.sound.rounds, ← pass.total]
    · rfl
    · intro share member counted
      rw [(pass.shares share member).1, decide_eq_true_eq, List.mem_cons, not_or] at counted
      rw [here share member]
      exact decide_eq_false counted.1

theorem TotalPass.creditPass {nWeight : UInt64} (pass : TotalPass accounts [] nWeight counting) :
    CreditPass accounts counting.databases.AccountDB.keys (call .accountKeys counting).2 where
  sound := pass.sound.quiet (fun _ => rfl) rfl
  distinct := ExtTreeMap.nodup_keys
  weighed key member := (pass.weighed key member).resolve_left List.not_mem_nil
  shares share member := by
    have tags := pass.shares share member
    have listed := pass.sound.mem_keys (pass.sound.shares share member)
    exact ⟨by simpa using tags.1, by simpa [listed] using tags.2.1, tags.2.2⟩
  total := pass.total
  own key := by
    refine (congrFun pass.own key).trans (weigh_eq_zero fun share member => ?_).symm
    rw [(pass.shares share member).2.1, Bool.false_and]

theorem CreditPass.read {keys : List StdString} (pass : CreditPass accounts (key :: keys) counting) :
    CreditPass accounts keys (call (.getAccount .creditLoop key) counting).2 := by
  obtain ⟨first, distinct⟩ := List.nodup_cons.mp pass.distinct
  have here (share : Share) (member : share ∈ counting.ledger.shares) :
      share.pending key = decide (share.ADDRESS = key) := pending_eq (pass.shares share member).2.2
  refine ⟨pass.sound.mark (fun _ => account_perform _ _ _) key (fun share => { share with inOwn := true }) rfl
    fun _ => ⟨rfl, rfl, rfl⟩, distinct, pass.weighed, fun share member => ?_, ?_, fun other => ?_⟩
  · obtain ⟨before, listed, rfl⟩ := List.mem_map.mp member
    have tags := pass.shares before listed
    rw [here before listed]
    by_cases same : before.ADDRESS = key
    · simp [same, first, tags]
    · simp [same, tags]
  · refine pass.total.trans (Eq.symm ?_)
    refine (weigh_map (by intro share; split <;> rfl)).trans (weigh_congr fun share _ => ?_)
    split <;> rfl
  · refine Eq.trans ?_ (weigh_map (by intro share; split <;> rfl)).symm
    change (if key = other then (counting.databases.account key).nRoundShares else counting.ledger.own other) = _
    by_cases same : key = other
    · subst same
      rw [if_pos rfl, pass.sound.rounds]
      apply weigh_congr
      intro share member
      have tags := pass.shares share member
      rw [here share member]
      by_cases mine : share.ADDRESS = key
      · simp [mine]
      · simp [mine]
    · rw [if_neg same, pass.own]
      apply weigh_congr
      intro share member
      rw [here share member]
      by_cases mine : share.ADDRESS = key
      · simp [mine, same]
      · simp [mine]

theorem CreditPass.keep {keys : List StdString} (pass : CreditPass accounts keys counting)
    (sound : Sound accounts after) (same : after.ledger = counting.ledger) : CreditPass accounts keys after where
  sound := sound
  distinct := pass.distinct
  weighed := same.symm ▸ pass.weighed
  shares := same.symm ▸ pass.shares
  total := same.symm ▸ pass.total
  own := same.symm ▸ pass.own

theorem CreditPass.clearPass (pass : CreditPass accounts [] counting) :
    ClearPass accounts counting.databases.AccountDB.keys (call .accountKeys counting).2 where
  sound := pass.sound.quiet (fun _ => rfl) rfl
  distinct := ExtTreeMap.nodup_keys
  weighed key _ member := pass.weighed key member
  shares share member := by
    have tags := pass.shares share member
    rw [if_pos (pass.sound.mem_keys (pass.sound.shares share member))]
    exact ⟨tags.1, by simpa using tags.2.1, tags.2.2⟩
  total := pass.total
  own := pass.own

theorem ClearPass.clear {keys : List StdString} (pass : ClearPass accounts (key :: keys) counting) :
    ClearPass accounts keys
      (call (.updateAccount .clearShares { counting.databases.account key with nRoundShares := 0 }) counting).2 := by
  obtain ⟨first, distinct⟩ := List.nodup_cons.mp pass.distinct
  have current := pass.sound.current key
  have filed := pass.sound.filed key
  generalize read : counting.databases.account key = cAccount at current filed ⊢
  -- a share is in the round shares that are cleared exactly when it is the account's own
  have own (other : StdString) (member : accounts other) : other = cAccount.cKey ↔ other = key := by
    constructor
    · rintro rfl
      exact filed.resolve_right fun empty => pass.sound.not_empty (empty ▸ member)
    · rintro rfl
      rw [← read]
      exact ((pass.sound.members other).mpr member).2.2.symm
  refine ⟨pass.sound.clear current (fun _ => account_perform _ _ _) rfl, distinct, fun other later member => ?_,
    fun share member => ?_, ?_, fun other => ?_⟩
  · have different : other ≠ cAccount.cKey := fun same => first ((own other member).mp same ▸ later)
    exact List.mem_filter.mpr ⟨pass.weighed other (List.mem_cons_of_mem key later) member, by simpa using different⟩
  · obtain ⟨before, listed, rfl⟩ := List.mem_map.mp member
    have tags := pass.shares before listed
    have mine := own before.ADDRESS (pass.sound.shares before listed)
    dsimp only
    by_cases same : before.ADDRESS = key
    · rw [if_pos (List.mem_cons.mpr (Or.inl same))] at tags
      have pending : before.pending cAccount.cKey = true := by simp [Share.pending, tags, mine.mpr same]
      rw [if_pos pending, if_neg (show before.ADDRESS ∉ keys from same ▸ first)]
      simp [Share.settled, tags]
    · have others : ¬ before.pending cAccount.cKey = true := by simp [Share.pending, mine, same]
      rw [if_neg others]
      simpa [same] using tags
  · refine pass.total.trans (Eq.symm ?_)
    refine (weigh_map (by intro share; split <;> rfl)).trans (weigh_congr fun share _ => ?_)
    split <;> rfl
  · refine (pass.own other).trans (Eq.symm ?_)
    refine (weigh_map (by intro share; split <;> rfl)).trans (weigh_congr fun share _ => ?_)
    split <;> rfl

/-! ## The settlement -/

variable {D : Type} [Double D]

def BonusRead (accounts : StdString → Prop) (cAccount : Account) (counting : Counting) : Prop :=
  Untouched accounts counting ∧ Current accounts counting.ledger cAccount

theorem holds_creditFinder (finder : StdString) (nReward : UInt64) :
    Holds (setting Timely) (Untouched accounts) (creditFinder D finder nReward) fun _ => Untouched accounts := by
  rw [creditFinder]
  split
  · exact .done stable_untouched fun _ => id
  · show Holds (setting Timely) _ (.call (.getAccount .finderBonus finder) fun cAccount =>
      .call (.updateAccount .finderBonus { cAccount with nAccountBalance := _ }) fun _ => .done _) _
    refine Holds.call (M := BonusRead accounts) (fun _ => stable_untouched) (fun counting before _ =>
      ⟨{ before with sound := before.sound.quiet (fun _ => account_perform _ _ _) rfl }, before.sound.current finder⟩)
      fun cAccount => ?_
    refine Holds.call_glued (M := fun _ => Untouched accounts) rfl ?_ fun _ => .done stable_untouched fun _ => id
    rintro counting ⟨before, current⟩ -
    have changed (nBalance : UInt64) :
        Current accounts counting.ledger { cAccount with nAccountBalance := nBalance } := current
    exact { before with sound := before.sound.update (changed _) (fun _ => account_perform _ _ _) rfl }

theorem holds_totalWeight :
    Holds (setting Timely) (Untouched accounts) totalWeight (TotalPass accounts []) := by
  show Holds (setting Timely) _ (.call .accountKeys fun vKeys => _) _
  refine Holds.call (M := fun vKeys => TotalPass accounts vKeys 0) (fun _ => stable_untouched)
    (fun counting before _ => before.totalPass) fun vKeys => ?_
  refine Holds.foldlM (I := TotalPass accounts) (fun _ => stable_totalPass) (fun key keys nWeight => ?_) vKeys 0
  show Holds (setting Timely) _ (.call (.getAccount .totalWeight key) fun cAccount => .done _) _
  refine Holds.call (M := fun cAccount => TotalPass accounts keys (nWeight + cAccount.nRoundShares))
    (fun _ => stable_totalPass) (fun counting pass _ => pass.read) fun cAccount => ?_
  exact .done stable_totalPass fun _ => id

def CreditRead (accounts : StdString → Prop) (keys : List StdString) (cAccount : Account) (counting : Counting) : Prop :=
  CreditPass accounts keys counting ∧ Current accounts counting.ledger cAccount

theorem stable_creditRead {keys : List StdString} {cAccount : Account} :
    Stable (Accepts Timely) (CreditRead accounts keys cAccount) :=
  stable_of_weighed fun _ read => read.1.allWeighed

theorem CreditRead.update {keys : List StdString} {caller : Caller} {cAccount cRecord : Account}
    (read : CreditRead accounts keys cAccount counting)
    (keeps : cRecord.cKey = cAccount.cKey ∧ cRecord.nRoundShares = cAccount.nRoundShares)
    (silent : (call (.updateAccount caller cRecord) counting).2.ledger = counting.ledger) :
    CreditRead accounts keys cRecord (call (.updateAccount caller cRecord) counting).2 := by
  have current : Current accounts counting.ledger cRecord := by
    rw [Current, keeps.1, keeps.2]
    exact read.2
  refine ⟨read.1.keep (read.1.sound.update current (fun _ => account_perform _ _ _) silent) silent, ?_⟩
  rw [silent]
  exact current

theorem CreditRead.store {keys : List StdString} {caller : Caller} {cAccount cRecord : Account}
    (read : CreditRead accounts keys cAccount counting)
    (keeps : cRecord.cKey = cAccount.cKey ∧ cRecord.nRoundShares = cAccount.nRoundShares)
    (silent : (call (.updateAccount caller cRecord) counting).2.ledger = counting.ledger) :
    CreditPass accounts keys (call (.updateAccount caller cRecord) counting).2 :=
  (read.update keeps silent).1

theorem CreditPass.creditRead {keys : List StdString} (pass : CreditPass accounts (key :: keys) counting) :
    CreditRead accounts keys (counting.databases.account key) (call (.getAccount .creditLoop key) counting).2 := by
  have current := pass.read.sound.current key
  have same : (call (.getAccount .creditLoop key) counting).2.databases.account key = counting.databases.account key :=
    account_perform _ _ _
  exact ⟨pass.read, same ▸ current⟩

theorem holds_settleAccount (outputs : AmountMap) (nTotalWeight nReward : UInt64) (keys : List StdString)
    (credited : Credits × UInt64) :
    Holds (setting Timely) (CreditPass accounts (key :: keys))
      (settleAccount D outputs nTotalWeight nReward credited key) fun _ => CreditPass accounts keys := by
  have deducts (cAccount : Account) : Holds (setting Timely) (CreditRead accounts keys cAccount)
      (deductPayout outputs key cAccount) (CreditRead accounts keys) := by
    unfold deductPayout
    split
    · exact .done stable_creditRead fun _ => id
    · refine Holds.call_glued (M := fun _ => CreditRead accounts keys _) rfl (fun counting read _ => ?_) fun _ =>
        .done stable_creditRead fun _ => id
      exact read.update ⟨rfl, rfl⟩ rfl
  have credits (cAccount : Account) : Holds (setting Timely) (CreditRead accounts keys cAccount)
      (creditAccount D nTotalWeight nReward credited key cAccount) fun _ => CreditPass accounts keys := by
    unfold creditAccount
    split
    · exact .done stable_creditPass fun _ read => read.1
    · refine Holds.call_glued (M := fun _ => CreditPass accounts keys) rfl (fun counting read _ => ?_) fun _ =>
        .done stable_creditPass fun _ => id
      exact read.store ⟨rfl, rfl⟩ rfl
  refine Holds.call (M := CreditRead accounts keys) (fun _ => stable_creditPass)
    (fun counting pass _ => pass.creditRead) fun cAccount => ?_
  exact (deducts cAccount).bind credits

theorem holds_giveRemainder (finder : StdString) (nReward nTotalReward : UInt64) :
    Holds (setting Timely) (CreditPass accounts []) (giveRemainder finder nReward nTotalReward) fun _ =>
      CreditPass accounts [] := by
  rw [giveRemainder]
  split
  · refine Holds.call (M := CreditRead accounts []) (fun _ => stable_creditPass) (fun counting pass _ =>
      ⟨pass.keep (pass.sound.quiet (fun _ => account_perform _ _ _) rfl) rfl, pass.sound.current finder⟩) fun cAccount => ?_
    refine Holds.call_glued (M := fun _ => CreditPass accounts []) rfl (fun counting read _ => ?_) fun _ =>
      .done stable_creditPass fun _ => id
    exact read.store ⟨rfl, rfl⟩ rfl
  · exact .done stable_creditPass fun _ => id

theorem holds_creditAccounts (round : Round D) (nReward : UInt64) :
    Holds (setting Timely) (Untouched accounts) (creditAccounts round nReward) fun _ => CreditPass accounts [] := by
  refine (holds_creditFinder _ _).bind fun finder => holds_totalWeight.bind fun nTotalWeight => ?_
  refine Holds.call (M := CreditPass accounts) (fun _ => stable_totalPass) (fun counting pass _ => pass.creditPass)
    fun vKeys => ?_
  have loop := Holds.foldlM (I := fun keys _ => CreditPass accounts keys) (fun _ => stable_creditPass)
    (fun key keys credited => holds_settleAccount (D := D) round.cGlobalCoinbase.mapOutputs nTotalWeight finder.2 keys
      credited) vKeys (finder.1, 0)
  exact loop.bind fun settled => (holds_giveRemainder _ _ _).bind fun _ => .done stable_creditPass fun _ => id

omit [Double D] in
theorem holds_commitBlock (round : Round D) (cCredits : Credits) :
    Holds (setting Timely) (CreditPass accounts []) (commitBlock round cCredits) fun _ => CreditPass accounts [] := by
  refine Holds.call (M := fun _ => CreditPass accounts []) (fun _ => stable_creditPass) (fun counting pass _ =>
    pass.keep (pass.sound.quiet (fun _ => rfl) rfl) rfl) fun _ => ?_
  refine Holds.call (M := fun _ => CreditPass accounts []) (fun _ => stable_creditPass) (fun counting pass _ =>
    pass.keep (pass.sound.quiet (fun _ => rfl) rfl) rfl) fun _ => ?_
  exact Holds.call (M := fun _ => CreditPass accounts []) (fun _ => stable_creditPass) (fun counting pass _ =>
    pass.keep (pass.sound.quiet (fun _ => rfl) rfl) rfl) fun _ => .done stable_creditPass fun _ => id

def ClearRead (accounts : StdString → Prop) (key : StdString) (keys : List StdString) (cAccount : Account)
    (counting : Counting) : Prop :=
  ClearPass accounts (key :: keys) counting ∧ counting.databases.account key = cAccount

theorem holds_clearShares :
    Holds (setting Timely) (CreditPass accounts []) clearShares fun _ => ClearPass accounts [] := by
  refine Holds.call (M := ClearPass accounts) (fun _ => stable_creditPass) (fun counting pass _ => pass.clearPass)
    fun vKeys => ?_
  refine Holds.foldlM (I := fun keys _ => ClearPass accounts keys) (fun _ => stable_clearPass)
    (fun key keys _ => ?_) vKeys ()
  refine Holds.call (M := ClearRead accounts key keys) (fun _ => stable_clearPass) (fun counting pass _ =>
    ⟨{ pass with sound := pass.sound.quiet (fun _ => account_perform _ _ _) rfl }, account_perform _ _ _⟩)
    fun cAccount => ?_
  refine Holds.call_glued (M := fun _ => ClearPass accounts keys) rfl ?_ fun _ => .done stable_clearPass fun _ => id
  rintro counting ⟨pass, rfl⟩ -
  exact pass.clear

theorem holds_newRound (round : Round D) :
    Holds (setting Timely) (Untouched accounts) (newRound round) fun _ => ClearPass accounts [] := by
  rw [newRound, updateBalances_eq]
  refine Holds.bind (Holds.bind (holds_creditAccounts round _) fun cCredits => holds_commitBlock round cCredits) ?_
  exact fun _ => holds_clearShares

structure Opening (counting : Counting) : Prop where
  filed : ∀ key, (counting.databases.account key).cKey = key ∨ (counting.databases.account key).cKey = []
  shares : ∀ share ∈ counting.ledger.shares, share.kept ∧ LoggedIn counting.databases share.ADDRESS
  rounds : ∀ key, (counting.databases.account key).nRoundShares = weigh (Share.pending key) counting.ledger.shares
  weighed : counting.ledger.weighed = []
  total : counting.ledger.nTotalWeight = 0
  own : counting.ledger.own = fun _ => 0

theorem Opening.untouched (opening : Opening counting) : Untouched (LoggedIn counting.databases) counting where
  sound :=
    { filed := opening.filed
      members := fun _ => Iff.rfl
      shares := fun share member => (opening.shares share member).2
      rounds := opening.rounds }
  shares share member := (opening.shares share member).1
  weighed := opening.weighed
  total := opening.total
  own := opening.own

theorem ClearPass.settledOnce (pass : ClearPass accounts [] counting) : SettledOnce counting := by
  have once : ∀ share ∈ counting.ledger.shares, share.settled ∨ share.kept :=
    fun share member => by simpa using pass.shares share member
  have tags (share : Share) (member : share ∈ counting.ledger.shares) :
      share.inTotal = share.settled ∧ share.inOwn = share.settled ∧ (!share.cleared) = share.kept := by
    obtain ⟨ADDRESS, nWeight, inTotal, inOwn, cleared⟩ := share
    have settledOrKept := once _ member
    cases inTotal <;> cases inOwn <;> cases cleared <;> simp_all [Share.settled, Share.kept]
  refine ⟨once, ?_, fun key => ?_, fun key cAccount found => ?_⟩
  · exact pass.total.trans (weigh_congr fun share member => (tags share member).1)
  · refine (pass.own key).trans (weigh_congr fun share member => ?_)
    rw [(tags share member).2.1]
  · rw [← Databases.account_of_getElem? found, pass.sound.rounds]
    refine weigh_congr fun share member => ?_
    rw [Share.pending, (tags share member).2.2]

/-- When no share is accepted between the weighing and the clearing of its account, every share is counted
once. -/
theorem settled_once {round : Round D} (opening : Opening counting)
    (steps : InterleavedRun (setting Timely) (newRound round, counting) (.done (), after)) : SettledOnce after :=
  (holds_newRound round counting opening.untouched _ steps () rfl).settledOnce

/-! ## A share that lands between the passes -/

def firstRound : Round Float where
  lfPoolFee := 0.02
  cGlobalCoinbase := .new
  nRoundReward := 1000000
  hashBlockSubmission := orphanHash
  LAST_ROUND_BLOCKFINDER := minerAddress
  nCurrentRound := 1

def noShares : Counting where
  databases := atRest
  ledger := { shares := [], nTotalWeight := 0, own := fun _ => 0, weighed := [] }

theorem opening_noShares : Opening noShares where
  filed := Databases.account_cases (P := fun key cAccount => cAccount.cKey = key ∨ cAccount.cKey = [])
    (fun _ => Or.inr rfl) (by decide +kernel)
  shares share member := absurd member List.not_mem_nil
  rounds := Databases.account_cases (P := fun _ cAccount => cAccount.nRoundShares = 0) (fun _ => rfl) (by decide +kernel)
  weighed := rfl
  total := rfl
  own := rfl

def accept (nWeight : UInt64) (counting : Counting) : Counting where
  databases := (run perform (acceptShare minerAddress nWeight) counting.databases).2
  ledger := { counting.ledger with shares := .accepted minerAddress nWeight :: counting.ledger.shares }

theorem interleaved_accept {timely : Counting → StdString → Prop} {p : DatabaseProgram Unit} (nWeight : UInt64)
    (free : Interruptible (setting timely) p) (loggedIn : LoggedIn counting.databases minerAddress)
    (time : timely counting minerAddress) :
    InterleavedRun (setting timely) (p, counting) (p, accept nWeight counting) :=
  .single (.environment free (.share minerAddress nWeight loggedIn time))

theorem interleaved_alone {timely : Counting → StdString → Prop} (n : Nat) {p p' : DatabaseProgram Unit}
    (rest : (progress call n (p, counting)).1 = p') :
    InterleavedRun (setting timely) (p, counting) (p', (progress call n (p, counting)).2) := by
  rw [← rest]
  apply InterleavedRun.progress
  intro i _
  unfold AllowedNext
  split <;> trivial

theorem noShares_settled_once :
    SettledOnce (progress call 14 (newRound firstRound, accept 10 noShares)).2 :=
  settled_once opening_noShares
    ((interleaved_accept 10 (by decide +kernel) (by decide +kernel) (show minerAddress ∉ [] by decide)).trans
      (interleaved_alone 14 (Program.eq_done (by decide +kernel))))

theorem noShares_not_settled_once :
    ¬ ∀ (round : Round Float) (counting after : Counting), Opening counting →
      InterleavedRun (setting fun _ _ => True) (newRound round, counting) (.done (), after) → SettledOnce after := by
  intro settledOnce
  let weighed := progress call 4 (newRound firstRound, accept 10 noShares)
  let final := progress call 10 (weighed.1, accept 5 weighed.2)
  have before : InterleavedRun (setting fun _ _ => True) (newRound firstRound, noShares)
      (newRound firstRound, accept 10 noShares) :=
    interleaved_accept 10 (by decide +kernel) (by decide +kernel) trivial
  have between : InterleavedRun (setting fun _ _ => True) weighed (weighed.1, accept 5 weighed.2) :=
    interleaved_accept 5 (by decide +kernel) (by decide +kernel) trivial
  have run := ((before.trans (interleaved_alone 4 rfl)).trans between).trans
    (interleaved_alone 10 (Program.eq_done (by decide +kernel)))
  have once := (settledOnce firstRound noShares final.2 opening_noShares run).once
  have late : ∃ share ∈ final.2.ledger.shares, share.inOwn ∧ ¬ share.inTotal ∧ share.cleared := by decide +kernel
  obtain ⟨share, member, own, total, -⟩ := late
  rcases once share member with settled | kept
  · simp [Share.settled, total] at settled
  · simp [Share.kept, own] at kept

end Counting

end PrimePool.Core

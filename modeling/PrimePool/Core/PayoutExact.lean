import Mathlib.Algebra.Order.BigOperators.Group.List
import Mathlib.Algebra.Order.Group.Nat
import PrimePool.CoinbaseAmounts
import PrimePool.Core.Reward

/-!
# When the payout coinbase is exact

The coinbase is meant to pay the accounts their balances, the highest first, until the reward is used up,
and to give the block finder what is left. The handler follows the sign of amounts that were narrowed to
`int`, so it does so only for some amounts.
-/

namespace PrimePool.Core

open PrimePool.General PrimePool.LLD Std

/-! ## Payments -/

def payments (AccountDB : Records StdString Account) (vAccounts : List StdString) : List (StdString × UInt64) :=
  (vAccounts.map fun account => (account, balanceOf AccountDB account)).filter fun payment => payment.2 > 0

def addPayments : List (StdString × UInt64) → Coinbase → Coinbase
  | [], coinbase => coinbase
  | (account, nAccountBalance) :: rest, coinbase =>
      let (nValue, coinbase) := coinbase.addTransaction account nAccountBalance
      if nValue < 0 then (coinbase.addTransaction account (nAccountBalance + widenInt nValue)).2
      else addPayments rest coinbase

theorem addPayouts_eq (AccountDB : Records StdString Account) (vAccounts : List StdString) (coinbase : Coinbase) :
    addPayouts AccountDB vAccounts coinbase = addPayments (payments AccountDB vAccounts) coinbase := by
  induction vAccounts generalizing coinbase with
  | nil => rfl
  | cons account vAccounts ih =>
      rw [addPayouts, payments, List.map_cons, List.filter_cons]
      by_cases positive : balanceOf AccountDB account > 0
      · simp only [positive, if_true, decide_true, addPayments, ih]
        rfl
      · simp only [positive, if_false, decide_false, Bool.false_eq_true, ih]
        rfl

theorem mem_payments {AccountDB : Records StdString Account} {vAccounts : List StdString}
    {payment : StdString × UInt64} (member : payment ∈ payments AccountDB vAccounts) :
    payment.1 ∈ vAccounts ∧ payment.2 = balanceOf AccountDB payment.1 ∧ 0 < payment.2 := by
  obtain ⟨member, positive⟩ := List.mem_filter.mp member
  obtain ⟨account, listed, rfl⟩ := List.mem_map.mp member
  exact ⟨listed, rfl, of_decide_eq_true positive⟩

theorem nodup_payments {AccountDB : Records StdString Account} {vAccounts : List StdString}
    (sorted : SortedAccounts AccountDB vAccounts) : ((payments AccountDB vAccounts).map Prod.fst).Nodup := by
  have once : vAccounts.Nodup := sorted.1.nodup_iff.mpr ExtTreeMap.nodup_keys
  have keys : (payments AccountDB vAccounts).map Prod.fst =
      vAccounts.filter fun account => balanceOf AccountDB account > 0 := by
    rw [payments, List.filter_map, List.map_map]
    exact List.map_id _
  rw [keys]
  exact once.filter _

/-! ## What the coinbase is meant to pay -/

/-- What is paid to an address when `left` is divided: each account before the cut-off gets its balance,
the account at the cut-off the rest, and the finder what is left when all are paid. -/
def fairShare (finder : StdString) : List (StdString × UInt64) → Nat → StdString → Nat
  | [], left, key => if key = finder then left else 0
  | (account, nAccountBalance) :: rest, left, key =>
      if nAccountBalance.toNat ≤ left then
        (if key = account then nAccountBalance.toNat else 0) +
          fairShare finder rest (left - nAccountBalance.toNat) key
      else
        if key = account then left else 0

/-! ## What the handler can see of an amount -/

/-- An excess that `AddTransaction` returns as a negative `int`. -/
def Noticed (excess : Nat) : Prop := 1 ≤ excess % 2 ^ 32 ∧ excess % 2 ^ 32 ≤ 2 ^ 31

instance (excess : Nat) : Decidable (Noticed excess) := inferInstanceAs (Decidable (_ ∧ _))

def PassedOver : List (StdString × UInt64) → Nat → Prop
  | [], _ => True
  | (_, nAccountBalance) :: rest, left =>
      left < nAccountBalance.toNat ∧
        if Noticed (nAccountBalance.toNat - left) then 2 ^ 32 ≤ nAccountBalance.toNat - left
        else PassedOver rest left

/-- The amounts for which the handler pays what it is meant to. -/
def ExactPayout (finder : StdString) : List (StdString × UInt64) → Nat → Prop
  | [], left => left < 2 ^ 31
  | (account, nAccountBalance) :: rest, left =>
      if nAccountBalance.toNat ≤ left then
        let left := left - nAccountBalance.toNat
        if left % 2 ^ 32 < 2 ^ 31 then
          ExactPayout finder rest left
        else
          -- taken for an excess: the account is paid a second time, which is right for the finder alone
          let next := (left / 2 ^ 32 + 1) * 2 ^ 32
          rest = [] ∧ account = finder ∧ nAccountBalance.toNat ≤ next ∧ next - nAccountBalance.toNat < 2 ^ 31
      else
        let excess := nAccountBalance.toNat - left
        left = 0 ∨ excess ≤ 2 ^ 31 ∨
          -- the account at the cut-off gets nothing, unless it is the finder that gets the bonus
          account = finder ∧ left < 2 ^ 31 ∧ (Noticed excess ∨ PassedOver rest left)

/-! ## The bonus -/

variable (finder account : StdString) {coinbase : Coinbase} {nAccountBalance : UInt64}

theorem toNat_widenInt_getRemainder (current : coinbase.nCurrentValue.toNat ≤ coinbase.nMaxValue.toNat) :
    (widenInt coinbase.getRemainder).toNat =
      if coinbase.remaining % 2 ^ 32 < 2 ^ 31 then coinbase.remaining % 2 ^ 32
      else 2 ^ 64 - 2 ^ 32 + coinbase.remaining % 2 ^ 32 := by
  rw [Coinbase.getRemainder, toNat_widenInt_narrowInt,
    UInt64.toNat_sub_of_le _ _ (UInt64.le_iff_toNat_le.mpr current), Coinbase.remaining]

theorem addBonus_of_lt (sound : coinbase.Sound) (small : coinbase.remaining < 2 ^ 31) :
    (addBonus finder coinbase).Sound ∧ (addBonus finder coinbase).isComplete = true ∧
      ∀ key, (addBonus finder coinbase).mapOutputs.amount key =
        coinbase.mapOutputs.amount key + if key = finder then coinbase.remaining else 0 := by
  rw [addBonus]
  split
  · rename_i complete
    have nothing := (Coinbase.isComplete_iff sound.current).mp complete
    exact ⟨sound, complete, fun key => by simp [nothing]⟩
  · have value := toNat_widenInt_getRemainder sound.current
    rw [Nat.mod_eq_of_lt (by omega), if_pos small] at value
    have fits : (widenInt coinbase.getRemainder).toNat ≤ coinbase.remaining := by omega
    obtain ⟨left, -, added⟩ := Coinbase.addTransaction_of_le finder sound.current fits
    obtain ⟨sound', remaining, amounts⟩ := sound.addOutput finder fits
    rw [added]
    rw [value] at amounts
    refine ⟨sound', (Coinbase.isComplete_iff sound'.current).mpr ?_, amounts⟩
    rw [remaining, value, Nat.sub_self]

theorem addBonus_of_le (current : coinbase.nCurrentValue.toNat ≤ coinbase.nMaxValue.toNat)
    (max : coinbase.nMaxValue.toNat < 2 ^ 63) (large : 2 ^ 31 ≤ coinbase.remaining) :
    (addBonus finder coinbase).isComplete = false := by
  have incomplete : coinbase.isComplete = false := by
    rw [Bool.eq_false_iff, ne_eq, Coinbase.isComplete_iff current]
    omega
  have value := toNat_widenInt_getRemainder current
  rw [addBonus, incomplete, if_neg Bool.false_ne_true]
  split at value
  · have fits : (widenInt coinbase.getRemainder).toNat ≤ coinbase.remaining := by omega
    obtain ⟨left, -, added⟩ := Coinbase.addTransaction_of_le finder current fits
    rw [added, Coinbase.isComplete, beq_eq_false_iff_ne, ne_eq, ← UInt64.toNat_inj]
    rw [Coinbase.remaining] at *
    simp only [Coinbase.addOutput, UInt64.toNat_add]
    omega
  · have negative : 2 ^ 64 - 2 ^ 31 ≤ (widenInt coinbase.getRemainder).toNat := by omega
    obtain ⟨less, same⟩ := Coinbase.addTransaction_of_negative finder current max negative
    rw [Coinbase.isComplete, beq_eq_false_iff_ne, ne_eq, ← UInt64.toNat_inj, same]
    rw [Coinbase.remaining] at large
    omega

/-! ## One account -/

theorem toNat_corrected (nAccountBalance left : UInt64) :
    (nAccountBalance + widenInt (narrowInt left)).toNat =
      (nAccountBalance.toNat + if left.toNat % 2 ^ 32 < 2 ^ 31 then left.toNat % 2 ^ 32
        else 2 ^ 64 - 2 ^ 32 + left.toNat % 2 ^ 32) % 2 ^ 64 := by
  rw [UInt64.toNat_add, toNat_widenInt_narrowInt]

theorem addBonus_corrected (left : UInt64) (sound : coinbase.Sound) (remaining : left.toNat = coinbase.remaining)
    (misread : 2 ^ 31 ≤ coinbase.remaining % 2 ^ 32) (small : nAccountBalance.toNat < 2 ^ 63) :
    let paid := addBonus finder
      (coinbase.addTransaction account (nAccountBalance + widenInt (narrowInt left))).2
    let next := (coinbase.remaining / 2 ^ 32 + 1) * 2 ^ 32
    if nAccountBalance.toNat ≤ next ∧ next - nAccountBalance.toNat < 2 ^ 31 then
      paid.Sound ∧ paid.isComplete = true ∧ ∀ key, paid.mapOutputs.amount key =
        coinbase.mapOutputs.amount key +
          (if key = account then coinbase.remaining - (next - nAccountBalance.toNat) else 0) +
          if key = finder then next - nAccountBalance.toNat else 0
    else paid.isComplete = false := by
  intro paid next
  have value := toNat_corrected nAccountBalance left
  rw [remaining, if_neg (by omega)] at value
  have bound : coinbase.remaining < 2 ^ 63 := by
    have max := sound.max
    rw [Coinbase.remaining]
    omega
  have step : next = coinbase.remaining + (2 ^ 32 - coinbase.remaining % 2 ^ 32) := by omega
  by_cases under : nAccountBalance.toNat < 2 ^ 32 - coinbase.remaining % 2 ^ 32
  · -- the second payment is negative and changes nothing that the bonus could make up for
    rw [if_neg (by omega)]
    have negative : 2 ^ 64 - 2 ^ 31 ≤ (nAccountBalance + widenInt (narrowInt left)).toNat := by omega
    obtain ⟨less, same⟩ := Coinbase.addTransaction_of_negative account sound.current sound.max negative
    apply addBonus_of_le
    · rw [same]
      exact Nat.le_trans less sound.current
    · rw [same]
      exact sound.max
    · have large : 2 ^ 31 ≤ coinbase.remaining := by omega
      rw [Coinbase.remaining] at large ⊢
      rw [same]
      omega
  · -- the account is paid a second time, and the bonus is the rest up to `next`
    have amount : (nAccountBalance + widenInt (narrowInt left)).toNat =
        nAccountBalance.toNat - (2 ^ 32 - coinbase.remaining % 2 ^ 32) := by omega
    have current := sound.current
    have max := sound.max
    by_cases fits : nAccountBalance.toNat ≤ next
    · have fits' : (nAccountBalance + widenInt (narrowInt left)).toNat ≤ coinbase.remaining := by omega
      obtain ⟨_, -, added⟩ := Coinbase.addTransaction_of_le account current fits'
      obtain ⟨sound', remaining', amounts⟩ := sound.addOutput account fits'
      have rest : (coinbase.addOutput account (nAccountBalance + widenInt (narrowInt left))).remaining =
          next - nAccountBalance.toNat := by omega
      have same : paid = addBonus finder
          (coinbase.addOutput account (nAccountBalance + widenInt (narrowInt left))) := by
        simp only [paid, added]
      rw [same]
      by_cases close : next - nAccountBalance.toNat < 2 ^ 31
      · rw [if_pos ⟨fits, close⟩]
        obtain ⟨sound'', complete, bonus⟩ := addBonus_of_lt finder sound' (rest ▸ close)
        refine ⟨sound'', complete, fun key => ?_⟩
        have second : (nAccountBalance + widenInt (narrowInt left)).toNat =
            coinbase.remaining - (next - nAccountBalance.toNat) := by omega
        rw [bonus, amounts, rest, second]
      · rw [if_neg fun both => close both.2]
        exact addBonus_of_le finder sound'.current sound'.max (by omega)
    · rw [if_neg fun both => fits both.1]
      have exceeds : coinbase.remaining < (nAccountBalance + widenInt (narrowInt left)).toNat := by omega
      obtain ⟨_, -, refused⟩ := Coinbase.addTransaction_of_gt account current exceeds (by omega)
      simp only [paid, refused]
      exact addBonus_of_le finder current max (by omega)

theorem addBonus_cut {left : UInt64} (sound : coinbase.Sound)
    (exceeds : coinbase.remaining < nAccountBalance.toNat)
    (remaining : left.toNat = 2 ^ 64 - (nAccountBalance.toNat - coinbase.remaining))
    (noticed : Noticed (nAccountBalance.toNat - coinbase.remaining)) (small : nAccountBalance.toNat < 2 ^ 63) :
    let paid := addBonus finder
      (coinbase.addTransaction account (nAccountBalance + widenInt (narrowInt left))).2
    if nAccountBalance.toNat - coinbase.remaining ≤ 2 ^ 31 then
      paid.Sound ∧ paid.isComplete = true ∧ ∀ key, paid.mapOutputs.amount key =
        coinbase.mapOutputs.amount key + if key = account then coinbase.remaining else 0
    else paid = addBonus finder coinbase := by
  intro paid
  have current := sound.current
  have max := sound.max
  have value := toNat_corrected nAccountBalance left
  obtain ⟨positive, half⟩ := noticed
  rw [remaining, if_neg (by omega)] at value
  split
  · rename_i within
    -- the second payment is what remains
    have cut : (nAccountBalance + widenInt (narrowInt left)).toNat = coinbase.remaining := by omega
    obtain ⟨_, -, added⟩ := Coinbase.addTransaction_of_le account current (Nat.le_of_eq cut)
    obtain ⟨sound', remaining', amounts⟩ := sound.addOutput account (Nat.le_of_eq cut)
    have complete := (Coinbase.isComplete_iff sound'.current).mpr (by omega)
    have same : paid = coinbase.addOutput account (nAccountBalance + widenInt (narrowInt left)) := by
      simp only [paid, added, addBonus, complete, if_true]
    rw [same]
    exact ⟨sound', complete, fun key => by rw [amounts, cut]⟩
  · rename_i beyond
    -- the excess wraps around in the `int`, and the second payment is refused like the first
    have exceeds' : coinbase.remaining < (nAccountBalance + widenInt (narrowInt left)).toNat := by omega
    have bound := coinbase.nCurrentValue.toNat_lt
    obtain ⟨_, -, refused⟩ := Coinbase.addTransaction_of_gt account current exceeds' (by omega)
    simp only [paid, refused]

/-! ## The loop -/

theorem addPayments_cons_of_le (rest : List (StdString × UInt64)) (sound : coinbase.Sound)
    (fits : nAccountBalance.toNat ≤ coinbase.remaining) :
    ∃ left : UInt64, left.toNat = coinbase.remaining - nAccountBalance.toNat ∧
      addPayments ((account, nAccountBalance) :: rest) coinbase =
        let paid := coinbase.addOutput account nAccountBalance
        if (coinbase.remaining - nAccountBalance.toNat) % 2 ^ 32 < 2 ^ 31 then addPayments rest paid
        else (paid.addTransaction account (nAccountBalance + widenInt (narrowInt left))).2 := by
  obtain ⟨left, value, added⟩ := Coinbase.addTransaction_of_le account sound.current fits
  refine ⟨left, value, ?_⟩
  have sign := narrowInt_neg_iff left
  rw [value] at sign
  simp only [addPayments, added, sign]
  split
  · rw [if_neg (by omega)]
  · rw [if_pos (by omega)]

theorem addPayments_cons_of_gt (rest : List (StdString × UInt64)) (sound : coinbase.Sound)
    (exceeds : coinbase.remaining < nAccountBalance.toNat) (small : nAccountBalance.toNat < 2 ^ 63) :
    ∃ left : UInt64, left.toNat = 2 ^ 64 - (nAccountBalance.toNat - coinbase.remaining) ∧
      addPayments ((account, nAccountBalance) :: rest) coinbase =
        if Noticed (nAccountBalance.toNat - coinbase.remaining) then
          (coinbase.addTransaction account (nAccountBalance + widenInt (narrowInt left))).2
        else addPayments rest coinbase := by
  have max := sound.max
  have current := sound.current
  obtain ⟨left, value, refused⟩ := Coinbase.addTransaction_of_gt account current exceeds (by omega)
  refine ⟨left, value, ?_⟩
  have sign := narrowInt_neg_iff left
  rw [value] at sign
  have bound : nAccountBalance.toNat - coinbase.remaining < 2 ^ 63 := by omega
  simp only [addPayments, refused, sign]
  by_cases noticed : Noticed (nAccountBalance.toNat - coinbase.remaining)
  · obtain ⟨positive, half⟩ := noticed
    rw [if_pos (by omega), if_pos ⟨positive, half⟩]
  · have unseen : ¬ (1 ≤ (nAccountBalance.toNat - coinbase.remaining) % 2 ^ 32 ∧
        (nAccountBalance.toNat - coinbase.remaining) % 2 ^ 32 ≤ 2 ^ 31) := noticed
    rw [if_neg (by omega), if_neg noticed]

def payOut (finder : StdString) (rest : List (StdString × UInt64)) (coinbase : Coinbase) : Coinbase :=
  addBonus finder (addPayments rest coinbase)

def Small (rest : List (StdString × UInt64)) : Prop := ∀ payment ∈ rest, payment.2.toNat < 2 ^ 63

theorem addBonus_grows (sound : coinbase.Sound) (complete : (addBonus finder coinbase).isComplete = true) :
    (addBonus finder coinbase).Sound ∧
      ∀ key, coinbase.mapOutputs.amount key ≤ (addBonus finder coinbase).mapOutputs.amount key := by
  by_cases fits : coinbase.remaining < 2 ^ 31
  · obtain ⟨sound', -, amounts⟩ := addBonus_of_lt finder sound fits
    refine ⟨sound', fun key => ?_⟩
    rw [amounts]
    exact Nat.le_add_right _ _
  · have incomplete := addBonus_of_le finder sound.current sound.max (Nat.le_of_not_lt fits)
    rw [incomplete] at complete
    cases complete

theorem payOut_grows {rest : List (StdString × UInt64)} (small : Small rest) (sound : coinbase.Sound)
    (complete : (payOut finder rest coinbase).isComplete = true) :
    (payOut finder rest coinbase).Sound ∧
      ∀ key, coinbase.mapOutputs.amount key ≤ (payOut finder rest coinbase).mapOutputs.amount key := by
  induction rest generalizing coinbase with
  | nil => exact addBonus_grows finder sound complete
  | cons payment rest ih =>
      obtain ⟨account, nAccountBalance⟩ := payment
      have own : nAccountBalance.toNat < 2 ^ 63 := small _ List.mem_cons_self
      have others : Small rest := fun payment member => small payment (List.mem_cons_of_mem _ member)
      rw [payOut] at complete ⊢
      by_cases fits : nAccountBalance.toNat ≤ coinbase.remaining
      · obtain ⟨left, value, next⟩ := addPayments_cons_of_le account rest sound fits
        obtain ⟨sound', remaining, amounts⟩ := sound.addOutput account fits
        rw [next] at complete ⊢
        have grown (key : StdString) : coinbase.mapOutputs.amount key ≤
            (coinbase.addOutput account nAccountBalance).mapOutputs.amount key := by
          rw [amounts]
          exact Nat.le_add_right _ _
        by_cases read : (coinbase.remaining - nAccountBalance.toNat) % 2 ^ 32 < 2 ^ 31
        · simp only [read, if_true] at complete ⊢
          obtain ⟨sound'', more⟩ := ih others sound' complete
          exact ⟨sound'', fun key => Nat.le_trans (grown key) (more key)⟩
        · simp only [read, if_false] at complete ⊢
          have corrected := addBonus_corrected finder account left sound'
            (value.trans remaining.symm) (by omega) own
          simp only at corrected
          split at corrected
          · obtain ⟨sound'', -, more⟩ := corrected
            refine ⟨sound'', fun key => Nat.le_trans (grown key) ?_⟩
            rw [more]
            omega
          · rw [corrected] at complete
            cases complete
      · have exceeds := Nat.lt_of_not_le fits
        obtain ⟨left, value, next⟩ := addPayments_cons_of_gt account rest sound exceeds own
        rw [next] at complete ⊢
        by_cases noticed : Noticed (nAccountBalance.toNat - coinbase.remaining)
        · simp only [noticed, if_true] at complete ⊢
          have cut := addBonus_cut finder account sound exceeds value noticed own
          simp only at cut
          split at cut
          · obtain ⟨sound', -, more⟩ := cut
            exact ⟨sound', fun key => by rw [more]; exact Nat.le_add_right _ _⟩
          · rw [cut] at complete ⊢
            exact addBonus_grows finder sound complete
        · simp only [noticed, if_false] at complete ⊢
          exact ih others sound complete

theorem payOut_of_full {rest : List (StdString × UInt64)} (small : Small rest)
    (positive : ∀ payment ∈ rest, 0 < payment.2.toNat) (sound : coinbase.Sound) (full : coinbase.remaining = 0) :
    (payOut finder rest coinbase).isComplete = true ∧
      ∀ key, (payOut finder rest coinbase).mapOutputs.amount key = coinbase.mapOutputs.amount key := by
  have done := (Coinbase.isComplete_iff sound.current).mpr full
  have bonus : addBonus finder coinbase = coinbase := by rw [addBonus, if_pos done]
  induction rest with
  | nil => simp [payOut, addPayments, bonus, done]
  | cons payment rest ih =>
      obtain ⟨account, nAccountBalance⟩ := payment
      have own : nAccountBalance.toNat < 2 ^ 63 := small _ List.mem_cons_self
      have exceeds : coinbase.remaining < nAccountBalance.toNat := by
        rw [full]
        exact positive _ List.mem_cons_self
      obtain ⟨left, value, next⟩ := addPayments_cons_of_gt account rest sound exceeds own
      rw [payOut, next]
      by_cases noticed : Noticed (nAccountBalance.toNat - coinbase.remaining)
      · have cut := addBonus_cut finder account sound exceeds value noticed own
        simp only at cut
        rw [if_pos noticed]
        split at cut
        · exact ⟨cut.2.1, fun key => by rw [cut.2.2, full]; simp⟩
        · rw [cut, bonus]
          exact ⟨done, fun _ => rfl⟩
      · rw [if_neg noticed]
        exact ih (fun payment member => small payment (List.mem_cons_of_mem _ member))
          fun payment member => positive payment (List.mem_cons_of_mem _ member)

theorem payOut_of_passedOver {rest : List (StdString × UInt64)} (small : Small rest) (sound : coinbase.Sound)
    (passed : PassedOver rest coinbase.remaining) : payOut finder rest coinbase = addBonus finder coinbase := by
  induction rest with
  | nil => rfl
  | cons payment rest ih =>
      obtain ⟨account, nAccountBalance⟩ := payment
      obtain ⟨exceeds, later⟩ := passed
      have own : nAccountBalance.toNat < 2 ^ 63 := small _ List.mem_cons_self
      obtain ⟨left, value, next⟩ := addPayments_cons_of_gt account rest sound exceeds own
      rw [payOut, next]
      by_cases noticed : Noticed (nAccountBalance.toNat - coinbase.remaining)
      · rw [if_pos noticed] at later ⊢
        have cut := addBonus_cut finder account sound exceeds value noticed own
        simp only at cut
        rw [if_neg (by omega)] at cut
        exact cut
      · rw [if_neg noticed] at later ⊢
        exact ih (fun payment member => small payment (List.mem_cons_of_mem _ member)) later

theorem exists_paid_of_not_passedOver {rest : List (StdString × UInt64)} (small : Small rest)
    (positive : ∀ payment ∈ rest, 0 < payment.2.toNat) (sound : coinbase.Sound) (some : 0 < coinbase.remaining)
    (paid : ¬ PassedOver rest coinbase.remaining) (complete : (payOut finder rest coinbase).isComplete = true) :
    ∃ payment ∈ rest, coinbase.mapOutputs.amount payment.1 <
      (payOut finder rest coinbase).mapOutputs.amount payment.1 := by
  induction rest with
  | nil => exact absurd trivial paid
  | cons payment rest ih =>
      obtain ⟨account, nAccountBalance⟩ := payment
      have own : nAccountBalance.toNat < 2 ^ 63 := small _ List.mem_cons_self
      have others : Small rest := fun payment member => small payment (List.mem_cons_of_mem _ member)
      by_cases fits : nAccountBalance.toNat ≤ coinbase.remaining
      · refine ⟨(account, nAccountBalance), List.mem_cons_self, ?_⟩
        have more : 0 < nAccountBalance.toNat := positive (account, nAccountBalance) List.mem_cons_self
        obtain ⟨left, value, next⟩ := addPayments_cons_of_le account rest sound fits
        obtain ⟨sound', remaining, amounts⟩ := sound.addOutput account fits
        have first := amounts account
        rw [if_pos rfl] at first
        rw [payOut, next] at complete ⊢
        by_cases read : (coinbase.remaining - nAccountBalance.toNat) % 2 ^ 32 < 2 ^ 31
        · simp only [read, if_true] at complete ⊢
          have grown := (payOut_grows finder others sound' complete).2 account
          rw [payOut] at grown
          omega
        · simp only [read, if_false] at complete ⊢
          have corrected := addBonus_corrected finder account left sound'
            (value.trans remaining.symm) (by omega) own
          simp only at corrected
          split at corrected
          · rw [corrected.2.2 account]
            omega
          · rw [corrected] at complete
            cases complete
      · have exceeds := Nat.lt_of_not_le fits
        obtain ⟨left, value, next⟩ := addPayments_cons_of_gt account rest sound exceeds own
        rw [PassedOver] at paid
        rw [payOut, next] at complete ⊢
        by_cases noticed : Noticed (nAccountBalance.toNat - coinbase.remaining)
        · rw [if_pos noticed] at complete ⊢ paid
          have cut := addBonus_cut finder account sound exceeds value noticed own
          obtain ⟨positive, half⟩ := noticed
          simp only at cut
          rw [if_pos (by omega)] at cut
          refine ⟨(account, nAccountBalance), List.mem_cons_self, ?_⟩
          have grown := cut.2.2 account
          rw [if_pos rfl] at grown
          dsimp only
          omega
        · rw [if_neg noticed] at complete ⊢ paid
          obtain ⟨payment, member, grown⟩ := ih others
            (fun payment member => positive payment (List.mem_cons_of_mem _ member))
            (fun passed => paid ⟨exceeds, passed⟩) complete
          exact ⟨payment, List.mem_cons_of_mem _ member, grown⟩

/-! ## The exact condition -/

def PaysFairly (finder : StdString) (rest : List (StdString × UInt64)) (coinbase : Coinbase) : Prop :=
  (payOut finder rest coinbase).isComplete = true ∧
    ∀ key, (payOut finder rest coinbase).mapOutputs.amount key =
      coinbase.mapOutputs.amount key + fairShare finder rest coinbase.remaining key

theorem fairShare_of_stranger {rest : List (StdString × UInt64)} {left : Nat} {key : StdString}
    (unlisted : key ∉ rest.map Prod.fst) (other : key ≠ finder) : fairShare finder rest left key = 0 := by
  induction rest generalizing left with
  | nil => simp [fairShare, other]
  | cons payment rest ih =>
      simp only [List.map_cons, List.mem_cons, not_or] at unlisted
      simp [fairShare, unlisted.1, ih unlisted.2]

theorem fairShare_head_pos {rest : List (StdString × UInt64)} {left : Nat} (some : 0 < left)
    (positive : 0 < nAccountBalance.toNat) :
    0 < fairShare finder ((account, nAccountBalance) :: rest) left account := by
  rw [fairShare]
  split
  · rw [if_pos rfl]
    omega
  · rwa [if_pos rfl]

theorem second_payment_fair_iff {rest : List (StdString × UInt64)} (second bonus : Nat)
    (positive : ∀ payment ∈ rest, 0 < payment.2.toNat) (unlisted : account ∉ rest.map Prod.fst) (some : 0 < second) :
    (∀ key, (if key = account then second else 0) + (if key = finder then bonus else 0) =
        fairShare finder rest (second + bonus) key) ↔ rest = [] ∧ account = finder := by
  constructor
  · intro fair
    have own : account = finder := by
      by_contra other
      have nothing := fair account
      rw [if_pos rfl, if_neg other, fairShare_of_stranger finder unlisted other] at nothing
      omega
    refine ⟨?_, own⟩
    cases rest with
    | nil => rfl
    | cons payment rest =>
        obtain ⟨first, amount⟩ := payment
        have different : first ≠ account := fun same => unlisted (by simp [same])
        have share := fair first
        have due : 0 < fairShare finder ((first, amount) :: rest) (second + bonus) first :=
          fairShare_head_pos finder first (by omega) (positive (first, amount) List.mem_cons_self)
        rw [if_neg different, if_neg (own ▸ different)] at share
        omega
  · rintro ⟨rfl, rfl⟩ key
    rw [fairShare]
    split <;> omega

theorem paysFairly_nil (sound : coinbase.Sound) :
    PaysFairly finder [] coinbase ↔ coinbase.remaining < 2 ^ 31 := by
  constructor
  · intro fair
    by_contra large
    have incomplete := addBonus_of_le finder sound.current sound.max (Nat.le_of_not_lt large)
    rw [PaysFairly, payOut, addPayments, incomplete] at fair
    exact Bool.false_ne_true fair.1
  · intro fits
    exact (addBonus_of_lt finder sound fits).2

theorem paysFairly_cons_of_le {rest : List (StdString × UInt64)} (sound : coinbase.Sound)
    (own : nAccountBalance.toNat < 2 ^ 63) (positive : ∀ payment ∈ rest, 0 < payment.2.toNat)
    (unlisted : account ∉ rest.map Prod.fst) (fits : nAccountBalance.toNat ≤ coinbase.remaining) :
    PaysFairly finder ((account, nAccountBalance) :: rest) coinbase ↔
      let left := coinbase.remaining - nAccountBalance.toNat
      if left % 2 ^ 32 < 2 ^ 31 then PaysFairly finder rest (coinbase.addOutput account nAccountBalance)
      else
        let next := (left / 2 ^ 32 + 1) * 2 ^ 32
        rest = [] ∧ account = finder ∧ nAccountBalance.toNat ≤ next ∧ next - nAccountBalance.toNat < 2 ^ 31 := by
  obtain ⟨left, value, next⟩ := addPayments_cons_of_le account rest sound fits
  obtain ⟨sound', remaining, amounts⟩ := sound.addOutput account fits
  simp only [PaysFairly, payOut, next, fairShare, fits, if_true]
  by_cases read : (coinbase.remaining - nAccountBalance.toNat) % 2 ^ 32 < 2 ^ 31
  · simp only [read, if_true, amounts, remaining]
    simp only [Nat.add_assoc]
  · simp only [read, if_false]
    have corrected := addBonus_corrected finder account left sound'
      (value.trans remaining.symm) (by omega) own
    simp only [remaining] at corrected
    split at corrected
    · rename_i close
      obtain ⟨-, complete, more⟩ := corrected
      have whole : coinbase.remaining - nAccountBalance.toNat =
          coinbase.remaining - nAccountBalance.toNat -
              (((coinbase.remaining - nAccountBalance.toNat) / 2 ^ 32 + 1) * 2 ^ 32 - nAccountBalance.toNat) +
            (((coinbase.remaining - nAccountBalance.toNat) / 2 ^ 32 + 1) * 2 ^ 32 - nAccountBalance.toNat) := by
        omega
      have second := second_payment_fair_iff finder account
        (coinbase.remaining - nAccountBalance.toNat -
          (((coinbase.remaining - nAccountBalance.toNat) / 2 ^ 32 + 1) * 2 ^ 32 - nAccountBalance.toNat))
        (((coinbase.remaining - nAccountBalance.toNat) / 2 ^ 32 + 1) * 2 ^ 32 - nAccountBalance.toNat)
        positive unlisted (by omega)
      rw [← whole] at second
      simp only [complete, true_and, more, amounts, close, and_true, ← second]
      refine forall_congr' fun key => ?_
      omega
    · rename_i far
      simp only [corrected, Bool.false_eq_true, false_and, false_iff]
      exact fun ⟨_, _, close⟩ => far close

theorem addBonus_fair_iff (sound : coinbase.Sound) :
    ((addBonus finder coinbase).isComplete = true ∧ ∀ key, (addBonus finder coinbase).mapOutputs.amount key =
        coinbase.mapOutputs.amount key + if key = account then coinbase.remaining else 0) ↔
      coinbase.remaining = 0 ∨ account = finder ∧ coinbase.remaining < 2 ^ 31 := by
  by_cases fits : coinbase.remaining < 2 ^ 31
  · obtain ⟨-, complete, amounts⟩ := addBonus_of_lt finder sound fits
    simp only [complete, true_and, amounts, fits, and_true, Nat.add_left_cancel_iff]
    constructor
    · intro fair
      by_cases same : account = finder
      · exact Or.inr same
      · have share := fair finder
        rw [if_pos rfl, if_neg (Ne.symm same)] at share
        exact Or.inl share
    · rintro (nothing | rfl) key
      · simp [nothing]
      · rfl
  · have incomplete := addBonus_of_le finder sound.current sound.max (Nat.le_of_not_lt fits)
    simp only [incomplete, Bool.false_eq_true, false_and, false_iff]
    omega

theorem paysFairly_cons_of_gt {rest : List (StdString × UInt64)} (small : Small ((account, nAccountBalance) :: rest))
    (sound : coinbase.Sound) (positive : ∀ payment ∈ rest, 0 < payment.2.toNat)
    (unlisted : account ∉ rest.map Prod.fst) (exceeds : coinbase.remaining < nAccountBalance.toNat) :
    PaysFairly finder ((account, nAccountBalance) :: rest) coinbase ↔
      let excess := nAccountBalance.toNat - coinbase.remaining
      coinbase.remaining = 0 ∨ excess ≤ 2 ^ 31 ∨
        account = finder ∧ coinbase.remaining < 2 ^ 31 ∧ (Noticed excess ∨ PassedOver rest coinbase.remaining) := by
  have own : nAccountBalance.toNat < 2 ^ 63 := small _ List.mem_cons_self
  have others : Small rest := fun payment member => small payment (List.mem_cons_of_mem _ member)
  obtain ⟨left, value, next⟩ := addPayments_cons_of_gt account rest sound exceeds own
  have large : ¬ nAccountBalance.toNat ≤ coinbase.remaining := Nat.not_le_of_lt exceeds
  simp only [PaysFairly, payOut, next, fairShare, large, if_false]
  by_cases noticed : Noticed (nAccountBalance.toNat - coinbase.remaining)
  · simp only [noticed, if_true, true_or, and_true]
    have cut := addBonus_cut finder account sound exceeds value noticed own
    simp only at cut
    split at cut
    · rename_i within
      exact iff_of_true cut.2 (Or.inr (Or.inl within))
    · rename_i beyond
      rw [cut, addBonus_fair_iff finder account sound]
      simp only [beyond, false_or]
  · simp only [noticed, if_false, false_or]
    have beyond : ¬ nAccountBalance.toNat - coinbase.remaining ≤ 2 ^ 31 := by
      intro within
      exact noticed ⟨by omega, by omega⟩
    simp only [beyond, false_or]
    by_cases full : coinbase.remaining = 0
    · have paid := payOut_of_full finder others positive sound full
      rw [payOut] at paid
      exact iff_of_true ⟨paid.1, fun key => by rw [paid.2, full]; simp⟩ (Or.inl full)
    · by_cases passed : PassedOver rest coinbase.remaining
      · have paid := payOut_of_passedOver finder others sound passed
        rw [payOut] at paid
        rw [paid, addBonus_fair_iff finder account sound]
        simp [passed]
      · simp only [full, passed, and_false, or_false, iff_false]
        rintro ⟨complete, fair⟩
        obtain ⟨payment, member, more⟩ := exists_paid_of_not_passedOver finder others positive sound
          (Nat.pos_of_ne_zero full) passed complete
        have different : payment.1 ≠ account := fun same => unlisted (same ▸ List.mem_map.mpr ⟨payment, member, rfl⟩)
        have share := fair payment.1
        rw [if_neg different] at share
        rw [payOut] at more
        omega

theorem paysFairly_iff {rest : List (StdString × UInt64)} (small : Small rest)
    (positive : ∀ payment ∈ rest, 0 < payment.2.toNat) (distinct : (rest.map Prod.fst).Nodup)
    (sound : coinbase.Sound) : PaysFairly finder rest coinbase ↔ ExactPayout finder rest coinbase.remaining := by
  induction rest generalizing coinbase with
  | nil => exact paysFairly_nil finder sound
  | cons payment rest ih =>
      obtain ⟨account, nAccountBalance⟩ := payment
      rw [List.map_cons, List.nodup_cons] at distinct
      have later : ∀ payment ∈ rest, 0 < payment.2.toNat :=
        fun payment member => positive payment (List.mem_cons_of_mem _ member)
      rw [ExactPayout]
      by_cases fits : nAccountBalance.toNat ≤ coinbase.remaining
      · obtain ⟨sound', remaining, -⟩ := sound.addOutput account fits
        rw [paysFairly_cons_of_le finder account sound (small _ List.mem_cons_self) later distinct.1 fits, if_pos fits,
          ih (fun payment member => small payment (List.mem_cons_of_mem _ member)) later distinct.2 sound', remaining]
      · rw [paysFairly_cons_of_gt finder account small sound later distinct.1 (Nat.lt_of_not_le fits), if_neg fits]

/-! ## The handler -/

variable {D : Type} [Double D]

def totalBalance (AccountDB : Records StdString Account) : Nat :=
  (AccountDB.toList.map fun entry => entry.2.nAccountBalance.toNat).sum

theorem balanceOf_le_total {AccountDB : Records StdString Account} {key : StdString} (present : key ∈ AccountDB) :
    (balanceOf AccountDB key).toNat ≤ totalBalance AccountDB := by
  obtain ⟨cAccount, found⟩ := getElem?_of_mem present
  have member : (key, cAccount) ∈ AccountDB.toList := ExtTreeMap.mem_toList_iff_getElem?_eq_some.mpr found
  rw [balanceOf, Records.getRecord_of_getElem? found]
  exact List.le_sum_of_mem (List.mem_map.mpr ⟨_, member, rfl⟩)

/-- After the handler the coinbase is complete, its outputs sum to the reward without the fee, and everyone
gets the amount that is due. -/
def PayoutIsExact (globals : Globals D) (AccountDB : Records StdString Account) (vAccounts : List StdString)
    (nReward : UInt64) : Prop :=
  let coinbase := (blockReward globals AccountDB vAccounts nReward).cGlobalCoinbase
  let due := nReward.toNat - (poolFee globals.lfPoolFee nReward).toNat
  coinbase.mapOutputs.total = due ∧ coinbase.nMaxValue.toNat = due ∧ coinbase.isComplete = true ∧
    ∀ key, coinbase.mapOutputs.amount key =
      fairShare globals.LAST_ROUND_BLOCKFINDER (payments AccountDB vAccounts) due key

theorem addPayments_nMaxValue (rest : List (StdString × UInt64)) (coinbase : Coinbase) :
    (addPayments rest coinbase).nMaxValue = coinbase.nMaxValue := by
  have one (coinbase : Coinbase) (account : StdString) (nValue : UInt64) :
      (coinbase.addTransaction account nValue).2.nMaxValue = coinbase.nMaxValue := by
    rw [Coinbase.addTransaction]
    split <;> rfl
  induction rest generalizing coinbase with
  | nil => rfl
  | cons payment rest ih =>
      obtain ⟨account, nAccountBalance⟩ := payment
      simp only [addPayments]
      split
      · rw [one, one]
      · rw [ih, one]

theorem payOut_nMaxValue (finder : StdString) (rest : List (StdString × UInt64)) (coinbase : Coinbase) :
    (payOut finder rest coinbase).nMaxValue = coinbase.nMaxValue := by
  rw [payOut, addBonus]
  split
  · exact addPayments_nMaxValue rest coinbase
  · rw [Coinbase.addTransaction]
    split
    · exact addPayments_nMaxValue rest coinbase
    · exact addPayments_nMaxValue rest coinbase

theorem payoutIsExact_iff {globals : Globals D} {AccountDB : Records StdString Account}
    {vAccounts : List StdString} {nReward : UInt64} (round : globals.nCurrentRound > 1)
    (pending : globals.fCoinbasePending = true) (sorted : SortedAccounts AccountDB vAccounts)
    (fee : poolFee globals.lfPoolFee nReward ≤ nReward) (fits : totalBalance AccountDB + nReward.toNat < 2 ^ 63) :
    PayoutIsExact globals AccountDB vAccounts nReward ↔
      ExactPayout globals.LAST_ROUND_BLOCKFINDER (payments AccountDB vAccounts)
        (nReward.toNat - (poolFee globals.lfPoolFee nReward).toNat) := by
  have handled : (blockReward globals AccountDB vAccounts nReward).cGlobalCoinbase =
      payOut globals.LAST_ROUND_BLOCKFINDER (payments AccountDB vAccounts)
        ({ globals.cGlobalCoinbase with nPoolFee := poolFee globals.lfPoolFee nReward }.reset
          (nReward - poolFee globals.lfPoolFee nReward)) := by
    rw [blockReward, if_pos ⟨round, pending⟩]
    simp only [buildCoinbase, payOut, addPayouts_eq]
  have difference := UInt64.toNat_sub_of_le _ _ fee
  have bound : (nReward - poolFee globals.lfPoolFee nReward).toNat < 2 ^ 63 := by omega
  generalize { globals.cGlobalCoinbase with nPoolFee := poolFee globals.lfPoolFee nReward } = coinbase at handled
  have sound := Coinbase.sound_reset coinbase bound
  have nothing := Coinbase.amount_reset coinbase (nReward - poolFee globals.lfPoolFee nReward)
  have remaining := Coinbase.remaining_reset coinbase (nReward - poolFee globals.lfPoolFee nReward)
  have max : (coinbase.reset (nReward - poolFee globals.lfPoolFee nReward)).nMaxValue.toNat =
      nReward.toNat - (poolFee globals.lfPoolFee nReward).toNat := difference
  rw [difference] at remaining
  generalize coinbase.reset (nReward - poolFee globals.lfPoolFee nReward) = start at *
  have small : Small (payments AccountDB vAccounts) := by
    intro payment member
    obtain ⟨known, value, -⟩ := mem_payments member
    have bound := balanceOf_le_total (ExtTreeMap.mem_keys.mp (sorted.1.mem_iff.mp known))
    rw [value]
    omega
  have fair := paysFairly_iff globals.LAST_ROUND_BLOCKFINDER small
    (fun payment member => UInt64.lt_iff_toNat_lt.mp (mem_payments member).2.2) (nodup_payments sorted) sound
  rw [← remaining, ← fair, PaysFairly, PayoutIsExact, handled]
  simp only [nothing, Nat.zero_add, ← remaining]
  constructor
  · rintro ⟨-, -, complete, amounts⟩
    exact ⟨complete, amounts⟩
  · rintro ⟨complete, amounts⟩
    obtain ⟨sound', -⟩ := payOut_grows globals.LAST_ROUND_BLOCKFINDER small sound complete
    have full := (Coinbase.isComplete_iff sound'.current).mp complete
    have same := payOut_nMaxValue globals.LAST_ROUND_BLOCKFINDER (payments AccountDB vAccounts) start
    refine ⟨?_, ?_, complete, amounts⟩
    · have current' := sound'.current
      rw [Coinbase.remaining] at full
      rw [sound'.total, remaining, ← max, ← same]
      omega
    · rw [same, max, remaining]

/-! ## A rich account that is passed over -/

def richAddress : StdString := [82]

def finderAddress : StdString := [70]

def richAccounts : Records StdString Account :=
  .ofList [(finderAddress, Account.new finderAddress),
    (richAddress, { Account.new richAddress with nAccountBalance := 3000000000 })]

def rewardPending : Globals Float where
  lfPoolFee := 0.02
  cGlobalCoinbase := .new
  nRoundReward := 0
  hashBlockSubmission := .ofUInt64 0
  LAST_ROUND_BLOCKFINDER := finderAddress
  nCurrentRound := 2
  nBestHeight := 1
  nLastBlockFound := 0
  fCoinbasePending := true
  fNewRound := false
  fSubmittingBlock := false

theorem richAccounts_payoutIsExact_iff :
    PayoutIsExact rewardPending richAccounts [richAddress, finderAddress] 10000000 ↔
      ExactPayout finderAddress (payments richAccounts [richAddress, finderAddress])
        ((10000000 : UInt64).toNat - (poolFee rewardPending.lfPoolFee 10000000).toNat) :=
  payoutIsExact_iff (by decide) (by decide) ⟨by decide +kernel, by decide +kernel⟩ (by decide +kernel)
    (by decide +kernel)

theorem richAccounts_not_exact :
    ¬ PayoutIsExact rewardPending richAccounts [richAddress, finderAddress] 10000000 := by
  intro exact
  have share := exact.2.2.2 richAddress
  have paid : (blockReward rewardPending richAccounts [richAddress, finderAddress]
      10000000).cGlobalCoinbase.mapOutputs.amount richAddress = 0 := by decide +kernel
  have due : fairShare finderAddress (payments richAccounts [richAddress, finderAddress])
      ((10000000 : UInt64).toNat - (poolFee rewardPending.lfPoolFee 10000000).toNat) richAddress = 9800000 := by
    decide +kernel
  have conflict : (0 : Nat) = 9800000 := paid.symm.trans (share.trans due)
  cases conflict

end PrimePool.Core

import PrimePool.Core.OrphanNotices
import PrimePool.Core.RowSums
import PrimePool.General.Machine

/-!
# The books of the pool

The account balances next to the statistics tables, over whole runs of logins, shares, rounds and orphan notices that
do not overlap.
-/

namespace PrimePool.Core

open PrimePool.General PrimePool.LLD Std Program

structure Remainder where
  nRound : UInt32
  strBlockFinder : StdString
  nValue : UInt64

structure Books where
  databases : Databases
  tables : StatsTables
  nCurrentRound : UInt32
  /-- What the rounds left over for their finders. The pool does not keep it. -/
  remainders : List Remainder

inductive BooksEvent (D : Type) where
  | login (ADDRESS : StdString)
  | submitShare (ADDRESS : StdString) (nWeight : UInt64)
  | newRound (round : Round D) (nBestHeight : UInt32)
  | orphanBlock (hashOrphan : Uint1024)

/-- `ORPHAN_BLOCK` in the orphan thread, which reads the record for the log first. -/
def Recorded.orphanBlock (hashOrphan : Uint1024) : TablesProgram Unit := do
  let _ ← (getBlock hashOrphan).quiet
  refundPayouts hashOrphan

namespace Books

variable {D : Type} [Double D]

def start (databases : Databases) : Books := { databases, tables := .empty, nCurrentRound := 1, remainders := [] }

def record (books : Books) (p : TablesProgram Unit) : Books :=
  let after := (run (logged perform) p (books.databases, [])).2
  { books with databases := after.1, tables := books.tables.calls after.2 }

def login (books : Books) (ADDRESS : StdString) : Books :=
  if books.databases.AccountDB.hasKey ADDRESS then books
  else
    { books with databases := (run perform (updateAccount .processPacket (.new ADDRESS)) books.databases).2 }

def newRound (books : Books) (round : Round D) (nBestHeight : UInt32) : Books :=
  let remainder : Remainder :=
    { nRound := round.nCurrentRound
      strBlockFinder := round.LAST_ROUND_BLOCKFINDER
      nValue := remainderOf round round.nRoundReward books.databases }
  { books.record (Recorded.newRound round nBestHeight) with
    nCurrentRound := books.nCurrentRound + 1
    remainders := books.remainders ++ [remainder] }

def step (books : Books) : BooksEvent D → Option Books
  | .login ADDRESS => some (books.login ADDRESS)
  | .submitShare ADDRESS nWeight =>
      if LoggedIn books.databases ADDRESS then some (books.record (acceptShare ADDRESS nWeight).quiet) else none
  | .newRound round nBestHeight => some (books.newRound { round with nCurrentRound := books.nCurrentRound } nBestHeight)
  | .orphanBlock hashOrphan => some (books.record (Recorded.orphanBlock hashOrphan))

/-! ## Sums of an account -/

def balance (books : Books) (key : StdString) : Int := (books.databases.account key).nAccountBalance.toNat

def leftOver (books : Books) (wanted : UInt32 → Bool) (key : StdString) : Int :=
  tally (fun remainder : Remainder => remainder.nValue.toNat)
    (fun remainder => remainder.strBlockFinder = key && wanted remainder.nRound) books.remainders

def earned (books : Books) (key : StdString) : Int := books.tables.earned (fun _ => true) key

def paid (books : Books) (key : StdString) : Int := books.tables.paid (fun _ => true) key

/-- What the account keeps of rounds whose blocks are orphans. -/
def kept (books : Books) (key : StdString) : Int := books.leftOver books.tables.orphaned key

/-! ## Steps that lose nothing -/

end Books

/-- The account can pay what it is paid out, every amount fits in its column and no sum wraps around. -/
def Movement.Exact (m : Movement) : Prop :=
  (m.output.toNat < 2 ^ 31 ∧ m.bonus.toNat < 2 ^ 31 ∧ m.credit.toNat < 2 ^ 31 ∧ m.remainder.toNat < 2 ^ 31) ∧
    m.output.toNat ≤ m.balance.toNat + m.bonus.toNat ∧
    m.balance.toNat + m.bonus.toNat + m.credit.toNat + m.remainder.toNat < 2 ^ 64

instance (m : Movement) : Decidable m.Exact := inferInstanceAs (Decidable (_ ∧ _ ∧ _))

def ExactRefund (cBlock : Block) (key : StdString) (cAccount : Account) : Prop :=
  cBlock.cCredits.mapCredits.amount key ≤ cAccount.nAccountBalance.toNat ∧
    cAccount.nAccountBalance.toNat - cBlock.cCredits.mapCredits.amount key + cBlock.cCoinbase.mapOutputs.amount key < 2 ^ 64

instance (cBlock : Block) (key : StdString) (cAccount : Account) : Decidable (ExactRefund cBlock key cAccount) :=
  inferInstanceAs (Decidable (_ ∧ _))

namespace Books

variable {D : Type} [Double D]

def Exact (books : Books) : BooksEvent D → Prop
  | .login _ => True
  | .submitShare _ _ => True
  | .newRound round _ =>
      round.LAST_ROUND_BLOCKFINDER ≠ [] ∧ round.LAST_ROUND_BLOCKFINDER ∈ books.databases.AccountDB ∧
        (∀ output ∈ round.cGlobalCoinbase.mapOutputs.toList, output.1 ∈ books.databases.AccountDB) ∧
        books.nCurrentRound.toNat + 1 < 2 ^ 32 ∧
        ∀ entry ∈ books.databases.AccountDB.toList,
          (movement round round.nRoundReward books.databases entry.1 entry.2).Exact
  | .orphanBlock hashOrphan =>
      let cBlock := (books.databases.BlockDB.getRecord hashOrphan).1
      cBlock.nCoinbaseValue ≠ 0 → ∀ entry ∈ books.databases.AccountDB.toList, ExactRefund cBlock entry.1 entry.2

instance (books : Books) (event : BooksEvent D) : Decidable (books.Exact event) :=
  match event with
  | .login _ | .submitShare _ _ => isTrue trivial
  | .newRound _ _ => inferInstanceAs (Decidable (_ ∧ _ ∧ _ ∧ _ ∧ _))
  | .orphanBlock _ => inferInstanceAs (Decidable (_ → _))

theorem record_eq (books : Books) (p : TablesProgram Unit) :
    books.record p =
      { books with
        databases := (run perform p.erase books.databases).2
        tables := books.tables.calls (notes perform p books.databases) } := by
  rw [record, (run_logged perform p books.databases []).2, log_logged, List.nil_append]

theorem record_quiet (books : Books) (p : DatabaseProgram Unit) :
    books.record p.quiet = { books with databases := (run perform p books.databases).2 } := by
  rw [record_eq, erase_quiet, notes_quiet]
  rfl

end Books

/-! ## What a round does to an account -/

variable {D : Type} [Double D] {databases : Databases} {round : Round D} {key : StdString}

def moved (round : Round D) (databases : Databases) (key : StdString) : Movement :=
  movement round round.nRoundReward databases key (databases.account key)

theorem moved_of_not_mem (finder : round.LAST_ROUND_BLOCKFINDER ∈ databases.AccountDB)
    (payees : ∀ key ∈ round.cGlobalCoinbase.mapOutputs, key ∈ databases.AccountDB) (missing : key ∉ databases.AccountDB) :
    moved round databases key = { balance := 0, output := 0, bonus := 0, credit := 0, remainder := 0 } := by
  have blank : databases.account key = Account.blank := ExtTreeMap.getD_eq_fallback missing
  have other : key ≠ round.LAST_ROUND_BLOCKFINDER := fun same => missing (same ▸ finder)
  have unpaid : key ∉ round.cGlobalCoinbase.mapOutputs := fun paid => missing (payees key paid)
  rw [moved, movement, blank, ExtTreeMap.getD_eq_fallback unpaid, forFinder, forFinder, if_neg other, if_neg other]
  rfl

theorem exact_moved (finder : round.LAST_ROUND_BLOCKFINDER ∈ databases.AccountDB)
    (payees : ∀ key ∈ round.cGlobalCoinbase.mapOutputs, key ∈ databases.AccountDB)
    (exact : ∀ entry ∈ databases.AccountDB.toList, (movement round round.nRoundReward databases entry.1 entry.2).Exact)
    (key : StdString) : (moved round databases key).Exact := by
  by_cases present : key ∈ databases.AccountDB
  · obtain ⟨cAccount, found⟩ := getElem?_of_mem present
    rw [moved, Databases.account_of_getElem? found]
    exact exact (key, cAccount) (ExtTreeMap.mem_toList_iff_getElem?_eq_some.mpr found)
  · rw [moved_of_not_mem finder payees present]
    decide

theorem column_of_lt {nValue : UInt64} (small : nValue.toNat < 2 ^ 31) : column nValue = nValue.toNat := by
  rw [column, toInt_narrowInt]
  split <;> omega

theorem Movement.Exact.earning {m : Movement} (exact : m.Exact) :
    column m.bonus + column m.credit + column m.remainder =
      (m.bonus.toNat : Int) + m.credit.toNat + m.remainder.toNat := by
  obtain ⟨⟨-, bonus, credit, remainder⟩, -, -⟩ := exact
  rw [column_of_lt bonus, column_of_lt credit, column_of_lt remainder]

theorem Movement.Exact.payment {m : Movement} (exact : m.Exact) : column m.output = m.output.toNat :=
  column_of_lt exact.1.1

theorem Movement.Exact.settledBalance {m : Movement} (exact : m.Exact) :
    m.settledBalance.toNat + m.output.toNat =
      m.balance.toNat + m.bonus.toNat + m.credit.toNat + m.remainder.toNat := by
  obtain ⟨-, covered, fits⟩ := exact
  rw [Movement.settledBalance, UInt64.toNat_add, UInt64.toNat_add, toNat_deduct, UInt64.toNat_add]
  omega

theorem stores_newRound (wellKeyed : databases.AccountDB.WellKeyed)
    (finder : round.LAST_ROUND_BLOCKFINDER ∈ databases.AccountDB) :
    let after := (run perform (newRound round) databases).2
    after.AccountDB = databases.AccountDB.map (fun key cAccount =>
        { settleBalance round round.nRoundReward databases key cAccount with nRoundShares := 0 }) ∧
      after.BlockDB = databases.BlockDB.updateRecord (settledBlock round round.nRoundReward databases) := by
  have settled := run_updateBalances round round.nRoundReward wellKeyed finder
  dsimp only at settled
  rw [newRound, run_bind, settled, run_clearShares]
  · exact ⟨ExtTreeMap.map_map, rfl⟩
  · exact wellKeyed.map fun _ _ => rfl

theorem balance_newRound (wellKeyed : databases.AccountDB.WellKeyed)
    (finder : round.LAST_ROUND_BLOCKFINDER ∈ databases.AccountDB)
    (payees : ∀ key ∈ round.cGlobalCoinbase.mapOutputs, key ∈ databases.AccountDB) (key : StdString) :
    ((run perform (newRound round) databases).2.account key).nAccountBalance =
      (moved round databases key).settledBalance := by
  have stores := (stores_newRound wellKeyed finder).1
  by_cases present : key ∈ databases.AccountDB
  · obtain ⟨cAccount, found⟩ := getElem?_of_mem present
    rw [moved, Databases.account_of_getElem? found, ← balance_settleBalance]
    have after : (run perform (newRound round) databases).2.AccountDB[key]? =
        some { settleBalance round round.nRoundReward databases key cAccount with nRoundShares := 0 } := by
      rw [stores, ExtTreeMap.getElem?_map, found, Option.map_some]
    rw [Databases.account_of_getElem? after]
  · rw [moved_of_not_mem finder payees present, Databases.account, stores, ExtTreeMap.getD_eq_fallback]
    · rfl
    · rw [ExtTreeMap.mem_map]
      exact present

theorem earnings_moved (finder : round.LAST_ROUND_BLOCKFINDER ∈ databases.AccountDB)
    (payees : ∀ key ∈ round.cGlobalCoinbase.mapOutputs, key ∈ databases.AccountDB) (nBestHeight : UInt32)
    (wanted : UInt32 → Bool) (key : StdString) :
    Recorded.earnings wanted key (Recorded.balanceRows round nBestHeight round.nRoundReward databases) =
      let m := moved round databases key
      if wanted round.nCurrentRound then column m.bonus + column m.credit + column m.remainder else 0 := by
  rw [Recorded.earnings_balanceRows]
  by_cases present : key ∈ databases.AccountDB
  · rw [if_pos present]
    rfl
  · have other : key ≠ round.LAST_ROUND_BLOCKFINDER := fun same => present (same ▸ finder)
    rw [moved_of_not_mem finder payees present, forFinder, forFinder, if_neg other, if_neg other, if_neg present]
    dsimp only
    rw [column_zero]

theorem payments_moved (payees : ∀ key ∈ round.cGlobalCoinbase.mapOutputs, key ∈ databases.AccountDB)
    (nBestHeight : UInt32) (wanted : UInt32 → Bool) (key : StdString) :
    Recorded.payments wanted key (Recorded.balanceRows round nBestHeight round.nRoundReward databases) =
      if wanted round.nCurrentRound then column (moved round databases key).output else 0 := by
  rw [Recorded.payments_balanceRows]
  by_cases present : key ∈ databases.AccountDB
  · rw [if_pos present]
    rfl
  · have unpaid : key ∉ round.cGlobalCoinbase.mapOutputs := fun paid => present (payees key paid)
    rw [if_neg present, moved, movement, ExtTreeMap.getD_eq_fallback unpaid]

/-! ## What a round records for its block -/

theorem mem_foldl_settled_of_mem {nTotalWeight nReward : UInt64} {keys : List StdString} {before : Credits × UInt64}
    (member : key ∈ before.1.mapCredits) :
    key ∈ (keys.foldl
      (fun before key => settled D nTotalWeight nReward before key (databases.account key)) before).1.mapCredits := by
  induction keys generalizing before with
  | nil => exact member
  | cons first keys ih =>
      apply ih
      simp only [settled]
      split
      · exact member
      · exact (mem_add _ _ _ _).mpr (Or.inr member)

theorem finder_mem_creditedBy (named : round.LAST_ROUND_BLOCKFINDER ≠ []) (nReward : UInt64) :
    round.LAST_ROUND_BLOCKFINDER ∈ (creditedBy round nReward databases).1.mapCredits := by
  apply mem_foldl_settled_of_mem
  rw [bonusCredits, if_neg named]
  exact (mem_add _ _ _ _).mpr (Or.inl rfl)

theorem amount_creditedBy (finder : round.LAST_ROUND_BLOCKFINDER ∈ databases.AccountDB)
    (payees : ∀ key ∈ round.cGlobalCoinbase.mapOutputs, key ∈ databases.AccountDB)
    (exact : (moved round databases key).Exact) :
    (creditedBy round round.nRoundReward databases).1.mapCredits.amount key =
      (moved round databases key).bonus.toNat + (moved round databases key).credit.toNat := by
  by_cases present : key ∈ databases.AccountDB
  · have sum : (creditedBy round round.nRoundReward databases).1.mapCredits.getD key 0 =
        (moved round databases key).bonus + (moved round databases key).credit := getD_creditedBy present
    obtain ⟨-, -, fits⟩ := exact
    rw [AmountMap.amount, sum, UInt64.toNat_add]
    omega
  · have uncredited : key ∉ (creditedBy round round.nRoundReward databases).1.mapCredits :=
      fun member => present (mem_creditedBy finder member)
    rw [moved_of_not_mem finder payees present, AmountMap.amount, ExtTreeMap.getD_eq_fallback uncredited]
    rfl

/-! ## The tables after a round -/

namespace Books

variable (books : Books)

theorem databases_newRound (round : Round D) (nBestHeight : UInt32) :
    (books.newRound round nBestHeight).databases = (run perform (Core.newRound round) books.databases).2 := by
  rw [newRound, record_eq]
  exact congrArg Prod.snd (Recorded.run_newRound round nBestHeight books.databases)

variable {books} (wellKeyed : books.databases.AccountDB.WellKeyed)
  (finder : round.LAST_ROUND_BLOCKFINDER ∈ books.databases.AccountDB) (nBestHeight : UInt32)

include wellKeyed finder

theorem tables_newRound :
    (books.newRound round nBestHeight).tables =
      (books.tables.call (.addRoundData (Recorded.roundRow round nBestHeight books.databases))).calls
        (Recorded.balanceRows round nBestHeight round.nRoundReward books.databases) := by
  rw [newRound, record_eq]
  dsimp only
  rw [Recorded.notes_newRound round nBestHeight wellKeyed finder, StatsTables.calls_cons]

theorem earned_newRound (payees : ∀ key ∈ round.cGlobalCoinbase.mapOutputs, key ∈ books.databases.AccountDB)
    (wanted : UInt32 → Bool) (key : StdString) :
    (books.newRound round nBestHeight).tables.earned wanted key =
      let m := moved round books.databases key
      books.tables.earned wanted key +
        if wanted round.nCurrentRound then column m.bonus + column m.credit + column m.remainder else 0 := by
  rw [tables_newRound wellKeyed finder, StatsTables.earned_calls_adds _ _ _ (Recorded.adds_balanceRows round nBestHeight _ _),
    earnings_moved finder payees, StatsTables.earned_addRoundData]

theorem paid_newRound (payees : ∀ key ∈ round.cGlobalCoinbase.mapOutputs, key ∈ books.databases.AccountDB)
    (wanted : UInt32 → Bool) (key : StdString) :
    (books.newRound round nBestHeight).tables.paid wanted key =
      books.tables.paid wanted key +
        if wanted round.nCurrentRound then column (moved round books.databases key).output else 0 := by
  rw [tables_newRound wellKeyed finder, StatsTables.paid_calls_adds _ _ _ (Recorded.adds_balanceRows round nBestHeight _ _),
    payments_moved payees, StatsTables.paid_addRoundData]

theorem orphaned_newRound (nRound : UInt32) :
    (books.newRound round nBestHeight).tables.orphaned nRound = books.tables.orphaned nRound := by
  rw [tables_newRound wellKeyed finder, StatsTables.calls_adds _ (Recorded.adds_balanceRows round nBestHeight _ _)]
  exact StatsTables.orphaned_addRoundData _ rfl nRound

theorem listed_newRound (nRound : UInt32) :
    (books.newRound round nBestHeight).tables.listed nRound =
      (books.tables.listed nRound || round.nCurrentRound = nRound) := by
  rw [tables_newRound wellKeyed finder, StatsTables.calls_adds _ (Recorded.adds_balanceRows round nBestHeight _ _)]
  exact StatsTables.listed_addRoundData _ _ nRound

omit wellKeyed finder in
theorem leftOver_newRound (wanted : UInt32 → Bool) (key : StdString) :
    (books.newRound round nBestHeight).leftOver wanted key =
      books.leftOver wanted key +
        if wanted round.nCurrentRound then ((moved round books.databases key).remainder.toNat : Int) else 0 := by
  have remainder : (moved round books.databases key).remainder =
      if key = round.LAST_ROUND_BLOCKFINDER then remainderOf round round.nRoundReward books.databases else 0 := rfl
  rw [leftOver, newRound, tally_append, tally_cons, tally_nil, Int.add_zero, remainder]
  congr 1
  by_cases same : key = round.LAST_ROUND_BLOCKFINDER
  · simp [same]
  · have different := Ne.symm same
    simp [same, different]

end Books

end PrimePool.Core

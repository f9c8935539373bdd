import PrimePool.Core.Books

/-!
# Balanced books

What an account has and was paid is what it earned, and what it keeps of orphans: in every run whose rounds and refunds
lose nothing.
-/

namespace PrimePool.Core

open PrimePool.General PrimePool.LLD Std Program

namespace Books

variable {D : Type} [Double D] {books after : Books}

/-! ## Single rounds -/

structure SameRound (books after : Books) (nRound : UInt32) : Prop where
  earned : ∀ key, after.tables.earned (· = nRound) key = books.tables.earned (· = nRound) key
  paid : ∀ key, after.tables.paid (· = nRound) key = books.tables.paid (· = nRound) key
  leftOver : ∀ key, after.leftOver (· = nRound) key = books.leftOver (· = nRound) key
  orphaned : after.tables.orphaned nRound = books.tables.orphaned nRound
  listed : books.tables.listed nRound = true → after.tables.listed nRound = true

/-- The tables have exactly the rows of the block that was settled in the round. -/
structure Entered (books : Books) (hashBlock : Uint1024) (cBlock : Block) : Prop where
  own : cBlock.cKey = hashBlock
  earlier : cBlock.nRound < books.nCurrentRound
  credits : ∀ key ∈ cBlock.cCredits.mapCredits, key ∈ books.databases.AccountDB
  outputs : ∀ key ∈ cBlock.cCoinbase.mapOutputs, key ∈ books.databases.AccountDB
  listed : books.tables.listed cBlock.nRound = true
  stands : books.tables.orphaned cBlock.nRound = false
  earned : ∀ key, books.tables.earned (· = cBlock.nRound) key =
    cBlock.cCredits.mapCredits.amount key + books.leftOver (· = cBlock.nRound) key
  paid : ∀ key, books.tables.paid (· = cBlock.nRound) key = cBlock.cCoinbase.mapOutputs.amount key
  finder : ∀ key, key ∉ cBlock.cCredits.mapCredits → books.leftOver (· = cBlock.nRound) key = 0

theorem Entered.mono {hashBlock : Uint1024} {cBlock : Block} (entered : Entered books hashBlock cBlock)
    (same : SameRound books after cBlock.nRound) (later : books.nCurrentRound ≤ after.nCurrentRound)
    (accounts : ∀ key ∈ books.databases.AccountDB, key ∈ after.databases.AccountDB) : Entered after hashBlock cBlock where
  own := entered.own
  earlier := UInt32.lt_of_lt_of_le entered.earlier later
  credits key member := accounts key (entered.credits key member)
  outputs key member := accounts key (entered.outputs key member)
  listed := same.listed entered.listed
  stands := same.orphaned.trans entered.stands
  earned key := by rw [same.earned, same.leftOver, entered.earned]
  paid key := by rw [same.paid, entered.paid]
  finder key other := by rw [same.leftOver, entered.finder key other]

/-! ## The invariant -/

def Live (books : Books) (hashBlock : Uint1024) (cBlock : Block) : Prop :=
  books.databases.BlockDB[hashBlock]? = some cBlock ∧ cBlock.nCoinbaseValue ≠ 0

structure InOrder (opening : StdString → Int) (books : Books) : Prop where
  wellKeyed : books.databases.AccountDB.WellKeyed
  ahead : ∀ nRound, books.nCurrentRound ≤ nRound → books.tables.orphaned nRound = false ∧ ∀ key,
    books.tables.earned (· = nRound) key = 0 ∧ books.tables.paid (· = nRound) key = 0 ∧
      books.leftOver (· = nRound) key = 0
  entered : ∀ hashBlock cBlock, books.Live hashBlock cBlock → Entered books hashBlock cBlock
  distinct : ∀ hashBlock cBlock hashOther cOther, books.Live hashBlock cBlock → books.Live hashOther cOther →
    cBlock.nRound = cOther.nRound → hashBlock = hashOther
  balanced : ∀ key, books.balance key + books.paid key = opening key + books.earned key + books.kept key
  cleared : ∀ nRound, books.tables.orphaned nRound = true → ∀ key,
    books.tables.earned (· = nRound) key = 0 ∧ books.tables.paid (· = nRound) key = 0

variable {opening : StdString → Int}

theorem inOrder_start {databases : Databases} (wellKeyed : databases.AccountDB.WellKeyed) (noBlocks : databases.BlockDB = ∅) :
    InOrder (start databases).balance (start databases) := by
  have none (hashBlock : Uint1024) (cBlock : Block) : ¬ (start databases).Live hashBlock cBlock := by
    rintro ⟨found, -⟩
    rw [start, noBlocks] at found
    cases found
  exact {
    wellKeyed
    ahead := fun _ _ => ⟨rfl, fun _ => ⟨rfl, rfl, rfl⟩⟩
    entered := fun hashBlock cBlock live => absurd live (none hashBlock cBlock)
    distinct := fun hashBlock cBlock _ _ live => absurd live (none hashBlock cBlock)
    balanced := fun _ => rfl
    cleared := fun nRound orphaned => absurd orphaned Bool.false_ne_true }

theorem InOrder.frame (inOrder : InOrder opening books) {databases : Databases} (wellKeyed : databases.AccountDB.WellKeyed)
    (accounts : ∀ key ∈ books.databases.AccountDB, key ∈ databases.AccountDB)
    (balances : ∀ key, (databases.account key).nAccountBalance = (books.databases.account key).nAccountBalance)
    (blocks : ∀ (hashBlock : Uint1024) (cBlock : Block), databases.BlockDB[hashBlock]? = some cBlock →
      cBlock.nCoinbaseValue ≠ 0 → books.databases.BlockDB[hashBlock]? = some cBlock) : InOrder opening { books with databases } where
  wellKeyed := wellKeyed
  ahead := inOrder.ahead
  entered hashBlock cBlock live := by
    have entered := inOrder.entered hashBlock cBlock ⟨blocks hashBlock cBlock live.1 live.2, live.2⟩
    exact entered.mono ⟨fun _ => rfl, fun _ => rfl, fun _ => rfl, rfl, id⟩ (UInt32.le_refl _) accounts
  distinct hashBlock cBlock hashOther cOther live liveOther :=
    inOrder.distinct hashBlock cBlock hashOther cOther ⟨blocks hashBlock cBlock live.1 live.2, live.2⟩
      ⟨blocks hashOther cOther liveOther.1 liveOther.2, liveOther.2⟩
  balanced key := by
    have same : balance { books with databases } key = books.balance key :=
      congrArg (fun nBalance : UInt64 => (nBalance.toNat : Int)) (balances key)
    rw [same]
    exact inOrder.balanced key
  cleared := inOrder.cleared

/-! ## Logins and shares -/

theorem InOrder.login (inOrder : InOrder opening books) (ADDRESS : StdString) :
    InOrder opening (books.login ADDRESS) := by
  rw [Books.login]
  split
  · exact inOrder
  · rename_i unknown
    rw [Records.hasKey, ExtTreeMap.contains_iff_mem] at unknown
    refine inOrder.frame (inOrder.wellKeyed.updateRecord _) (fun key member => mem_perform _ member) (fun key => ?_)
      fun _ _ found _ => found
    rw [updateAccount, run_perform, account_perform]
    dsimp only
    split
    · rename_i same
      obtain rfl : ADDRESS = key := same
      rw [Databases.account, ExtTreeMap.getD_eq_fallback unknown]
      rfl
    · rfl

theorem InOrder.submitShare (inOrder : InOrder opening books) {ADDRESS : StdString}
    (loggedIn : LoggedIn books.databases ADDRESS) (nWeight : UInt64) :
    InOrder opening (books.record (acceptShare ADDRESS nWeight).quiet) := by
  rw [record_quiet, run_acceptShare inOrder.wellKeyed loggedIn.2.1]
  refine inOrder.frame (inOrder.wellKeyed.modify ADDRESS fun _ => rfl)
    (fun key member => (Databases.mem_change _ _ _ _).mpr member) (fun key => ?_) fun _ _ found _ => found
  by_cases same : ADDRESS = key
  · rw [← same, Databases.account_change _ loggedIn.2.1]
  · rw [Recorded.account_change_other same]

/-! ## Rounds -/

section NewRound

variable {round : Round D} (nBestHeight : UInt32) (inOrder : InOrder opening books)
  (current : round.nCurrentRound = books.nCurrentRound)
  (finder : round.LAST_ROUND_BLOCKFINDER ∈ books.databases.AccountDB)
  (payees : ∀ key ∈ round.cGlobalCoinbase.mapOutputs, key ∈ books.databases.AccountDB)
  (exact : ∀ key, (moved round books.databases key).Exact)

include inOrder current finder payees exact

omit exact in
theorem sameRound_newRound {nRound : UInt32} (other : nRound ≠ books.nCurrentRound) :
    SameRound books (books.newRound round nBestHeight) nRound := by
  have unwanted : decide (round.nCurrentRound = nRound) = false := decide_eq_false (current ▸ Ne.symm other)
  refine ⟨fun key => ?_, fun key => ?_, fun key => ?_, ?_, fun listed => ?_⟩
  · rw [earned_newRound inOrder.wellKeyed finder nBestHeight payees]
    dsimp only
    rw [unwanted, if_neg Bool.false_ne_true, Int.add_zero]
  · rw [paid_newRound inOrder.wellKeyed finder nBestHeight payees, unwanted, if_neg Bool.false_ne_true,
      Int.add_zero]
  · rw [leftOver_newRound, unwanted, if_neg Bool.false_ne_true, Int.add_zero]
  · exact orphaned_newRound inOrder.wellKeyed finder nBestHeight nRound
  · rw [listed_newRound inOrder.wellKeyed finder, listed, Bool.true_or]

theorem entered_newRound (named : round.LAST_ROUND_BLOCKFINDER ≠ []) (room : books.nCurrentRound.toNat + 1 < 2 ^ 32) :
    Entered (books.newRound round nBestHeight) round.hashBlockSubmission
      (settledBlock round round.nRoundReward books.databases) := by
  obtain ⟨stands, unused⟩ := inOrder.ahead books.nCurrentRound (UInt32.le_refl _)
  have accounts (key : StdString) (member : key ∈ books.databases.AccountDB) :
      key ∈ (books.newRound round nBestHeight).databases.AccountDB := by
    rw [databases_newRound, (stores_newRound inOrder.wellKeyed finder).1, ExtTreeMap.mem_map]
    exact member
  have nRound : (settledBlock round round.nRoundReward books.databases).nRound = books.nCurrentRound := current
  have wanted : decide (round.nCurrentRound = books.nCurrentRound) = true := decide_eq_true current
  refine {
    own := rfl
    earlier := ?_
    credits := fun key member => accounts key (mem_creditedBy finder member)
    outputs := fun key member => accounts key (payees key member)
    listed := ?_
    stands := ?_
    earned := fun key => ?_
    paid := fun key => ?_
    finder := fun key other => ?_ }
  · show round.nCurrentRound < books.nCurrentRound + 1
    rw [current, UInt32.lt_iff_toNat_lt, UInt32.toNat_add]
    show _ < (_ + 1) % _
    omega
  · rw [nRound, listed_newRound inOrder.wellKeyed finder, wanted, Bool.or_true]
  · rw [nRound, orphaned_newRound inOrder.wellKeyed finder, stands]
  · have credited := amount_creditedBy finder payees (exact key)
    rw [nRound, earned_newRound inOrder.wellKeyed finder nBestHeight payees, leftOver_newRound, (unused key).1,
      (unused key).2.2]
    dsimp only
    rw [wanted, if_pos rfl, if_pos rfl, Int.zero_add, Int.zero_add, (exact key).earning, ← Int.natCast_add, ← credited]
    rfl
  · rw [nRound, paid_newRound inOrder.wellKeyed finder nBestHeight payees, (unused key).2.1, wanted,
      if_pos rfl, Int.zero_add, (exact key).payment]
    rfl
  · have notFinder : key ≠ round.LAST_ROUND_BLOCKFINDER := by
      rintro rfl
      exact other (finder_mem_creditedBy named round.nRoundReward)
    have nothing : (moved round books.databases key).remainder = 0 := if_neg notFinder
    rw [nRound, leftOver_newRound, (unused key).2.2, nothing, UInt64.toNat_zero, Int.natCast_zero, ite_self, Int.add_zero]

omit current payees exact in
theorem live_newRound {hashBlock : Uint1024} {cBlock : Block}
    (live : (books.newRound round nBestHeight).Live hashBlock cBlock) :
    (hashBlock = round.hashBlockSubmission ∧ cBlock = settledBlock round round.nRoundReward books.databases) ∨
      books.Live hashBlock cBlock := by
  obtain ⟨found, value⟩ := live
  rw [databases_newRound, (stores_newRound inOrder.wellKeyed finder).2, Records.getElem?_updateRecord] at found
  split at found
  · rename_i here
    exact Or.inl ⟨here.symm, (Option.some.inj found).symm⟩
  · exact Or.inr ⟨found, value⟩

theorem balanced_newRound (key : StdString) :
    (books.newRound round nBestHeight).balance key + (books.newRound round nBestHeight).paid key =
      opening key + (books.newRound round nBestHeight).earned key + (books.newRound round nBestHeight).kept key := by
  have wellKeyed := inOrder.wellKeyed
  have balance : (books.newRound round nBestHeight).balance key =
      ((moved round books.databases key).settledBalance.toNat : Int) := by
    rw [Books.balance, databases_newRound, balance_newRound wellKeyed finder payees]
  have orphaned : (books.newRound round nBestHeight).tables.orphaned = books.tables.orphaned :=
    funext fun nRound => orphaned_newRound wellKeyed finder nBestHeight nRound
  have stands : books.tables.orphaned round.nCurrentRound = false :=
    current ▸ (inOrder.ahead books.nCurrentRound (UInt32.le_refl _)).1
  have settled := (exact key).settledBalance
  have before : ((moved round books.databases key).balance.toNat : Int) = books.balance key := rfl
  have balanced := inOrder.balanced key
  rw [balance, Books.paid, Books.earned, kept, orphaned, paid_newRound wellKeyed finder nBestHeight payees,
    earned_newRound wellKeyed finder nBestHeight payees, leftOver_newRound, stands, if_neg Bool.false_ne_true]
  dsimp only
  rw [if_pos rfl, if_pos rfl, Int.add_zero, (exact key).earning, (exact key).payment]
  rw [Books.paid, Books.earned, kept] at balanced
  omega

theorem InOrder.newRound (named : round.LAST_ROUND_BLOCKFINDER ≠ []) (room : books.nCurrentRound.toNat + 1 < 2 ^ 32) :
    InOrder opening (books.newRound round nBestHeight) := by
  have stores := stores_newRound inOrder.wellKeyed finder
  have next : (books.newRound round nBestHeight).nCurrentRound.toNat = books.nCurrentRound.toNat + 1 := by
    show (books.nCurrentRound + 1).toNat = _
    rw [UInt32.toNat_add]
    show (_ + 1) % _ = _
    omega
  have later : books.nCurrentRound ≤ (books.newRound round nBestHeight).nCurrentRound := by
    rw [UInt32.le_iff_toNat_le, next]
    omega
  have same {nRound : UInt32} (other : nRound ≠ books.nCurrentRound) :=
    sameRound_newRound nBestHeight inOrder current finder payees other
  have live {hashBlock : Uint1024} {cBlock : Block} (isLive : (books.newRound round nBestHeight).Live hashBlock cBlock) :=
    live_newRound nBestHeight inOrder finder isLive
  have past {hashBlock : Uint1024} {cBlock : Block} (live : books.Live hashBlock cBlock) :
      cBlock.nRound ≠ books.nCurrentRound := UInt32.ne_of_lt (inOrder.entered hashBlock cBlock live).earlier
  refine {
    wellKeyed := ?_
    ahead := fun nRound high => ?_
    entered := fun hashBlock cBlock isLive => ?_
    distinct := fun hashBlock cBlock hashOther cOther isLive isLiveOther sameRound => ?_
    balanced := balanced_newRound nBestHeight inOrder current finder payees exact
    cleared := fun nRound orphaned key => ?_ }
  · rw [databases_newRound, stores.1]
    exact inOrder.wellKeyed.map fun _ _ => rfl
  · rw [UInt32.le_iff_toNat_le, next] at high
    have other : nRound ≠ books.nCurrentRound := by
      rintro rfl
      omega
    have higher : books.nCurrentRound ≤ nRound := by
      rw [UInt32.le_iff_toNat_le]
      omega
    obtain ⟨stands, unused⟩ := inOrder.ahead nRound higher
    refine ⟨(same other).orphaned.trans stands, fun key => ?_⟩
    rw [(same other).earned, (same other).paid, (same other).leftOver]
    exact unused key
  · rcases live isLive with ⟨rfl, rfl⟩ | before
    · exact entered_newRound nBestHeight inOrder current finder payees exact named room
    · refine (inOrder.entered hashBlock cBlock before).mono (same (past before)) later fun key member => ?_
      rw [databases_newRound, stores.1, ExtTreeMap.mem_map]
      exact member
  · rcases live isLive with ⟨rfl, rfl⟩ | before
    · rcases live isLiveOther with ⟨rfl, rfl⟩ | beforeOther
      · rfl
      · exact absurd (sameRound.symm.trans current) (past beforeOther)
    · rcases live isLiveOther with ⟨rfl, rfl⟩ | beforeOther
      · exact absurd (sameRound.trans current) (past before)
      · exact inOrder.distinct hashBlock cBlock hashOther cOther before beforeOther sameRound
  · rw [orphaned_newRound inOrder.wellKeyed finder] at orphaned
    have other : nRound ≠ books.nCurrentRound := by
      rintro rfl
      rw [(inOrder.ahead _ (UInt32.le_refl _)).1] at orphaned
      cases orphaned
    rw [(same other).earned, (same other).paid]
    exact inOrder.cleared nRound orphaned key

end NewRound

/-! ## Orphans -/

theorem record_orphanBlock (books : Books) (hashOrphan : Uint1024) :
    books.record (Recorded.orphanBlock hashOrphan) =
      let read : Databases :=
        { books.databases with BlockDB := (books.databases.BlockDB.getRecord hashOrphan).2 }
      { books with
        databases := (run perform (refundPayouts hashOrphan) read).2
        tables := books.tables.calls (notes perform (Recorded.refundPayouts hashOrphan) read) } := by
  rw [record_eq, Recorded.orphanBlock, erase_bind, notes_bind, erase_quiet, notes_quiet, Recorded.erase_refundPayouts]
  rfl

theorem InOrder.orphanBlock_of_zero (inOrder : InOrder opening books) {hashOrphan : Uint1024}
    (processed : (books.databases.BlockDB.getRecord hashOrphan).1.nCoinbaseValue = 0) :
    InOrder opening (books.record (Recorded.orphanBlock hashOrphan)) := by
  have again : (books.databases.BlockDB.getRecord hashOrphan).2.getRecord hashOrphan =
      books.databases.BlockDB.getRecord hashOrphan :=
    Records.getRecord_of_getElem? (Records.getElem?_getRecord_self _ _)
  rw [record_orphanBlock]
  dsimp only
  rw [run_refundPayouts_of_zero (by rw [again]; exact processed), Recorded.notes_refundPayouts]
  dsimp only
  rw [again, if_pos processed]
  refine inOrder.frame inOrder.wellKeyed (fun _ member => member) (fun _ => rfl) fun hashBlock cBlock found value => ?_
  -- A block that was not there is now a blank record, which has no value.
  rcases Records.eq_blank_or_of_getRecord found with blank | found
  · rw [blank] at value
    exact absurd rfl value
  · exact found

section OrphanBlock

variable {hashOrphan : Uint1024} {cBlock : Block} (inOrder : InOrder opening books)
  (live : books.Live hashOrphan cBlock)

include inOrder live

theorem record_orphanBlock_of_live :
    books.record (Recorded.orphanBlock hashOrphan) =
      let BlockDB := books.databases.BlockDB.updateRecord { cBlock with nCoinbaseValue := 0 }
      { books with
        databases :=
          { books.databases with
            AccountDB := books.databases.AccountDB.map (refundAccount cBlock)
            BlockDB
            blkDat := some (Database.fileOf BlockDB) }
        tables := books.tables.calls (Recorded.refundRows cBlock) } := by
  obtain ⟨found, value⟩ := live
  have entered := inOrder.entered hashOrphan cBlock ⟨found, value⟩
  have read := Records.getRecord_of_getElem? found
  rw [record_orphanBlock, read]
  dsimp only
  rw [run_refundPayouts inOrder.wellKeyed found value entered.credits entered.outputs, Recorded.notes_refundPayouts, read,
    if_neg value]

theorem earned_orphanBlock (wanted : UInt32 → Bool) (key : StdString) :
    books.tables.earned wanted key =
      (books.tables.calls (Recorded.refundRows cBlock)).earned wanted key +
        if wanted cBlock.nRound then books.tables.earned (· = cBlock.nRound) key else 0 := by
  have entered := inOrder.entered hashOrphan cBlock live
  rw [StatsTables.earned_refundRows _ wanted key cBlock]
  congr 1
  by_cases credited : key ∈ cBlock.cCredits.mapCredits
  · exact if_congr (and_iff_right credited) rfl rfl
  · have none : books.tables.earned (· = cBlock.nRound) key = 0 := by
      rw [entered.earned, entered.finder key credited, AmountMap.amount, ExtTreeMap.getD_eq_fallback credited]
      rfl
    rw [none, ite_self, ite_self]

theorem paid_orphanBlock (wanted : UInt32 → Bool) (key : StdString) :
    books.tables.paid wanted key =
      (books.tables.calls (Recorded.refundRows cBlock)).paid wanted key +
        if wanted cBlock.nRound then books.tables.paid (· = cBlock.nRound) key else 0 := by
  have entered := inOrder.entered hashOrphan cBlock live
  rw [StatsTables.paid_refundRows _ wanted key cBlock]
  congr 1
  by_cases paidOut : key ∈ cBlock.cCoinbase.mapOutputs
  · exact if_congr (and_iff_right paidOut) rfl rfl
  · have none : books.tables.paid (· = cBlock.nRound) key = 0 := by
      rw [entered.paid, AmountMap.amount, ExtTreeMap.getD_eq_fallback paidOut]
      rfl
    rw [none, ite_self, ite_self]

theorem orphaned_orphanBlock (nRound : UInt32) :
    (books.tables.calls (Recorded.refundRows cBlock)).orphaned nRound =
      (books.tables.orphaned nRound || nRound = cBlock.nRound) := by
  rw [StatsTables.orphaned_refundRows, (inOrder.entered hashOrphan cBlock live).listed, Bool.and_true]

theorem leftOver_orphanBlock (key : StdString) :
    books.leftOver (books.tables.calls (Recorded.refundRows cBlock)).orphaned key =
      books.leftOver books.tables.orphaned key + books.leftOver (· = cBlock.nRound) key := by
  have entered := inOrder.entered hashOrphan cBlock live
  rw [leftOver, leftOver, leftOver, ← tally_or]
  · refine tally_congr fun remainder _ => ?_
    rw [orphaned_orphanBlock inOrder live, Bool.and_or_distrib_left]
  · intro remainder _ chosen
    rw [Bool.and_eq_true] at chosen
    rw [Bool.and_eq_false_iff]
    refine Or.inr (decide_eq_false fun same => ?_)
    rw [same, entered.stands] at chosen
    cases chosen.2

theorem toNat_refunded (exact : ∀ entry ∈ books.databases.AccountDB.toList, ExactRefund cBlock entry.1 entry.2)
    (key : StdString) :
    (books.record (Recorded.orphanBlock hashOrphan)).balance key + cBlock.cCredits.mapCredits.amount key =
      books.balance key + cBlock.cCoinbase.mapOutputs.amount key := by
  have entered := inOrder.entered hashOrphan cBlock live
  rw [record_orphanBlock_of_live inOrder live, balance, balance, Databases.account]
  dsimp only
  by_cases present : key ∈ books.databases.AccountDB
  · obtain ⟨cAccount, found⟩ := getElem?_of_mem present
    obtain ⟨covered, fits⟩ := exact (key, cAccount) (ExtTreeMap.mem_toList_iff_getElem?_eq_some.mpr found)
    dsimp only at covered fits
    rw [ExtTreeMap.getD_eq_getD_getElem?, ExtTreeMap.getElem?_map, found, Option.map_some, Option.getD_some,
      toNat_refundAccount, Nat.mod_eq_of_lt fits, Databases.account_of_getElem? found]
    omega
  · have uncredited : key ∉ cBlock.cCredits.mapCredits := fun member => present (entered.credits key member)
    have unpaid : key ∉ cBlock.cCoinbase.mapOutputs := fun member => present (entered.outputs key member)
    have missing : key ∉ books.databases.AccountDB.map (refundAccount cBlock) := by
      rw [ExtTreeMap.mem_map]
      exact present
    rw [ExtTreeMap.getD_eq_fallback missing, Databases.account, ExtTreeMap.getD_eq_fallback present, AmountMap.amount,
      AmountMap.amount, ExtTreeMap.getD_eq_fallback uncredited, ExtTreeMap.getD_eq_fallback unpaid]

theorem sameRound_orphanBlock {nRound : UInt32} (other : nRound ≠ cBlock.nRound) :
    SameRound books (books.record (Recorded.orphanBlock hashOrphan)) nRound := by
  have unwanted : decide (cBlock.nRound = nRound) = false := decide_eq_false (Ne.symm other)
  rw [record_orphanBlock_of_live inOrder live]
  refine ⟨fun key => ?_, fun key => ?_, fun key => rfl, ?_, fun listed => ?_⟩
  · rw [earned_orphanBlock inOrder live (· = nRound), unwanted, if_neg Bool.false_ne_true, Int.add_zero]
  · rw [paid_orphanBlock inOrder live (· = nRound), unwanted, if_neg Bool.false_ne_true, Int.add_zero]
  · dsimp only
    rw [orphaned_orphanBlock inOrder live, decide_eq_false other, Bool.or_false]
  · exact (StatsTables.listed_refundRows _ cBlock nRound).trans listed

theorem tables_orphanBlock :
    (books.record (Recorded.orphanBlock hashOrphan)).tables = books.tables.calls (Recorded.refundRows cBlock) := by
  rw [record_orphanBlock_of_live inOrder live]

theorem live_orphanBlock {hashBlock : Uint1024} {cOther : Block}
    (isLive : (books.record (Recorded.orphanBlock hashOrphan)).Live hashBlock cOther) :
    books.Live hashBlock cOther ∧ cOther.nRound ≠ cBlock.nRound := by
  obtain ⟨found, value⟩ := isLive
  rw [record_orphanBlock_of_live inOrder live, Records.getElem?_updateRecord] at found
  split at found
  -- The record of the orphan itself has lost its value.
  · obtain rfl := Option.some.inj found
    exact absurd rfl value
  · rename_i elsewhere
    refine ⟨⟨found, value⟩, fun sameRound => elsewhere ?_⟩
    have own := (inOrder.entered hashOrphan cBlock live).own
    exact own.trans (inOrder.distinct _ _ _ _ live ⟨found, value⟩ sameRound.symm)

theorem balanced_orphanBlock
    (exact : ∀ entry ∈ books.databases.AccountDB.toList, ExactRefund cBlock entry.1 entry.2) (key : StdString) :
    (books.record (Recorded.orphanBlock hashOrphan)).balance key + (books.record (Recorded.orphanBlock hashOrphan)).paid key =
      opening key + (books.record (Recorded.orphanBlock hashOrphan)).earned key +
        (books.record (Recorded.orphanBlock hashOrphan)).kept key := by
  have entered := inOrder.entered hashOrphan cBlock live
  have remainders (wanted : UInt32 → Bool) :
      (books.record (Recorded.orphanBlock hashOrphan)).leftOver wanted key = books.leftOver wanted key := by
    rw [record_orphanBlock_of_live inOrder live]
    rfl
  have balanced := inOrder.balanced key
  have moved := toNat_refunded inOrder live exact key
  have earned := earned_orphanBlock inOrder live (fun _ => true) key
  have paid := paid_orphanBlock inOrder live (fun _ => true) key
  -- The deleted rows are the amounts of the block that the refund takes back, up to the remainder.
  rw [if_pos rfl, entered.earned] at earned
  rw [if_pos rfl, entered.paid] at paid
  rw [Books.paid, Books.earned, kept] at balanced
  rw [Books.paid, Books.earned, kept, tables_orphanBlock inOrder live, remainders, leftOver_orphanBlock inOrder live]
  omega

theorem cleared_orphanBlock {nRound : UInt32}
    (orphaned : (books.record (Recorded.orphanBlock hashOrphan)).tables.orphaned nRound = true) (key : StdString) :
    (books.record (Recorded.orphanBlock hashOrphan)).tables.earned (· = nRound) key = 0 ∧
      (books.record (Recorded.orphanBlock hashOrphan)).tables.paid (· = nRound) key = 0 := by
  rw [tables_orphanBlock inOrder live] at orphaned ⊢
  rw [orphaned_orphanBlock inOrder live, Bool.or_eq_true] at orphaned
  by_cases here : nRound = cBlock.nRound
  · subst here
    have earned := earned_orphanBlock inOrder live (· = cBlock.nRound) key
    have paid := paid_orphanBlock inOrder live (· = cBlock.nRound) key
    rw [decide_eq_true rfl, if_pos rfl] at earned paid
    omega
  · have same := sameRound_orphanBlock inOrder live here
    rcases orphaned with orphaned | now
    · rw [← tables_orphanBlock inOrder live, same.earned, same.paid]
      exact inOrder.cleared nRound orphaned key
    · exact absurd (of_decide_eq_true now) here

theorem InOrder.orphanBlock_of_live
    (exact : ∀ entry ∈ books.databases.AccountDB.toList, ExactRefund cBlock entry.1 entry.2) :
    InOrder opening (books.record (Recorded.orphanBlock hashOrphan)) := by
  have entered := inOrder.entered hashOrphan cBlock live
  have same {nRound : UInt32} (other : nRound ≠ cBlock.nRound) := sameRound_orphanBlock inOrder live other
  have accounts (key : StdString) (member : key ∈ books.databases.AccountDB) :
      key ∈ (books.record (Recorded.orphanBlock hashOrphan)).databases.AccountDB := by
    rw [record_orphanBlock_of_live inOrder live]
    exact ExtTreeMap.mem_map.mpr member
  refine {
    wellKeyed := ?_
    ahead := fun nRound high => ?_
    entered := fun hashBlock cOther isLive => ?_
    distinct := fun hashBlock cOne hashOther cTwo one two => ?_
    balanced := balanced_orphanBlock inOrder live exact
    cleared := fun nRound orphaned => cleared_orphanBlock inOrder live orphaned }
  · rw [record_orphanBlock_of_live inOrder live]
    exact inOrder.wellKeyed.map fun _ _ => rfl
  · have other : nRound ≠ cBlock.nRound := (UInt32.ne_of_lt (UInt32.lt_of_lt_of_le entered.earlier high)).symm
    obtain ⟨stands, unused⟩ := inOrder.ahead nRound high
    refine ⟨(same other).orphaned.trans stands, fun key => ?_⟩
    rw [(same other).earned, (same other).paid, (same other).leftOver]
    exact unused key
  · obtain ⟨before, other⟩ := live_orphanBlock inOrder live isLive
    exact (inOrder.entered hashBlock cOther before).mono (same other) (UInt32.le_refl _) accounts
  · exact inOrder.distinct hashBlock cOne hashOther cTwo (live_orphanBlock inOrder live one).1
      (live_orphanBlock inOrder live two).1

end OrphanBlock

/-! ## Runs -/

theorem InOrder.step (inOrder : InOrder opening books) {event : BooksEvent D} (taken : books.step event = some after)
    (exact : books.Exact event) : InOrder opening after := by
  cases event with
  | login ADDRESS =>
      cases taken
      exact inOrder.login ADDRESS
  | submitShare ADDRESS nWeight =>
      rw [Books.step] at taken
      split at taken
      · rename_i loggedIn
        cases taken
        exact inOrder.submitShare loggedIn nWeight
      · cases taken
  | newRound round nBestHeight =>
      cases taken
      obtain ⟨named, finder, listed, room, exact⟩ := exact
      have payees : ∀ key ∈ round.cGlobalCoinbase.mapOutputs, key ∈ books.databases.AccountDB := by
        intro key member
        obtain ⟨nValue, found⟩ := getElem?_of_mem member
        exact listed (key, nValue) (ExtTreeMap.mem_toList_iff_getElem?_eq_some.mpr found)
      exact InOrder.newRound nBestHeight inOrder rfl finder payees (exact_moved finder payees exact) named room
  | orphanBlock hashOrphan =>
      cases taken
      by_cases processed : (books.databases.BlockDB.getRecord hashOrphan).1.nCoinbaseValue = 0
      · exact inOrder.orphanBlock_of_zero processed
      · exact inOrder.orphanBlock_of_live ⟨found_of_valued processed, processed⟩ (exact processed)

section Runs

variable {databases : Databases} {events : List (BooksEvent D)} (wellKeyed : databases.AccountDB.WellKeyed)
  (noBlocks : databases.BlockDB = ∅)
  (exact : EachStep step (fun books event _ => books.Exact event) events (start databases))

include wellKeyed noBlocks exact

end Runs

end Books

end PrimePool.Core

import PrimePool.Core.ShareAcceptance

/-!
# The statistics tables

The tables of rounds, earnings and payments of `mysqlstatspersister.cpp`, and `NewRound` and `RefundPayouts` with the
calls of the statistics collector that write them. The times of the rows are left out. An amount is 64 bits wide on its
way to the persister, and its column 32.
-/

namespace PrimePool.Core

open PrimePool.General PrimePool.LLD Std Program

/-! ## Tables -/

structure RoundData where
  nRound : UInt32
  nBlockNumber : UInt32
  /-- The text is its digits. -/
  hashBlock : Uint1024
  nRoundReward : UInt64
  nTotalShares : UInt64
  strBlockFinder : StdString
  bOrphan : Bool

structure AccountEarningTransaction where
  strAccountAddress : StdString
  nRound : UInt32
  nBlockNumber : UInt32
  nShares : UInt64
  nAmountEarned : UInt64

structure AccountPaymentTransaction where
  strAccountAddress : StdString
  nRound : UInt32
  nBlockNumber : UInt32
  nAmountPaid : UInt32

/-- What `%i` writes of a 64-bit amount into an `INT` column. -/
def column (nValue : UInt64) : Int := (narrowInt nValue).toInt

@[simp] theorem column_zero : column 0 = 0 := by decide

def AccountEarningTransaction.amount_earned (lAccountEarningTransaction : AccountEarningTransaction) : Int :=
  column lAccountEarningTransaction.nAmountEarned

def AccountPaymentTransaction.amount_paid (lAccountPaymentTransaction : AccountPaymentTransaction) : Int :=
  lAccountPaymentTransaction.nAmountPaid.toInt32.toInt

inductive TableCall where
  | addRoundData (lRoundData : RoundData)
  | flagRoundAsOrphan (nRound : UInt32)
  | addAccountEarnings (lAccountEarningTransaction : AccountEarningTransaction)
  | deleteAccountEarnings (strAccountAddress : StdString) (nRound : UInt32)
  | addAccountPayment (lAccountPaymentTransaction : AccountPaymentTransaction)
  | deleteAccountPayment (strAccountAddress : StdString) (nRound : UInt32)

/-- A row is the record that the persister was given for it. -/
structure StatsTables where
  round_history : List RoundData
  earnings_history : List AccountEarningTransaction
  payment_history : List AccountPaymentTransaction

namespace StatsTables

def empty : StatsTables := { round_history := [], earnings_history := [], payment_history := [] }

def listed (tables : StatsTables) (nRound : UInt32) : Bool := tables.round_history.any fun row => row.nRound = nRound

def call (tables : StatsTables) : TableCall → StatsTables
  | .addRoundData lRoundData =>
      -- `PRIMARY KEY (round_number)`
      if tables.listed lRoundData.nRound then tables
      else { tables with round_history := tables.round_history ++ [lRoundData] }
  | .flagRoundAsOrphan nRound =>
      { tables with
        round_history := tables.round_history.map fun row =>
          if row.nRound = nRound then { row with bOrphan := true } else row }
  | .addAccountEarnings lAccountEarningTransaction =>
      { tables with earnings_history := tables.earnings_history ++ [lAccountEarningTransaction] }
  | .deleteAccountEarnings strAccountAddress nRound =>
      { tables with
        earnings_history := tables.earnings_history.filter fun row =>
          !(row.strAccountAddress = strAccountAddress && row.nRound = nRound) }
  | .addAccountPayment lAccountPaymentTransaction =>
      { tables with payment_history := tables.payment_history ++ [lAccountPaymentTransaction] }
  | .deleteAccountPayment strAccountAddress nRound =>
      { tables with
        payment_history := tables.payment_history.filter fun row =>
          !(row.strAccountAddress = strAccountAddress && row.nRound = nRound) }

def calls (tables : StatsTables) (calls : List TableCall) : StatsTables := calls.foldl call tables

end StatsTables

/-! ## The settlements with the rows they write -/

abbrev TablesProgram (α : Type) : Type := Program (DatabaseCall ⊕ TableCall) (LogRes DatabaseCall.Result TableCall) α

namespace Recorded

def removeCredit (nRoundToRefund : UInt32) (_ : Unit) (credit : StdString × UInt64) : TablesProgram Unit := do
  (Core.removeCredit () credit).quiet
  note (.deleteAccountEarnings credit.1 nRoundToRefund)

def refundOutput (nRoundToRefund : UInt32) (_ : Unit) (output : StdString × UInt64) : TablesProgram Unit := do
  (Core.refundOutput () output).quiet
  note (.deleteAccountPayment output.1 nRoundToRefund)

def refundPayouts (hashBlock : Uint1024) : TablesProgram Unit := do
  let cBlock ← (getBlock hashBlock).quiet
  if cBlock.nCoinbaseValue = 0 then
    return ()
  note (.flagRoundAsOrphan cBlock.nRound)
  let cBlock := { cBlock with nCoinbaseValue := 0 }
  cBlock.cCredits.mapCredits.toList.foldlM (removeCredit cBlock.nRound) ()
  cBlock.cCoinbase.mapOutputs.toList.foldlM (refundOutput cBlock.nRound) ()
  (updateBlock cBlock).quiet
  writeBlocks.quiet

variable {D : Type} [Double D]

/-- The globals that the rows of a round take. -/
def earning (round : Round D) (nBestHeight : UInt32) (strAccountAddress : StdString) (nShares nAmountEarned : UInt64) :
    TableCall :=
  .addAccountEarnings
    { strAccountAddress, nRound := round.nCurrentRound, nBlockNumber := nBestHeight, nShares, nAmountEarned }

def payment (round : Round D) (nBestHeight : UInt32) (strAccountAddress : StdString) (nAmountPaid : UInt64) :
    TableCall :=
  .addAccountPayment
    { strAccountAddress, nRound := round.nCurrentRound, nBlockNumber := nBestHeight, nAmountPaid := nAmountPaid.toUInt32 }

def creditFinder (round : Round D) (nBestHeight : UInt32) (nReward : UInt64) : TablesProgram (Credits × UInt64) := do
  let credited ← (Core.creditFinder D round.LAST_ROUND_BLOCKFINDER nReward).quiet
  if round.LAST_ROUND_BLOCKFINDER ≠ [] then
    note (earning round nBestHeight round.LAST_ROUND_BLOCKFINDER 0 (finderBonus D nReward))
  return credited

def deductPayout (round : Round D) (nBestHeight : UInt32) (key : StdString) (cAccount : Account) :
    TablesProgram Account := do
  let cAccount ← (Core.deductPayout round.cGlobalCoinbase.mapOutputs key cAccount).quiet
  match round.cGlobalCoinbase.mapOutputs[key]? with
  | none => return cAccount
  | some nValue =>
      note (payment round nBestHeight key nValue)
      return cAccount

def creditAccount (round : Round D) (nBestHeight : UInt32) (nTotalWeight nReward : UInt64) (credited : Credits × UInt64)
    (key : StdString) (cAccount : Account) : TablesProgram (Credits × UInt64) := do
  let credited ← (Core.creditAccount D nTotalWeight nReward credited key cAccount).quiet
  if cAccount.nRoundShares ≠ 0 then
    note (earning round nBestHeight key cAccount.nRoundShares
      (shareCredit D cAccount.nRoundShares nTotalWeight nReward))
  return credited

def settleAccount (round : Round D) (nBestHeight : UInt32) (nTotalWeight nReward : UInt64)
    (credited : Credits × UInt64) (key : StdString) : TablesProgram (Credits × UInt64) := do
  let cAccount ← (getAccount .creditLoop key).quiet
  let cAccount ← deductPayout round nBestHeight key cAccount
  creditAccount round nBestHeight nTotalWeight nReward credited key cAccount

def giveRemainder (round : Round D) (nBestHeight : UInt32) (nReward nTotalReward : UInt64) : TablesProgram Unit := do
  (Core.giveRemainder round.LAST_ROUND_BLOCKFINDER nReward nTotalReward).quiet
  if nReward > nTotalReward then
    note (earning round nBestHeight round.LAST_ROUND_BLOCKFINDER 0 (nReward - nTotalReward))

def updateBalances (round : Round D) (nBestHeight : UInt32) (nReward : UInt64) : TablesProgram Unit := do
  let nReward := lessPoolFee round.lfPoolFee nReward
  let (cCredits, nReward) ← creditFinder round nBestHeight nReward
  let nTotalWeight ← totalWeight.quiet
  let vKeys ← accountKeys.quiet
  let (cCredits, nTotalReward) ← vKeys.foldlM (settleAccount round nBestHeight nTotalWeight nReward) (cCredits, 0)
  giveRemainder round nBestHeight nReward nTotalReward
  (updateBlock { newBlock round with cCredits }).quiet
  writeBlocks.quiet
  writeAccounts.quiet

/-- `STATSCOLLECTOR.SaveCurrentRound()`. -/
def saveCurrentRound (round : Round D) (nBestHeight : UInt32) : TablesProgram Unit := do
  let nTotalShares ← totalWeight.quiet
  note (.addRoundData
    { nRound := round.nCurrentRound
      nBlockNumber := nBestHeight
      hashBlock := round.hashBlockSubmission
      nRoundReward := round.nRoundReward
      nTotalShares
      strBlockFinder := round.LAST_ROUND_BLOCKFINDER
      bOrphan := false })

def newRound (round : Round D) (nBestHeight : UInt32) : TablesProgram Unit := do
  saveCurrentRound round nBestHeight
  updateBalances round nBestHeight round.nRoundReward
  clearShares.quiet

/-! ## Without the rows -/

theorem erase_refundPayouts (hashBlock : Uint1024) : (refundPayouts hashBlock).erase = Core.refundPayouts hashBlock := by
  have credits (nRound : UInt32) (b : Unit) (credit : StdString × UInt64) :
      (removeCredit nRound b credit).erase = Core.removeCredit b credit := by
    simp only [removeCredit, erase_bind, erase_quiet]
    rfl
  have outputs (nRound : UInt32) (b : Unit) (output : StdString × UInt64) :
      (refundOutput nRound b output).erase = Core.refundOutput b output := by
    simp only [refundOutput, erase_bind, erase_quiet]
    rfl
  simp only [refundPayouts, Core.refundPayouts, erase_bind, erase_quiet]
  congr 1
  funext cBlock
  split
  · rfl
  · simp only [erase_bind, erase_note, erase_quiet, erase_foldlM (credits _), erase_foldlM (outputs _), done_bind]

theorem erase_creditFinder (round : Round D) (nBestHeight : UInt32) (nReward : UInt64) :
    (creditFinder round nBestHeight nReward).erase = Core.creditFinder D round.LAST_ROUND_BLOCKFINDER nReward := by
  simp only [creditFinder, erase_bind, erase_quiet]
  refine Eq.trans (congrArg _ (funext fun credited => ?_)) (bind_done _)
  split <;> rfl

omit [Double D] in
theorem erase_deductPayout (round : Round D) (nBestHeight : UInt32) (key : StdString) (cAccount : Account) :
    (deductPayout round nBestHeight key cAccount).erase =
      Core.deductPayout round.cGlobalCoinbase.mapOutputs key cAccount := by
  simp only [deductPayout, erase_bind, erase_quiet]
  refine Eq.trans (congrArg _ (funext fun cAccount => ?_)) (bind_done _)
  split <;> rfl

theorem erase_creditAccount (round : Round D) (nBestHeight : UInt32) (nTotalWeight nReward : UInt64)
    (credited : Credits × UInt64) (key : StdString) (cAccount : Account) :
    (creditAccount round nBestHeight nTotalWeight nReward credited key cAccount).erase =
      Core.creditAccount D nTotalWeight nReward credited key cAccount := by
  simp only [creditAccount, erase_bind, erase_quiet]
  refine Eq.trans (congrArg _ (funext fun credited => ?_)) (bind_done _)
  split <;> rfl

theorem erase_settleAccount (round : Round D) (nBestHeight : UInt32) (nTotalWeight nReward : UInt64)
    (credited : Credits × UInt64) (key : StdString) :
    (settleAccount round nBestHeight nTotalWeight nReward credited key).erase =
      Core.settleAccount D round.cGlobalCoinbase.mapOutputs nTotalWeight nReward credited key := by
  simp only [settleAccount, Core.settleAccount, erase_bind, erase_quiet, erase_deductPayout, erase_creditAccount]

omit [Double D] in
theorem erase_giveRemainder (round : Round D) (nBestHeight : UInt32) (nReward nTotalReward : UInt64) :
    (giveRemainder round nBestHeight nReward nTotalReward).erase =
      Core.giveRemainder round.LAST_ROUND_BLOCKFINDER nReward nTotalReward := by
  simp only [giveRemainder, erase_bind, erase_quiet]
  refine Eq.trans (congrArg _ (funext fun done => ?_)) (bind_done _)
  split <;> rfl

theorem erase_updateBalances (round : Round D) (nBestHeight : UInt32) (nReward : UInt64) :
    (updateBalances round nBestHeight nReward).erase = Core.updateBalances round nReward := by
  simp only [updateBalances, Core.updateBalances, erase_bind, erase_quiet, erase_creditFinder,
    erase_foldlM (erase_settleAccount _ _ _ _), erase_giveRemainder]

end Recorded

end PrimePool.Core

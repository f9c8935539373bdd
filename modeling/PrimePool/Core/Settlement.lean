import PrimePool.Core.Databases

/-!
# Settlement

`core.cpp`: `UpdateBalances`, `ClearShares` and `RefundPayouts` as programs over the database calls.
What the statistics collector records and the log lines are left out.
-/

namespace PrimePool.Core

open PrimePool.General PrimePool.LLD

/-- What the pool asks of C++'s `double`. -/
class Double (D : Type) extends Mul D, Sub D, Div D, OfScientific D where
  ofUInt64 : UInt64 → D
  toUInt64 : D → UInt64

instance : Double Float where
  ofUInt64 := UInt64.toFloat
  toUInt64 := Float.toUInt64

variable {D : Type} [Double D]

structure Round (D : Type) where
  lfPoolFee : D
  cGlobalCoinbase : Coinbase
  nRoundReward : UInt64
  hashBlockSubmission : Uint1024
  LAST_ROUND_BLOCKFINDER : StdString
  nCurrentRound : UInt32

/-! ## Amounts -/

def lessPoolFee (lfPoolFee : D) (nReward : UInt64) : UInt64 :=
  Double.toUInt64 (Double.ofUInt64 nReward - Double.ofUInt64 nReward * lfPoolFee)

def finderBonus (D : Type) [Double D] (nReward : UInt64) : UInt64 :=
  Double.toUInt64 (Double.ofUInt64 nReward * (0.02 : D))

/-- `unsigned int nCredit = (((double)cAccount.nRoundShares / nTotalWeight) * nReward)`; a value that does
not fit keeps its low word. -/
def shareCredit (D : Type) [Double D] (nRoundShares nTotalWeight nReward : UInt64) : UInt64 :=
  (Double.toUInt64
    ((Double.ofUInt64 nRoundShares / Double.ofUInt64 nTotalWeight : D) * Double.ofUInt64 nReward)).toUInt32.toUInt64

def deduct (nBalance nValue : UInt64) : UInt64 := if nValue > nBalance then 0 else nBalance - nValue

/-! ## Round shares -/

def clearShares : DatabaseProgram Unit := do
  let vKeys ← accountKeys
  vKeys.foldlM (fun _ key => do
    let cAccount ← getAccount .clearShares key
    updateAccount .clearShares { cAccount with nRoundShares := 0 }) ()

def totalWeight : DatabaseProgram UInt64 := do
  let vKeys ← accountKeys
  vKeys.foldlM (fun nWeight key => do
    let cAccount ← getAccount .totalWeight key
    return nWeight + cAccount.nRoundShares) 0

/-! ## Refunds -/

def removeCredit (_ : Unit) (credit : StdString × UInt64) : DatabaseProgram Unit := do
  let cAccount ← getAccount .refundPayouts credit.1
  updateAccount .refundPayouts
    { cAccount with nAccountBalance := deduct cAccount.nAccountBalance credit.2 }

def refundOutput (_ : Unit) (output : StdString × UInt64) : DatabaseProgram Unit := do
  let cAccount ← getAccount .refundPayouts output.1
  updateAccount .refundPayouts { cAccount with nAccountBalance := cAccount.nAccountBalance + output.2 }

def refundPayouts (hashBlock : Uint1024) : DatabaseProgram Unit := do
  let cBlock ← getBlock hashBlock
  if cBlock.nCoinbaseValue = 0 then
    return ()
  let cBlock := { cBlock with nCoinbaseValue := 0 }
  cBlock.cCredits.mapCredits.toList.foldlM removeCredit ()
  cBlock.cCoinbase.mapOutputs.toList.foldlM refundOutput ()
  updateBlock cBlock
  writeBlocks

/-! ## Balances -/

def newBlock (round : Round D) : Block :=
  { Block.new round.hashBlockSubmission with
    cCoinbase := round.cGlobalCoinbase
    nCoinbaseValue := round.cGlobalCoinbase.nMaxValue + round.cGlobalCoinbase.nPoolFee
    nRound := round.nCurrentRound }

def creditFinder (D : Type) [Double D] (finder : StdString) (nReward : UInt64) :
    DatabaseProgram (Credits × UInt64) := do
  if finder = [] then
    return (.new, nReward)
  let nCredit := finderBonus D nReward
  let cAccount ← getAccount .finderBonus finder
  updateAccount .finderBonus { cAccount with nAccountBalance := cAccount.nAccountBalance + nCredit }
  return (Credits.new.addCredit finder nCredit, nReward - nCredit)

def deductPayout (outputs : AmountMap) (key : StdString) (cAccount : Account) : DatabaseProgram Account := do
  match outputs[key]? with
  | none => return cAccount
  | some nValue =>
      let cAccount := { cAccount with nAccountBalance := deduct cAccount.nAccountBalance nValue }
      updateAccount .creditLoop cAccount
      return cAccount

def creditAccount (D : Type) [Double D] (nTotalWeight nReward : UInt64) (credited : Credits × UInt64)
    (key : StdString) (cAccount : Account) : DatabaseProgram (Credits × UInt64) := do
  if cAccount.nRoundShares = 0 then
    return credited
  let nCredit := shareCredit D cAccount.nRoundShares nTotalWeight nReward
  updateAccount .creditLoop { cAccount with nAccountBalance := cAccount.nAccountBalance + nCredit }
  return (credited.1.addCredit key nCredit, credited.2 + nCredit)

def settleAccount (D : Type) [Double D] (outputs : AmountMap) (nTotalWeight nReward : UInt64)
    (credited : Credits × UInt64) (key : StdString) : DatabaseProgram (Credits × UInt64) := do
  let cAccount ← getAccount .creditLoop key
  let cAccount ← deductPayout outputs key cAccount
  creditAccount D nTotalWeight nReward credited key cAccount

def giveRemainder (finder : StdString) (nReward nTotalReward : UInt64) : DatabaseProgram Unit := do
  if nReward > nTotalReward then
    let cAccount ← getAccount .remainder finder
    updateAccount .remainder
      { cAccount with nAccountBalance := cAccount.nAccountBalance + (nReward - nTotalReward) }

def updateBalances (round : Round D) (nReward : UInt64) : DatabaseProgram Unit := do
  let nReward := lessPoolFee round.lfPoolFee nReward
  let (cCredits, nReward) ← creditFinder D round.LAST_ROUND_BLOCKFINDER nReward
  let nTotalWeight ← totalWeight
  let vKeys ← accountKeys
  let (cCredits, nTotalReward) ←
    vKeys.foldlM (settleAccount D round.cGlobalCoinbase.mapOutputs nTotalWeight nReward) (cCredits, 0)
  giveRemainder round.LAST_ROUND_BLOCKFINDER nReward nTotalReward
  updateBlock { newBlock round with cCredits }
  writeBlocks
  writeAccounts

def newRound (round : Round D) : DatabaseProgram Unit := do
  updateBalances round round.nRoundReward
  clearShares

end PrimePool.Core

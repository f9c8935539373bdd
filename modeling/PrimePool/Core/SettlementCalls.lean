import PrimePool.Core.Settlement

/-!
# The calls of a settlement

`UpdateBalances` and `RefundPayouts` cut into the part that acts on the accounts in memory and the part
that commits it, and the calls that each part makes.
-/

namespace PrimePool.Core

open PrimePool.General PrimePool.LLD

variable {D : Type} [Double D]

def creditAccounts (round : Round D) (nReward : UInt64) : DatabaseProgram Credits := do
  let nReward := lessPoolFee round.lfPoolFee nReward
  let (cCredits, nReward) ← creditFinder D round.LAST_ROUND_BLOCKFINDER nReward
  let nTotalWeight ← totalWeight
  let vKeys ← accountKeys
  let (cCredits, nTotalReward) ←
    vKeys.foldlM (settleAccount D round.cGlobalCoinbase.mapOutputs nTotalWeight nReward) (cCredits, 0)
  giveRemainder round.LAST_ROUND_BLOCKFINDER nReward nTotalReward
  return cCredits

def commitBlock (round : Round D) (cCredits : Credits) : DatabaseProgram Unit := do
  updateBlock { newBlock round with cCredits }
  writeBlocks
  writeAccounts

theorem updateBalances_eq (round : Round D) (nReward : UInt64) :
    updateBalances round nReward = creditAccounts round nReward >>= commitBlock round := by
  simp only [updateBalances, creditAccounts, Program.bind_assoc]
  rfl

def refundLoops (cBlock : Block) : DatabaseProgram Unit := do
  cBlock.cCredits.mapCredits.toList.foldlM removeCredit ()
  cBlock.cCoinbase.mapOutputs.toList.foldlM refundOutput ()

def refundBlock (cBlock : Block) : DatabaseProgram Unit := do
  if cBlock.nCoinbaseValue = 0 then
    return ()
  refundLoops cBlock
  updateBlock { cBlock with nCoinbaseValue := 0 }
  writeBlocks

theorem refundPayouts_eq (hashBlock : Uint1024) :
    refundPayouts hashBlock = getBlock hashBlock >>= refundBlock := by
  rw [refundPayouts]
  congr 1
  funext cBlock
  rw [refundBlock]
  split
  · rfl
  · rw [refundLoops, Program.bind_assoc]

/-! ## Where the calls are made -/

def CalledBy (caller : Caller) : DatabaseCall → Prop
  | .accountKeys => True
  | .getAccount other _ => other = caller
  | .updateAccount other _ => other = caller
  | _ => False

theorem makes_creditFinder (finder : StdString) (nReward : UInt64) :
    Makes (CalledBy .finderBonus) (creditFinder D finder nReward) := by
  rw [creditFinder]
  split
  · trivial
  · exact ⟨rfl, fun _ => ⟨rfl, fun _ => trivial⟩⟩

theorem makes_totalWeight : Makes (CalledBy .totalWeight) totalWeight := by
  refine ⟨trivial, fun vKeys => ?_⟩
  apply Makes.foldlM
  intro nWeight key
  exact ⟨rfl, fun cAccount => trivial⟩

theorem makes_deductPayout (outputs : AmountMap) (key : StdString) (cAccount : Account) :
    Makes (CalledBy .creditLoop) (deductPayout outputs key cAccount) := by
  unfold deductPayout
  split
  · trivial
  · exact ⟨rfl, fun _ => trivial⟩

theorem makes_creditAccount (nTotalWeight nReward : UInt64) (credited : Credits × UInt64) (key : StdString)
    (cAccount : Account) : Makes (CalledBy .creditLoop) (creditAccount D nTotalWeight nReward credited key cAccount) := by
  unfold creditAccount
  split
  · trivial
  · exact ⟨rfl, fun _ => trivial⟩

theorem makes_settleAccount (outputs : AmountMap) (nTotalWeight nReward : UInt64) (credited : Credits × UInt64)
    (key : StdString) : Makes (CalledBy .creditLoop) (settleAccount D outputs nTotalWeight nReward credited key) :=
  ⟨rfl, fun cAccount => Makes.bind (p := deductPayout outputs key cAccount) (makes_deductPayout outputs key cAccount)
    (makes_creditAccount nTotalWeight nReward credited key)⟩

theorem makes_giveRemainder (finder : StdString) (nReward nTotalReward : UInt64) :
    Makes (CalledBy .remainder) (giveRemainder finder nReward nTotalReward) := by
  rw [giveRemainder]
  split
  · exact ⟨rfl, fun _ => ⟨rfl, fun _ => trivial⟩⟩
  · trivial

theorem makes_clearShares : Makes (CalledBy .clearShares) clearShares := by
  refine ⟨trivial, fun vKeys => ?_⟩
  apply Makes.foldlM
  exact fun _ _ => ⟨rfl, fun cAccount => ⟨rfl, fun done => trivial⟩⟩

theorem makes_refundLoops (cBlock : Block) : Makes (CalledBy .refundPayouts) (refundLoops cBlock) := by
  refine Makes.bind ?_ fun removed => ?_
  · apply Makes.foldlM
    exact fun _ _ => ⟨rfl, fun cAccount => ⟨rfl, fun done => trivial⟩⟩
  · apply Makes.foldlM
    exact fun _ _ => ⟨rfl, fun cAccount => ⟨rfl, fun done => trivial⟩⟩

def Crediting : DatabaseCall → Prop
  | .writeAccounts | .writeBlocks | .updateAccount .clearShares _ => False
  | _ => True

theorem CalledBy.crediting {caller : Caller} (other : caller ≠ .clearShares) (op : DatabaseCall)
    (called : CalledBy caller op) : Crediting op := by
  unfold Crediting
  split
  · exact called
  · exact called
  · exact other called.symm
  · trivial

theorem makes_creditAccounts (round : Round D) (nReward : UInt64) :
    Makes Crediting (creditAccounts round nReward) := by
  refine Makes.bind ((makes_creditFinder _ _).mono (CalledBy.crediting (by decide))) fun finder => ?_
  refine Makes.bind (makes_totalWeight.mono (CalledBy.crediting (by decide))) fun nTotalWeight => ?_
  refine Makes.bind (p := accountKeys) ⟨trivial, fun _ => trivial⟩ fun vKeys => Makes.bind ?_ fun settled => ?_
  · apply Makes.foldlM
    exact fun credited key => (makes_settleAccount _ _ _ credited key).mono (CalledBy.crediting (by decide))
  · exact Makes.bind ((makes_giveRemainder _ _ _).mono (CalledBy.crediting (by decide))) fun done => trivial

end PrimePool.Core

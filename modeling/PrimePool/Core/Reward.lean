import PrimePool.Core.Settlement

/-!
# The payout coinbase

`core.cpp`: the `BLOCK_REWARD` handler of the master thread, which builds the coinbase of the next block
from the balances of the accounts.
-/

namespace PrimePool.Core

open PrimePool.LLD

variable {D : Type} [Double D]

structure Globals (D : Type) extends Round D where
  nBestHeight : UInt32
  nLastBlockFound : UInt32
  fCoinbasePending : Bool
  fNewRound : Bool
  fSubmittingBlock : Bool

def balanceOf (AccountDB : Records StdString Account) (key : StdString) : UInt64 :=
  (AccountDB.getRecord key).1.nAccountBalance

/-- The results `GetSortedAccounts` can have: `std::sort` orders the keys by balance, the highest first,
and leaves the order of equal balances open. -/
def SortedAccounts (AccountDB : Records StdString Account) (vAccounts : List StdString) : Prop :=
  vAccounts.Perm AccountDB.getKeys ∧
    vAccounts.Pairwise fun first second => balanceOf AccountDB second ≤ balanceOf AccountDB first

def addPayouts (AccountDB : Records StdString Account) : List StdString → Coinbase → Coinbase
  | [], coinbase => coinbase
  | account :: vAccounts, coinbase =>
      let nAccountBalance := balanceOf AccountDB account
      if nAccountBalance > 0 then
        let (nValue, coinbase) := coinbase.addTransaction account nAccountBalance
        if nValue < 0 then
          (coinbase.addTransaction account (nAccountBalance + widenInt nValue)).2
        else
          addPayouts AccountDB vAccounts coinbase
      else
        addPayouts AccountDB vAccounts coinbase

def addBonus (finder : StdString) (coinbase : Coinbase) : Coinbase :=
  if coinbase.isComplete then coinbase
  else (coinbase.addTransaction finder (widenInt coinbase.getRemainder)).2

def poolFee (lfPoolFee : D) (nRoundReward : UInt64) : UInt64 :=
  Double.toUInt64 (Double.ofUInt64 nRoundReward * lfPoolFee)

def buildCoinbase (coinbase : Coinbase) (nRoundReward nPoolFee : UInt64) (finder : StdString)
    (AccountDB : Records StdString Account) (vAccounts : List StdString) : Coinbase :=
  let coinbase := { coinbase with nPoolFee }.reset (nRoundReward - nPoolFee)
  addBonus finder (addPayouts AccountDB vAccounts coinbase)

def blockReward (globals : Globals D) (AccountDB : Records StdString Account) (vAccounts : List StdString)
    (nReward : UInt64) : Globals D :=
  let globals := { globals with nRoundReward := nReward }
  if globals.nCurrentRound > 1 ∧ globals.fCoinbasePending then
    -- the coinbase is sent to the daemon
    { globals with
      cGlobalCoinbase := buildCoinbase globals.cGlobalCoinbase globals.nRoundReward
        (poolFee globals.lfPoolFee globals.nRoundReward) globals.LAST_ROUND_BLOCKFINDER AccountDB vAccounts }
  else
    -- the daemon handles are told of the new block
    { globals with fCoinbasePending := false }

end PrimePool.Core

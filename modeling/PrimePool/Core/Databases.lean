import PrimePool.General.Program
import PrimePool.LLD.Database

/-!
# The databases of the pool

`core.cpp`: the globals `AccountDB` and `BlockDB` with the contents of their files, and the calls the
pool's threads make on them. Each call holds the mutex of its database, so it is one atomic step.
-/

namespace PrimePool.Core

open PrimePool.General PrimePool.LLD

structure Databases where
  AccountDB : Records StdString Account
  BlockDB : Records Uint1024 Block
  /-- The bytes of `acct.dat`; `none` when there is no such file. -/
  acctDat : Option Bytes
  blkDat : Option Bytes

/-- Where in the source a call is made. It does not change what the call does. -/
inductive Caller where
  | finderBonus
  | totalWeight
  | creditLoop
  | remainder
  | clearShares
  | refundPayouts
  | processPacket
deriving DecidableEq

inductive DatabaseCall where
  | accountKeys
  | getAccount (caller : Caller) (cKey : StdString)
  | updateAccount (caller : Caller) (cRecord : Account)
  | writeAccounts
  | getBlock (cKey : Uint1024)
  | updateBlock (cRecord : Block)
  | writeBlocks

abbrev DatabaseCall.Result : DatabaseCall → Type
  | .accountKeys => List StdString
  | .getAccount _ _ => Account
  | .getBlock _ => Block
  | _ => Unit

def perform : Handler DatabaseCall DatabaseCall.Result Databases
  | .accountKeys, databases => (databases.AccountDB.getKeys, databases)
  | .getAccount _ cKey, databases =>
      let (cAccount, AccountDB) := databases.AccountDB.getRecord cKey
      (cAccount, { databases with AccountDB })
  | .updateAccount _ cRecord, databases =>
      ((), { databases with AccountDB := databases.AccountDB.updateRecord cRecord })
  | .writeAccounts, databases => ((), { databases with acctDat := some (Database.fileOf databases.AccountDB) })
  | .getBlock cKey, databases =>
      let (cBlock, BlockDB) := databases.BlockDB.getRecord cKey
      (cBlock, { databases with BlockDB })
  | .updateBlock cRecord, databases =>
      ((), { databases with BlockDB := databases.BlockDB.updateRecord cRecord })
  | .writeBlocks, databases => ((), { databases with blkDat := some (Database.fileOf databases.BlockDB) })

abbrev DatabaseProgram (α : Type) : Type := Program DatabaseCall DatabaseCall.Result α

def accountKeys : DatabaseProgram (List StdString) := .perform DatabaseCall.accountKeys

def getAccount (caller : Caller) (cKey : StdString) : DatabaseProgram Account :=
  .perform (DatabaseCall.getAccount caller cKey)

def updateAccount (caller : Caller) (cRecord : Account) : DatabaseProgram Unit :=
  .perform (DatabaseCall.updateAccount caller cRecord)

def writeAccounts : DatabaseProgram Unit := .perform DatabaseCall.writeAccounts

def getBlock (cKey : Uint1024) : DatabaseProgram Block := .perform (DatabaseCall.getBlock cKey)

def updateBlock (cRecord : Block) : DatabaseProgram Unit := .perform (DatabaseCall.updateBlock cRecord)

def writeBlocks : DatabaseProgram Unit := .perform DatabaseCall.writeBlocks

/-! ## A small pool -/

def orphanHash : Uint1024 := .ofUInt64 7

def minerAddress : StdString := [77]

def otherAddress : StdString := [78]

def atRest : Databases :=
  let AccountDB : Records StdString Account :=
    .ofList [(minerAddress, { Account.new minerAddress with nAccountBalance := 100 })]
  let BlockDB : Records Uint1024 Block :=
    .ofList [(orphanHash, { Block.new orphanHash with
      nCoinbaseValue := 1000, cCredits := Credits.new.addCredit minerAddress 100, nRound := 2 })]
  { AccountDB
    BlockDB
    acctDat := some (Database.fileOf AccountDB)
    blkDat := some (Database.fileOf BlockDB) }

end PrimePool.Core

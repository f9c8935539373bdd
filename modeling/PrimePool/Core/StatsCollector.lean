import PrimePool.Core.Base58
import PrimePool.Core.Pool

/-!
# The statistics collector

`statscollector.cpp`, and the places in `core.cpp`, `LLP/pool.cpp` and `LLP/daemon.cpp` that call it. Of a record
handed to the persister only the address is kept, as it goes into the query. The programs of `Core/Settlement` are
repeated here with the calls of the collector; without these they are the same.
-/

namespace PrimePool.Core

open PrimePool.General PrimePool.LLD Std Program

inductive Query where
  | saveConnectionData (ADDRESS : StdString)
  | addRoundData (strBlockFinder : StdString)
  | updateAccountData (strAccountAddress : StdString)
  | addAccountEarnings (strAccountAddress : StdString)
  | deleteAccountEarnings (strAccountAddress : StdString)
  | addAccountPayment (strAccountAddress : StdString)
  | deleteAccountPayment (strAccountAddress : StdString)

def Query.address : Query → StdString
  | .saveConnectionData ADDRESS => ADDRESS
  | .addRoundData strBlockFinder => strBlockFinder
  | .updateAccountData strAccountAddress => strAccountAddress
  | .addAccountEarnings strAccountAddress => strAccountAddress
  | .deleteAccountEarnings strAccountAddress => strAccountAddress
  | .addAccountPayment strAccountAddress => strAccountAddress
  | .deleteAccountPayment strAccountAddress => strAccountAddress

/-! ## Settlements with their statistics -/

abbrev StatsProgram (α : Type) : Type := Program (DatabaseCall ⊕ Query) (LogRes DatabaseCall.Result Query) α

def persist (query : Query) : StatsProgram Unit := note query

namespace Stats

variable {D : Type} [Double D]

def removeCredit (_ : Unit) (credit : StdString × UInt64) : StatsProgram Unit := do
  let cAccount ← (getAccount .refundPayouts credit.1).quiet
  (updateAccount .refundPayouts { cAccount with nAccountBalance := deduct cAccount.nAccountBalance credit.2 }).quiet
  persist (.deleteAccountEarnings credit.1)

def refundOutput (_ : Unit) (output : StdString × UInt64) : StatsProgram Unit := do
  let cAccount ← (getAccount .refundPayouts output.1).quiet
  (updateAccount .refundPayouts { cAccount with nAccountBalance := cAccount.nAccountBalance + output.2 }).quiet
  persist (.deleteAccountPayment output.1)

def refundPayouts (hashBlock : Uint1024) : StatsProgram Unit := do
  let cBlock ← (getBlock hashBlock).quiet
  if cBlock.nCoinbaseValue = 0 then
    return ()
  let cBlock := { cBlock with nCoinbaseValue := 0 }
  cBlock.cCredits.mapCredits.toList.foldlM removeCredit ()
  cBlock.cCoinbase.mapOutputs.toList.foldlM refundOutput ()
  (updateBlock cBlock).quiet
  writeBlocks.quiet

def creditFinder (D : Type) [Double D] (finder : StdString) (nReward : UInt64) : StatsProgram (Credits × UInt64) := do
  if finder = [] then
    return (.new, nReward)
  let nCredit := finderBonus D nReward
  let cAccount ← (getAccount .finderBonus finder).quiet
  (updateAccount .finderBonus { cAccount with nAccountBalance := cAccount.nAccountBalance + nCredit }).quiet
  persist (.addAccountEarnings finder)
  return (Credits.new.addCredit finder nCredit, nReward - nCredit)

def deductPayout (outputs : AmountMap) (key : StdString) (cAccount : Account) : StatsProgram Account := do
  match outputs[key]? with
  | none => return cAccount
  | some nValue =>
      let cAccount := { cAccount with nAccountBalance := deduct cAccount.nAccountBalance nValue }
      (updateAccount .creditLoop cAccount).quiet
      persist (.addAccountPayment key)
      return cAccount

def creditAccount (D : Type) [Double D] (nTotalWeight nReward : UInt64) (credited : Credits × UInt64)
    (key : StdString) (cAccount : Account) : StatsProgram (Credits × UInt64) := do
  if cAccount.nRoundShares = 0 then
    return credited
  let nCredit := shareCredit D cAccount.nRoundShares nTotalWeight nReward
  (updateAccount .creditLoop { cAccount with nAccountBalance := cAccount.nAccountBalance + nCredit }).quiet
  persist (.addAccountEarnings key)
  return (credited.1.addCredit key nCredit, credited.2 + nCredit)

def settleAccount (D : Type) [Double D] (outputs : AmountMap) (nTotalWeight nReward : UInt64)
    (credited : Credits × UInt64) (key : StdString) : StatsProgram (Credits × UInt64) := do
  let cAccount ← (getAccount .creditLoop key).quiet
  let cAccount ← deductPayout outputs key cAccount
  creditAccount D nTotalWeight nReward credited key cAccount

def giveRemainder (finder : StdString) (nReward nTotalReward : UInt64) : StatsProgram Unit := do
  if nReward > nTotalReward then
    let cAccount ← (getAccount .remainder finder).quiet
    (updateAccount .remainder
      { cAccount with nAccountBalance := cAccount.nAccountBalance + (nReward - nTotalReward) }).quiet
    persist (.addAccountEarnings finder)

def updateBalances (round : Round D) (nReward : UInt64) : StatsProgram Unit := do
  let nReward := lessPoolFee round.lfPoolFee nReward
  let (cCredits, nReward) ← creditFinder D round.LAST_ROUND_BLOCKFINDER nReward
  let nTotalWeight ← totalWeight.quiet
  let vKeys ← accountKeys.quiet
  let (cCredits, nTotalReward) ←
    vKeys.foldlM (settleAccount D round.cGlobalCoinbase.mapOutputs nTotalWeight nReward) (cCredits, 0)
  giveRemainder round.LAST_ROUND_BLOCKFINDER nReward nTotalReward
  (updateBlock { newBlock round with cCredits }).quiet
  writeBlocks.quiet
  writeAccounts.quiet

def newRound (round : Round D) : StatsProgram Unit := do
  persist (.addRoundData round.LAST_ROUND_BLOCKFINDER)
  updateBalances round round.nRoundReward
  clearShares.quiet

theorem erase_refundPayouts (hashBlock : Uint1024) : (refundPayouts hashBlock).erase = Core.refundPayouts hashBlock := by
  have credits (b : Unit) (credit : StdString × UInt64) : (removeCredit b credit).erase = Core.removeCredit b credit := by
    simp only [removeCredit, erase_bind, erase_quiet]
    rfl
  have outputs (b : Unit) (output : StdString × UInt64) : (refundOutput b output).erase = Core.refundOutput b output := by
    simp only [refundOutput, erase_bind, erase_quiet]
    rfl
  simp only [refundPayouts, Core.refundPayouts, erase_bind, erase_quiet]
  congr 1
  funext cBlock
  split
  · rfl
  · simp only [erase_bind, erase_quiet, erase_foldlM credits, erase_foldlM outputs]

theorem erase_creditFinder (finder : StdString) (nReward : UInt64) :
    (creditFinder D finder nReward).erase = Core.creditFinder D finder nReward := by
  simp only [creditFinder, Core.creditFinder]
  split
  · rfl
  · simp only [erase_bind, erase_quiet]
    rfl

theorem erase_deductPayout (outputs : AmountMap) (key : StdString) (cAccount : Account) :
    (deductPayout outputs key cAccount).erase = Core.deductPayout outputs key cAccount := by
  simp only [deductPayout, Core.deductPayout]
  cases outputs[key]? with
  | none => rfl
  | some nValue =>
      simp only [erase_bind, erase_quiet]
      rfl

theorem erase_creditAccount (nTotalWeight nReward : UInt64) (credited : Credits × UInt64) (key : StdString)
    (cAccount : Account) :
    (creditAccount D nTotalWeight nReward credited key cAccount).erase =
      Core.creditAccount D nTotalWeight nReward credited key cAccount := by
  simp only [creditAccount, Core.creditAccount]
  split
  · rfl
  · simp only [erase_bind, erase_quiet]
    rfl

theorem erase_settleAccount (outputs : AmountMap) (nTotalWeight nReward : UInt64) (credited : Credits × UInt64)
    (key : StdString) :
    (settleAccount D outputs nTotalWeight nReward credited key).erase =
      Core.settleAccount D outputs nTotalWeight nReward credited key := by
  simp only [settleAccount, Core.settleAccount, erase_bind, erase_quiet, erase_deductPayout, erase_creditAccount]

theorem erase_giveRemainder (finder : StdString) (nReward nTotalReward : UInt64) :
    (giveRemainder finder nReward nTotalReward).erase = Core.giveRemainder finder nReward nTotalReward := by
  simp only [giveRemainder, Core.giveRemainder]
  split
  · simp only [erase_bind, erase_quiet]
    rfl
  · rfl

theorem erase_newRound (round : Round D) : (newRound round).erase = Core.newRound round := by
  simp only [newRound, Core.newRound, updateBalances, Core.updateBalances, erase_bind, erase_quiet, erase_creditFinder,
    erase_foldlM (erase_settleAccount _ _ _), erase_giveRemainder]
  rfl

end Stats

/-! ## The collector -/

/-- The meters of the miners and the timers are left out; of a miner only its `GUID` is kept. -/
structure ConnectionData where
  ADDRESS : StdString
  MINER_DATA : ExtTreeSet StdString

structure StatsCollector where
  CONNECTIONS_BY_ADDRESS : ExtTreeMap StdString ConnectionData
  queries : List Query

namespace StatsCollector

def new : StatsCollector := { CONNECTIONS_BY_ADDRESS := ∅, queries := [] }

/-- `CONNECTIONS_BY_ADDRESS[ADDRESS]`, which makes an entry without an address where there is none. -/
def connectionData (collector : StatsCollector) (ADDRESS : StdString) : ConnectionData :=
  collector.CONNECTIONS_BY_ADDRESS.getD ADDRESS { ADDRESS := [], MINER_DATA := ∅ }

def setConnectionData (collector : StatsCollector) (ADDRESS : StdString) (data : ConnectionData) : StatsCollector :=
  { collector with CONNECTIONS_BY_ADDRESS := collector.CONNECTIONS_BY_ADDRESS.insert ADDRESS data }

theorem connectionData_setConnectionData (collector : StatsCollector) (ADDRESS other : StdString)
    (data : ConnectionData) :
    (collector.setConnectionData ADDRESS data).connectionData other =
      if ADDRESS = other then data else collector.connectionData other := by
  simp only [connectionData, setConnectionData, ExtTreeMap.getD_insert, LawfulEqCmp.compare_eq_iff_eq]

def persist (collector : StatsCollector) (query : Query) : StatsCollector :=
  { collector with queries := collector.queries ++ [query] }

def incConnectionCount (collector : StatsCollector) (ADDRESS GUID : StdString) : StatsCollector :=
  let data := collector.connectionData ADDRESS
  collector.setConnectionData ADDRESS { ADDRESS, MINER_DATA := data.MINER_DATA.insert GUID }

def decConnectionCount (collector : StatsCollector) (ADDRESS GUID : StdString) : StatsCollector :=
  let data := collector.connectionData ADDRESS
  let data := { data with MINER_DATA := data.MINER_DATA.erase GUID }
  let collector := collector.setConnectionData ADDRESS data
  if data.MINER_DATA.size = 0 then collector.persist (.saveConnectionData data.ADDRESS) else collector

def getConnectionCount (collector : StatsCollector) (ADDRESS : StdString) : Nat × StatsCollector :=
  let data := collector.connectionData ADDRESS
  (data.MINER_DATA.size, collector.setConnectionData ADDRESS data)

/-- `fSave` says whether the data of the address was last saved long enough ago. -/
def updateConnectionData (collector : StatsCollector) (ADDRESS GUID : StdString) (fSave : Bool) : StatsCollector :=
  let collector := collector.incConnectionCount ADDRESS GUID
  if fSave then collector.persist (.saveConnectionData (collector.connectionData ADDRESS).ADDRESS) else collector

def updateAccount (collector : StatsCollector) (strAddress : StdString) : StatsCollector :=
  let (lConnections, collector) := collector.getConnectionCount strAddress
  if lConnections > 0 then collector.persist (.updateAccountData strAddress) else collector

/-- The accounts it reads are there. -/
def updateAccountData (collector : StatsCollector) (AccountDB : Records StdString Account) : StatsCollector :=
  AccountDB.getKeys.foldl updateAccount collector

def observe (collector : StatsCollector) (databases : Databases) (p : StatsProgram Unit) : StatsCollector :=
  { collector with queries := (run (logged perform) p (databases, collector.queries)).2.2 }

def miner (collector : StatsCollector) (GUID : StdString) (connection : PoolConnection) : MinerEvent → StatsCollector
  | .login ADDRESS fValid _ =>
      if connection.fLoggedIn then collector
      else
        let collector := collector.incConnectionCount ADDRESS GUID
        if fValid then (collector.getConnectionCount ADDRESS).2 else collector
  | .disconnect =>
      if connection.ADDRESS = [] then collector else collector.decConnectionCount connection.ADDRESS GUID
  | _ => collector

end StatsCollector

/-! ## The pool and its collector -/

structure StatsPool (D : Type) where
  pool : Pool D
  collector : StatsCollector

inductive StatsEvent where
  | pool (event : Event)
  | submitPPS (nDaemon nID : Nat) (fSave : Bool)
  | updateAccountData

/-- `to_string(DAEMON->ID) + "_" + to_string(nID)`. -/
def connectionGUID (nDaemon nID : Nat) : StdString :=
  (Nat.toDigits 10 nDaemon ++ '_' :: Nat.toDigits 10 nID).map fun c => c.toNat.toUInt8

def Pool.connectionAt {D : Type} (pool : Pool D) (nDaemon nID : Nat) : Option PoolConnection := do
  let handle ← pool.DAEMON_CONNECTIONS[nDaemon]?
  handle.CONNECTIONS[nID]?.join

variable (SK256 : Bytes → Vector UInt8 32) (fTestNet : Bool)

def isValidAddress (ADDRESS : StdString) : Bool := (NexusAddress.setString SK256 ADDRESS).isValid fTestNet

/-- A login event carries the verdict of `IsValid`. -/
def Judged : Event → Prop
  | .miner _ _ (.login ADDRESS fValid _) => fValid = isValidAddress SK256 fTestNet ADDRESS
  | _ => True

instance : DecidablePred (Judged SK256 fTestNet)
  | .miner _ _ (.login ADDRESS fValid _) =>
      inferInstanceAs (Decidable (fValid = isValidAddress SK256 fTestNet ADDRESS))
  | .masterReconnect | .masterPacket _ | .orphanReconnect | .orphanPacket _ => isTrue trivial
  | .daemonReconnect _ | .daemonPacket _ _ | .daemonScan _ | .minerConnect => isTrue trivial
  | .miner _ _ .disconnect | .miner _ _ .generic | .miner _ _ .getBlock => isTrue trivial
  | .miner _ _ (.submitShare _ _ _) => isTrue trivial

namespace StatsPool

variable {D : Type} [Double D] (getHash : CBlock → Uint1024)

def collect (s : StatsPool D) : Event → StatsCollector
  | .miner nDaemon nID event =>
      match s.pool.connectionAt nDaemon nID with
      | none => s.collector
      | some connection => s.collector.miner (connectionGUID nDaemon nID) connection event
  | .daemonPacket _ .good => s.collector.observe s.pool.databases (Stats.newRound s.pool.globals.toRound)
  | .orphanPacket (.orphanBlock hashOrphan) =>
      s.collector.observe s.pool.databases do
        let _ ← (getBlock hashOrphan).quiet
        Stats.refundPayouts hashOrphan
  | _ => s.collector

def step (s : StatsPool D) : StatsEvent → Option (StatsPool D)
  | .pool event => do
      let pool ← Pool.step getHash s.pool event
      if Judged SK256 fTestNet event then return { pool, collector := s.collect event } else none
  | .submitPPS nDaemon nID fSave => do
      let connection ← s.pool.connectionAt nDaemon nID
      if connection.fLoggedIn then
        let GUID := connectionGUID nDaemon nID
        return { s with collector := s.collector.updateConnectionData connection.ADDRESS GUID fSave }
      else return s
  | .updateAccountData =>
      some { s with collector := s.collector.updateAccountData s.pool.databases.AccountDB }

/-- The loop of `StartPool` over the accounts. `EraseRecord` is given a C string. -/
def eraseInvalid (AccountDB : Records StdString Account) : Records StdString Account :=
  AccountDB.getKeys.foldl
    (fun AccountDB account =>
      if isValidAddress SK256 fTestNet account then (AccountDB.getRecord account).2
      else AccountDB.eraseRecord (c_str account))
    AccountDB

def start (databases : Databases) (lfPoolFee : D) (nMaxDaemons : Nat) : StatsPool D where
  pool :=
    let databases := { databases with AccountDB := eraseInvalid SK256 fTestNet databases.AccountDB }
    .start databases lfPoolFee nMaxDaemons
  collector := .new

end StatsPool

end PrimePool.Core

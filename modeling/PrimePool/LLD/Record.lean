import PrimePool.Coinbase
import PrimePool.Hash.Uint1024

/-!
# Records

`LLD/record.h`: the account and block records with their byte formats. `blank` is the default constructor, which
`operator[]` of a map runs for a missing key.
-/

namespace PrimePool.LLD

structure Account where
  cKey : StdString
  nAccountBalance : UInt64
  nRoundShares : UInt64
  nBlocksFound : UInt32
deriving DecidableEq

namespace Account

def new (strKey : StdString) : Account :=
  { cKey := strKey, nAccountBalance := 0, nRoundShares := 0, nBlocksFound := 0 }

def blank : Account := new []

def serialize (account : Account) : Bytes :=
  uint2bytes64 account.nAccountBalance ++ uint2bytes64 account.nRoundShares ++
    uint2bytes account.nBlocksFound ++ account.cKey

def deserialize (vInputData : Bytes) : Option Account := do
  let cKey ← slice vInputData 20 vInputData.length
  return { cKey
           nAccountBalance := bytes2uint64 vInputData 0
           nRoundShares := bytes2uint64 vInputData 8
           nBlocksFound := bytes2uint vInputData 16 }

end Account

structure Block where
  cKey : Uint1024
  nCoinbaseValue : UInt64
  cCoinbase : Coinbase
  cCredits : Credits
  nRound : UInt32
deriving DecidableEq

namespace Block

def new (nKey : Uint1024) : Block :=
  { cKey := nKey, nCoinbaseValue := 0, cCoinbase := .new, cCredits := .new, nRound := 0 }

def blank : Block := new (BaseUint.ofUInt64 0)

def serialize (block : Block) : Bytes :=
  uint2bytes64 block.nCoinbaseValue ++ uint2bytes block.cCoinbase.serialize.length.toUInt32 ++
    block.cCoinbase.serialize ++ block.cCredits.serialize ++ uint2bytes block.nRound ++
    block.cKey.getBytes

def deserialize (vInputData : Bytes) : Option Block := do
  let nCoinbaseValue := bytes2uint64 vInputData 0
  let nBytes := (bytes2uint vInputData 8).toNat
  let vCoinbase ← slice vInputData 12 (nBytes + 12)
  let cCoinbase ← Coinbase.new.deserialize vCoinbase nCoinbaseValue
  guard (132 ≤ vInputData.length)
  let vCredits ← slice vInputData (nBytes + 12) (vInputData.length - 132)
  let cCredits ← Credits.new.deserialize vCredits
  let vRound ← slice vInputData (vInputData.length - 132) (vInputData.length - 128)
  let vKey ← slice vInputData (vInputData.length - 128) vInputData.length
  let cKey ← BaseUint.setBytes 32 vKey
  return { cKey, nCoinbaseValue, cCoinbase, cCredits, nRound := bytes2uint vRound 0 }

end Block

end PrimePool.LLD

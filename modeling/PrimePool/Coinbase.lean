import Mathlib.Data.List.Basic
import PrimePool.Util

/-!
# Coinbase and credits

`coinbase.h`: the payout coinbase a block pays, the credits a round gives, and their byte formats. Decoding is
`none` where it reads outside the vector. An `int` made from a 64-bit amount keeps the low word, and its sign
when it is added again.
-/

namespace PrimePool

abbrev AmountMap : Type := Std.ExtTreeMap StdString UInt64

def narrowInt (n : UInt64) : Int32 := n.toUInt32.toInt32

def widenInt (i : Int32) : UInt64 := i.toInt64.toUInt64

/-- The shared body of `Coinbase::AddOutput` and `Credits::AddCredit`. -/
def AmountMap.add (amounts : AmountMap) (nAddress : StdString) (nValue : UInt64) : AmountMap :=
  amounts.insert nAddress (amounts.getD nAddress 0 + nValue)

def AmountMap.serialize (amounts : AmountMap) : Bytes :=
  amounts.toList.flatMap fun (address, nValue) =>
    address.length.toUInt8 :: (address ++ uint2bytes64 nValue)

def deserializeRecords (vData : Bytes) : Nat → Nat → AmountMap → UInt64 → Option (AmountMap × UInt64)
  | 0, _, amounts, nCurrentValue => some (amounts, nCurrentValue)
  | nSize + 1, nIterator, amounts, nCurrentValue => do
      let nLength := (← vData[nIterator]?).toNat
      let strAddress ← slice vData (nIterator + 1) (nIterator + 1 + nLength)
      let vValue ← slice vData (nIterator + 1 + nLength) (nIterator + 1 + nLength + 8)
      let nValue := bytes2uint64 vValue 0
      -- at most 255 records of at most 264 bytes, so that the position does not wrap around
      deserializeRecords vData nSize (nIterator + (nLength + 9)) (amounts.insert strAddress nValue)
        (nCurrentValue + nValue)

structure Coinbase where
  nCurrentValue : UInt64
  mapOutputs : AmountMap
  nMaxValue : UInt64
  nPoolFee : UInt64
deriving DecidableEq

namespace Coinbase

def new : Coinbase := { nCurrentValue := 0, mapOutputs := ∅, nMaxValue := 0, nPoolFee := 0 }

def addOutput (coinbase : Coinbase) (nAddress : StdString) (nValue : UInt64) : Coinbase :=
  { coinbase with
    mapOutputs := coinbase.mapOutputs.add nAddress nValue
    nCurrentValue := coinbase.nCurrentValue + nValue }

def addTransaction (coinbase : Coinbase) (nAddress : StdString) (nValue : UInt64) : Int32 × Coinbase :=
  if nValue + coinbase.nCurrentValue > coinbase.nMaxValue then
    (narrowInt (coinbase.nMaxValue - (nValue + coinbase.nCurrentValue)), coinbase)
  else
    let coinbase := coinbase.addOutput nAddress nValue
    (narrowInt (coinbase.nMaxValue - coinbase.nCurrentValue), coinbase)

def getRemainder (coinbase : Coinbase) : Int32 := narrowInt (coinbase.nMaxValue - coinbase.nCurrentValue)

def isComplete (coinbase : Coinbase) : Bool := coinbase.nCurrentValue == coinbase.nMaxValue

def reset (coinbase : Coinbase) (nMax : UInt64) : Coinbase :=
  { coinbase with nMaxValue := nMax, nCurrentValue := 0, mapOutputs := ∅ }

def serialize (coinbase : Coinbase) : Bytes :=
  coinbase.mapOutputs.size.toUInt8 :: (uint2bytes64 coinbase.nPoolFee ++ coinbase.mapOutputs.serialize)

def deserialize (coinbase : Coinbase) (vData : Bytes) (nValue : UInt64) : Option Coinbase := do
  let nSize ← vData[0]?
  let nPoolFee := bytes2uint64 vData 1
  let (mapOutputs, nCurrentValue) ← deserializeRecords vData nSize.toNat 9 coinbase.mapOutputs nPoolFee
  return { nCurrentValue, mapOutputs, nMaxValue := nValue, nPoolFee }

end Coinbase

structure Credits where
  mapCredits : AmountMap
deriving DecidableEq

namespace Credits

def new : Credits := ⟨∅⟩

def addCredit (credits : Credits) (nAddress : StdString) (nValue : UInt64) : Credits :=
  ⟨credits.mapCredits.add nAddress nValue⟩

def serialize (credits : Credits) : Bytes :=
  credits.mapCredits.size.toUInt8 :: credits.mapCredits.serialize

def deserialize (credits : Credits) (vData : Bytes) : Option Credits := do
  let nSize ← vData[0]?
  let (mapCredits, _) ← deserializeRecords vData nSize.toNat 1 credits.mapCredits 0
  return ⟨mapCredits⟩

end Credits

end PrimePool

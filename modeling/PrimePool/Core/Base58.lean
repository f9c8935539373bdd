import Mathlib.Data.Nat.Digits.Defs
import PrimePool.Util

/-!
# Addresses

`base58.h`: what a login string denotes, and `IsBannedAccount` of `util.cpp`. A `CBigNum` is a `Nat` here, since
the decoder makes no negative one. `SK256` gives the bytes of the hash as they lie in memory.
-/

namespace PrimePool.Core

def pszBase58 : StdString :=
  "123456789ABCDEFGHJKLMNPQRSTUVWXYZabcdefghijkmnopqrstuvwxyz".toList.map fun c => c.toNat.toUInt8

def isspace (c : UInt8) : Bool := c = 32 || (9 ≤ c && c ≤ 13)

def strchr (psz : StdString) (c : UInt8) : Option Nat := psz.findIdx? (· = c)

def c_str (str : StdString) : StdString := str.takeWhile (· ≠ 0)

namespace CBigNum

/-- Little endian, with a further byte where the highest bit would be read as a sign. -/
def getvch (bn : Nat) : Bytes :=
  let vch := (Nat.digits 256 bn).map Nat.toUInt8
  if 0x80 ≤ vch.getLastD 0 then vch ++ [0] else vch

end CBigNum

def readBase58 (bn : Nat) : StdString → Option Nat
  | [] => some bn
  | c :: p =>
      match strchr pszBase58 c with
      | none => if (c :: p).dropWhile isspace = [] then some bn else none
      | some bnChar => readBase58 (58 * bn + bnChar) p

def trimSign (vchTmp : Bytes) : Bytes :=
  if 2 ≤ vchTmp.length ∧ vchTmp.getLastD 0 = 0 ∧ 0x80 ≤ vchTmp.dropLast.getLastD 0 then vchTmp.dropLast
  else vchTmp

def decodeBase58 (psz : StdString) : Option Bytes := do
  let psz := psz.dropWhile isspace
  let bn ← readBase58 0 psz
  let vchTmp := trimSign (CBigNum.getvch bn)
  let nLeadingZeros := (psz.takeWhile (· = pszBase58.headD 0)).length
  return List.replicate nLeadingZeros 0 ++ vchTmp.reverse

variable (SK256 : Bytes → Vector UInt8 32)

def decodeBase58Check (psz : StdString) : Option Bytes := do
  let vchRet ← decodeBase58 psz
  let nData := vchRet.length - 4
  if vchRet.length < 4 then none
  else if (SK256 (vchRet.take nData)).toList.take 4 ≠ vchRet.drop nData then none
  else some (vchRet.take nData)

structure NexusAddress where
  nVersion : UInt8
  vchData : Bytes
deriving DecidableEq

namespace NexusAddress

def PUBKEY_ADDRESS : UInt8 := 42

def SCRIPT_ADDRESS : UInt8 := 104

def PUBKEY_ADDRESS_TEST : UInt8 := 111

def SCRIPT_ADDRESS_TEST : UInt8 := 196

/-- The constructor from a string; `SetString` looks at the vector only, not at the decoder's answer. -/
def setString (str : StdString) : NexusAddress :=
  match (decodeBase58Check SK256 (c_str str)).getD [] with
  | [] => { nVersion := 0, vchData := [] }
  | nVersion :: vchData => { nVersion, vchData }

def isValid (fTestNet : Bool) (cAddress : NexusAddress) : Bool :=
  if cAddress.nVersion = PUBKEY_ADDRESS ∨ cAddress.nVersion = SCRIPT_ADDRESS then
    false = fTestNet && cAddress.vchData.length = 32
  else if cAddress.nVersion = PUBKEY_ADDRESS_TEST ∨ cAddress.nVersion = SCRIPT_ADDRESS_TEST then
    true = fTestNet && cAddress.vchData.length = 32
  else false

def noChecksum : Bytes → Vector UInt8 32 := fun _ => Vector.replicate 32 0

/-- A valid address where the hash is `noChecksum`. -/
def plainAddress : StdString :=
  "2QeGQjrLnsQWfTQd5M4y4UBXTnsAJaPn3qyXFHtekXHHj7ssw6P".toList.map fun c => c.toNat.toUInt8

end NexusAddress

def isBannedAccount (BANNED_ACCOUNTS : List StdString) (account : StdString) : Bool :=
  BANNED_ACCOUNTS.contains account

end PrimePool.Core

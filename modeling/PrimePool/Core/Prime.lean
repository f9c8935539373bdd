import PrimePool.General.Loop
import PrimePool.LLP.PoolPackets

/-!
# Prime clusters

`prime.cpp`: the divisor sieve, and the two verifications of a prime cluster, with GMP and with OpenSSL. An `mpz_t` or
`CBigNum` that is not negative is a `Nat`; the modular exponentiations are parameters. The counters of a search are
`unsigned int`, and natural numbers here, as they stay below 2^32.
-/

namespace PrimePool.Core

open PrimePool.General

/-! ## The divisor sieve -/

def eratosthenesTable (nSieveSize : Nat) : List Bool :=
  (List.range' 2 (nSieveSize - 2)).foldl
    (fun TABLE nIndex =>
      ((List.range' 2 nSieveSize).takeWhile fun nComposite => nComposite * nIndex < nSieveSize).foldl
        (fun TABLE nComposite => TABLE.set (nComposite * nIndex) true) TABLE)
    (List.replicate nSieveSize false)

def Eratosthenes (nSieveSize : Nat) : List Nat :=
  let TABLE := eratosthenesTable nSieveSize
  (List.range' 2 (nSieveSize - 2)).filter fun nIndex => !TABLE.getD nIndex false

def PRIME_SIEVE : List Nat := Eratosthenes 80

/-- The shared body of `DivisorCheck` and `GmpDivisor`. -/
def passesSieve (bnTest : Nat) : Bool := PRIME_SIEVE.all fun nDivisor => bnTest % nDivisor ≠ 0

def DivisorCheck (bnTest : Nat) : Bool := passesSieve bnTest

def GmpDivisor (zPrime : Nat) : Bool := passesSieve zPrime

/-! ## Fermat tests -/

abbrev Exponentiation : Type := Nat → Nat → Nat → Nat

def Exponentiation.Correct (power : Exponentiation) : Prop :=
  ∀ base exponent modulus, 0 < modulus → power base exponent modulus = base ^ exponent % modulus

def Exponentiation.exact : Exponentiation := fun base exponent modulus => base ^ exponent % modulus

section Searches

variable (mpz_powm BN_mod_exp : Exponentiation)

def GmpFermat (zPrime : Nat) : Bool := mpz_powm 2 (zPrime - 1) zPrime = 1

def GmpPrimeTest (zPrime : Nat) : Bool := GmpDivisor zPrime && GmpFermat mpz_powm zPrime

def FermatTest (n a : Nat) : Nat := BN_mod_exp a (n - 1) n

/-! ## The searches for the members of a cluster -/

structure GmpSearch where
  zPrime : Nat
  nClusterSize : Nat
  nPrimeGap : Nat
  nOffset : Nat
deriving DecidableEq

namespace GmpSearch

def start (prime : Nat) : GmpSearch := { zPrime := prime, nClusterSize := 1, nPrimeGap := 2, nOffset := 0 }

def next (s : GmpSearch) : Option GmpSearch :=
  if s.nPrimeGap ≤ 12 then
    let zPrime := s.zPrime + 2
    let nOffset := s.nOffset + 2
    if GmpPrimeTest mpz_powm zPrime = false then some { s with zPrime, nOffset, nPrimeGap := s.nPrimeGap + 2 }
    else some { zPrime, nOffset, nClusterSize := s.nClusterSize + 1, nPrimeGap := 2 }
  else none

end GmpSearch

structure CheckSearch where
  lastPrime : Nat
  next : Nat
  clusterSize : Nat

namespace CheckSearch

def start (prime : Nat) : CheckSearch := { lastPrime := prime, next := prime + 2, clusterSize := 1 }

def step (s : CheckSearch) : Option CheckSearch :=
  if s.next ≤ s.lastPrime + 12 then
    if DivisorCheck s.next = false then some { s with next := s.next + 2 }
    else if FermatTest BN_mod_exp s.next 2 = 1 then
      some { lastPrime := s.next, next := s.next + 2, clusterSize := s.clusterSize + 1 }
    else some { s with next := s.next + 2 }
  else none

end CheckSearch

/-! ## Difficulties -/

/-- `BN_get_word` gives all ones for a number that does not fit into a word. -/
def getuint (bn : Nat) : UInt32 := if bn < 2 ^ 64 then bn.toUInt32 else 0xFFFFFFFF

def GetFractionalDifficulty (composite : Nat) : UInt32 :=
  getuint ((((composite : Int) - FermatTest BN_mod_exp composite 2) * 2 ^ 24).tdiv composite).natAbs

variable (rounded : Rat → Rat)

/-- The quotient by zero is infinite, which is more than 1. -/
def fractionalRemainder (composite : Nat) : Rat :=
  let nFractional := GetFractionalDifficulty BN_mod_exp composite
  if nFractional = 0 then 0
  else
    let dFractionalRemainder := rounded (1000000 / nFractional.toNat)
    if dFractionalRemainder > 1 ∨ dFractionalRemainder < 0 then 0 else dFractionalRemainder

def GmpVerification (fuel prime : Nat) : Option Rat := do
  if GmpPrimeTest mpz_powm prime = false then
    return 0
  let s ← loop (GmpSearch.next mpz_powm) fuel (.start prime)
  return rounded (s.nClusterSize + fractionalRemainder BN_mod_exp rounded (prime + s.nOffset + 2))

def CheckPrimeDifficulty (fuel prime : Nat) : Option Rat := do
  if FermatTest BN_mod_exp prime 2 ≠ 1 then
    return 0
  let s ← loop (CheckSearch.step BN_mod_exp) fuel (.start prime)
  return rounded (s.clusterSize + fractionalRemainder BN_mod_exp rounded s.next)

end Searches

end PrimePool.Core

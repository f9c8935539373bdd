import PrimePool.Core.Base58
import PrimePool.General.Mpi

/-!
# Bignums

`bignum.h`: the conversions between a `CBigNum` and bytes, which go through OpenSSL's MPI format.
-/

namespace PrimePool.Core

open PrimePool.General

structure OpenSSL where
  BN_mpi2bn : Bytes → Int
  BN_bn2mpi : Int → Bytes

/-- Four bytes with the length, the most significant first, and the number. -/
structure OpenSSL.MpiFormat (ssl : OpenSSL) : Prop where
  reads : ∀ data : Bytes, ssl.BN_mpi2bn (uint2bytes data.length.toUInt32 ++ data) = mpiNumber data
  writes : ∀ bn : Int, ssl.BN_bn2mpi bn = uint2bytes (mpiData bn).length.toUInt32 ++ mpiData bn

namespace OpenSSL

variable (ssl : OpenSSL)

def setvch (vch : Bytes) : Int :=
  let nSize := vch.length.toUInt32
  ssl.BN_mpi2bn (uint2bytes nSize ++ vch.reverse)

def getvch (bn : Int) : Bytes :=
  let vch := ssl.BN_bn2mpi bn
  if vch.length ≤ 4 then [] else (vch.drop 4).reverse

variable {ssl}

theorem MpiFormat.setvch (format : ssl.MpiFormat) (vch : Bytes) : ssl.setvch vch = mpiNumber vch.reverse := by
  rw [OpenSSL.setvch, ← List.length_reverse]
  exact format.reads vch.reverse

theorem MpiFormat.getvch (format : ssl.MpiFormat) (bn : Nat) : ssl.getvch bn = CBigNum.getvch bn := by
  have highest : (magnitude bn).headD 0 = ((Nat.digits 256 bn).map Nat.toUInt8).getLastD 0 := by
    rw [magnitude, List.headD_eq_head?_getD, List.head?_reverse, List.getLastD_eq_getLast?]
  have data : (mpiData bn).reverse = CBigNum.getvch bn := by
    rw [mpiData_natCast, highest, CBigNum.getvch]
    split
    · rw [List.reverse_cons, magnitude, List.reverse_reverse]
    · rw [magnitude, List.reverse_reverse]
  rw [OpenSSL.getvch, format.writes, List.length_append, length_uint2bytes]
  split
  · rename_i short
    have empty : mpiData bn = [] := List.eq_nil_of_length_eq_zero (by omega)
    rw [← data, empty]
    rfl
  · rw [List.drop_left' (length_uint2bytes _), data]

def exact : OpenSSL where
  BN_mpi2bn bytes := mpiNumber (bytes.drop 4)
  BN_bn2mpi bn := uint2bytes (mpiData bn).length.toUInt32 ++ mpiData bn

theorem mpiFormat_exact : exact.MpiFormat where
  reads data := by
    show mpiNumber ((uint2bytes data.length.toUInt32 ++ data).drop 4) = mpiNumber data
    rw [List.drop_left' (length_uint2bytes _)]
  writes _ := rfl

end OpenSSL

end PrimePool.Core

import PrimePool.Core.Bignum
import PrimePool.Hash.Memory

/-!
# Hashes as bignums

`bignum.h`: the conversions between a `base_uint` and a `CBigNum`. `setuint1024` writes the bytes of the number behind
four bytes with their count into a buffer on the stack, `getuint1024` copies the bytes of the MPI format back.
-/

namespace PrimePool.Core

open PrimePool.General

/-! ## The conversions -/

/-- `pch` with the pointer `p` into it. -/
structure MpiBuffer (size : Nat) where
  pch : Vector UInt8 size
  p : Nat
  fLeadingZeroes : Bool

namespace MpiBuffer

variable {size : Nat}

/-- `*p++ = c`, which is `none` outside of the buffer. -/
def write (s : MpiBuffer size) (c : UInt8) : Option (MpiBuffer size) :=
  if inside : s.p < size then some { s with pch := s.pch.set s.p c inside, p := s.p + 1 } else none

def writeSign (s : MpiBuffer size) (c : UInt8) : Option (MpiBuffer size) :=
  if c &&& 0x80 ≠ 0 then s.write 0 else some s

def step (s : MpiBuffer size) (c : UInt8) : Option (MpiBuffer size) :=
  if s.fLeadingZeroes then
    if c = 0 then some s
    else do
      let s ← s.writeSign c
      { s with fLeadingZeroes := false }.write c
  else s.write c

/-- The count of the bytes behind the first four. -/
def writeSize (s : MpiBuffer (size + 6)) : Vector UInt8 (size + 6) :=
  let nSize := (s.p - 4).toUInt32
  (((s.pch.set 0 (nSize >>> 24).toUInt8).set 1 (nSize >>> 16).toUInt8).set 2 (nSize >>> 8).toUInt8).set 3 nSize.toUInt8

end MpiBuffer

/-- The loop over `i` and `j`, the bytes of `vch` from the last one down to the one at 4. -/
def copyBytes {size : Nat} (vch : Bytes) (i : Nat) (n : Vector UInt8 size) : Nat → Vector UInt8 size
  | 0 => n
  | j + 1 => if inside : i < size ∧ j + 1 ≥ 4 then copyBytes vch (i + 1) (n.set i (vch.getD (j + 1) 0) inside.1) j else n

namespace OpenSSL

variable {width : Nat} (ssl : OpenSSL)

/-- The shared body of `setuint256` to `setuint1024`, with what was in the buffer before. -/
def setBaseUint (pch : Vector UInt8 (4 * width + 6)) (n : BaseUint width) : Option Int := do
  let s ← n.bytesInMemory.reverse.foldlM MpiBuffer.step { pch, p := 4, fLeadingZeroes := true }
  return ssl.BN_mpi2bn (s.writeSize.toList.take s.p)

/-- The shared body of `getuint256` to `getuint1024`. -/
def getBaseUint (bn : Int) : BaseUint width :=
  let vch := ssl.BN_bn2mpi bn
  if vch.length < 4 then .ofUInt64 0
  else
    let vch := if vch.length > 4 then vch.modify 4 (· &&& 0x7f) else vch
    .ofMemory (copyBytes vch 0 (Vector.replicate (4 * width) 0) (vch.length - 1))

def setuint1024 (pch : Vector UInt8 134) (n : Uint1024) : Option Int := ssl.setBaseUint pch n

def getuint1024 (bn : Int) : Uint1024 := ssl.getBaseUint bn

end OpenSSL

/-! ## What is written -/

/-- The bytes behind the first four, up to the pointer. -/
structure Written {size : Nat} (s : MpiBuffer size) (data : Bytes) : Prop where
  p : s.p = 4 + data.length
  data : (s.pch.toList.take s.p).drop 4 = data

theorem sign_bit_iff (c : UInt8) : c &&& 0x80 ≠ 0 ↔ 0x80 ≤ c := by
  have all : ∀ i : Fin 256, UInt8.ofFin i &&& 0x80 ≠ 0 ↔ 0x80 ≤ UInt8.ofFin i := by decide +kernel
  exact all c.toFin

theorem take_set_succ {bytes : Bytes} {i : Nat} (inside : i < bytes.length) (c : UInt8) :
    (bytes.set i c).take (i + 1) = bytes.take i ++ [c] := by
  have within : i < (bytes.set i c).length := by rwa [List.length_set]
  rw [← List.take_append_getElem within, List.getElem_set_self, List.take_set_of_le (Nat.le_refl i)]

namespace Written

variable {size : Nat} {s : MpiBuffer size} {data : Bytes}

theorem write (written : Written s data) (inside : s.p < size) (c : UInt8) :
    ∃ s', s.write c = some s' ∧ Written s' (data ++ [c]) ∧ s'.fLeadingZeroes = s.fLeadingZeroes := by
  refine ⟨_, dif_pos inside, ⟨?_, ?_⟩, rfl⟩
  · have before := written.p
    rw [List.length_append, List.length_singleton]
    dsimp only
    omega
  · have length : s.pch.toList.length = size := Vector.length_toList
    have long : 4 ≤ (s.pch.toList.take s.p).length := by
      have before := written.p
      rw [List.length_take, length]
      omega
    dsimp only
    rw [Vector.toList_set, take_set_succ (by rwa [length]), List.drop_append_of_le_length long, written.data]

theorem copy (written : Written s data) (started : s.fLeadingZeroes = false) {bytes : Bytes}
    (room : s.p + bytes.length ≤ size) : ∃ s', bytes.foldlM MpiBuffer.step s = some s' ∧ Written s' (data ++ bytes) := by
  induction bytes generalizing s data with
  | nil =>
      refine ⟨s, rfl, ?_⟩
      rwa [List.append_nil]
  | cons c bytes ih =>
      rw [List.length_cons] at room
      obtain ⟨s', stored, written', same⟩ := written.write (by omega) c
      have next : s'.p + bytes.length ≤ size := by
        have before := written.p
        have after := written'.p
        rw [List.length_append, List.length_singleton] at after
        omega
      obtain ⟨last, copied, whole⟩ := ih written' (same.trans started) next
      refine ⟨last, ?_, ?_⟩
      · rw [List.foldlM_cons, MpiBuffer.step, started, if_neg Bool.false_ne_true, stored]
        exact copied
      · rwa [List.append_assoc] at whole

theorem writeSign (written : Written s []) (room : 5 ≤ size) (c : UInt8) :
    ∃ s', s.writeSign c = some s' ∧ Written s' (if 0x80 ≤ c then [0] else []) := by
  unfold MpiBuffer.writeSign
  by_cases signed : 0x80 ≤ c
  · have start : s.p = 4 := written.p
    obtain ⟨s', stored, written', -⟩ := written.write (by omega) 0
    rw [if_pos ((sign_bit_iff c).mpr signed), if_pos signed]
    exact ⟨s', stored, written'⟩
  · rw [if_neg (mt (sign_bit_iff c).mp signed), if_neg signed]
    exact ⟨s, rfl, written⟩

theorem length_sign_le (c : UInt8) : (if 0x80 ≤ c then [(0 : UInt8)] else []).length ≤ 1 := by
  split
  · exact Nat.le_refl 1
  · exact Nat.zero_le 1

theorem step_first (written : Written s []) (leading : s.fLeadingZeroes = true) (room : 6 ≤ size) {c : UInt8}
    (nonzero : c ≠ 0) :
    ∃ s', s.step c = some s' ∧ Written s' ((if 0x80 ≤ c then [0] else []) ++ [c]) ∧ s'.fLeadingZeroes = false := by
  obtain ⟨s₁, signed, written₁⟩ := written.writeSign (by omega) c
  have started : Written { s₁ with fLeadingZeroes := false } (if 0x80 ≤ c then [0] else []) :=
    ⟨written₁.p, written₁.data⟩
  have short := length_sign_le c
  have place := started.p
  obtain ⟨s', stored, written', same⟩ := started.write (by omega) c
  refine ⟨s', ?_, written', same⟩
  rw [MpiBuffer.step, if_pos leading, if_neg nonzero, signed]
  exact stored

/-- The loop drops the zero bytes at the top and puts one before a byte with the sign bit. -/
theorem foldlM_step (written : Written s []) (leading : s.fLeadingZeroes = true) {bytes : Bytes}
    (room : 5 + bytes.length ≤ size) :
    ∃ s', bytes.foldlM MpiBuffer.step s = some s' ∧
      Written s' (mpiData (value 256 (bytes.map UInt8.toNat))) := by
  rw [mpiData_natCast, magnitude_value]
  induction bytes with
  | nil => exact ⟨s, rfl, written⟩
  | cons c bytes ih =>
      rw [List.length_cons] at room
      rw [List.foldlM_cons]
      by_cases zero : c = 0
      · have dropped : (c :: bytes).dropWhile (· = 0) = bytes.dropWhile (· = 0) :=
          List.dropWhile_cons_of_pos (decide_eq_true zero)
        rw [MpiBuffer.step, if_pos leading, if_pos zero, dropped]
        exact ih (by omega)
      · have kept : (c :: bytes).dropWhile (· = 0) = c :: bytes :=
          List.dropWhile_cons_of_neg (mt of_decide_eq_true zero)
        obtain ⟨first, stored, started, same⟩ := written.step_first leading (by omega) zero
        have next : first.p + bytes.length ≤ size := by
          have short := length_sign_le c
          have place := started.p
          rw [List.length_append, List.length_singleton] at place
          omega
        obtain ⟨last, copied, whole⟩ := started.copy same next
        refine ⟨last, ?_, ?_⟩
        · rw [stored]
          exact copied
        · rw [kept, List.headD_cons]
          split at whole
          · rename_i high
            rwa [if_pos high]
          · rename_i low
            rwa [if_neg low]

theorem writeSize {s : MpiBuffer (size + 6)} (written : Written s data) :
    s.writeSize.toList.take s.p = uint2bytes data.length.toUInt32 ++ data := by
  obtain ⟨p, stored⟩ := written
  have count : s.p - 4 = data.length := by omega
  have length : s.pch.toList.length = size + 6 := Vector.length_toList
  rw [MpiBuffer.writeSize, count]
  simp only [Vector.toList_set]
  rw [p, Nat.add_comm] at stored ⊢
  generalize s.pch.toList = pch at length stored
  match pch, length, stored with
  | _ :: _ :: _ :: _ :: pch, _, stored =>
      have behind : pch.take data.length = data := stored
      show _ :: _ :: _ :: _ :: pch.take data.length = _
      rw [behind]
      rfl

end Written

/-! ## What is copied -/

/-- The bytes with `data` from `i` on, as far as it fits. -/
def overwrite (bytes : Bytes) (i : Nat) (data : Bytes) : Bytes :=
  bytes.take i ++ data.take (bytes.length - i) ++ bytes.drop (i + data.length)

theorem overwrite_nil (bytes : Bytes) (i : Nat) : overwrite bytes i [] = bytes := by
  rw [overwrite, List.take_nil, List.append_nil, List.length_nil, Nat.add_zero, List.take_append_drop]

theorem overwrite_of_le {bytes : Bytes} {i : Nat} (full : bytes.length ≤ i) (data : Bytes) :
    overwrite bytes i data = bytes := by
  rw [overwrite, Nat.sub_eq_zero_of_le full, List.take_zero, List.append_nil, List.take_of_length_le full,
    List.drop_eq_nil_of_le (by omega), List.append_nil]

theorem overwrite_cons {bytes : Bytes} {i : Nat} (inside : i < bytes.length) (c : UInt8) (data : Bytes) :
    overwrite bytes i (c :: data) = overwrite (bytes.set i c) (i + 1) data := by
  have room : bytes.length - i = bytes.length - (i + 1) + 1 := by omega
  have behind : i + (data.length + 1) = i + 1 + data.length := by omega
  rw [overwrite, overwrite, take_set_succ inside, List.drop_set_of_lt (by omega), List.length_set, room,
    List.take_succ_cons, List.length_cons, behind]
  simp only [List.append_assoc, List.cons_append, List.nil_append]

theorem toList_copyBytes {size : Nat} {vch : Bytes} {i j : Nat} (n : Vector UInt8 size) (within : j < vch.length) :
    (copyBytes vch i n j).toList = overwrite n.toList i ((vch.take (j + 1)).drop 4).reverse := by
  have short {j : Nat} (short : j + 1 ≤ 4) : ((vch.take (j + 1)).drop 4).reverse = [] := by
    rw [List.reverse_eq_nil_iff, List.drop_eq_nil_iff, List.length_take]
    omega
  induction j generalizing i n with
  | zero => rw [copyBytes, short (by omega), overwrite_nil]
  | succ j ih =>
      have length : n.toList.length = size := Vector.length_toList
      rw [copyBytes]
      split
      · rename_i copies
        have inside : i < n.toList.length := by
          rw [length]
          exact copies.1
        have long : 4 ≤ (vch.take (j + 1)).length := by
          rw [List.length_take]
          omega
        rw [← List.take_append_getElem within, List.drop_append_of_le_length long, List.reverse_append,
          List.reverse_singleton, List.singleton_append, overwrite_cons inside, ih _ (by omega),
          Vector.toList_set, List.getD_eq_getElem _ _ within]
      · rename_i stops
        by_cases full : size ≤ i
        · rw [overwrite_of_le (by rwa [length])]
        · rw [short (by omega), overwrite_nil]

theorem ofDigits_overwrite (size : Nat) (data : Bytes) :
    Nat.ofDigits 256 ((overwrite (List.replicate size 0) 0 data).map UInt8.toNat) =
      Nat.ofDigits 256 (data.map UInt8.toNat) % 256 ^ size := by
  rw [overwrite, List.take_zero, List.nil_append, List.length_replicate, List.drop_replicate, List.map_append,
    List.map_replicate, List.map_take]
  exact (Nat.ofDigits_append_replicate_zero _).trans
    (Nat.ofDigits_mod_pow_eq_ofDigits_take size (by decide) _ (bytes_lt data)).symm

namespace OpenSSL

variable {width : Nat} {ssl : OpenSSL}

theorem MpiFormat.setBaseUint (format : ssl.MpiFormat) (pch : Vector UInt8 (4 * width + 6)) (n : BaseUint width) :
    ssl.setBaseUint pch n = some (n.toNat : Int) := by
  have start : Written { pch, p := 4, fLeadingZeroes := true } [] := ⟨rfl, by simp⟩
  have room : 5 + n.bytesInMemory.reverse.length ≤ 4 * width + 6 := by
    rw [List.length_reverse, n.length_bytesInMemory]
    omega
  obtain ⟨s, stored, written⟩ := start.foldlM_step rfl room
  have number : value 256 (n.bytesInMemory.reverse.map UInt8.toNat) = n.toNat := by
    rw [value_eq_ofDigits, List.map_reverse, List.reverse_reverse, n.ofDigits_bytesInMemory]
  rw [number] at written
  rw [OpenSSL.setBaseUint, stored]
  show some _ = some _
  rw [written.writeSize, format.reads, mpiNumber_mpiData]

theorem clearSign_eq (nSize : UInt32) (data : Bytes) :
    (if (uint2bytes nSize ++ data).length > 4 then (uint2bytes nSize ++ data).modify 4 (· &&& 0x7f)
      else uint2bytes nSize ++ data) = uint2bytes nSize ++ data.modifyHead (· &&& 0x7f) := by
  cases data with
  | nil => rfl
  | cons c data =>
      rw [if_pos (by simp)]
      rfl

/-- The number without its sign, cut off at the width. -/
theorem MpiFormat.toNat_getBaseUint (format : ssl.MpiFormat) (bn : Int) :
    (ssl.getBaseUint bn : BaseUint width).toNat = bn.natAbs % 256 ^ (4 * width) := by
  have header : (uint2bytes (mpiData bn).length.toUInt32).length = 4 := length_uint2bytes _
  have long : ¬ (uint2bytes (mpiData bn).length.toUInt32 ++ mpiData bn).length < 4 := by
    rw [List.length_append, header]
    omega
  rw [OpenSSL.getBaseUint, format.writes]
  dsimp only
  rw [if_neg long, clearSign_eq]
  generalize cleared : (mpiData bn).modifyHead (· &&& 0x7f) = data
  generalize uint2bytes (mpiData bn).length.toUInt32 = header' at header
  have length : (header' ++ data).length = 4 + data.length := by rw [List.length_append, header]
  have last : (header' ++ data).length - 1 + 1 = (header' ++ data).length := by omega
  have number : Nat.ofDigits 256 (data.reverse.map UInt8.toNat) = bn.natAbs := by
    rw [List.map_reverse, ← value_eq_ofDigits, ← cleared, ← natAbs_mpiNumber, mpiNumber_mpiData]
  rw [BaseUint.toNat_ofMemory, toList_copyBytes _ (by omega), last, List.take_length, List.drop_left' header,
    Vector.toList_replicate, ofDigits_overwrite, number]

theorem MpiFormat.getBaseUint_toNat (format : ssl.MpiFormat) (x : BaseUint width) : ssl.getBaseUint x.toNat = x := by
  have bound := x.toNat_lt
  have digits : (2 ^ 32) ^ width = 256 ^ (4 * width) := by
    rw [pow_mul]
    simp only [Nat.reducePow]
  rw [digits] at bound
  rw [← BaseUint.toNat_inj, format.toNat_getBaseUint, Int.natAbs_natCast, Nat.mod_eq_of_lt bound]

/-! ## Hashes -/

theorem MpiFormat.setuint1024 (format : ssl.MpiFormat) (pch : Vector UInt8 134) (x : Uint1024) :
    ssl.setuint1024 pch x = some (x.toNat : Int) := @MpiFormat.setBaseUint 32 ssl format pch x

/-- `setuint1024` stays in its buffer and makes the number of the hash, from which `getuint1024` makes the hash. -/
theorem uint1024_round_trip (ssl : OpenSSL) (format : ssl.MpiFormat) (x : Uint1024) (pch : Vector UInt8 134) :
    ∃ bn, ssl.setuint1024 pch x = some bn ∧ bn = x.toNat ∧ ssl.getuint1024 bn = x :=
  ⟨x.toNat, format.setuint1024 pch x, rfl, format.getBaseUint_toNat x⟩

theorem exact_uint1024_round_trip :
    ∃ bn, exact.setuint1024 (.replicate 134 0xcc) ⟨.replicate 32 0xffffffff⟩ = some bn ∧
      bn = BaseUint.toNat ⟨.replicate 32 0xffffffff⟩ ∧ exact.getuint1024 bn = ⟨.replicate 32 0xffffffff⟩ :=
  uint1024_round_trip exact mpiFormat_exact ⟨.replicate 32 0xffffffff⟩ (.replicate 134 0xcc)

/-- The number that the difficulty of a share is computed from. -/
theorem setuint1024_hashPrime (format : ssl.MpiFormat) (pch : Vector UInt8 134) (hashPrimeOrigin : Uint1024)
    (nNonce : UInt64) :
    ssl.setuint1024 pch (hashPrimeOrigin.add (.ofUInt64 nNonce)) =
      some (((hashPrimeOrigin.toNat + nNonce.toNat) % 2 ^ 1024 : Nat) : Int) := by
  rw [format.setuint1024, BaseUint.toNat_add_ofUInt64]

end OpenSSL

end PrimePool.Core

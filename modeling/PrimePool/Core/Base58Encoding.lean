import PrimePool.Core.AddressSpelling
import PrimePool.Core.Bignum

/-!
# Base58 encoding

`base58.h`: `EncodeBase58`, and that decoding and encoding undo each other.
-/

namespace PrimePool.Core

open PrimePool.General

def base58Digits : Nat → Int → StdString → Option StdString
  | 0, _, _ => none
  | fuel + 1, bn, str =>
      if bn > 0 then
        let dv := bn.tdiv 58
        let rem := bn.tmod 58
        base58Digits fuel dv (str ++ [pszBase58.getD rem.natAbs 0])
      else some str

variable (ssl : OpenSSL)

def encodeBase58 (vch : Bytes) : Option StdString := do
  let bn := ssl.setvch (vch.reverse ++ [0])
  let str ← base58Digits (bn.toNat + 1) bn []
  let zeros := (vch.takeWhile (· = 0)).map fun _ => pszBase58.getD 0 0
  return (str ++ zeros).reverse

variable (SK256 : Bytes → Vector UInt8 32)

def encodeBase58Check (vchIn : Bytes) : Option StdString :=
  encodeBase58 ssl (vchIn ++ (SK256 vchIn).toList.take 4)

/-! ## The characters of a number -/

def characterOf (digit : Nat) : UInt8 := pszBase58.getD digit 0

theorem base58Digits_natCast {fuel n : Nat} (enough : n < fuel) (str : StdString) :
    base58Digits fuel n str = some (str ++ (Nat.digits 58 n).map characterOf) := by
  induction fuel generalizing n str with
  | zero => exact absurd enough (Nat.not_lt_zero n)
  | succ fuel ih =>
      rw [base58Digits]
      by_cases zero : n = 0
      · subst zero
        simp
      · have positive : (n : Int) > 0 := by omega
        have less : n / 58 < fuel := by omega
        have quotient : (n : Int).tdiv 58 = (n / 58 : Nat) := rfl
        have remainder : ((n : Int).tmod 58).natAbs = n % 58 := rfl
        rw [if_pos positive]
        dsimp only
        rw [quotient, remainder, ih less, Nat.digits_def' (by decide) (Nat.pos_of_ne_zero zero), List.map_cons,
          List.append_assoc]
        rfl

theorem leadingZeros_bytes (vch : Bytes) : leadingZeros (vch.map UInt8.toNat) = (vch.takeWhile (· = 0)).length := by
  rw [leadingZeros, List.takeWhile_map, List.length_map]
  congr 2
  funext c
  rw [Function.comp_apply, decide_eq_decide, ← UInt8.toNat_inj, UInt8.toNat_zero]

variable {ssl}

theorem encodeBase58_eq (format : ssl.MpiFormat) (vch : Bytes) :
    let bytes := vch.map UInt8.toNat
    encodeBase58 ssl vch = some ((numeral 58 (leadingZeros bytes) (value 256 bytes)).map characterOf) := by
  intro bytes
  have bn : ssl.setvch (vch.reverse ++ [0]) = value 256 bytes := by
    rw [format.setvch, List.reverse_append, List.reverse_reverse]
    exact mpiNumber_zero_cons vch
  have number := base58Digits_natCast (Nat.lt_succ_self (value 256 bytes)) []
  rw [encodeBase58, bn, Int.toNat_natCast, number, leadingZeros_bytes, numeral, List.map_append, List.map_replicate,
    List.map_reverse, List.map_const']
  show some _ = _
  rw [List.nil_append, List.reverse_append, List.reverse_replicate]
  rfl

theorem digitOf_characterOf {digit : Nat} (small : digit < 58) : digitOf (characterOf digit) = digit := by
  have all : ∀ digit < 58, digitOf (characterOf digit) = digit := by decide +kernel
  exact all digit small

theorem characterOf_digitOf {c : UInt8} (base58 : isBase58 c = true) : characterOf (digitOf c) = c := by
  obtain ⟨digit, found⟩ := Option.isSome_iff_exists.mp base58
  rw [digitOf, found, Option.getD_some, characterOf, List.getD_eq_getElem?_getD, getElem_strchr found, Option.getD_some]

theorem isBase58_characterOf {digit : Nat} (small : digit < 58) : isBase58 (characterOf digit) = true := by
  have all : ∀ digit < 58, isBase58 (characterOf digit) = true := by decide +kernel
  exact all digit small

theorem isBase58_iff_mem (c : UInt8) : isBase58 c = true ↔ c ∈ pszBase58 := by
  rw [isBase58, strchr, List.findIdx?_isSome, List.any_eq_true]
  simp

theorem isspace_of_isBase58 {c : UInt8} (base58 : isBase58 c = true) : isspace c = false := by
  have all : ∀ c ∈ pszBase58, isspace c = false := by decide +kernel
  exact all c ((isBase58_iff_mem c).mp base58)

theorem c_str_eq {str : StdString} (base58 : ∀ c ∈ str, isBase58 c = true) : c_str str = str := by
  apply List.takeWhile_eq_self_iff.mpr
  intro c member
  have all : ∀ c ∈ pszBase58, c ≠ 0 := by decide +kernel
  exact decide_eq_true (all c ((isBase58_iff_mem c).mp (base58 c member)))

theorem readBase58_base58 {p : StdString} (base58 : ∀ c ∈ p, isBase58 c = true) (bn : Nat) :
    ∃ n, readBase58 bn p = some n := by
  induction p generalizing bn with
  | nil => exact ⟨bn, rfl⟩
  | cons c p ih =>
      obtain ⟨digit, found⟩ := Option.isSome_iff_exists.mp (base58 c List.mem_cons_self)
      rw [readBase58, found]
      exact ih (fun c member => base58 c (List.mem_cons_of_mem _ member)) _

theorem decodeBase58_base58 {psz : StdString} (base58 : ∀ c ∈ psz, isBase58 c = true) :
    let digits := psz.map digitOf
    decodeBase58 psz = some ((numeral 256 (leadingZeros digits) (value 58 digits)).map Nat.toUInt8) := by
  intro digits
  have start : psz.dropWhile isspace = psz := by
    cases psz with
    | nil => rfl
    | cons c psz =>
        apply List.dropWhile_cons_of_neg
        rw [isspace_of_isBase58 (base58 c List.mem_cons_self)]
        exact Bool.false_ne_true
  have characters : base58Characters psz = psz := by
    rw [base58Characters, start]
    exact List.takeWhile_eq_self_iff.mpr base58
  obtain ⟨n, read⟩ := readBase58_base58 base58 0
  obtain ⟨vchRet, decoded⟩ : ∃ vchRet, decodeBase58 psz = some vchRet := by
    rw [decodeBase58, start, read]
    exact ⟨_, rfl⟩
  have bytes := decodeBase58_eq decoded
  rw [characters] at bytes
  rw [decoded, bytes]

/-! ## Both ways -/

theorem decodeBase58_encodeBase58 (format : ssl.MpiFormat) (vch : Bytes) :
    ∃ str, encodeBase58 ssl vch = some str ∧ decodeBase58 (c_str str) = some vch := by
  let bytes := vch.map UInt8.toNat
  let digits := numeral 58 (leadingZeros bytes) (value 256 bytes)
  have base58 : ∀ c ∈ digits.map characterOf, isBase58 c = true := by
    intro c member
    obtain ⟨digit, listed, rfl⟩ := List.mem_map.mp member
    exact isBase58_characterOf (numeral_lt (by decide) _ _ digit listed)
  have read : (digits.map characterOf).map digitOf = digits := by
    rw [List.map_map]
    refine (List.map_congr_left fun digit member => ?_).trans (List.map_id digits)
    exact digitOf_characterOf (numeral_lt (by decide) _ _ digit member)
  refine ⟨digits.map characterOf, encodeBase58_eq format vch, ?_⟩
  rw [c_str_eq base58, decodeBase58_base58 base58, read, leadingZeros_numeral, value_numeral,
    numeral_value (by decide) (bytes_lt vch), map_toUInt8_toNat]

theorem encodeBase58_decodeBase58 (format : ssl.MpiFormat) {s : StdString} (base58 : ∀ c ∈ s, isBase58 c = true) :
    ∃ vch, decodeBase58 (c_str s) = some vch ∧ encodeBase58 ssl vch = some s := by
  have small : ∀ digit ∈ s.map digitOf, digit < 58 := by
    intro digit member
    obtain ⟨c, -, rfl⟩ := List.mem_map.mp member
    exact digitOf_lt
  rw [c_str_eq base58]
  refine ⟨_, decodeBase58_base58 base58, ?_⟩
  rw [encodeBase58_eq format, map_toNat_toUInt8 (numeral_lt (by decide) _ _), leadingZeros_numeral, value_numeral, numeral_value (by decide) small,
    List.map_map]
  congr 1
  refine (List.map_congr_left fun c member => ?_).trans (List.map_id s)
  exact characterOf_digitOf (base58 c member)

theorem decodeBase58Check_encodeBase58Check (format : ssl.MpiFormat) (SK256 : Bytes → Vector UInt8 32) (vchIn : Bytes) :
    ∃ str, encodeBase58Check ssl SK256 vchIn = some str ∧ decodeBase58Check SK256 (c_str str) = some vchIn := by
  obtain ⟨str, encoded, decoded⟩ := decodeBase58_encodeBase58 format (vchIn ++ (SK256 vchIn).toList.take 4)
  have four : ((SK256 vchIn).toList.take 4).length = 4 := by simp
  refine ⟨str, encoded, ?_⟩
  rw [decodeBase58Check, decoded]
  show (if _ then none else if _ then none else _) = _
  have length : (vchIn ++ (SK256 vchIn).toList.take 4).length = vchIn.length + 4 := by rw [List.length_append, four]
  rw [length, Nat.add_sub_cancel, List.take_left, List.drop_left, if_neg (by omega), if_neg (not_not.mpr rfl)]

/-- Encoding and decoding undo each other, with OpenSSL's conversions of the MPI format; the decoder's bytes of a
bignum are those of `getvch`. -/
theorem base58_round_trip (ssl : OpenSSL) (format : ssl.MpiFormat) (SK256 : Bytes → Vector UInt8 32) :
    (∀ bn : Nat, ssl.getvch bn = CBigNum.getvch bn) ∧
      (∀ vch : Bytes, ∃ str, encodeBase58 ssl vch = some str ∧ decodeBase58 (c_str str) = some vch) ∧
      (∀ s : StdString, (∀ c ∈ s, c ∈ pszBase58) →
        ∃ vch, decodeBase58 (c_str s) = some vch ∧ encodeBase58 ssl vch = some s) ∧
      ∀ vchIn : Bytes, ∃ str, encodeBase58Check ssl SK256 vchIn = some str ∧
        decodeBase58Check SK256 (c_str str) = some vchIn := by
  refine ⟨format.getvch, decodeBase58_encodeBase58 format, fun s base58 => ?_,
    decodeBase58Check_encodeBase58Check format SK256⟩
  exact encodeBase58_decodeBase58 format fun c member => (isBase58_iff_mem c).mpr (base58 c member)

theorem exact_base58_round_trip :
    (∃ str, encodeBase58 .exact [0, 0, 0x80] = some str ∧ decodeBase58 (c_str str) = some [0, 0, 0x80]) ∧
      ∃ vch, decodeBase58 (c_str NexusAddress.plainAddress) = some vch ∧
        encodeBase58 .exact vch = some NexusAddress.plainAddress := by
  obtain ⟨-, decodes, encodes, -⟩ := base58_round_trip .exact OpenSSL.mpiFormat_exact NexusAddress.noChecksum
  exact ⟨decodes _, encodes _ (by decide +kernel)⟩

end PrimePool.Core

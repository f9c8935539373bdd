import PrimePool.Core.Base58
import PrimePool.General.Numerals

/-!
# Spellings of an address

Which login strings denote one address: they agree in the base58 characters, and may differ in the white space
before and in whatever comes after them.
-/

namespace PrimePool.Core

open PrimePool.General

def isBase58 (c : UInt8) : Bool := (strchr pszBase58 c).isSome

def digitOf (c : UInt8) : Nat := (strchr pszBase58 c).getD 0

def spaceBefore (str : StdString) : StdString := str.takeWhile isspace

def base58Characters (str : StdString) : StdString := (str.dropWhile isspace).takeWhile isBase58

def restBehind (str : StdString) : StdString := (str.dropWhile isspace).dropWhile isBase58

theorem eq_parts (str : StdString) : str = spaceBefore str ++ (base58Characters str ++ restBehind str) := by
  rw [spaceBefore, base58Characters, restBehind, List.takeWhile_append_dropWhile, List.takeWhile_append_dropWhile]

theorem strchr_lt {psz : StdString} {c : UInt8} {digit : Nat} (found : strchr psz c = some digit) :
    digit < psz.length := by
  rw [strchr, List.findIdx?_eq_some_iff_getElem] at found
  exact found.1

theorem getElem_strchr {psz : StdString} {c : UInt8} {digit : Nat} (found : strchr psz c = some digit) :
    psz[digit]? = some c := by
  rw [strchr, List.findIdx?_eq_some_iff_getElem] at found
  obtain ⟨inside, equal, -⟩ := found
  rw [List.getElem?_eq_getElem inside, of_decide_eq_true equal]

theorem digitOf_lt {c : UInt8} : digitOf c < 58 := by
  unfold digitOf
  cases found : strchr pszBase58 c with
  | none => decide
  | some digit => exact strchr_lt found

theorem digitOf_injective {c d : UInt8} (first : isBase58 c = true) (second : isBase58 d = true)
    (same : digitOf c = digitOf d) : c = d := by
  obtain ⟨i, foundC⟩ := Option.isSome_iff_exists.mp first
  obtain ⟨j, foundD⟩ := Option.isSome_iff_exists.mp second
  simp only [digitOf, foundC, foundD, Option.getD_some] at same
  have atC := getElem_strchr foundC
  rw [same, getElem_strchr foundD] at atC
  exact (Option.some.inj atC).symm

theorem digitOf_eq_zero_iff {c : UInt8} (base58 : isBase58 c = true) : digitOf c = 0 ↔ c = pszBase58.headD 0 :=
  ⟨fun zero => digitOf_injective base58 (by decide) (zero.trans (by decide)), fun same => by rw [same]; decide⟩

theorem readBase58_eq {bn n : Nat} {p : StdString} (read : readBase58 bn p = some n) :
    n = ((p.takeWhile isBase58).map digitOf).foldl (fun n digit => 58 * n + digit) bn := by
  induction p generalizing bn with
  | nil => exact (Option.some.inj read).symm
  | cons c p ih =>
      rw [readBase58] at read
      cases found : strchr pszBase58 c with
      | none =>
          simp only [found] at read
          split at read
          · rw [List.takeWhile_cons_of_neg (by simp [isBase58, found])]
            exact (Option.some.inj read).symm
          · cases read
      | some digit =>
          simp only [found] at read
          rw [List.takeWhile_cons_of_pos (by simp [isBase58, found]), List.map_cons, List.foldl_cons, digitOf,
            found]
          exact ih read

theorem getLastD_digits {bn : Nat} (nonzero : bn ≠ 0) :
    ((Nat.digits 256 bn).map Nat.toUInt8).getLastD 0 ≠ 0 := by
  have nonempty : Nat.digits 256 bn ≠ [] := Nat.digits_ne_nil_iff_ne_zero.mpr nonzero
  have last := Nat.getLast_digit_ne_zero 256 nonzero
  have small : (Nat.digits 256 bn).getLast nonempty < 256 := Nat.digits_lt_base (by decide) (List.getLast_mem nonempty)
  rw [List.getLastD_eq_getLast?, List.getLast?_map, List.getLast?_eq_some_getLast nonempty, Option.map_some,
    Option.getD_some]
  intro zero
  have same := congrArg UInt8.toNat zero
  rw [Nat.toUInt8_eq, UInt8.toNat_ofNat', Nat.mod_eq_of_lt small] at same
  exact last same

theorem trimSign_getvch (bn : Nat) : trimSign (CBigNum.getvch bn) = (Nat.digits 256 bn).map Nat.toUInt8 := by
  by_cases nonzero : bn = 0
  · subst nonzero
    rfl
  have last := getLastD_digits nonzero
  have nonempty : (Nat.digits 256 bn).map Nat.toUInt8 ≠ [] := by
    intro empty
    rw [empty] at last
    exact last rfl
  rw [CBigNum.getvch]
  generalize (Nat.digits 256 bn).map Nat.toUInt8 = vch at last nonempty ⊢
  have positive := List.length_pos_iff.mpr nonempty
  by_cases signed : 0x80 ≤ vch.getLastD 0
  · rw [if_pos signed, trimSign, List.dropLast_concat, if_pos]
    exact ⟨by simp; omega, by simp, signed⟩
  · rw [if_neg signed, trimSign, if_neg]
    rintro ⟨-, zero, -⟩
    exact last zero

theorem takeWhile_one (psz : StdString) :
    psz.takeWhile (· = pszBase58.headD 0) = (psz.takeWhile isBase58).takeWhile (· = pszBase58.headD 0) := by
  rw [List.takeWhile_takeWhile]
  congr 1
  funext c
  by_cases one : c = pszBase58.headD 0
  · subst one
    decide
  · rw [decide_eq_false one]
    simp

theorem leadingZeros_digits (psz : StdString) :
    leadingZeros ((psz.takeWhile isBase58).map digitOf) = (psz.takeWhile (· = pszBase58.headD 0)).length := by
  rw [takeWhile_one, leadingZeros, List.takeWhile_map, List.length_map]
  congr 1
  have base58 : ∀ c ∈ psz.takeWhile isBase58, isBase58 c = true := fun c member => List.mem_takeWhile_imp member
  generalize psz.takeWhile isBase58 = characters at base58 ⊢
  induction characters with
  | nil => rfl
  | cons c characters ih =>
      have rest := ih fun c member => base58 c (List.mem_cons_of_mem _ member)
      have zero := digitOf_eq_zero_iff (base58 c List.mem_cons_self)
      by_cases one : c = pszBase58.headD 0
      · rw [List.takeWhile_cons_of_pos (by simp [zero.mpr one]), List.takeWhile_cons_of_pos (by simp [one]), rest]
      · rw [List.takeWhile_cons_of_neg (by simpa using fun digit => one (zero.mp digit)),
          List.takeWhile_cons_of_neg (by simpa using one)]

/-- The bytes a decoded string stands for are the base 256 numeral with its value and its leading zeros. -/
theorem decodeBase58_eq {psz : StdString} {vchRet : Bytes} (decoded : decodeBase58 psz = some vchRet) :
    let digits := (base58Characters psz).map digitOf
    vchRet = (numeral 256 (leadingZeros digits) (value 58 digits)).map Nat.toUInt8 := by
  obtain ⟨bn, read, made⟩ := Option.bind_eq_some_iff.mp decoded
  have number := readBase58_eq read
  intro digits
  have same : bn = value 58 digits := number
  rw [← Option.some.inj made, trimSign_getvch, numeral, List.map_append, List.map_replicate, List.map_reverse,
    same, ← leadingZeros_digits]
  rfl

theorem map_digitOf_injective {first second : StdString} (base58First : ∀ c ∈ first, isBase58 c = true)
    (base58Second : ∀ c ∈ second, isBase58 c = true) (same : first.map digitOf = second.map digitOf) :
    first = second := by
  induction first generalizing second with
  | nil => exact (List.map_eq_nil_iff.mp same.symm).symm
  | cons c first ih =>
      cases second with
      | nil => cases same
      | cons d second =>
          obtain ⟨heads, tails⟩ := List.cons.inj same
          rw [digitOf_injective (base58First c List.mem_cons_self) (base58Second d List.mem_cons_self) heads,
            ih (fun c member => base58First c (List.mem_cons_of_mem _ member))
              (fun c member => base58Second c (List.mem_cons_of_mem _ member)) tails]

/-- Decoding loses nothing of the base58 characters. -/
theorem base58Characters_eq {s t : StdString} {vchRet : Bytes} (first : decodeBase58 s = some vchRet)
    (second : decodeBase58 t = some vchRet) : base58Characters s = base58Characters t := by
  have base58 (str : StdString) : ∀ c ∈ base58Characters str, isBase58 c = true :=
    fun c member => List.mem_takeWhile_imp member
  have small (str : StdString) : ∀ digit ∈ (base58Characters str).map digitOf, digit < 58 := by
    intro digit member
    obtain ⟨c, -, rfl⟩ := List.mem_map.mp member
    exact digitOf_lt
  have bytes := (decodeBase58_eq first).symm.trans (decodeBase58_eq second)
  have numerals := congrArg (List.map UInt8.toNat) bytes
  rw [map_toNat_toUInt8 (numeral_lt (by decide) _ _), map_toNat_toUInt8 (numeral_lt (by decide) _ _)] at numerals
  have zeros := congrArg leadingZeros numerals
  have values := congrArg (value 256) numerals
  rw [leadingZeros_numeral, leadingZeros_numeral] at zeros
  rw [value_numeral, value_numeral] at values
  apply map_digitOf_injective (base58 s) (base58 t)
  rw [← numeral_value (by decide) (small s), zeros, values, numeral_value (by decide) (small t)]

theorem base58Characters_c_str (str : StdString) : base58Characters (c_str str) = base58Characters str := by
  have cut : (c_str str).dropWhile isspace = (str.dropWhile isspace).takeWhile (· ≠ 0) := by
    rw [c_str]
    induction str with
    | nil => rfl
    | cons c str ih =>
        by_cases space : isspace c = true
        · have notNull : c ≠ 0 := by
            rintro rfl
            exact absurd space (by decide)
          rw [List.takeWhile_cons_of_pos (by simpa using notNull), List.dropWhile_cons_of_pos space,
            List.dropWhile_cons_of_pos space, ih]
        · rw [List.dropWhile_cons_of_neg space]
          by_cases null : c = 0
          · rw [List.takeWhile_cons_of_neg (by simpa using null)]
            rfl
          · rw [List.takeWhile_cons_of_pos (by simpa using null), List.dropWhile_cons_of_neg space]
  rw [base58Characters, base58Characters, cut, List.takeWhile_takeWhile]
  congr 1
  funext c
  by_cases null : c = 0
  · subst null
    decide
  · simp [null]

variable {SK256 : Bytes → Vector UInt8 32}

theorem decodeBase58Check_eq {psz : StdString} {vchRet : Bytes}
    (decoded : decodeBase58Check SK256 psz = some vchRet) :
    decodeBase58 psz = some (vchRet ++ (SK256 vchRet).toList.take 4) := by
  obtain ⟨bytes, read, checked⟩ := Option.bind_eq_some_iff.mp decoded
  dsimp only at checked
  split at checked
  · cases checked
  · split at checked
    · cases checked
    · rename_i agrees
      rw [not_ne_iff] at agrees
      rw [← Option.some.inj checked, agrees, List.take_append_drop]
      exact read

namespace NexusAddress

theorem setString_of_isValid {fTestNet : Bool} {str : StdString}
    (valid : (setString SK256 str).isValid fTestNet = true) :
    decodeBase58Check SK256 (c_str str) =
      some ((setString SK256 str).nVersion :: (setString SK256 str).vchData) := by
  have refused : ({ nVersion := 0, vchData := [] } : NexusAddress).isValid fTestNet = false := rfl
  cases decoded : decodeBase58Check SK256 (c_str str) with
  | none =>
      have empty : setString SK256 str = { nVersion := 0, vchData := [] } := by
        rw [setString, decoded]
        rfl
      rw [empty, refused] at valid
      cases valid
  | some vchTemp =>
      cases vchTemp with
      | nil =>
          have empty : setString SK256 str = { nVersion := 0, vchData := [] } := by
            rw [setString, decoded]
            rfl
          rw [empty, refused] at valid
          cases valid
      | cons nVersion vchData =>
          rw [setString, decoded]
          rfl

theorem base58Characters_of_setString {fTestNet : Bool} {s t : StdString}
    (validS : (setString SK256 s).isValid fTestNet = true) (validT : (setString SK256 t).isValid fTestNet = true)
    (same : setString SK256 s = setString SK256 t) : base58Characters s = base58Characters t := by
  have first := decodeBase58Check_eq (setString_of_isValid validS)
  have second := decodeBase58Check_eq (setString_of_isValid validT)
  rw [← same] at second
  rw [← base58Characters_c_str s, ← base58Characters_c_str t]
  exact base58Characters_eq first second

theorem isBannedAccount_congr_iff (s t : StdString) :
    (∀ BANNED_ACCOUNTS, isBannedAccount BANNED_ACCOUNTS s = isBannedAccount BANNED_ACCOUNTS t) ↔ s = t := by
  constructor
  · intro verdicts
    have listed := verdicts [t]
    simpa [isBannedAccount] using listed
  · rintro rfl _
    rfl

/-- Two spellings of one address are one account, and banned together, exactly when they agree in the white space
before the base58 characters and in the bytes behind them. -/
theorem one_account_iff (SK256 : Bytes → Vector UInt8 32) (fTestNet : Bool) (s t : StdString)
    (validS : (setString SK256 s).isValid fTestNet = true) (validT : (setString SK256 t).isValid fTestNet = true)
    (same : setString SK256 s = setString SK256 t) :
    (s = t ↔ spaceBefore s = spaceBefore t ∧ restBehind s = restBehind t) ∧
      ((∀ BANNED_ACCOUNTS, isBannedAccount BANNED_ACCOUNTS s = isBannedAccount BANNED_ACCOUNTS t) ↔
        spaceBefore s = spaceBefore t ∧ restBehind s = restBehind t) := by
  have characters := base58Characters_of_setString validS validT same
  have equal : s = t ↔ spaceBefore s = spaceBefore t ∧ restBehind s = restBehind t := by
    constructor
    · rintro rfl
      exact ⟨rfl, rfl⟩
    · rintro ⟨before, behind⟩
      rw [eq_parts s, eq_parts t, before, characters, behind]
  exact ⟨equal, (isBannedAccount_congr_iff s t).trans equal⟩

theorem one_account_plainAddress :
    [32] ++ plainAddress = plainAddress ↔
      spaceBefore ([32] ++ plainAddress) = spaceBefore plainAddress ∧
        restBehind ([32] ++ plainAddress) = restBehind plainAddress :=
  (one_account_iff noChecksum false ([32] ++ plainAddress) plainAddress (by decide +kernel) (by decide +kernel)
    (by decide +kernel)).1

theorem banned_under_another_spelling :
    (setString noChecksum plainAddress).isValid false = true ∧
      setString noChecksum (plainAddress ++ [32]) = setString noChecksum plainAddress ∧
      plainAddress ++ [32] ≠ plainAddress ∧
      isBannedAccount [plainAddress] plainAddress = true ∧
      isBannedAccount [plainAddress] (plainAddress ++ [32]) = false := by
  decide +kernel

end NexusAddress

end PrimePool.Core

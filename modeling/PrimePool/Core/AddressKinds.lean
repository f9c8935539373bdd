import PrimePool.Core.Base58Encoding
import PrimePool.Hash.Templates

/-!
# Kinds of addresses

`base58.h`: what an address is made of, how it is written and read, and the order of addresses.
-/

namespace PrimePool.Core

namespace NexusAddress

section

variable (ssl : OpenSSL) (SK256 : Bytes → Vector UInt8 32)

def setHash256 (fTestNet : Bool) (hash256 : Vector UInt8 32) : NexusAddress where
  nVersion := if fTestNet then PUBKEY_ADDRESS_TEST else PUBKEY_ADDRESS
  vchData := hash256.toList

def setPubKey (fTestNet : Bool) (vchPubKey : Bytes) : NexusAddress := setHash256 fTestNet (SK256 vchPubKey)

def setScriptHash256 (fTestNet : Bool) (hash256 : Vector UInt8 32) : NexusAddress where
  nVersion := if fTestNet then SCRIPT_ADDRESS_TEST else SCRIPT_ADDRESS
  vchData := hash256.toList

def toString (cAddress : NexusAddress) : Option StdString :=
  encodeBase58Check ssl SK256 (cAddress.nVersion :: cAddress.vchData)

def isScript (fTestNet : Bool) (cAddress : NexusAddress) : Bool :=
  if cAddress.isValid fTestNet = false then false else cAddress.nVersion = SCRIPT_ADDRESS

/-- The assertion on the length fails where the result is `none`. -/
def getHash256 (cAddress : NexusAddress) : Option (Vector UInt8 32) :=
  if length : cAddress.vchData.length = 32 then some (Vector.ofFn fun i => cAddress.vchData.get ⟨i, by omega⟩)
  else none

/-! ## Writing and reading -/

variable {ssl} {SK256}

theorem setString_toString (format : ssl.MpiFormat) (cAddress : NexusAddress) :
    ∃ str, cAddress.toString ssl SK256 = some str ∧ setString SK256 str = cAddress := by
  obtain ⟨str, encoded, decoded⟩ :=
    decodeBase58Check_encodeBase58Check format SK256 (cAddress.nVersion :: cAddress.vchData)
  refine ⟨str, encoded, ?_⟩
  rw [setString, decoded]
  rfl

theorem decodeBase58_base58Characters {s : StdString} {vchRet : Bytes} (decoded : decodeBase58 (c_str s) = some vchRet) :
    decodeBase58 (c_str (base58Characters s)) = some vchRet := by
  have base58 : ∀ c ∈ base58Characters s, isBase58 c = true := fun c member => List.mem_takeWhile_imp member
  have bytes := decodeBase58_eq decoded
  rw [base58Characters_c_str] at bytes
  rw [c_str_eq base58, decodeBase58_base58 base58, bytes]

/-- What is written for an address that was read is its spelling without what surrounds it. -/
theorem toString_setString (format : ssl.MpiFormat) {fTestNet : Bool} {s : StdString}
    (valid : (setString SK256 s).isValid fTestNet = true) :
    (setString SK256 s).toString ssl SK256 = some (base58Characters s) := by
  have base58 : ∀ c ∈ base58Characters s, isBase58 c = true := fun c member => List.mem_takeWhile_imp member
  obtain ⟨vch, decoded, encoded⟩ := encodeBase58_decodeBase58 format base58
  have read := decodeBase58_base58Characters (decodeBase58Check_eq (setString_of_isValid valid))
  rw [decoded] at read
  rw [toString, encodeBase58Check, ← Option.some.inj read, encoded]

/-- Addresses and their plain spellings are one to one. -/
theorem address_spelling (ssl : OpenSSL) (format : ssl.MpiFormat) (SK256 : Bytes → Vector UInt8 32) (fTestNet : Bool) :
    (∀ cAddress : NexusAddress, ∃ str, cAddress.toString ssl SK256 = some str ∧ setString SK256 str = cAddress) ∧
      ∀ s, (setString SK256 s).isValid fTestNet = true →
        (setString SK256 s).toString ssl SK256 = some (base58Characters s) :=
  ⟨setString_toString format, fun _ => toString_setString format⟩

theorem exact_address_spelling :
    (∃ str, (setPubKey noChecksum false [2, 3]).toString .exact noChecksum = some str ∧
      setString noChecksum str = setPubKey noChecksum false [2, 3]) ∧
      (setString noChecksum plainAddress).toString .exact noChecksum = some (base58Characters plainAddress) := by
  obtain ⟨written, read⟩ := address_spelling .exact OpenSSL.mpiFormat_exact noChecksum false
  exact ⟨written (setPubKey noChecksum false [2, 3]), read plainAddress (by decide +kernel)⟩

end

/-! ## Kinds -/

theorem getHash256_eq {cAddress : NexusAddress} {hash256 : Vector UInt8 32} (data : cAddress.vchData = hash256.toList) :
    cAddress.getHash256 = some hash256 := by
  have length : cAddress.vchData.length = 32 := by rw [data, Vector.length_toList]
  rw [getHash256, dif_pos length]
  refine congrArg some (Vector.ext fun i inside => ?_)
  rw [Vector.getElem_ofFn]
  simp only [data, List.get_eq_getElem, Vector.getElem_toList]

def ofHash256 (fScript fTestNet : Bool) (hash256 : Vector UInt8 32) : NexusAddress :=
  if fScript then setScriptHash256 fTestNet hash256 else setHash256 fTestNet hash256

theorem vchData_ofHash256 (fScript fTestNet : Bool) (hash256 : Vector UInt8 32) :
    (ofHash256 fScript fTestNet hash256).vchData = hash256.toList := by
  cases fScript <;> rfl

theorem isValid_ofHash256 (fScript fTestNet : Bool) (hash256 : Vector UInt8 32) :
    (ofHash256 fScript fTestNet hash256).isValid fTestNet = true := by
  have length : hash256.toList.length = 32 := Vector.length_toList
  cases fScript <;> cases fTestNet <;> simp [ofHash256, setScriptHash256, setHash256, isValid, length, PUBKEY_ADDRESS,
    PUBKEY_ADDRESS_TEST, SCRIPT_ADDRESS, SCRIPT_ADDRESS_TEST]

theorem eq_ofHash256_of_isValid {fTestNet : Bool} {cAddress : NexusAddress} (valid : cAddress.isValid fTestNet = true) :
    ∃ fScript hash256, cAddress = ofHash256 fScript fTestNet hash256 := by
  obtain ⟨nVersion, vchData⟩ := cAddress
  rw [isValid] at valid
  split at valid
  · rename_i kind
    obtain ⟨rfl, length⟩ : false = fTestNet ∧ vchData.length = 32 := by simpa using valid
    rcases kind with rfl | rfl
    · exact ⟨false, ⟨vchData.toArray, length⟩, rfl⟩
    · exact ⟨true, ⟨vchData.toArray, length⟩, rfl⟩
  · split at valid
    · rename_i kind
      obtain ⟨rfl, length⟩ : true = fTestNet ∧ vchData.length = 32 := by simpa using valid
      rcases kind with rfl | rfl
      · exact ⟨false, ⟨vchData.toArray, length⟩, rfl⟩
      · exact ⟨true, ⟨vchData.toArray, length⟩, rfl⟩
    · cases valid

/-! ## Accepted texts -/

theorem isBase58_of_isspace {c : UInt8} (space : isspace c = true) : isBase58 c = false := by
  by_contra base58
  rw [isspace_of_isBase58 (Bool.not_eq_false _ ▸ base58)] at space
  cases space

theorem readBase58_isSome_iff (bn : Nat) (p : StdString) :
    (readBase58 bn p).isSome = true ↔ ∀ c ∈ p.dropWhile isBase58, isspace c = true := by
  induction p generalizing bn with
  | nil => simp [readBase58]
  | cons c p ih =>
      rw [readBase58]
      cases found : strchr pszBase58 c with
      | none =>
          have other : ¬ isBase58 c = true := by
            rw [isBase58, found]
            exact Bool.false_ne_true
          rw [List.dropWhile_cons_of_neg other]
          have blank : (c :: p).dropWhile isspace = [] ↔ ∀ d ∈ c :: p, isspace d = true :=
            List.dropWhile_eq_nil_iff
          rw [← blank]
          dsimp only
          by_cases empty : (c :: p).dropWhile isspace = []
          · rw [if_pos empty]
            exact iff_of_true rfl empty
          · rw [if_neg empty]
            exact iff_of_false Bool.false_ne_true empty
      | some digit =>
          have base58 : isBase58 c = true := by rw [isBase58, found, Option.isSome_some]
          rw [List.dropWhile_cons_of_pos base58]
          exact ih _

theorem decodeBase58_isSome_iff (psz : StdString) :
    (decodeBase58 psz).isSome = true ↔ ∀ c ∈ restBehind psz, isspace c = true := by
  rw [restBehind, ← readBase58_isSome_iff 0, decodeBase58]
  cases readBase58 0 (psz.dropWhile isspace) <;> rfl

section

variable {before text behind : StdString} (spaces : ∀ c ∈ before, isspace c = true)
  (base58 : ∀ c ∈ text, isBase58 c = true) (spaces' : ∀ c ∈ behind, isspace c = true)

include spaces base58 spaces'

theorem parts_of_append :
    base58Characters (before ++ (text ++ behind)) = text ∧
      ∀ c ∈ restBehind (before ++ (text ++ behind)), isspace c = true := by
  have start : (before ++ (text ++ behind)).dropWhile isspace = (text ++ behind).dropWhile isspace :=
    List.dropWhile_append_of_pos spaces
  have nothing : behind.takeWhile isBase58 = [] := by
    cases behind with
    | nil => rfl
    | cons c behind =>
        refine List.takeWhile_cons_of_neg ?_
        rw [isBase58_of_isspace (spaces' c List.mem_cons_self)]
        exact Bool.false_ne_true
  rw [base58Characters, restBehind, start]
  cases text with
  | nil =>
      have all : behind.dropWhile isspace = [] := List.dropWhile_eq_nil_iff.mpr spaces'
      rw [List.nil_append, all]
      exact ⟨rfl, fun c member => absurd member List.not_mem_nil⟩
  | cons c text =>
      have first : isspace c ≠ true := by
        rw [isspace_of_isBase58 (base58 c List.mem_cons_self)]
        exact Bool.false_ne_true
      rw [List.cons_append, List.dropWhile_cons_of_neg first, ← List.cons_append, List.takeWhile_append_of_pos base58,
        List.dropWhile_append_of_pos base58, nothing, List.append_nil]
      exact ⟨rfl, fun other member => spaces' other ((List.dropWhile_suffix _).mem member)⟩

theorem decodeBase58_append : decodeBase58 (before ++ (text ++ behind)) = decodeBase58 text := by
  obtain ⟨characters, rest⟩ := parts_of_append spaces base58 spaces'
  obtain ⟨vchRet, decoded⟩ := Option.isSome_iff_exists.mp ((decodeBase58_isSome_iff _).mpr rest)
  have bytes := decodeBase58_eq decoded
  rw [characters] at bytes
  rw [decoded, decodeBase58_base58 base58, bytes]

end

section

variable (ssl : OpenSSL) (SK256 : Bytes → Vector UInt8 32)

/-- The text of the address with white space around it, up to the end of the C string. -/
def Spells (cAddress : NexusAddress) (str : StdString) : Prop :=
  ∃ text before behind, cAddress.toString ssl SK256 = some text ∧ c_str str = before ++ (text ++ behind) ∧
    (∀ c ∈ before, isspace c = true) ∧ ∀ c ∈ behind, isspace c = true

variable {ssl} {SK256}

theorem setString_of_spells (format : ssl.MpiFormat) {fTestNet : Bool} {cAddress : NexusAddress}
    (valid : cAddress.isValid fTestNet = true) {str : StdString} (spells : Spells ssl SK256 cAddress str) :
    setString SK256 str = cAddress := by
  obtain ⟨text, before, behind, written, cut, spaces, spaces'⟩ := spells
  obtain ⟨str', written', read⟩ : ∃ str', cAddress.toString ssl SK256 = some str' ∧ setString SK256 str' = cAddress :=
    setString_toString format cAddress
  obtain rfl : str' = text := Option.some.inj (written'.symm.trans written)
  have plain : base58Characters str' = str' := by
    have again := toString_setString format (read.symm ▸ valid)
    rw [read, written] at again
    exact (Option.some.inj again).symm
  have base58 : ∀ c ∈ str', isBase58 c = true := by
    rw [← plain]
    exact fun c member => List.mem_takeWhile_imp member
  have same : decodeBase58 (c_str str) = decodeBase58 (c_str str') := by
    rw [cut, decodeBase58_append spaces base58 spaces', c_str_eq base58]
  rw [← read, setString, setString, decodeBase58Check, decodeBase58Check, same]

theorem spells_setString (format : ssl.MpiFormat) {fTestNet : Bool} {str : StdString}
    (valid : (setString SK256 str).isValid fTestNet = true) : Spells ssl SK256 (setString SK256 str) str := by
  have decoded := decodeBase58Check_eq (setString_of_isValid valid)
  refine ⟨base58Characters str, spaceBefore (c_str str), restBehind (c_str str), toString_setString format valid, ?_,
    fun c member => List.mem_takeWhile_imp member, (decodeBase58_isSome_iff _).mp (by rw [decoded]; rfl)⟩
  rw [← base58Characters_c_str str]
  exact eq_parts (c_str str)

/-- A login is accepted exactly where its text is that of an address made of a hash for the net, with white space around
it; and it denotes that address. -/
theorem accepted_iff (ssl : OpenSSL) (format : ssl.MpiFormat) (SK256 : Bytes → Vector UInt8 32) (fTestNet : Bool)
    (str : StdString) :
    ((setString SK256 str).isValid fTestNet = true ↔
        ∃ fScript hash256, Spells ssl SK256 (ofHash256 fScript fTestNet hash256) str) ∧
      ∀ fScript hash256, Spells ssl SK256 (ofHash256 fScript fTestNet hash256) str →
        setString SK256 str = ofHash256 fScript fTestNet hash256 ∧ (setString SK256 str).getHash256 = some hash256 := by
  have denotes (fScript : Bool) (hash256 : Vector UInt8 32)
      (spells : Spells ssl SK256 (ofHash256 fScript fTestNet hash256) str) :
      setString SK256 str = ofHash256 fScript fTestNet hash256 :=
    setString_of_spells format (isValid_ofHash256 fScript fTestNet hash256) spells
  refine ⟨⟨fun valid => ?_, ?_⟩, fun fScript hash256 spells => ?_⟩
  · obtain ⟨fScript, hash256, made⟩ := eq_ofHash256_of_isValid valid
    exact ⟨fScript, hash256, made ▸ spells_setString format valid⟩
  · rintro ⟨fScript, hash256, spells⟩
    rw [denotes fScript hash256 spells]
    exact isValid_ofHash256 fScript fTestNet hash256
  · rw [denotes fScript hash256 spells]
    exact ⟨rfl, getHash256_eq (vchData_ofHash256 fScript fTestNet hash256)⟩

theorem accepted_plainAddress :
    ∃ fScript hash256, Spells .exact noChecksum (ofHash256 fScript false hash256) ([32, 9] ++ plainAddress ++ [10, 0, 65]) :=
  (accepted_iff .exact OpenSSL.mpiFormat_exact noChecksum false _).1.mp (by decide +kernel)

end

/-- The script addresses of the test net are valid there and no script addresses. -/
theorem isScript_iff (fTestNet : Bool) (cAddress : NexusAddress) :
    cAddress.isScript fTestNet = true ↔
      fTestNet = false ∧ cAddress.nVersion = SCRIPT_ADDRESS ∧ cAddress.vchData.length = 32 := by
  rw [isScript, isValid]
  by_cases script : cAddress.nVersion = SCRIPT_ADDRESS
  · cases fTestNet <;> simp [script]
  · simp [script]

end NexusAddress

end PrimePool.Core

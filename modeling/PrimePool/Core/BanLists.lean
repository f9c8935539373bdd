import PrimePool.Core.Base58
import PrimePool.General.Machine

/-!
# Ban lists

`util.cpp`: the lists of banned accounts and IP addresses, which a query reads again when the file has another
modification time. A reload appends to the list.
-/

namespace PrimePool.Core

open PrimePool.General

/-- What the loop of `std::getline` reads: a last line needs no newline. -/
def readLines : Bytes → List StdString
  | [] => []
  | c :: bytes =>
      if c = 10 then [] :: readLines bytes
      else
        match readLines bytes with
        | [] => [[c]]
        | lLine :: lines => (c :: lLine) :: lines

structure BanFile where
  st_mtime : Int64
  contents : Bytes

def BanFile.lines (file : BanFile) : List StdString := readLines file.contents

/-- `int lLastMod = st.st_mtime`. -/
def BanFile.lLastMod (file : BanFile) : Int32 := file.st_mtime.toInt32

structure BanList where
  BANNED : List StdString
  LAST_MOD : Int32

namespace BanList

def new : BanList := { BANNED := [], LAST_MOD := 0 }

def reloads (list : BanList) (file : BanFile) : Bool := list.BANNED.length = 0 || file.lLastMod ≠ list.LAST_MOD

def load (list : BanList) (file : BanFile) : BanList :=
  if list.reloads file then { BANNED := list.BANNED ++ file.lines, LAST_MOD := file.lLastMod } else list

end BanList

structure Bans where
  file : BanFile
  list : BanList
  /-- The modification times that the file has had. -/
  times : List Int64
  /-- The versions of the file that were read into the list, the first one first. -/
  loaded : List BanFile

namespace Bans

def start (file : BanFile) : Bans := { file, list := .new, times := [file.st_mtime], loaded := [] }

def edit (bans : Bans) (file : BanFile) : Option Bans :=
  if file.contents ≠ [] ∧ file.st_mtime ∉ bans.times then
    some { bans with file, times := file.st_mtime :: bans.times }
  else none

def load (bans : Bans) : Bans :=
  { bans with
    list := bans.list.load bans.file
    loaded := if bans.list.reloads bans.file then bans.loaded ++ [bans.file] else bans.loaded }

end Bans

def isBannedIPAddress (BANNED_IP_ADDRESSES : List StdString) (ip_address : StdString) : Bool :=
  BANNED_IP_ADDRESSES.contains ip_address

structure BanFiles where
  accounts : Bans
  ipAddresses : Bans

inductive BanEvent where
  | editAccounts (file : BanFile)
  | editIPAddresses (file : BanFile)
  | isBannedAccount (account : StdString)
  | isBannedIPAddress (ip_address : StdString)

namespace BanFiles

def start (accounts ipAddresses : BanFile) : BanFiles := { accounts := .start accounts, ipAddresses := .start ipAddresses }

def loadBannedAccounts (s : BanFiles) : BanFiles := { s with accounts := s.accounts.load }

def loadBannedIPAddresses (s : BanFiles) : BanFiles := { s with ipAddresses := s.ipAddresses.load }

def step (s : BanFiles) : BanEvent → Option BanFiles
  | .editAccounts file => (s.accounts.edit file).map fun accounts => { s with accounts }
  | .editIPAddresses file => (s.ipAddresses.edit file).map fun ipAddresses => { s with ipAddresses }
  | .isBannedAccount _ => some s.loadBannedAccounts
  | .isBannedIPAddress _ => some s.loadBannedIPAddresses

/-- The answer to a query says whether the argument is a line of the file. -/
def Right (s : BanFiles) : BanEvent → Prop
  | .isBannedAccount account =>
      isBannedAccount s.loadBannedAccounts.accounts.list.BANNED account = true ↔ account ∈ s.accounts.file.lines
  | .isBannedIPAddress ip_address =>
      isBannedIPAddress s.loadBannedIPAddresses.ipAddresses.list.BANNED ip_address = true ↔
        ip_address ∈ s.ipAddresses.file.lines
  | _ => True

end BanFiles

/-- The argument is not a line that was removed since a query read it, and one that was added is read now. -/
def Bans.Kept (bans : Bans) (argument : StdString) : Prop :=
  (∀ version ∈ bans.loaded, argument ∈ version.lines → argument ∈ bans.file.lines) ∧
    (argument ∈ bans.file.lines →
      bans.list.reloads bans.file = true ∨ ∃ version ∈ bans.loaded, argument ∈ version.lines)

def BanFiles.Kept (s : BanFiles) : BanEvent → Prop
  | .isBannedAccount account => s.accounts.Kept account
  | .isBannedIPAddress ip_address => s.ipAddresses.Kept ip_address
  | _ => True

/-! ## The list as the history of the file -/

def Bans.Remembers (bans : Bans) : Prop := bans.list.BANNED = bans.loaded.flatMap BanFile.lines

namespace Bans

variable {bans after : Bans}

theorem Remembers.load (remembers : bans.Remembers) : bans.load.Remembers := by
  unfold Remembers Bans.load BanList.load
  split
  · dsimp only
    rw [List.flatMap_append, ← remembers, List.flatMap_singleton]
  · exact remembers

theorem Remembers.edit {file : BanFile} (remembers : bans.Remembers) (edited : bans.edit file = some after) :
    after.Remembers := by
  unfold Bans.edit at edited
  split at edited
  · exact Option.some.inj edited ▸ remembers
  · cases edited

theorem mem_load (remembers : bans.Remembers) (argument : StdString) :
    argument ∈ bans.load.list.BANNED ↔
      (∃ version ∈ bans.loaded, argument ∈ version.lines) ∨
        bans.list.reloads bans.file = true ∧ argument ∈ bans.file.lines := by
  have listed : argument ∈ bans.list.BANNED ↔ ∃ version ∈ bans.loaded, argument ∈ version.lines := by
    rw [remembers, List.mem_flatMap]
  rw [Bans.load, BanList.load]
  split
  · rename_i reloads
    rw [List.mem_append, listed, eq_true reloads, true_and]
  · rename_i current
    rw [listed, eq_false current, false_and, or_false]

theorem mem_load_iff (remembers : bans.Remembers) (argument : StdString) :
    (argument ∈ bans.load.list.BANNED ↔ argument ∈ bans.file.lines) ↔ bans.Kept argument := by
  rw [mem_load remembers, Kept]
  constructor
  · intro right
    refine ⟨fun version read line => right.mp (Or.inl ⟨version, read, line⟩), fun line => ?_⟩
    exact (right.mpr line).symm.imp_left And.left
  · rintro ⟨kept, added⟩
    constructor
    · rintro (⟨version, read, line⟩ | ⟨-, line⟩)
      · exact kept version read line
      · exact line
    · intro line
      exact (added line).symm.imp_right fun reloads => ⟨reloads, line⟩

end Bans

namespace BanFiles

def Remembers (s : BanFiles) : Prop := s.accounts.Remembers ∧ s.ipAddresses.Remembers

theorem remembers_start (accounts ipAddresses : BanFile) : (start accounts ipAddresses).Remembers := ⟨rfl, rfl⟩

theorem Remembers.step {s after : BanFiles} {event : BanEvent} (remembers : s.Remembers)
    (taken : s.step event = some after) : after.Remembers := by
  obtain ⟨accounts, ipAddresses⟩ := remembers
  cases event with
  | editAccounts file =>
      obtain ⟨edited, made, rfl⟩ := Option.map_eq_some_iff.mp taken
      exact ⟨accounts.edit made, ipAddresses⟩
  | editIPAddresses file =>
      obtain ⟨edited, made, rfl⟩ := Option.map_eq_some_iff.mp taken
      exact ⟨accounts, ipAddresses.edit made⟩
  | isBannedAccount account => exact Option.some.inj taken ▸ ⟨accounts.load, ipAddresses⟩
  | isBannedIPAddress ip_address => exact Option.some.inj taken ▸ ⟨accounts, ipAddresses.load⟩

theorem right_iff {s : BanFiles} (remembers : s.Remembers) (event : BanEvent) : s.Right event ↔ s.Kept event := by
  cases event with
  | editAccounts | editIPAddresses => exact Iff.rfl
  | isBannedAccount account =>
      rw [Right, Core.isBannedAccount, List.contains_iff_mem]
      exact Bans.mem_load_iff remembers.1 account
  | isBannedIPAddress ip_address =>
      rw [Right, Core.isBannedIPAddress, List.contains_iff_mem]
      exact Bans.mem_load_iff remembers.2 ip_address

theorem answers_follow_files_iff (accounts ipAddresses : BanFile) (events : List BanEvent) :
    EachStep step (fun s event _ => s.Right event) events (start accounts ipAddresses) ↔
      EachStep step (fun s event _ => s.Kept event) events (start accounts ipAddresses) := by
  constructor
  · apply EachStep.of_invariant Remembers _ (remembers_start accounts ipAddresses)
    intro s event after remembers taken right
    exact ⟨remembers.step taken, (right_iff remembers event).mp right⟩
  · apply EachStep.of_invariant Remembers _ (remembers_start accounts ipAddresses)
    intro s event after remembers taken kept
    exact ⟨remembers.step taken, (right_iff remembers event).mpr kept⟩

instance (s : BanFiles) (event : BanEvent) : Decidable (s.Right event) := by
  cases event with
  | editAccounts | editIPAddresses => exact isTrue trivial
  | isBannedAccount _ | isBannedIPAddress _ => exact inferInstanceAs (Decidable (_ ↔ _))

theorem removed_account_banned :
    ¬ EachStep step (fun s event _ => s.Right event)
      [.isBannedAccount [65], .editAccounts { st_mtime := 2, contents := [66, 10] }, .isBannedAccount [65]]
      (start { st_mtime := 1, contents := [65, 10] } { st_mtime := 1, contents := [] }) := by
  decide

end BanFiles

end PrimePool.Core

import PrimePool.LLP.Server

/-!
# Bans of addresses

With the filters on, no connection of an address is accepted or served, and no new ban of it begins, before its last
ban has ended; and each ban of an address lasts longer than 1200 seconds for every ban so far.
-/

namespace PrimePool.LLP

open PrimePool.General Std

def Deed.ADDRESS : Deed → UInt32
  | .banned ADDRESS _ _ | .accepted ADDRESS _ | .served ADDRESS _ => ADDRESS

def Deed.time : Deed → Nat
  | .banned _ time _ | .accepted _ time | .served _ time => time

/-- The later of two deeds does not fall into a ban that the earlier one is. -/
def Respects (first second : Deed) : Prop :=
  ∀ time BANTIME, first = .banned second.ADDRESS time BANTIME → time + BANTIME.toNat ≤ second.time

def bansOf (ADDRESS : UInt32) (deeds : List Deed) : List (Nat × UInt32) :=
  deeds.filterMap fun
    | .banned other time BANTIME => if other = ADDRESS then some (time, BANTIME) else none
    | _ => none

structure BansObeyed (deeds : List Deed) : Prop where
  apart : deeds.Pairwise Respects
  longer (ADDRESS : UInt32) (i time : Nat) (BANTIME : UInt32) : (bansOf ADDRESS deeds)[i]? = some (time, BANTIME) →
    1200 * (i + 1) < 2 ^ 32 → 1200 * (i + 1) ≤ BANTIME.toNat

/-! ## The deeds so far -/

def Over (deeds : List Deed) (ADDRESS : UInt32) (now : Nat) : Prop :=
  ∀ time BANTIME, .banned ADDRESS time BANTIME ∈ deeds → time + BANTIME.toNat ≤ now

theorem bansOf_append (ADDRESS : UInt32) (deeds deeds' : List Deed) :
    bansOf ADDRESS (deeds ++ deeds') = bansOf ADDRESS deeds ++ bansOf ADDRESS deeds' := List.filterMap_append

theorem bansOf_other {ADDRESS : UInt32} {deed : Deed} (other : deed.ADDRESS ≠ ADDRESS) : bansOf ADDRESS [deed] = [] := by
  cases deed with
  | banned other' time BANTIME => exact List.filterMap_cons_none (if_neg other)
  | accepted other' time => rfl
  | served other' time => rfl

/-- What a new ban must last. -/
def LongEnough (deeds : List Deed) (deed : Deed) : Prop :=
  ∀ ADDRESS time BANTIME, deed = .banned ADDRESS time BANTIME →
    1200 * ((bansOf ADDRESS deeds).length + 1) < 2 ^ 32 →
      1200 * ((bansOf ADDRESS deeds).length + 1) ≤ BANTIME.toNat

theorem BansObeyed.concat {deeds : List Deed} (obeyed : BansObeyed deeds) (deed : Deed)
    (ended : Over deeds deed.ADDRESS deed.time) (long : LongEnough deeds deed) : BansObeyed (deeds ++ [deed]) where
  apart := by
    refine List.pairwise_append.mpr ⟨obeyed.apart, List.pairwise_singleton _ _, fun first member second last => ?_⟩
    obtain rfl := List.mem_singleton.mp last
    intro time BANTIME same
    exact ended time BANTIME (same ▸ member)
  longer ADDRESS i time BANTIME found fits := by
    rw [bansOf_append] at found
    by_cases old : i < (bansOf ADDRESS deeds).length
    · rw [List.getElem?_append_left old] at found
      exact obeyed.longer ADDRESS i time BANTIME found fits
    · rw [List.getElem?_append_right (Nat.not_lt.mp old)] at found
      cases deed with
      | accepted other at' => cases found
      | served other at' => cases found
      | banned other at' BANTIME' =>
          by_cases same : other = ADDRESS
          · subst same
            have single : bansOf other [.banned other at' BANTIME'] = [(at', BANTIME')] :=
              List.filterMap_cons_some (if_pos rfl)
            rw [single] at found
            obtain ⟨inside, value⟩ := List.getElem?_eq_some_iff.mp found
            have last : i = (bansOf other deeds).length := by
              rw [List.length_singleton] at inside
              omega
            simp only [List.getElem_singleton, Prod.mk.injEq] at value
            rw [last] at fits ⊢
            rw [← value.2]
            exact long other at' BANTIME' rfl fits
          · have different : (Deed.banned other at' BANTIME').ADDRESS ≠ ADDRESS := same
            rw [bansOf_other different] at found
            cases found

/-! ## A filter and its bans -/

/-- The filter is at its last ban. -/
structure Watching (deeds : List Deed) (ADDRESS : UInt32) (now : Nat) (filter : DDOSFilter) : Prop where
  counted : filter.TOTALBANS = UInt32.ofNat (bansOf ADDRESS deeds).length
  started : filter.TIMER ≤ now
  last (time : Nat) (BANTIME : UInt32) : .banned ADDRESS time BANTIME ∈ deeds →
    time + BANTIME.toNat ≤ filter.TIMER + filter.BANTIME.toNat

namespace Watching

variable {deeds : List Deed} {ADDRESS : UInt32} {now : Nat} {filter : DDOSFilter}

theorem ended (watching : Watching deeds ADDRESS now filter) (free : filter.banned now = false) :
    Over deeds ADDRESS now := by
  intro time BANTIME member
  have bound := watching.last time BANTIME member
  have started := watching.started
  have elapsed : filter.BANTIME.toNat ≤ (now - filter.TIMER).toUInt32.toNat :=
    UInt32.le_iff_toNat_le.mp (UInt32.not_lt.mp (of_decide_eq_false free))
  have small : (now - filter.TIMER).toUInt32.toNat ≤ now - filter.TIMER := by
    rw [Nat.toUInt32_eq, UInt32.toNat_ofNat']
    exact Nat.mod_le _ _
  omega

theorem later (watching : Watching deeds ADDRESS now filter) {now' : Nat} (later : now ≤ now') :
    Watching deeds ADDRESS now' filter :=
  { watching with started := Nat.le_trans watching.started later }

theorem congr {deeds' : List Deed} {filter' : DDOSFilter} (watching : Watching deeds ADDRESS now filter)
    (none : ∀ time BANTIME, .banned ADDRESS time BANTIME ∈ deeds' → .banned ADDRESS time BANTIME ∈ deeds)
    (bans : bansOf ADDRESS deeds' = bansOf ADDRESS deeds) (TIMER : filter'.TIMER = filter.TIMER)
    (BANTIME : filter'.BANTIME = filter.BANTIME) (TOTALBANS : filter'.TOTALBANS = filter.TOTALBANS) :
    Watching deeds' ADDRESS now filter' where
  counted := by rw [TOTALBANS, bans, watching.counted]
  started := TIMER ▸ watching.started
  last time BANTIME' member := by
    rw [TIMER, BANTIME]
    exact watching.last time BANTIME' (none time BANTIME' member)

/-- A deed that is no ban of the address. -/
theorem concat (watching : Watching deeds ADDRESS now filter) (deed : Deed)
    (other : ∀ time BANTIME, deed ≠ .banned ADDRESS time BANTIME) : Watching (deeds ++ [deed]) ADDRESS now filter := by
  apply watching.congr _ _ rfl rfl rfl
  · intro time BANTIME member
    rcases List.mem_append.mp member with before | last
    · exact before
    · exact absurd (List.mem_singleton.mp last).symm (other time BANTIME)
  · rw [bansOf_append]
    cases deed with
    | accepted => exact List.append_nil _
    | served => exact List.append_nil _
    | banned other' time BANTIME =>
        have different : (Deed.banned other' time BANTIME).ADDRESS ≠ ADDRESS :=
          fun same => other time BANTIME (congrArg (Deed.banned · time BANTIME) same)
        rw [bansOf_other different, List.append_nil]

theorem bantime_ge (watching : Watching deeds ADDRESS now filter)
    (fits : 1200 * ((bansOf ADDRESS deeds).length + 1) < 2 ^ 32) :
    1200 * ((bansOf ADDRESS deeds).length + 1) ≤ filter.bantime.toNat := by
  have number : filter.TOTALBANS + 1 = UInt32.ofNat ((bansOf ADDRESS deeds).length + 1) := by
    rw [watching.counted, UInt32.ofNat_add]
    rfl
  have product : ((filter.TOTALBANS + 1) * 1200).toNat = 1200 * ((bansOf ADDRESS deeds).length + 1) := by
    rw [number, UInt32.toNat_mul, UInt32.toNat_ofNat_of_lt' (by rw [UInt32.size]; omega), Nat.mul_comm]
    exact Nat.mod_eq_of_lt fits
  have larger (a b : UInt32) : b ≤ max a b := by
    have choice : max a b = if a ≤ b then b else a := rfl
    rw [choice]
    split
    · exact UInt32.le_refl b
    · rename_i less
      exact UInt32.le_of_lt (UInt32.not_le.mp less)
  rw [← product, ← UInt32.le_iff_toNat_le, DDOSFilter.bantime]
  exact larger _ _

theorem append (watching : Watching deeds ADDRESS now filter) {more : List Deed}
    (others : ∀ deed ∈ more, deed.ADDRESS ≠ ADDRESS) : Watching (deeds ++ more) ADDRESS now filter := by
  induction more generalizing deeds with
  | nil => rwa [List.append_nil]
  | cons deed more ih =>
      rw [List.forall_mem_cons] at others
      rw [List.append_cons]
      exact ih (watching.concat deed fun time BANTIME same => others.1 (same ▸ rfl)) others.2

theorem ban (watching : Watching deeds ADDRESS now filter) (free : filter.banned now = false) :
    Watching (deeds ++ [.banned ADDRESS now (filter.ban now).BANTIME]) ADDRESS now (filter.ban now) ∧
      LongEnough deeds (.banned ADDRESS now (filter.ban now).BANTIME) := by
  have made : filter.ban now =
      { TIMER := now
        BANTIME := filter.bantime
        TOTALBANS := filter.TOTALBANS + 1
        rSCORE := filter.rSCORE.flush scores now
        cSCORE := filter.cSCORE.flush scores now } := if_neg (Bool.eq_false_iff.mp free)
  have single : bansOf ADDRESS [.banned ADDRESS now filter.bantime] = [(now, filter.bantime)] :=
    List.filterMap_cons_some (if_pos rfl)
  rw [made]
  refine ⟨⟨?_, Nat.le_refl now, fun time BANTIME member => ?_⟩, fun other time BANTIME same fits => ?_⟩
  · rw [bansOf_append, single, List.length_append, UInt32.ofNat_add, watching.counted]
    rfl
  · rcases List.mem_append.mp member with before | last
    · exact Nat.le_trans (watching.ended free time BANTIME before) (Nat.le_add_right _ _)
    · obtain ⟨-, rfl, rfl⟩ := Deed.banned.inj (List.mem_singleton.mp last)
      exact Nat.le_refl _
  · obtain ⟨rfl, -, rfl⟩ := Deed.banned.inj same
    exact watching.bantime_ge fits

/-- The calls of a filter, one by one. -/
theorem calls (watching : Watching deeds ADDRESS now filter) (obeyed : BansObeyed deeds) (calls : List FilterCall) :
    Watching (deeds ++ filter.deeds ADDRESS now calls) ADDRESS now (calls.foldl (.call now) filter) ∧
      BansObeyed (deeds ++ filter.deeds ADDRESS now calls) := by
  induction calls generalizing deeds filter with
  | nil =>
      rw [DDOSFilter.deeds, List.append_nil]
      exact ⟨watching, obeyed⟩
  | cons call calls ih =>
      rw [List.foldl_cons]
      cases call with
      | addRequests nScore =>
          exact ih (watching.congr (fun _ _ member => member) rfl rfl rfl rfl) obeyed
      | addConnection =>
          exact ih (watching.congr (fun _ _ member => member) rfl rfl rfl rfl) obeyed
      | ban =>
          rw [DDOSFilter.deeds, ← List.append_assoc]
          cases free : filter.banned now with
          | true =>
              have same : filter.call now .ban = filter := if_pos free
              have unchanged : filter.ban now = filter := if_pos free
              rw [if_pos rfl, List.append_nil, same, unchanged]
              exact ih watching obeyed
          | false =>
              obtain ⟨kept, long⟩ := watching.ban free
              exact ih kept (obeyed.concat _ (watching.ended free) long)

end Watching

namespace Server

variable {Pointer : Type} (settings : ServerSettings) {server : Server Pointer}

theorem advance_eq {time : Nat} {moved : Server Pointer} (advanced : server.advance time = some moved) :
    server.now ≤ time ∧ { server with now := time } = moved := by
  rw [advance] at advanced
  split at advanced
  · cases advanced
  · rename_i later
    exact ⟨Nat.not_lt.mp later, Option.some.inj advanced⟩

end Server

structure Obeying (DDOS_MAP : ExtTreeMap UInt32 DDOSFilter) (deeds : List Deed) (now : Nat) : Prop where
  obeyed : BansObeyed deeds
  filters (ADDRESS : UInt32) (now' : Nat) : now ≤ now' →
    Watching deeds ADDRESS now' (DDOS_MAP.getD ADDRESS (.new 30 now'))

namespace Obeying

variable {DDOS_MAP : ExtTreeMap UInt32 DDOSFilter} {deeds : List Deed} {now : Nat} {ADDRESS : UInt32}

theorem start : Obeying ∅ [] 0 where
  obeyed := ⟨List.Pairwise.nil, fun _ _ _ _ found => nomatch found⟩
  filters ADDRESS now' _ := by
    rw [ExtTreeMap.getD_empty]
    exact ⟨rfl, Nat.zero_le now', fun _ _ member => nomatch member⟩

theorem later (obeying : Obeying DDOS_MAP deeds now) {now' : Nat} (later : now ≤ now') : Obeying DDOS_MAP deeds now' where
  obeyed := obeying.obeyed
  filters ADDRESS now'' behind := obeying.filters ADDRESS now'' (Nat.le_trans later behind)

theorem nothing (obeying : Obeying DDOS_MAP deeds now) : Obeying DDOS_MAP (deeds ++ []) now := by
  rwa [List.append_nil]

/-- What is done with the filter of one address. -/
theorem insert (obeying : Obeying DDOS_MAP deeds now) {filter : DDOSFilter} {more : List Deed}
    (own : ∀ deed ∈ more, deed.ADDRESS = ADDRESS) (watching : Watching (deeds ++ more) ADDRESS now filter)
    (obeyed : BansObeyed (deeds ++ more)) : Obeying (DDOS_MAP.insert ADDRESS filter) (deeds ++ more) now where
  obeyed := obeyed
  filters other now' behind := by
    rw [ExtTreeMap.getD_insert]
    split
    · rename_i same
      exact LawfulEqCmp.compare_eq_iff_eq.mp same ▸ watching.later behind
    · rename_i different
      rw [LawfulEqCmp.compare_eq_iff_eq] at different
      exact (obeying.filters other now' behind).append fun deed member same => different ((own deed member).symm.trans same)

end Obeying

namespace WatchedServer

variable {Pointer : Type} {settings : ServerSettings} {server server' : Server Pointer} {deeds more : List Deed}

end WatchedServer

end PrimePool.LLP

import Mathlib.Data.List.Basic
import Mathlib.Tactic.Common

/-!
# Streams worked on in blocks

Items arrive in pieces of any length and are worked on one block of `size` items at a time. A `Held` stream keeps the
last block back until another item follows, for the last block is worked on in its own way.
-/

namespace PrimePool.General

variable {σ α : Type}

/-! ## Blocks -/

def takeBlocks (size : Nat) : Nat → List α → List (List α)
  | 0, _ => []
  | count + 1, items => items.take size :: takeBlocks size count (items.drop size)

@[simp] theorem takeBlocks_zero (size : Nat) (items : List α) : takeBlocks size 0 items = [] := rfl

theorem length_of_mem_takeBlocks {size count : Nat} {items block : List α} (enough : count * size ≤ items.length)
    (member : block ∈ takeBlocks size count items) : block.length = size := by
  induction count generalizing items with
  | zero => cases member
  | succ count ih =>
      rw [Nat.succ_mul] at enough
      rcases List.mem_cons.mp member with rfl | later
      · rw [List.length_take]
        omega
      · exact ih (by rw [List.length_drop]; omega) later

theorem takeBlocks_flatten (size count : Nat) (items : List α) :
    (takeBlocks size count items).flatten = items.take (count * size) := by
  induction count generalizing items with
  | zero => simp
  | succ count ih =>
      rw [takeBlocks, List.flatten_cons, ih, Nat.succ_mul, Nat.add_comm, List.take_add]

theorem takeBlocks_eq_map (size count : Nat) (items : List α) :
    takeBlocks size count items = (List.range count).map fun i => (items.drop (i * size)).take size := by
  induction count generalizing items with
  | zero => rfl
  | succ count ih =>
      rw [takeBlocks, ih, List.range_succ_eq_map, List.map_cons, List.map_map, Nat.zero_mul, List.drop_zero]
      congr 1
      apply List.map_congr_left
      intro i _
      rw [List.drop_drop, Function.comp_apply, Nat.succ_mul, Nat.add_comm]

/-- The whole blocks of `items`. -/
def blocks (size : Nat) (items : List α) : List (List α) := takeBlocks size (items.length / size) items

theorem blocks_of_short {size : Nat} {items : List α} (short : items.length < size) : blocks size items = [] := by
  rw [blocks, Nat.div_eq_of_lt short, takeBlocks_zero]

theorem blocks_append {size : Nat} (positive : 0 < size) {block : List α} (full : block.length = size)
    (items : List α) : blocks size (block ++ items) = block :: blocks size items := by
  have count : (block ++ items).length / size = items.length / size + 1 := by
    rw [List.length_append, full, Nat.add_div_left _ positive]
  rw [blocks, count, takeBlocks, List.take_left' full, List.drop_left' full, blocks]

/-! ## Streams that hold their last block back -/

structure Held (σ α : Type) where
  chain : σ
  held : List α

namespace Held

variable (work : σ → List α → σ) (size : Nat)

def feed (s : Held σ α) (item : α) : Held σ α :=
  if s.held.length = size then ⟨work s.chain s.held, [item]⟩ else ⟨s.chain, s.held ++ [item]⟩

def feedAll (s : Held σ α) (items : List α) : Held σ α := items.foldl (feed work size) s

@[simp] theorem feedAll_nil (s : Held σ α) : s.feedAll work size [] = s := rfl

theorem feedAll_append (s : Held σ α) (first second : List α) :
    s.feedAll work size (first ++ second) = (s.feedAll work size first).feedAll work size second :=
  List.foldl_append

theorem feedAll_within {s : Held σ α} {items : List α} (fits : s.held.length + items.length ≤ size) :
    s.feedAll work size items = ⟨s.chain, s.held ++ items⟩ := by
  induction items generalizing s with
  | nil => simp
  | cons item items ih =>
      rw [List.length_cons] at fits
      have room : s.held.length ≠ size := by omega
      have next : s.feed work size item = ⟨s.chain, s.held ++ [item]⟩ := if_neg room
      rw [feedAll, List.foldl_cons, ← feedAll, next, ih (by rw [List.length_append, List.length_singleton]; omega),
        List.append_assoc, List.singleton_append]

theorem feedAll_full (positive : 0 < size) {s : Held σ α} {items : List α} (full : s.held.length = size)
    (more : items ≠ []) :
    s.feedAll work size items = feedAll work size ⟨work s.chain s.held, []⟩ items := by
  cases items with
  | nil => exact absurd rfl more
  | cons item items =>
      have worked : s.feed work size item = ⟨work s.chain s.held, [item]⟩ := if_pos full
      have fresh : (⟨work s.chain s.held, []⟩ : Held σ α).feed work size item = ⟨work s.chain s.held, [item]⟩ :=
        if_neg (Nat.ne_of_lt positive)
      rw [feedAll, feedAll, List.foldl_cons, List.foldl_cons, worked, fresh]

/-- The whole blocks at the front are worked on as long as an item follows them. -/
theorem feedAll_blocks (positive : 0 < size) (chain : σ) {count : Nat} {items : List α}
    (more : count * size < items.length) :
    feedAll work size ⟨chain, []⟩ items =
      feedAll work size ⟨(takeBlocks size count items).foldl work chain, []⟩ (items.drop (count * size)) := by
  induction count generalizing chain items with
  | zero => simp
  | succ count ih =>
      rw [Nat.succ_mul] at more
      have length : (items.take size).length = size := by
        rw [List.length_take]
        omega
      have some : items.drop size ≠ [] := by
        rw [ne_eq, List.drop_eq_nil_iff]
        omega
      have block : feedAll work size ⟨chain, []⟩ (items.take size) = ⟨chain, items.take size⟩ :=
        feedAll_within work size (by simp only [List.length_nil, length, Nat.zero_add, Nat.le_refl])
      have first : feedAll work size ⟨chain, []⟩ items =
          feedAll work size ⟨work chain (items.take size), []⟩ (items.drop size) := by
        conv_lhs => rw [← List.take_append_drop size items, feedAll_append, block]
        exact feedAll_full work size positive length some
      rw [first, ih _ (by rw [List.length_drop]; omega), List.drop_drop, takeBlocks, List.foldl_cons, Nat.succ_mul,
        Nat.add_comm size]

/-- What is held after `items`: every block but the last one is worked on. -/
theorem feedAll_fresh (positive : 0 < size) (chain : σ) (items : List α) :
    feedAll work size ⟨chain, []⟩ items =
      ⟨(takeBlocks size ((items.length - 1) / size) items).foldl work chain,
        items.drop ((items.length - 1) / size * size)⟩ := by
  have count := Nat.div_mul_le_self (items.length - 1) size
  have rest := Nat.lt_div_mul_add (a := items.length - 1) positive
  by_cases empty : items = []
  · rw [empty]
    simp
  · have some := List.length_pos_iff.mpr empty
    rw [feedAll_blocks work size positive chain (by omega : (items.length - 1) / size * size < items.length),
      feedAll_within work size (by rw [List.length_nil, List.length_drop]; omega), List.nil_append]

end Held

end PrimePool.General

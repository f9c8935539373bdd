import Mathlib.Data.List.GetD
import PrimePool.General.Blocks
import PrimePool.Hash.Skein

/-!
# Streams through Skein

The buffer keeps the last block back, for the last block is tagged as such. What was in the buffer before counts for
nothing, and a message may come in pieces of any length.
-/

namespace PrimePool.Skein
open General

/-! ## Buffers -/

theorem getElem_overwrite {n : Nat} (b : Vector UInt8 n) (start : Nat) (data : Bytes) {i : Nat} (inside : i < n) :
    (overwrite b start data)[i] =
      if start ≤ i ∧ i < start + data.length then data.getD (i - start) 0 else b[i] := by
  simp only [overwrite, Vector.getElem_ofFn, Vector.get_eq]

theorem take_overwrite {n : Nat} (b : Vector UInt8 n) {start : Nat} {data : Bytes}
    (fits : start + data.length ≤ n) :
    (overwrite b start data).toList.take (start + data.length) = b.toList.take start ++ data := by
  have length : b.toList.length = n := Vector.length_toList
  have length' : (overwrite b start data).toList.length = n := Vector.length_toList
  apply List.ext_getElem
  · simp only [List.length_take, List.length_append, length, length']
    omega
  · intro i first second
    simp only [List.length_take, length'] at first
    have inside : i < n := by omega
    simp only [List.getElem_take, Vector.getElem_toList, getElem_overwrite b start data inside]
    by_cases later : start ≤ i
    · have place : i - start < data.length := by omega
      have taken : (b.toList.take start).length = start := by
        rw [List.length_take]
        omega
      rw [if_pos ⟨later, by omega⟩, List.getElem_append_right (by omega), List.getD_eq_getElem _ _ place]
      simp only [taken]
    · rw [if_neg (by omega), List.getElem_append_left (by rw [List.length_take]; omega), List.getElem_take,
        Vector.getElem_toList]

theorem loadBlock_congr {size : Size} {data data' : Bytes}
    (same : ∀ i, i < size.blockBytes → data.getD i 0 = data'.getD i 0) :
    Ctxt.loadBlock size data = Ctxt.loadBlock size data' := by
  unfold Ctxt.loadBlock
  congr 2
  funext i
  exact same i i.isLt

theorem loadBlock_take {size : Size} (data : Bytes) :
    Ctxt.loadBlock size (data.take size.blockBytes) = Ctxt.loadBlock size data := by
  apply loadBlock_congr
  intro i inside
  rw [List.getD_eq_getElem?_getD, List.getD_eq_getElem?_getD, List.getElem?_take_of_lt inside]

theorem loadBlock_zeros {size : Size} (data : Bytes) (count : Nat) :
    Ctxt.loadBlock size (data ++ List.replicate count 0) = Ctxt.loadBlock size data := by
  apply loadBlock_congr
  intro i _
  by_cases inside : i < data.length
  · rw [List.getD_append _ _ _ _ inside]
  · have none : data.getD i 0 = 0 := List.getD_eq_default _ _ (by omega)
    rw [List.getD_append_right _ _ _ _ (by omega), none, List.getD_eq_getElem?_getD, List.getElem?_replicate]
    split
    all_goals rfl

/-! ## The chain -/

/-- What a processed block changes. -/
structure Chain (size : Size) where
  T0 : UInt64
  T1 : UInt64
  X : Words size.words

namespace Chain

variable {size : Size}

def process (byteCntAdd : UInt64) (s : Chain size) (block : Bytes) : Chain size :=
  let w := Ctxt.loadBlock size block
  let T0 := s.T0 + byteCntAdd
  let X := rounds size s.X T0 s.T1 w
  { T0, T1 := s.T1 &&& ~~~ flagFirst, X := Vector.ofFn fun i => X.get i ^^^ w.get i }

end Chain

namespace Ctxt

variable {size : Size}

def chain (ctx : Ctxt size) : Chain size := ⟨ctx.T0, ctx.T1, ctx.X⟩

def chained (ctx : Ctxt size) (s : Chain size) : Ctxt size := { ctx with T0 := s.T0, T1 := s.T1, X := s.X }

theorem processBlock_eq (ctx : Ctxt size) (blk : Bytes) (blkCnt : Nat) (byteCntAdd : UInt64) :
    ctx.processBlock blk blkCnt byteCntAdd =
      ctx.chained ((takeBlocks size.blockBytes blkCnt blk).foldl (Chain.process byteCntAdd) ctx.chain) := by
  induction blkCnt generalizing ctx blk with
  | zero => rfl
  | succ blkCnt ih =>
      have one : (ctx.processOne byteCntAdd (loadBlock size blk)) =
          ctx.chained (ctx.chain.process byteCntAdd (blk.take size.blockBytes)) := by
        rw [processOne, Chain.process, loadBlock_take]
        rfl
      rw [processBlock, ih, one, takeBlocks, List.foldl_cons]
      rfl

/-- The chain and the bytes that wait: all that the buffer stands for. -/
def view (ctx : Ctxt size) : Held (Chain size) UInt8 := ⟨ctx.chain, ctx.b.toList.take ctx.bCnt⟩

abbrev work (size : Size) : Chain size → Bytes → Chain size := Chain.process size.blockBytes.toUInt64

theorem length_b (ctx : Ctxt size) : ctx.b.toList.length = size.blockBytes := Vector.length_toList

/-- The buffer is one block. -/
theorem processBlock_buffer (ctx : Ctxt size) (byteCntAdd : UInt64) :
    ctx.processBlock ctx.b.toList 1 byteCntAdd = ctx.chained (ctx.chain.process byteCntAdd ctx.b.toList) := by
  rw [processBlock_eq, takeBlocks, takeBlocks_zero, List.take_of_length_le (Nat.le_of_eq ctx.length_b)]
  rfl

theorem length_held {ctx : Ctxt size} (fits : ctx.bCnt ≤ size.blockBytes) : ctx.view.held.length = ctx.bCnt := by
  rw [view, List.length_take, length_b, Nat.min_eq_left fits]

theorem view_copyIn {ctx : Ctxt size} {msg : Bytes} (fits : ctx.bCnt + msg.length ≤ size.blockBytes) :
    (ctx.copyIn msg).view = ⟨ctx.chain, ctx.view.held ++ msg⟩ :=
  congrArg (Held.mk ctx.chain) (take_overwrite ctx.b fits)

theorem blockBytes_pos (size : Size) : 0 < size.blockBytes := by
  have := size.wide
  rw [Size.blockBytes]
  omega

/-- The last bytes of a message go into the buffer. -/
theorem update_rest {ctx : Ctxt size} {msg : Bytes} (fits : ctx.bCnt + msg.length ≤ size.blockBytes) :
    (if msg ≠ [] then ctx.copyIn msg else ctx).view = ctx.view.feedAll (work size) size.blockBytes msg ∧
      (if msg ≠ [] then ctx.copyIn msg else ctx).bCnt = ctx.bCnt + msg.length ∧
      (if msg ≠ [] then ctx.copyIn msg else ctx).hashBitLen = ctx.hashBitLen := by
  have held := ctx.length_held (by omega)
  rw [Held.feedAll_within _ _ (by omega)]
  split
  · exact ⟨view_copyIn fits, rfl, rfl⟩
  · rename_i none
    rw [not_not.mp none, List.append_nil]
    exact ⟨rfl, rfl, rfl⟩

theorem finishBuffered_eq {ctx : Ctxt size} (fits : ctx.bCnt ≤ size.blockBytes) {msg : Bytes}
    (beyond : size.blockBytes < msg.length + ctx.bCnt) :
    ∃ ctx' msg', ctx.finishBuffered msg = (ctx', msg') ∧ msg' ≠ [] ∧ ctx'.bCnt = 0 ∧
      ctx'.hashBitLen = ctx.hashBitLen ∧
      ctx.view.feedAll (work size) size.blockBytes msg = ctx'.view.feedAll (work size) size.blockBytes msg' := by
  have positive := blockBytes_pos size
  rw [finishBuffered]
  by_cases begun : ctx.bCnt = 0
  · have some : msg ≠ [] := List.ne_nil_of_length_pos (by omega)
    exact ⟨ctx, msg, if_neg (not_not.mpr begun), some, begun, rfl, rfl⟩
  · obtain ⟨filled, copied, full, count, bits⟩ : ∃ filled : Ctxt size,
        (if size.blockBytes - ctx.bCnt ≠ 0 then
          (ctx.copyIn (msg.take (size.blockBytes - ctx.bCnt)), msg.drop (size.blockBytes - ctx.bCnt))
        else (ctx, msg)) = (filled, msg.drop (size.blockBytes - ctx.bCnt)) ∧
        filled.view = ⟨ctx.chain, ctx.view.held ++ msg.take (size.blockBytes - ctx.bCnt)⟩ ∧
        filled.bCnt = size.blockBytes ∧ filled.hashBitLen = ctx.hashBitLen := by
      by_cases room : size.blockBytes - ctx.bCnt = 0
      · have full : ctx.bCnt = size.blockBytes := by omega
        simp only [room, List.drop_zero, List.take_zero, List.append_nil]
        exact ⟨ctx, if_neg (not_not.mpr rfl), rfl, full, rfl⟩
      · have length : (msg.take (size.blockBytes - ctx.bCnt)).length = size.blockBytes - ctx.bCnt := by
          rw [List.length_take]
          omega
        have fits' : ctx.bCnt + (msg.take (size.blockBytes - ctx.bCnt)).length ≤ size.blockBytes := by omega
        refine ⟨_, if_pos room, view_copyIn fits', ?_, rfl⟩
        show ctx.bCnt + (msg.take (size.blockBytes - ctx.bCnt)).length = size.blockBytes
        omega
    have whole : filled.b.toList = ctx.view.held ++ msg.take (size.blockBytes - ctx.bCnt) := by
      have all : filled.b.toList.take size.blockBytes = filled.b.toList :=
        List.take_of_length_le (Nat.le_of_eq filled.length_b)
      have held := congrArg Held.held full
      rw [view, count, all] at held
      exact held
    have chain : filled.chain = ctx.chain := congrArg Held.chain full
    have more : msg.drop (size.blockBytes - ctx.bCnt) ≠ [] := by
      rw [ne_eq, List.drop_eq_nil_iff]
      omega
    have length : (ctx.view.held ++ msg.take (size.blockBytes - ctx.bCnt)).length = size.blockBytes := by
      rw [← whole, length_b]
    have within := @Held.feedAll_within _ _ (work size) size.blockBytes ctx.view
      (msg.take (size.blockBytes - ctx.bCnt)) (by rw [← List.length_append, length])
    refine ⟨{ filled.processBlock filled.b.toList 1 size.blockBytes.toUInt64 with bCnt := 0 }, _, ?_, more, rfl, ?_, ?_⟩
    · simp only [ne_eq, begun, not_false_eq_true, if_true]
      rw [copied]
    · rw [processBlock_buffer]
      exact bits
    · conv_lhs => rw [← List.take_append_drop (size.blockBytes - ctx.bCnt) msg, Held.feedAll_append, within,
        Held.feedAll_full _ _ positive length more]
      rw [processBlock_buffer, chain, whole]
      rfl

/-- Blocks of the message are processed where they are. -/
theorem processFull_eq {ctx : Ctxt size} (empty : ctx.bCnt = 0) {msg : Bytes} (some : msg ≠ []) :
    ∃ ctx' msg', ctx.processFull msg = (ctx', msg') ∧ msg'.length ≤ size.blockBytes ∧ ctx'.bCnt = 0 ∧
      ctx'.hashBitLen = ctx.hashBitLen ∧
      ctx.view.feedAll (work size) size.blockBytes msg = ctx'.view.feedAll (work size) size.blockBytes msg' := by
  have positive := blockBytes_pos size
  have more := List.length_pos_iff.mpr some
  have none (s : Chain size) (ctx : Ctxt size) (empty : ctx.bCnt = 0) : (ctx.chained s).view = ⟨s, []⟩ := by
    rw [view, chained, empty, List.take_zero]
    rfl
  by_cases full : size.blockBytes < msg.length
  · have count := Nat.div_mul_le_self (msg.length - 1) size.blockBytes
    have rest := Nat.lt_div_mul_add (a := msg.length - 1) positive
    refine ⟨_, _, if_pos full, ?_, ?_, ?_, ?_⟩
    · rw [List.length_drop]
      omega
    · rw [processBlock_eq]
      exact empty
    · rw [processBlock_eq]
      rfl
    · rw [processBlock_eq, none _ _ empty,
        ← Held.feedAll_blocks (work size) size.blockBytes positive ctx.chain (by omega)]
      congr 1
      exact none ctx.chain ctx empty
  · exact ⟨ctx, msg, if_neg full, by omega, empty, rfl, rfl⟩

theorem update_eq {ctx : Ctxt size} (fits : ctx.bCnt ≤ size.blockBytes) (msg : Bytes) :
    (ctx.update msg).view = ctx.view.feedAll (work size) size.blockBytes msg ∧
      (ctx.update msg).bCnt ≤ size.blockBytes ∧ (ctx.update msg).hashBitLen = ctx.hashBitLen := by
  by_cases beyond : size.blockBytes < msg.length + ctx.bCnt
  · obtain ⟨ctx', msg', finished, some, empty, bits, same⟩ := finishBuffered_eq fits beyond
    obtain ⟨ctx'', msg'', processed, short, empty', bits', same'⟩ := processFull_eq empty some
    have rest := @update_rest size ctx'' msg'' (by omega)
    have step : ctx.update msg = if msg'' ≠ [] then ctx''.copyIn msg'' else ctx'' := by
      simp only [update, if_pos beyond, finished, processed]
    rw [step, same, same', rest.1, rest.2.1, rest.2.2]
    exact ⟨rfl, by omega, bits'.trans bits⟩
  · have rest := @update_rest size ctx msg (by omega)
    have step : ctx.update msg = if msg ≠ [] then ctx.copyIn msg else ctx := by
      simp only [update, if_neg beyond]
    rw [step, rest.1, rest.2.1, rest.2.2]
    exact ⟨rfl, by omega, rfl⟩

/-- A message may come in any pieces. -/
theorem update_pieces {ctx : Ctxt size} (fits : ctx.bCnt ≤ size.blockBytes) (pieces : List Bytes) :
    (pieces.foldl update ctx).view = ctx.view.feedAll (work size) size.blockBytes pieces.flatten ∧
      (pieces.foldl update ctx).bCnt ≤ size.blockBytes ∧
      (pieces.foldl update ctx).hashBitLen = ctx.hashBitLen := by
  induction pieces generalizing ctx with
  | nil => exact ⟨rfl, fits, rfl⟩
  | cons piece pieces ih =>
      obtain ⟨same, fits', bits⟩ := update_eq fits piece
      obtain ⟨same', fits'', bits'⟩ := ih fits'
      rw [List.foldl_cons, List.flatten_cons, Held.feedAll_append, ← same]
      exact ⟨same', fits'', bits'.trans bits⟩

end Ctxt

end PrimePool.Skein

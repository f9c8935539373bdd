import PrimePool.Hash.SkeinStreams
import PrimePool.Hash.ThreefishRounds

/-!
# Unique block iteration

A stage of Skein takes a string in block by block, each with the number of bytes up to its end, the type of the string,
and whether it is the string's first or last block. A digest is the string of the counters 0, 1, … taken in under the
chaining variables of the message.
-/

namespace PrimePool.Skein
open General

def tweak (type : BlkType) (first final : Bool) : UInt64 :=
  (if first then flagFirst ||| type.field else type.field) ||| if final then flagFinal else 0

def compress (size : Size) (G : Words size.words) (position : Nat) (T1 : UInt64) (block : Bytes) : Words size.words :=
  let w := Ctxt.loadBlock size block
  let X := unrolledRounds size G position.toUInt64 T1 w
  Vector.ofFn fun i => X.get i ^^^ w.get i

/-- The chaining variables before block `count` of a string. -/
def ubiBefore (size : Size) (type : BlkType) (G : Words size.words) (M : Bytes) (count : Nat) : Words size.words :=
  (List.range count).foldl (fun G i =>
    compress size G ((i + 1) * size.blockBytes) (tweak type (i == 0) false) (M.drop (i * size.blockBytes))) G

def ubi (size : Size) (type : BlkType) (G : Words size.words) (M : Bytes) : Words size.words :=
  let count := (M.length - 1) / size.blockBytes
  compress size (ubiBefore size type G M count) M.length (tweak type (count == 0) true) (M.drop (count * size.blockBytes))

def outputByte (size : Size) (G : Words size.words) (k : Nat) : UInt8 :=
  (bytesOf (ubi size .out G (counterString (k / size.blockBytes)))).toList.getD (k % size.blockBytes) 0

def outputLength (hashBitLen : UInt64) : Nat := ((hashBitLen + 7) >>> 3).toNat

def configString (hashBitLen treeInfo : UInt64) : Bytes := (bytesOf #v[schemaVer, hashBitLen, treeInfo, 0]).toList

def chainingVariables (size : Size) (hashBitLen treeInfo : UInt64) (key : Bytes) : Words size.words :=
  ubi size .cfg (if key = [] then Vector.replicate _ 0 else ubi size .key (Vector.replicate _ 0) key)
    (configString hashBitLen treeInfo)

def digest (size : Size) (hashBitLen treeInfo : UInt64) (key msg : Bytes) : Bytes :=
  (List.range (outputLength hashBitLen)).map
    (outputByte size (ubi size .msg (chainingVariables size hashBitLen treeInfo key) msg))

/-! ## The chain -/

theorem tweak_first (type : BlkType) : tweak type true false &&& ~~~ flagFirst = tweak type false false := by
  cases type <;> decide

theorem tweak_later (type : BlkType) : tweak type false false &&& ~~~ flagFirst = tweak type false false := by
  cases type <;> decide

theorem tweak_start (type : BlkType) : flagFirst ||| type.field = tweak type true false := by
  cases type <;> decide

theorem tweak_final (type : BlkType) (first : Bool) : tweak type first false ||| flagFinal = tweak type first true := by
  cases type <;> cases first <;> decide

theorem process_eq {size : Size} (s : Chain size) (byteCntAdd : UInt64) {position : Nat}
    (there : s.T0 + byteCntAdd = position.toUInt64) (block : Bytes) :
    s.process byteCntAdd block =
      ⟨position.toUInt64, s.T1 &&& ~~~ flagFirst, compress size s.X position s.T1 block⟩ := by
  simp only [Chain.process, there, rounds_eq, compress]

theorem processed (size : Size) (type : BlkType) (G : Words size.words) (M : Bytes) (count : Nat) :
    (takeBlocks size.blockBytes count M).foldl (Ctxt.work size) ⟨0, tweak type true false, G⟩ =
      ⟨(count * size.blockBytes).toUInt64, tweak type (count == 0) false, ubiBefore size type G M count⟩ := by
  rw [takeBlocks_eq_map, List.foldl_map]
  induction count with
  | zero => rw [Nat.zero_mul]; rfl
  | succ count ih =>
      have there : (count * size.blockBytes).toUInt64 + size.blockBytes.toUInt64 =
          ((count + 1) * size.blockBytes).toUInt64 := by
        rw [Nat.succ_mul]
        exact (UInt64.ofNat_add _ _).symm
      have cleared : tweak type (count == 0) false &&& ~~~ flagFirst = tweak type (count + 1 == 0) false := by
        cases count with
        | zero => exact tweak_first type
        | succ count => exact tweak_later type
      have cut : compress size (ubiBefore size type G M count) ((count + 1) * size.blockBytes)
          (tweak type (count == 0) false) ((M.drop (count * size.blockBytes)).take size.blockBytes) =
            ubiBefore size type G M (count + 1) := by
        rw [ubiBefore, ubiBefore, List.range_succ, List.foldl_append]
        simp only [compress, loadBlock_take, List.foldl_cons, List.foldl_nil]
      rw [List.range_succ, List.foldl_append, ih, List.foldl_cons, List.foldl_nil, Ctxt.work, process_eq _ _ there,
        cleared, cut]

namespace Ctxt

variable {size : Size}

/-- A context that has taken in the string `M` of its type. -/
structure Takes (ctx : Ctxt size) (type : BlkType) (G : Words size.words) (M : Bytes) : Prop where
  fits : ctx.bCnt ≤ size.blockBytes
  view : ctx.view = Held.feedAll (work size) size.blockBytes ⟨⟨0, tweak type true false, G⟩, []⟩ M

theorem takes_start (ctx : Ctxt size) (type : BlkType) : (ctx.startNewType type.field).Takes type ctx.X [] where
  fits := Nat.zero_le _
  view := by
    rw [← tweak_start]
    rfl

theorem Takes.update {ctx : Ctxt size} {type : BlkType} {G : Words size.words} {M : Bytes} (takes : ctx.Takes type G M)
    (pieces : List Bytes) : (pieces.foldl Ctxt.update ctx).Takes type G (M ++ pieces.flatten) := by
  obtain ⟨same, fits, -⟩ := update_pieces takes.fits pieces
  exact ⟨fits, by rw [same, takes.view, Held.feedAll_append]⟩

theorem finalPad_fst (ctx : Ctxt size) (fits : ctx.bCnt ≤ size.blockBytes) :
    ctx.finalPad.1.X = (Chain.process ctx.bCnt.toUInt64 ⟨ctx.T0, ctx.T1 ||| flagFinal, ctx.X⟩ ctx.view.held).X ∧
      ctx.finalPad.1.hashBitLen = ctx.hashBitLen := by
  obtain ⟨b, padded, taken⟩ : ∃ b : Vector UInt8 (8 * size.words),
      (if ctx.bCnt < size.blockBytes then overwrite ctx.b ctx.bCnt (List.replicate (size.blockBytes - ctx.bCnt) 0)
        else ctx.b) = b ∧ b.toList = ctx.view.held ++ List.replicate (size.blockBytes - ctx.bCnt) 0 := by
    have length (b : Vector UInt8 (8 * size.words)) : b.toList.length = size.blockBytes := Vector.length_toList
    by_cases room : ctx.bCnt < size.blockBytes
    · have whole : ctx.bCnt + (List.replicate (size.blockBytes - ctx.bCnt) (0 : UInt8)).length = size.blockBytes := by
        rw [List.length_replicate]
        omega
      have taken := take_overwrite ctx.b (Nat.le_of_eq whole)
      rw [whole, List.take_of_length_le (Nat.le_of_eq (length _))] at taken
      exact ⟨_, if_pos room, taken⟩
    · have full : ctx.bCnt = size.blockBytes := by omega
      refine ⟨_, if_neg room, ?_⟩
      rw [full, Nat.sub_self, List.replicate_zero, List.append_nil, view, full,
        List.take_of_length_le (Nat.le_of_eq (length _))]
  have step : ctx.finalPad.1 = ({ ctx with T1 := ctx.T1 ||| flagFinal, b } : Ctxt size).processBlock b.toList 1
      ctx.bCnt.toUInt64 := by
    simp only [finalPad, padded]
  have buffer := processBlock_buffer ({ ctx with T1 := ctx.T1 ||| flagFinal, b } : Ctxt size) ctx.bCnt.toUInt64
  rw [step, buffer, taken]
  refine ⟨?_, rfl⟩
  simp only [chained, Chain.process, loadBlock_zeros]
  rfl

/-- A string that is closed by `finalPad` is taken in by unique block iteration. -/
theorem finalPad_eq {ctx : Ctxt size} {type : BlkType} {G : Words size.words} {M : Bytes} (takes : ctx.Takes type G M) :
    ctx.finalPad.1.X = ubi size type G M ∧ ctx.finalPad.1.hashBitLen = ctx.hashBitLen := by
  have positive := blockBytes_pos size
  have held := length_held takes.fits
  have fresh := takes.view
  rw [Held.feedAll_fresh _ _ positive, processed] at fresh
  have chain := congrArg Held.chain fresh
  have rest := congrArg Held.held fresh
  obtain ⟨closed, bits⟩ := finalPad_fst ctx takes.fits
  have T0 : ctx.T0 = _ := congrArg Chain.T0 chain
  have T1 : ctx.T1 = _ := congrArg Chain.T1 chain
  have X : ctx.X = _ := congrArg Chain.X chain
  have count := Nat.div_mul_le_self (M.length - 1) size.blockBytes
  have there : ctx.T0 + ctx.bCnt.toUInt64 = M.length.toUInt64 := by
    have sum : (M.length - 1) / size.blockBytes * size.blockBytes + ctx.bCnt = M.length := by
      rw [← held, rest, List.length_drop]
      omega
    conv_rhs => rw [← sum]
    rw [T0]
    exact (UInt64.ofNat_add _ _).symm
  refine ⟨?_, bits⟩
  rw [closed, process_eq _ _ there, T1, X, tweak_final, rest]
  rfl

/-! ## Output -/

theorem length_bytesOf {n : Nat} (w : Words n) : (bytesOf w).toList.length = 8 * n := Vector.length_toList

theorem blockBytes_ge (size : Size) : 32 ≤ size.blockBytes := by
  have := size.wide
  rw [Size.blockBytes]
  omega

theorem ubi_counter (size : Size) (G : Words size.words) (i : Nat) :
    ubi size .out G (counterString i) = compress size G 8 (tweak .out true true) (counterString i) := by
  have length : (counterString i).length = 8 := length_bytesOf _
  have single : 7 / size.blockBytes = 0 := Nat.div_eq_of_lt (by have := blockBytes_ge size; omega)
  simp only [ubi, length, Nat.reduceSub, single, Nat.zero_mul, List.drop_zero]
  rfl

/-- A buffer that is zero from its second word on. -/
def Blank (ctx : Ctxt size) : Prop := ∀ i, 8 ≤ i → ∀ inside : i < 8 * size.words, ctx.b[i] = 0

def counting (ctx : Ctxt size) (i : Nat) : Ctxt size :=
  ({ ctx with b := overwrite ctx.b 0 (counterString i) }).startNewType (BlkType.out.field ||| flagFinal)

theorem getElem_counting {ctx : Ctxt size} (blank : ctx.Blank) (i : Nat) {k : Nat} (inside : k < 8 * size.words) :
    (ctx.counting i).b[k] = (counterString i).getD k 0 := by
  have length : (counterString i).length = 8 := length_bytesOf _
  have byte : (overwrite ctx.b 0 (counterString i))[k] = (counterString i).getD k 0 := by
    rw [getElem_overwrite _ _ _ inside, length, Nat.sub_zero]
    by_cases early : k < 8
    · rw [if_pos ⟨Nat.zero_le k, by omega⟩]
    · rw [if_neg (by omega), blank k (by omega) inside, List.getD_eq_default _ _ (by omega)]
  exact byte

theorem counted {ctx : Ctxt size} (blank : ctx.Blank) (i : Nat) :
    ((ctx.counting i).processBlock (ctx.counting i).b.toList 1 8).X = ubi size .out ctx.X (counterString i) := by
  have block : loadBlock size (ctx.counting i).b.toList = loadBlock size (counterString i) := by
    apply loadBlock_congr
    intro k inside
    have inside' : k < 8 * size.words := inside
    rw [List.getD_eq_getElem _ _ (by rwa [Vector.length_toList]), Vector.getElem_toList,
      getElem_counting blank i inside']
  have tag : flagFirst ||| (BlkType.out.field ||| flagFinal) = tweak .out true true := by decide
  have done := @process_eq size ⟨0, flagFirst ||| (BlkType.out.field ||| flagFinal), ctx.X⟩ 8 8 rfl
    (ctx.counting i).b.toList
  rw [processBlock_buffer, ubi_counter, ← tag]
  refine (congrArg Chain.X done).trans ?_
  simp only [compress, block]

theorem take_counted (X : Words size.words) (i : Nat) {count : Nat} (few : count ≤ size.blockBytes) :
    (bytesOf (ubi size .out X (counterString i))).toList.take count =
      (List.range count).map fun k => outputByte size X (i * size.blockBytes + k) := by
  have positive := blockBytes_pos size
  have length : (bytesOf (ubi size .out X (counterString i))).toList.length = size.blockBytes := length_bytesOf _
  apply List.ext_getElem
  · rw [List.length_take, length, List.length_map, List.length_range, Nat.min_eq_left few]
  · intro k first second
    rw [List.length_take, length] at first
    have place : (i * size.blockBytes + k) / size.blockBytes = i := by
      rw [Nat.mul_comm, Nat.mul_add_div positive, Nat.div_eq_of_lt (by omega), Nat.add_zero]
    have rest : (i * size.blockBytes + k) % size.blockBytes = k := by
      rw [Nat.mul_comm, Nat.mul_add_mod, Nat.mod_eq_of_lt (by omega)]
    rw [List.getElem_take, List.getElem_map, List.getElem_range, outputByte, place, rest,
      List.getD_eq_getElem _ _ (by rw [length]; omega)]

/-- Turn `i` puts out what counter `i` gives, as far as it is wanted. -/
theorem outputBlock_eq {ctx : Ctxt size} (blank : ctx.Blank) {byteCnt i : Nat} (more : i * size.blockBytes < byteCnt)
    (hashVal : Bytes) :
    ∃ ctx' : Ctxt size, ctx'.X = ctx.X ∧ ctx'.Blank ∧
      outputBlock ctx.X byteCnt (ctx, i, hashVal) =
        some (ctx', i + 1, hashVal ++ (List.range (min size.blockBytes (byteCnt - i * size.blockBytes))).map fun k =>
          outputByte size ctx.X (i * size.blockBytes + k)) := by
  have wide := blockBytes_ge size
  have out := counted blank i
  have buffer : ((ctx.counting i).processBlock (ctx.counting i).b.toList 1 8).b = (ctx.counting i).b := by
    rw [processBlock_buffer]
    rfl
  have step : outputBlock ctx.X byteCnt (ctx, i, hashVal) =
      some ({ (ctx.counting i).processBlock (ctx.counting i).b.toList 1 8 with X := ctx.X }, i + 1,
        hashVal ++ (bytesOf ((ctx.counting i).processBlock (ctx.counting i).b.toList 1 8).X).toList.take
          (if size.blockBytes ≤ byteCnt - i * size.blockBytes then size.blockBytes
          else byteCnt - i * size.blockBytes)) := if_pos more
  have wanted : (if size.blockBytes ≤ byteCnt - i * size.blockBytes then size.blockBytes
      else byteCnt - i * size.blockBytes) = min size.blockBytes (byteCnt - i * size.blockBytes) := rfl
  rw [out, wanted] at step
  refine ⟨{ (ctx.counting i).processBlock (ctx.counting i).b.toList 1 8 with X := ctx.X }, rfl, ?_, step.trans ?_⟩
  · intro k later inside
    show ((ctx.counting i).processBlock (ctx.counting i).b.toList 1 8).b[k] = 0
    simp only [buffer]
    rw [getElem_counting blank i inside, List.getD_eq_default _ _ (by rw [counterString, length_bytesOf]; omega)]
  · rw [take_counted _ _ (Nat.min_le_left _ _)]

theorem output_eq (ctx : Ctxt size) :
    ctx.output.map Prod.snd = some ((List.range (outputLength ctx.hashBitLen)).map (outputByte size ctx.X)) := by
  have positive := blockBytes_pos size
  let I : Ctxt size × Nat × Bytes → Prop := fun s => s.1.X = ctx.X ∧ s.1.Blank ∧
    s.2.2 = (List.range (min (s.2.1 * size.blockBytes) (outputLength ctx.hashBitLen))).map (outputByte size ctx.X)
  have steps (s s' : Ctxt size × Nat × Bytes) (holds : I s)
      (next : outputBlock ctx.X (outputLength ctx.hashBitLen) s = some s') :
      I s' ∧ outputLength ctx.hashBitLen - s'.2.1 < outputLength ctx.hashBitLen - s.2.1 := by
    obtain ⟨ctx', i, hashVal⟩ := s
    obtain ⟨key, blank, out⟩ := holds
    simp only at key blank out
    have more : i * size.blockBytes < outputLength ctx.hashBitLen := by
      by_contra stop
      have none : outputBlock ctx.X (outputLength ctx.hashBitLen) (ctx', i, hashVal) = none := if_neg stop
      rw [none] at next
      cases next
    obtain ⟨ctx'', key', blank', step⟩ := outputBlock_eq blank more hashVal
    rw [key] at step
    obtain rfl := Option.some.inj (step.symm.trans next)
    have before := Nat.le_mul_of_pos_right i positive
    refine ⟨⟨key'.trans key, blank', ?_⟩, by simp only; omega⟩
    have whole : min ((i + 1) * size.blockBytes) (outputLength ctx.hashBitLen) =
        min (i * size.blockBytes) (outputLength ctx.hashBitLen) +
          min size.blockBytes (outputLength ctx.hashBitLen - i * size.blockBytes) := by
      rw [Nat.succ_mul]
      omega
    have full : min (i * size.blockBytes) (outputLength ctx.hashBitLen) = i * size.blockBytes := by omega
    simp only [out, whole, List.range_add, List.map_append, List.map_map, full]
    rfl
  have start : I ({ ctx with b := Vector.replicate _ 0 }, 0, []) := by
    refine ⟨rfl, fun i _ inside => Vector.getElem_replicate inside, ?_⟩
    simp
  obtain ⟨⟨ctx', i, hashVal⟩, ends⟩ := loop_ends I (fun s => outputLength ctx.hashBitLen - s.2.1) steps start
    (Nat.lt_succ_of_le (Nat.sub_le _ _))
  obtain ⟨⟨-, -, out⟩, stops⟩ := loop_invariant I (fun s s' holds next => (steps s s' holds next).1) start ends
  have enough : outputLength ctx.hashBitLen ≤ i * size.blockBytes := by
    by_contra more
    have next : outputBlock ctx.X (outputLength ctx.hashBitLen) (ctx', i, hashVal) ≠ none := by
      rw [outputBlock, if_pos (by omega)]
      exact Option.some_ne_none _
    exact next stops
  simp only at out
  have run : ctx.output = (loop (outputBlock ctx.X (outputLength ctx.hashBitLen)) (outputLength ctx.hashBitLen + 1)
      ({ ctx with b := Vector.replicate _ 0 }, 0, [])).map fun s => (s.1, s.2.2) := rfl
  rw [run, ends, Option.map_some, Option.map_some, out, Nat.min_eq_right enough]

/-! ## From the first call to the last -/

theorem loadBlock_bytesOf (w : Words size.words) : loadBlock size (bytesOf w).toList = w := by
  have whole : (Vector.ofFn fun i : Fin (8 * size.words) => (bytesOf w).toList.getD i.val 0) = bytesOf w := by
    apply Vector.ext
    intro i inside
    rw [Vector.getElem_ofFn, List.getD_eq_getElem _ _ (by rwa [Vector.length_toList]), Vector.getElem_toList]
  rw [loadBlock, whole, wordsOf_bytesOf]

theorem loadBlock_configString (hashBitLen treeInfo : UInt64) :
    loadBlock size (bytesOf (configBlock size hashBitLen treeInfo)).toList =
      loadBlock size (configString hashBitLen treeInfo) := by
  have wide := size.wide
  have stored {n : Nat} (w : Words n) {k : Nat} (inside : k < 8 * n) :
      (bytesOf w).toList.getD k 0 = storeByte (w.get ⟨k / 8, by omega⟩) (k % 8) := by
    rw [List.getD_eq_getElem _ _ (by rwa [Vector.length_toList]), Vector.getElem_toList, bytesOf, Vector.getElem_ofFn]
  apply loadBlock_congr
  intro k inside
  rw [stored _ inside, configString]
  by_cases early : k < 8 * 4
  · have word : ∀ j : Fin 4, (configBlock size hashBitLen treeInfo).get ⟨j.val, by omega⟩ =
        #v[schemaVer, hashBitLen, treeInfo, 0].get j := by
      rintro ⟨_ | _ | _ | _ | j, small⟩
      · exact (Vector.get_eq _ _).trans (Vector.getElem_ofFn _)
      · exact (Vector.get_eq _ _).trans (Vector.getElem_ofFn _)
      · exact (Vector.get_eq _ _).trans (Vector.getElem_ofFn _)
      · exact (Vector.get_eq _ _).trans (Vector.getElem_ofFn _)
      · omega
    rw [stored _ early, word ⟨k / 8, by omega⟩]
  · have none : (configBlock size hashBitLen treeInfo).get ⟨k / 8, by rw [Size.blockBytes] at inside; omega⟩ = 0 := by
      rw [configBlock, Vector.get_eq, Vector.getElem_ofFn]
      simp only
      rw [if_neg (by omega), if_neg (by omega), if_neg (by omega)]
    rw [none, List.getD_eq_default _ _ (by rw [length_bytesOf]; omega), storeByte, UInt64.zero_shiftRight]
    rfl

theorem configured_X (ctx : Ctxt size) (hashBitLen treeInfo : UInt64) :
    (ctx.configured hashBitLen treeInfo).X = ubi size .cfg ctx.X (configString hashBitLen treeInfo) := by
  have length : (configString hashBitLen treeInfo).length = 32 := length_bytesOf _
  have single : 31 / size.blockBytes = 0 := Nat.div_eq_of_lt (by have := blockBytes_ge size; omega)
  have tag : flagFirst ||| (BlkType.cfg.field ||| flagFinal) = tweak .cfg true true := by decide
  have once : ubi size .cfg ctx.X (configString hashBitLen treeInfo) =
      compress size ctx.X 32 (tweak .cfg true true) (configString hashBitLen treeInfo) := by
    simp only [ubi, length, Nat.reduceSub, single, Nat.zero_mul, List.drop_zero]
    rfl
  have done := @process_eq size ⟨0, flagFirst ||| (BlkType.cfg.field ||| flagFinal), ctx.X⟩ cfgStrLen 32 rfl
    ((bytesOf (configBlock size hashBitLen treeInfo)).toList.take size.blockBytes)
  rw [configured, processBlock_eq, takeBlocks, takeBlocks_zero, once, ← tag]
  refine (congrArg Chain.X done).trans ?_
  simp only [compress, loadBlock_take, loadBlock_configString]

theorem keyed_X (ctx : Ctxt size) (key : Bytes) :
    loadBlock size ((({ ctx.startNewType BlkType.key.field with X := Vector.replicate _ 0 }).update key).finalPad).2 =
      ubi size .key (Vector.replicate _ 0) key := by
  have takes := (takes_start { ctx with X := Vector.replicate _ 0 } .key).update [key]
  rw [List.flatten_singleton, List.nil_append] at takes
  exact (loadBlock_bytesOf _).trans (finalPad_eq takes).1

theorem initExt_takes (ctx : Ctxt size) (hashBitLen treeInfo : UInt64) (key : Bytes) :
    (ctx.initExt hashBitLen treeInfo key).Takes .msg (chainingVariables size hashBitLen treeInfo key) [] ∧
      (ctx.initExt hashBitLen treeInfo key).hashBitLen = hashBitLen := by
  have started (ctx : Ctxt size) :
      ((ctx.configured hashBitLen treeInfo).startNewType BlkType.msg.field).Takes .msg
        (ubi size .cfg ctx.X (configString hashBitLen treeInfo)) [] ∧
      ((ctx.configured hashBitLen treeInfo).startNewType BlkType.msg.field).hashBitLen = ctx.hashBitLen := by
    refine ⟨configured_X ctx hashBitLen treeInfo ▸ takes_start _ .msg, ?_⟩
    rw [configured, processBlock_eq]
    rfl
  rw [chainingVariables, initExt]
  by_cases none : key = []
  · rw [if_pos none, if_pos (List.length_eq_zero_iff.mpr none)]
    exact started { ctx with X := Vector.replicate _ 0, hashBitLen }
  · rw [if_neg none, if_neg fun empty => none (List.length_eq_zero_iff.mp empty), ← keyed_X]
    exact started _

theorem final_pieces {ctx : Ctxt size} {X : Words size.words} (takes : ctx.Takes .msg X []) (pieces : List Bytes) :
    (pieces.foldl update ctx).final.map Prod.snd =
      some ((List.range (outputLength ctx.hashBitLen)).map (outputByte size (ubi size .msg X pieces.flatten))) := by
  have bits := (update_pieces takes.fits pieces).2.2
  obtain ⟨closed, bits'⟩ := finalPad_eq (takes.update pieces)
  rw [final, output_eq, closed, bits', bits, List.nil_append]

/-- Whatever the context held, and in whatever pieces the message comes. -/
theorem final_digest (ctx : Ctxt size) (hashBitLen treeInfo : UInt64) (key : Bytes) (pieces : List Bytes) :
    (pieces.foldl update (ctx.initExt hashBitLen treeInfo key)).final.map Prod.snd =
      some (digest size hashBitLen treeInfo key pieces.flatten) := by
  obtain ⟨takes, bits⟩ := ctx.initExt_takes hashBitLen treeInfo key
  rw [final_pieces takes, bits, digest]

end Ctxt

end PrimePool.Skein

import PrimePool.General.Loop
import PrimePool.Hash.Threefish

/-!
# Skein

`hash/skein.cpp` and the chaining variables of `hash/skein_iv.h`. The functions are the same for the three block sizes.
-/

namespace PrimePool.Skein
open General

/-! ## Tweaks -/

def flagFirst : UInt64 := (1 : UInt64) <<< 62

def flagFinal : UInt64 := (1 : UInt64) <<< 63

inductive BlkType
  | key
  | cfg
  | msg
  | out

def BlkType.field : BlkType → UInt64
  | key => (0 : UInt64) <<< 56
  | cfg => (4 : UInt64) <<< 56
  | msg => (48 : UInt64) <<< 56
  | out => (63 : UInt64) <<< 56

def schemaVer : UInt64 := (0x33414853 : UInt64) + ((1 : UInt64) <<< 32)

def cfgStrLen : UInt64 := 4 * 8

/-! ## Precomputed chaining variables -/

def skein256IV256 : Words 4 :=
  #v[0x388512680E660046, 0x4B72D5DEC5A8FF01, 0x281A9298CA5EB3A5, 0x54CA5249F46070C4]

def skein256IV224 : Words 4 :=
  #v[0xB80929699AE0F431, 0xD340DC14A06929DC, 0xAE866594BDE4DC5A, 0x339767C25A60EA1D]

def skein256IV160 : Words 4 :=
  #v[0xA38A0D80A3687723, 0xB73CDB6A5963FFC9, 0x9633E8EA07A1B447, 0xCA0ED09EC9529C22]

def skein256IV128 : Words 4 :=
  #v[0x302F7EA23D7FE2E1, 0xADE4683A6913752B, 0x975CFABEF208AB0A, 0x2AF4BA95F831F55B]

def skein512IV512 : Words 8 :=
  #v[0xA8D47980544A6E32, 0x847511533E9B1A8A, 0x6FAEE870D8E81A00, 0x58B0D9D6CB557F92,
    0x9BBC0051DAC1D4E9, 0xB744E2B1D189E7CA, 0x979350FA709C5EF3, 0x0350125A92067BCD]

def skein512IV384 : Words 8 :=
  #v[0xE5BF4D02BA62494C, 0x7AA1EABCC3E6FC68, 0xBBE5FC26E1038C5A, 0x53C9903E8F88E9FA,
    0xF30D8DDDFB940C83, 0x500FDA3C4865ABEC, 0x2226C67F745BC5E7, 0x015DA80077C639F7]

def skein512IV256 : Words 8 :=
  #v[0x88C07F38D4F95AD4, 0x3DF0D33A8610E240, 0x3E243F6EDB6FAC74, 0xBAC4F4CDD7A90A24,
    0xDF90FD1FDEEEBA04, 0xA4F5796BDB7FDDA8, 0xDA182FD2964BC923, 0x55F76677EF6961F9]

def skein512IV224 : Words 8 :=
  #v[0xF2DAA1698216CC98, 0x00E06A488983AE05, 0xC080CEA95948958F, 0x2A8F314B57F4ADD1,
    0xBCD06591360A405A, 0xF81A11A102D91F70, 0x85C6FFA54810A739, 0x1E07AFE01802CE74]

def skein1024IV512 : Words 16 :=
  #v[0x8CF63BE5E1EDF4B7, 0x256FD425CBDE61EB, 0x497B412DEBA3EF9D, 0x3CBD412AD8293FBA,
    0xD5AE34D6F26F646E, 0x72879C010DA17B79, 0x61BD8F1805AFF621, 0x75CB3C949CE0E463,
    0xAF27329D2CD71E37, 0x7DB5EC5E1141CE9F, 0x76484C1320CAB67B, 0x57EB52A6561BE8C5,
    0x51161125E681412D, 0xF510D9375439A9BC, 0xD18AF77CFC425E3C, 0xEB05160C3FEBB037]

def skein1024IV384 : Words 16 :=
  #v[0x7600B2E39FC73E48, 0x7A4543BBECCD60E4, 0x8AB879D62F53E192, 0x14847919A7F0AC6E,
    0x4F774735AA99CB7F, 0x607CF3C241760EE1, 0xC0BF6D7BFF9F27DB, 0x7D32148599342254,
    0xE7231BB0CDF9DD49, 0x641DE8E6464DB3F4, 0x05613046A01CF005, 0x7347EE0BB09E8BCC,
    0x5103A256161A26FF, 0x8161EAC43A1176C2, 0xB9607373CF92C2CC, 0xFDE8D4ADD376300D]

def skein1024IV1024 : Words 16 :=
  #v[0x5A4352BE62092156, 0x5F6E8B1A72F001CA, 0xFFCBFE9CA1A2CE26, 0x6C23C39667038BCA,
    0x583A8BFCCE34EB6C, 0x3FDBFB11D4A46A3E, 0x3304ACFCA8300998, 0xB2F6675FA17F0FD2,
    0x9D2599730EF7AB6B, 0x0914A20D3DFEA9E4, 0xCC1A9CAFA494DBD3, 0x9828030DA0A6388C,
    0x0D339D5DAADEE3DC, 0xFC46DE35C4E2A086, 0x53D6E4F52E19A6D1, 0x5663952F715D1DDD]


/-- A block size and the chaining variables that are precomputed for it, by the length of the hash. -/
structure Variant where
  size : Size
  precomputed : UInt64 → Option (Words size.words)

def variant256 : Variant where
  size := skein256
  precomputed
    | 256 => some skein256IV256
    | 224 => some skein256IV224
    | 160 => some skein256IV160
    | 128 => some skein256IV128
    | _ => none

def variant512 : Variant where
  size := skein512
  precomputed
    | 512 => some skein512IV512
    | 384 => some skein512IV384
    | 256 => some skein512IV256
    | 224 => some skein512IV224
    | _ => none

def variant1024 : Variant where
  size := skein1024
  precomputed
    | 512 => some skein1024IV512
    | 384 => some skein1024IV384
    | 1024 => some skein1024IV1024
    | _ => none

/-! ## Blocks -/

def counterString (i : Nat) : Bytes := (bytesOf #v[i.toUInt64]).toList

structure Ctxt (size : Size) where
  hashBitLen : UInt64
  /-- How many bytes of `b` wait to be processed. -/
  bCnt : Nat
  T0 : UInt64
  T1 : UInt64
  X : Words size.words
  b : Vector UInt8 (8 * size.words)

def overwrite {n : Nat} (b : Vector UInt8 n) (start : Nat) (data : Bytes) : Vector UInt8 n :=
  Vector.ofFn fun i =>
    if start ≤ i.val ∧ i.val < start + data.length then data.getD (i.val - start) 0 else b.get i

namespace Ctxt

variable {size : Size}

def startNewType (ctx : Ctxt size) (T1 : UInt64) : Ctxt size := { ctx with T0 := 0, T1 := flagFirst ||| T1, bCnt := 0 }

def loadBlock (size : Size) (data : Bytes) : Words size.words := wordsOf (Vector.ofFn fun i => data.getD i.val 0)

def processOne (ctx : Ctxt size) (byteCntAdd : UInt64) (w : Words size.words) : Ctxt size :=
  let T0 := ctx.T0 + byteCntAdd
  let X := rounds size ctx.X T0 ctx.T1 w
  { ctx with T0, T1 := ctx.T1 &&& ~~~ flagFirst, X := Vector.ofFn fun i => X.get i ^^^ w.get i }

/-- It is never called with 0 blocks. -/
def processBlock (ctx : Ctxt size) (blk : Bytes) (blkCnt : Nat) (byteCntAdd : UInt64) : Ctxt size :=
  match blkCnt with
  | 0 => ctx
  | blkCnt + 1 =>
      (ctx.processOne byteCntAdd (loadBlock size blk)).processBlock (blk.drop size.blockBytes) blkCnt byteCntAdd

/-! ## Taking in -/

def copyIn (ctx : Ctxt size) (msg : Bytes) : Ctxt size :=
  { ctx with b := overwrite ctx.b ctx.bCnt msg, bCnt := ctx.bCnt + msg.length }

/-- What waits in the buffer is filled up to a block and processed. -/
def finishBuffered (ctx : Ctxt size) (msg : Bytes) : Ctxt size × Bytes :=
  if ctx.bCnt ≠ 0 then
    let n := size.blockBytes - ctx.bCnt
    let (ctx, msg) := if n ≠ 0 then (ctx.copyIn (msg.take n), msg.drop n) else (ctx, msg)
    ({ ctx.processBlock ctx.b.toList 1 size.blockBytes.toUInt64 with bCnt := 0 }, msg)
  else (ctx, msg)

def processFull (ctx : Ctxt size) (msg : Bytes) : Ctxt size × Bytes :=
  if size.blockBytes < msg.length then
    let n := (msg.length - 1) / size.blockBytes
    (ctx.processBlock msg n size.blockBytes.toUInt64, msg.drop (n * size.blockBytes))
  else (ctx, msg)

def update (ctx : Ctxt size) (msg : Bytes) : Ctxt size :=
  let (ctx, msg) :=
    if size.blockBytes < msg.length + ctx.bCnt then
      let (ctx, msg) := ctx.finishBuffered msg
      ctx.processFull msg
    else (ctx, msg)
  if msg ≠ [] then ctx.copyIn msg else ctx

/-! ## The end -/

def finalPad (ctx : Ctxt size) : Ctxt size × Bytes :=
  let T1 := ctx.T1 ||| flagFinal
  let b :=
    if ctx.bCnt < size.blockBytes then overwrite ctx.b ctx.bCnt (List.replicate (size.blockBytes - ctx.bCnt) 0)
    else ctx.b
  let ctx := { ctx with T1, b }.processBlock b.toList 1 ctx.bCnt.toUInt64
  (ctx, (bytesOf ctx.X).toList)

/-- One turn of counter mode: the context, the counter and what was put out. -/
def outputBlock (X : Words size.words) (byteCnt : Nat) : Ctxt size × Nat × Bytes → Option (Ctxt size × Nat × Bytes)
  | (ctx, i, hashVal) =>
      if i * size.blockBytes < byteCnt then
        let ctx := { ctx with b := overwrite ctx.b 0 (counterString i) }
        let ctx := ctx.startNewType (BlkType.out.field ||| flagFinal)
        let ctx := ctx.processBlock ctx.b.toList 1 8
        let n := byteCnt - i * size.blockBytes
        let n := if size.blockBytes ≤ n then size.blockBytes else n
        some ({ ctx with X }, i + 1, hashVal ++ (bytesOf ctx.X).toList.take n)
      else none

def output (ctx : Ctxt size) : Option (Ctxt size × Bytes) :=
  let byteCnt := ((ctx.hashBitLen + 7) >>> 3).toNat
  let ctx := { ctx with b := Vector.replicate _ 0 }
  (loop (outputBlock ctx.X byteCnt) (byteCnt + 1) (ctx, 0, [])).map fun (ctx, _, hashVal) => (ctx, hashVal)

/-- The code of `finalPad`, but for what it puts out, and then that of `output`. -/
def final (ctx : Ctxt size) : Option (Ctxt size × Bytes) := ctx.finalPad.1.output

/-! ## The start -/

def configBlock (size : Size) (hashBitLen treeInfo : UInt64) : Words size.words :=
  Vector.ofFn fun i =>
    if i.val = 0 then schemaVer else if i.val = 1 then hashBitLen else if i.val = 2 then treeInfo else 0

def configured (ctx : Ctxt size) (hashBitLen treeInfo : UInt64) : Ctxt size :=
  (ctx.startNewType (BlkType.cfg.field ||| flagFinal)).processBlock
    (bytesOf (configBlock size hashBitLen treeInfo)).toList 1 cfgStrLen

def init (variant : Variant) (ctx : Ctxt variant.size) (hashBitLen : UInt64) : Ctxt variant.size :=
  let ctx := { ctx with hashBitLen }
  let ctx :=
    match variant.precomputed hashBitLen with
    | some X => { ctx with X }
    | none => { ctx with X := Vector.replicate _ 0 }.configured hashBitLen 0
  ctx.startNewType BlkType.msg.field

def initExt (ctx : Ctxt size) (hashBitLen treeInfo : UInt64) (key : Bytes) : Ctxt size :=
  let ctx :=
    if key.length = 0 then { ctx with X := Vector.replicate _ 0 }
    else
      let ctx := { ctx with hashBitLen := (8 * size.blockBytes).toUInt64 }.startNewType BlkType.key.field
      let (ctx, cfg) := ({ ctx with X := Vector.replicate _ 0 }.update key).finalPad
      { ctx with X := loadBlock size cfg }
  ({ ctx with hashBitLen }.configured hashBitLen treeInfo).startNewType BlkType.msg.field

end Ctxt

end PrimePool.Skein

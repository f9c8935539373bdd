import PrimePool.Hash.LittleEndian

/-!
# The Threefish rounds

`hash/skein_block.cpp` and the constants of `hash/skein.h`. The code for the three block sizes differs in the words a
round takes together and in the rotations. As it is compiled, the rounds of the two smaller sizes are unrolled and find
their key words modulo the schedule's length; those of the largest are a loop that copies the schedule along.
-/

namespace PrimePool.Skein

abbrev Words (n : Nat) : Type := Vector UInt64 n

def rotL64 (x n : UInt64) : UInt64 := (x <<< n) ||| (x >>> (64 - n))

def ksParity : UInt64 := 0x5555555555555555

/-- The constants of one block size. -/
structure Size where
  words : Nat
  wide : 4 ≤ words
  /-- The words that each of four rounds takes two by two. -/
  orders : List (List (Fin words))
  /-- The rotations of eight rounds. -/
  rotations : List (List UInt64)
  roundsTotal : Nat
  /-- Whether the rounds are a loop. -/
  looping : Bool
  apart : ∀ order ∈ orders, order.Nodup
  turning : ∀ row ∈ rotations, ∀ rotation ∈ row, 0 < rotation.toNat ∧ rotation.toNat < 64

def skein256 : Size where
  words := 4
  wide := by decide
  orders := [[0, 1, 2, 3], [0, 3, 2, 1], [0, 1, 2, 3], [0, 3, 2, 1]]
  rotations := [[5, 56], [36, 28], [13, 46], [58, 44], [26, 20], [53, 35], [11, 42], [59, 50]]
  roundsTotal := 72
  looping := false
  apart := by decide
  turning := by simp

def skein512 : Size where
  words := 8
  wide := by decide
  orders := [[0, 1, 2, 3, 4, 5, 6, 7], [2, 1, 4, 7, 6, 5, 0, 3], [4, 1, 6, 3, 0, 5, 2, 7], [6, 1, 0, 7, 2, 5, 4, 3]]
  rotations := [[38, 30, 50, 53], [48, 20, 43, 31], [34, 14, 15, 27], [26, 12, 58, 7], [33, 49, 8, 42],
    [39, 27, 41, 14], [29, 26, 11, 9], [33, 51, 39, 35]]
  roundsTotal := 72
  looping := false
  apart := by decide
  turning := by simp

def skein1024 : Size where
  words := 16
  wide := by decide
  orders := [[0, 1, 2, 3, 4, 5, 6, 7, 8, 9, 10, 11, 12, 13, 14, 15],
    [0, 9, 2, 13, 6, 11, 4, 15, 10, 7, 12, 3, 14, 5, 8, 1],
    [0, 7, 2, 5, 4, 3, 6, 1, 12, 15, 14, 13, 8, 11, 10, 9],
    [0, 15, 2, 11, 6, 13, 4, 9, 14, 1, 8, 5, 10, 3, 12, 7]]
  rotations := [[55, 43, 37, 40, 16, 22, 38, 12], [25, 25, 46, 13, 14, 13, 52, 57], [33, 8, 18, 57, 21, 12, 32, 54],
    [34, 43, 25, 60, 44, 9, 59, 34], [28, 7, 47, 48, 51, 9, 35, 41], [17, 6, 18, 25, 43, 42, 40, 15],
    [58, 7, 32, 45, 19, 18, 2, 56], [47, 49, 27, 58, 37, 48, 53, 56]]
  roundsTotal := 80
  looping := true
  apart := by decide
  turning := by simp

namespace Size

def rcnt (size : Size) : Nat := size.roundsTotal / 8

def blockBytes (size : Size) : Nat := 8 * size.words

end Size

/-! ## Rounds -/

def mix {n : Nat} (X : Words n) (p0 p1 : Fin n) (rotation : UInt64) : Words n :=
  let x := X.get p0 + X.get p1
  (X.set p0 x p0.isLt).set p1 (rotL64 (X.get p1) rotation ^^^ x) p1.isLt

def round {n : Nat} (X : Words n) : List (Fin n) → List UInt64 → Words n
  | p0 :: p1 :: order, rotation :: rotations => round (mix X p0 p1 rotation) order rotations
  | _, _ => X

def fourRounds (size : Size) (X : Words size.words) (rotations : List (List UInt64)) : Words size.words :=
  (size.orders.zip rotations).foldl (fun X (order, rotations) => round X order rotations) X

/-! ## Unrolled -/

def keySchedule {n : Nat} (key : Words n) : Words (n + 1) := key.push (key.foldl (· ^^^ ·) 0 ^^^ ksParity)

def tweakSchedule (T0 T1 : UInt64) : Words 3 := #v[T0, T1, T0 ^^^ T1]

/-- What is added to word `i`, from the key word there and the tweak words for the two words before the last. -/
def injected (n s i : Nat) (key tweak tweak' : UInt64) : UInt64 :=
  if i = n - 3 then key + tweak
  else if i = n - 2 then key + tweak'
  else if i = n - 1 then key + s.toUInt64
  else key

def inject {n : Nat} (ks : Words (n + 1)) (ts : Words 3) (s : Nat) (X : Words n) : Words n :=
  Vector.ofFn fun i => X.get i + injected n s i (ks.get ⟨(s + i) % (n + 1), Nat.mod_lt _ (Nat.succ_pos n)⟩)
    (ts.get ⟨s % 3, Nat.mod_lt _ (by decide)⟩) (ts.get ⟨(s + 1) % 3, Nat.mod_lt _ (by decide)⟩)

def eightRounds (size : Size) (ks : Words (size.words + 1)) (ts : Words 3) (X : Words size.words) (R : Nat) :
    Words size.words :=
  let X := inject ks ts (2 * R + 1) (fourRounds size X (size.rotations.take 4))
  inject ks ts (2 * R + 2) (fourRounds size X (size.rotations.drop 4))

def unrolledRounds (size : Size) (key : Words size.words) (T0 T1 : UInt64) (w : Words size.words) :
    Words size.words :=
  let ks := keySchedule key
  let ts := tweakSchedule T0 T1
  (List.range size.rcnt).foldl (eightRounds size ks ts) (inject ks ts 0 w)

/-! ## In a loop -/

/-- The array that holds the tweak words from 0 on, the key words from 3 on, and the words each injection appends. -/
abbrev KeyWords (size : Size) : Type := Words (size.words + 4 + 2 * size.rcnt)

def startWords (size : Size) (ks : Words (size.words + 1)) (ts : Words 3) (stale : KeyWords size) : KeyWords size :=
  Vector.ofFn fun i =>
    if small : i.val < 3 then ts.get ⟨i.val, small⟩
    else if inside : i.val - 3 < size.words + 1 then ks.get ⟨i.val - 3, inside⟩
    else stale.get i

def injectNext (size : Size) (r : Fin (2 * size.rcnt)) (s : KeyWords size × Words size.words) :
    KeyWords size × Words size.words :=
  let (kw, X) := s
  let X := Vector.ofFn fun i => X.get i + injected size.words (r.val + 1) i (kw.get ⟨3 + (r.val + 1) + i.val, by omega⟩)
    (kw.get ⟨r.val + 1, by omega⟩) (kw.get ⟨r.val + 1 + 1, by omega⟩)
  let kw := kw.set (3 + (r.val + 1 + size.words)) (kw.get ⟨3 + r.val, by omega⟩) (by omega)
  (kw.set (r.val + 1 + 2) (kw.get ⟨r.val, by omega⟩) (by omega), X)

/-- One turn of the loop; the loop counter is `2 * R + 1`. -/
def nextRounds (size : Size) (s : KeyWords size × Words size.words) (R : Fin size.rcnt) :
    KeyWords size × Words size.words :=
  let (kw, X) := injectNext size ⟨2 * R.val, by omega⟩ (s.1, fourRounds size s.2 (size.rotations.take 4))
  injectNext size ⟨2 * R.val + 1, by omega⟩ (kw, fourRounds size X (size.rotations.drop 4))

/-- `stale` is what the array held before. -/
def loopingRounds (size : Size) (stale : KeyWords size) (key : Words size.words) (T0 T1 : UInt64)
    (w : Words size.words) : Words size.words :=
  let ks := keySchedule key
  let ts := tweakSchedule T0 T1
  ((List.finRange size.rcnt).foldl (nextRounds size) (startWords size ks ts stale, inject ks ts 0 w)).2

def rounds (size : Size) (key : Words size.words) (T0 T1 : UInt64) (w : Words size.words) : Words size.words :=
  if size.looping then loopingRounds size (Vector.replicate _ 0) key T0 T1 w else unrolledRounds size key T0 T1 w

end PrimePool.Skein

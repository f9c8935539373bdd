import PrimePool.Core.Pool

/-!
# The blocks of a pool connection

`LLP/pool.cpp` and `LLP/daemon.cpp`: the blocks a connection was sent, those waiting on its stack, and the one it
submitted. `Core/Pool` leaves them out. A block on the heap carries a number that no other ever gets, so that a
pointer to a deleted block is told from one to a later block at the same address.
-/

namespace PrimePool.LLP

open PrimePool.Core Std

structure HeapBlock where
  object : Nat
  BLOCK : CBlock
deriving DecidableEq

structure PoolConnection where
  MAP_BLOCKS : ExtTreeMap Uint1024 HeapBlock
  NEW_BLOCKS : List HeapBlock
  SUBMISSION_BLOCK : Option Nat
  fNewBlock : Bool
  nBlockRequests : UInt32
  nBlocksWaiting : UInt32

namespace PoolConnection

def new : PoolConnection where
  MAP_BLOCKS := ∅
  NEW_BLOCKS := []
  SUBMISSION_BLOCK := none
  fNewBlock := false
  nBlockRequests := 0
  nBlocksWaiting := 0

def clear (connection : PoolConnection) : PoolConnection :=
  { connection with nBlockRequests := 0, nBlocksWaiting := 0, NEW_BLOCKS := [], MAP_BLOCKS := ∅ }

def addBlock (connection : PoolConnection) (BLOCK : HeapBlock) : PoolConnection :=
  { connection with
    NEW_BLOCKS := BLOCK :: connection.NEW_BLOCKS
    nBlocksWaiting := connection.nBlocksWaiting - 1 }

variable (getHash : CBlock → Uint1024)

/-- The loop of the generic event that empties the stack. -/
def sendBlocks (connection : PoolConnection) : PoolConnection :=
  { connection with
    MAP_BLOCKS := connection.NEW_BLOCKS.foldl (fun MAP_BLOCKS BLOCK => MAP_BLOCKS.insert (getHash BLOCK.BLOCK) BLOCK)
      connection.MAP_BLOCKS
    NEW_BLOCKS := [] }

def generic (fSubmittingBlock : Bool) (connection : PoolConnection) : PoolConnection :=
  if connection.fNewBlock then
    if fSubmittingBlock then connection
    else { connection.clear with fNewBlock := false }.sendBlocks getHash
  else connection.sendBlocks getHash

def getBlock (connection : PoolConnection) : PoolConnection :=
  { connection with nBlockRequests := connection.nBlockRequests + 1 }

/-- The block a share names, where it is one of the current height. -/
def findBlock (connection : PoolConnection) (nBestHeight : UInt32) (hashPrimeOrigin : Uint1024) : Option HeapBlock :=
  connection.MAP_BLOCKS[hashPrimeOrigin]?.filter fun BLOCK => BLOCK.BLOCK.nHeight = nBestHeight

/-- What a share that is a block leaves behind. -/
def submitBlock (connection : PoolConnection) (hashPrimeOrigin : Uint1024) (nNonce : UInt64) : PoolConnection :=
  { connection with
    MAP_BLOCKS := connection.MAP_BLOCKS.modify hashPrimeOrigin fun BLOCK => { BLOCK with BLOCK.nNonce := nNonce }
    SUBMISSION_BLOCK :=
      match connection.SUBMISSION_BLOCK with
      | some object => some object
      | none => connection.MAP_BLOCKS[hashPrimeOrigin]?.map HeapBlock.object }

def requestBlocks (connection : PoolConnection) : PoolConnection :=
  { connection with
    nBlockRequests := 0
    nBlocksWaiting := connection.nBlocksWaiting + connection.nBlockRequests }

/-- What the loop of the daemon thread does with one connection. -/
def scan (connection : PoolConnection) : PoolConnection :=
  match connection.SUBMISSION_BLOCK with
  | some _ => { connection with SUBMISSION_BLOCK := none }
  | none => connection.requestBlocks

end PoolConnection

/-! ## Shares -/

def hashPrimeOf (hashPrimeOrigin : Uint1024) (nNonce : UInt64) : Uint1024 := hashPrimeOrigin.add (.ofUInt64 nNonce)

/-- What the verification of a prime comes to: whether `SetBits` of its difficulty reaches `nMinimumShare`, the weight
of its difficulty, and whether that reaches the difficulty of a block. -/
structure Verification where
  fAccepted : Uint1024 → Bool
  nWeight : Uint1024 → UInt64
  fBlock : Uint1024 → UInt32 → Bool

def allAccepted : Verification := { fAccepted := fun _ => true, nWeight := fun _ => 1, fBlock := fun _ _ => false }

end PrimePool.LLP

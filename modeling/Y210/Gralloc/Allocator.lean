/-
  File:      Y210/Gralloc/Allocator.lean
  Subject:   `SimpleBestFitAllocator` of allocator.cpp, on its doubly linked list of chunks.

  A chunk counts in units of `kMemoryAlign` bytes; its size has 28 bits and `size_t` has 32. Where
  the code calls `new`, the address it gets is an argument. A loop over the list is given as many
  turns as there are cells in memory: a walk that takes more comes back to a node and never ends,
  and has no result here. Nor has a `LOG_FATAL_IF`, which ends the process.

  * `alloc`, `dealloc` -- the two searches, the split in up to three pieces, the merging loop;
  * `setSize`, `allocate`, `deallocate` -- the interface.
-/
import Mathlib.Algebra.Group.Int.Defs
import Mathlib.Algebra.Group.Nat.Defs
import Y210.Lib.LinkedList

namespace Y210.Gralloc

open Y210.Lib

def kMemoryAlign : Nat := 32

def pagesize : Nat := 4096

def EINVAL : Int := 22

def ENOENT : Int := 2

def ENOMEM : Int := 12

/-- A `size_t`. -/
def word (n : Nat) : Nat := n % 2 ^ 32

/-- A `size_t` as `ssize_t`, or as `int`. -/
def ssize (n : Nat) : Int := if word n < 2 ^ 31 then word n else word n - 2 ^ 32

/-- `chunk_t`. -/
structure Chunk where
  start : Nat
  size : Nat
  free : Bool
  deriving DecidableEq

/-- The 28 bits of `chunk_t::size`. -/
def sizeBits (n : Nat) : Nat := n % 2 ^ 28

/-- The constructor of `chunk_t`. -/
def Chunk.create (start size : Nat) : Chunk := ⟨start, sizeBits size, true⟩

/-- What is left to the next page: `-start & (pagesize/kMemoryAlign - 1)`. -/
def extra (start : Nat) : Nat := word (2 ^ 32 - start) % (pagesize / kMemoryAlign)

structure Allocator where
  mList : LinkedList Chunk
  mHeapSize : Nat
  deriving DecidableEq

def Allocator.empty : Allocator := ⟨LinkedList.empty, 0⟩

/-! ## 1. `alloc` -/

/-- The better of the chunk found so far and the chunk `c` at `cur`. -/
def better (l : LinkedList Chunk) (c : Chunk) (cur : Nat) : Option Nat → Option Nat
  | none => some cur
  | some best => do
    let b ← l.node best
    return if c.size < b.val.size then cur else best

/-- The search of `alloc` for the best fit, from `cur` on. -/
def bestFit (l : LinkedList Chunk) (size : Nat) :
    Nat → Option Nat → Option Nat → Option (Option Nat)
  | _, none, best => some best
  | 0, some _, _ => none
  | fuel + 1, some cur, best => do
    let c ← l.node cur
    if c.val.free && word (size + extra c.val.start) ≤ c.val.size then
      let b ← better l c.val cur best
      if c.val.size = size then some (some b) else bestFit l size fuel c.next (some b)
    else bestFit l size fuel c.next best

/-- The piece before the first page boundary becomes a chunk of its own. -/
def splitFront (l : LinkedList Chunk) (a extra new : Nat) : Option (LinkedList Chunk) :=
  if extra = 0 then some l
  else do
    let n ← l.node a
    let l ← l.new new (Chunk.create n.val.start extra)
    let l ← l.modify a fun n =>
      { n with val := { n.val with start := word (n.val.start + extra) } }
    l.insertBefore a new

/-- The piece behind the block becomes a chunk of its own. -/
def splitTail (l : LinkedList Chunk) (a : Nat) (tailFree : Int) (new : Nat) :
    Option (LinkedList Chunk) :=
  if tailFree > 0 then do
    let n ← l.node a
    let l ← l.new new (Chunk.create (word (n.val.start + n.val.size)) tailFree.toNat)
    l.insertAfter a new
  else some l

/-- The block of `size` units is taken out of the chunk at `a`. -/
def carve (l : LinkedList Chunk) (a size new₁ new₂ : Nat) : Option (LinkedList Chunk × Int) := do
  let n ← l.node a
  let freeSize := n.val.size
  let l ← l.modify a fun n => { n with val := ⟨n.val.start, sizeBits size, false⟩ }
  let l ←
    if freeSize > size then do
      let l ← splitFront l a (extra n.val.start) new₁
      splitTail l a (ssize (freeSize + 2 ^ 32 - word (size + extra n.val.start))) new₂
    else some l
  let n ← l.node a
  return (l, ssize (n.val.start * kMemoryAlign))

def alloc (l : LinkedList Chunk) (size new₁ new₂ : Nat) : Option (LinkedList Chunk × Int) :=
  if size = 0 then some (l, 0)
  else do
    let size := word (size + kMemoryAlign - 1) / kMemoryAlign
    match ← bestFit l size l.mem.length l.mFirst none with
    | none => return (l, -ENOMEM)
    | some a => carve l a size new₁ new₂

/-! ## 2. `dealloc` -/

/-- The search of `dealloc`, from `cur` on. -/
def findStart (l : LinkedList Chunk) (start : Nat) : Nat → Option Nat → Option (Option Nat)
  | _, none => some none
  | 0, some _ => none
  | fuel + 1, some cur => do
    let c ← l.node cur
    if c.val.start = start then some (some cur) else findStart l start fuel c.next

/-- The chunk `c` at `cur` goes into the chunk before it, if that is free. -/
def absorb (l : LinkedList Chunk) (c : Node Chunk) (cur freed : Nat) :
    Option (LinkedList Chunk × Nat) :=
  match c.prev with
  | none => some (l, freed)
  | some p => do
    let q ← l.node p
    if q.val.free || c.val.size = 0 then
      let l ← l.modify p fun n =>
        { n with val := { n.val with size := sizeBits (n.val.size + c.val.size) } }
      let l ← l.remove cur
      return (l.delete cur, p)
    else some (l, freed)

/-- `cur = n; } while (cur && cur->free);`, with what the next turn does. -/
def whileFree (turn : LinkedList Chunk → Nat → Nat → Option (LinkedList Chunk × Nat))
    (r : LinkedList Chunk × Nat) : Option Nat → Option (LinkedList Chunk × Nat)
  | none => some r
  | some n => do
    let next ← r.1.node n
    if next.val.free then turn r.1 n r.2 else some r

/-- The merging loop of `dealloc`. -/
def merge : Nat → LinkedList Chunk → Nat → Nat → Option (LinkedList Chunk × Nat)
  | 0, _, _, _ => none
  | fuel + 1, l, cur, freed => do
    let c ← l.node cur
    let r ← absorb l c cur freed
    whileFree (merge fuel) r c.next

def dealloc (l : LinkedList Chunk) (offset : Nat) : Option (LinkedList Chunk × Option Nat) := do
  match ← findStart l (offset / kMemoryAlign) l.mem.length l.mFirst with
  | none => return (l, none)
  | some a =>
    let n ← l.node a
    if n.val.free then none
    else
      let l ← l.modify a fun n => { n with val := { n.val with free := true } }
      let r ← merge l.mem.length l a a
      let freed ← r.1.node r.2
      if freed.val.free then some (r.1, some r.2) else none

/-! ## 3. The interface -/

namespace Allocator

variable (s : Allocator)

def setSize (size new : Nat) : Option (Allocator × Int) :=
  if s.mHeapSize ≠ 0 then some (s, -EINVAL)
  else do
    let heapSize := word (size + pagesize - 1) / pagesize * pagesize
    let l ← s.mList.new new (Chunk.create 0 (heapSize / kMemoryAlign))
    let l ← l.insertHead new
    return (⟨l, heapSize⟩, ssize size)

def allocate (size new₁ new₂ : Nat) : Option (Allocator × Int) :=
  if s.mHeapSize = 0 then some (s, -EINVAL)
  else do
    let r ← alloc s.mList size new₁ new₂
    return ({ s with mList := r.1 }, r.2)

def deallocate (offset : Nat) : Option (Allocator × Int) :=
  if s.mHeapSize = 0 then some (s, -EINVAL)
  else do
    let r ← dealloc s.mList offset
    return ({ s with mList := r.1 }, if r.2.isSome then 0 else -ENOENT)

end Allocator

end Y210.Gralloc

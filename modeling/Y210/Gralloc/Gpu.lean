/-
  File:      Y210/Gralloc/Gpu.lean
  Subject:   ALLOCATING AND FREEING BUFFERS: `gpu_context_t` of gpu.cpp.

  `alloc_impl` works out the size of an image in 32-bit arithmetic and asks for a buffer, from the
  framebuffer, from one of the two pmem areas or from ashmem. What the allocators and the system
  calls return is arbitrary, and given with each call. A buffer of the framebuffer is one of a few
  slots, marked in `bufferMask`; the handle keeps the address of its slot, and `free_impl` finds the
  slot by that.

  * `planes` -- the size of an image, and its stride;
  * `grallocAllocBuffer`, `grallocAllocFramebufferLocked`, `allocImpl`, `freeImpl` -- the functions.
-/
import Y210.Gralloc.MapFramebuffer
import Y210.Gralloc.Pmem

namespace Y210.Gralloc.Gpu

open Y210.Gralloc.Fb
open Y210.Gralloc.Mapper (privFlagsFramebuffer privFlagsUsesPmem privFlagsUsesPmemAdsp
  lockStateMapped)

/-! ## 1. The size of an image -/

/-- The formats `alloc_impl` knows, and the other values. -/
inductive PixelFormat where
  | rgba8888
  | rgbx8888
  | bgra8888
  | rgb888
  | rgb565
  | rgba5551
  | rgba4444
  | ycrcb420SpAdreno
  | ycbcr420SpTiled
  | yv12
  | unrecognized (format : Int)
  deriving DecidableEq

/-- `ALIGN`, for an alignment that is a power of two. -/
def align (x alignment : Nat) : Nat := word (x + alignment - 1) / alignment * alignment

def usageHwTexture : BitVec 32 := 0x00000100
def usageHw2d : BitVec 32 := 0x00000400
def usageHwFb : BitVec 32 := 0x00001000
def usageHwMask : BitVec 32 := 0x00001F00
def usagePrivatePmemAdsp : BitVec 32 := 0x10000000

/-- Who has the memory of a buffer: one of the two `PmemAllocator`s. -/
inductive Owner where
  | pmem
  | pmemAdsp
  deriving DecidableEq

/-- What `alloc_pmem_buffer` of the allocator that is asked returns and leaves in `base`, `offset`
    and `fd`, and what `ashmem_create_region` returns, with its `errno`. -/
structure BufferOutcome where
  pmem : Int
  out : Outputs
  ashmem : Int
  errno : Int

/-- The flags of a handle for this usage. -/
def flagsFor (usage : BitVec 32) : BitVec 32 :=
  let flags := if usage &&& usageHwTexture ≠ 0 then privFlagsUsesPmem else 0
  let flags := if usage &&& usageHw2d ≠ 0 then flags ||| privFlagsUsesPmem else flags
  if usage &&& usagePrivatePmemAdsp ≠ 0 then
    (flags ||| privFlagsUsesPmemAdsp) &&& ~~~privFlagsUsesPmem
  else flags

/-- The allocator these flags stand for. -/
def ownerOf (flags : BitVec 32) : Option Owner :=
  if flags &&& privFlagsUsesPmem ≠ 0 then some .pmem
  else if flags &&& privFlagsUsesPmemAdsp ≠ 0 then some .pmemAdsp
  else none

/-- `new private_handle_t(fd, size, flags)` with what is set after it. -/
def makeHandle (size : Nat) (flags lockState : BitVec 32) (out : Outputs) : PrivateHandle where
  fd := out.fd
  size := ssize size
  flags := flags
  offset := out.offset
  base := toSize (out.base + out.offset)
  lockState := lockState

/-- From the label `try_ashmem` on, with `base` and `offset` as they are by then. -/
def tryAshmem (size : Nat) (flags lockState : BitVec 32) (o : BufferOutcome) (out : Outputs) :
    Int × Option PrivateHandle :=
  let err := if o.ashmem < 0 then -o.errno else 0
  (err,
    if err = 0 then some (makeHandle size flags lockState { out with fd := o.ashmem }) else none)

/-- `gralloc_alloc_buffer`: what is returned, and `*pHandle` if it is set. -/
def grallocAllocBuffer (size : Nat) (usage : BitVec 32) (o : BufferOutcome) :
    Int × Option PrivateHandle :=
  let size := roundUpToPageSize size
  let flags := flagsFor usage
  if (ownerOf flags).isSome then
    if o.pmem < 0 then
      -- the caller did not ask for pmem, so something else will do
      if usage &&& usageHwMask = 0 ∧ usage &&& usagePrivatePmemAdsp = 0 then
        tryAshmem size (flags &&& ~~~privFlagsUsesPmem) lockStateMapped o o.out
      else (o.pmem, none)
    else (o.pmem, if o.pmem = 0 then some (makeHandle size flags lockStateMapped o.out) else none)
  else tryAshmem size flags 0 o ⟨0, 0, -1⟩

/-! ## 3. Buffers of the framebuffer -/

/-- What is returned by `mapFrameBufferLocked`'s calls, by `dup`, and for a buffer that is no
    framebuffer. -/
structure AllocOutcome where
  map : MapOutcome
  dup : Int
  buffer : BufferOutcome

/-- The bytes of one buffer of the screen. -/
def bufferSize (m : PrivateModule) : Nat := word (m.finfo.lineLength * m.info.yres)

/-- The loop that looks for a free slot, with so many slots left: the mask, and `vaddr`. -/
def findSlot (mask bufferSize : Nat) : Nat → Nat → Nat → Nat × Nat
  | 0, _, vaddr => (mask, vaddr)
  | left + 1, i, vaddr =>
    if mask.testBit i then findSlot mask bufferSize left (i + 1) (word (vaddr + bufferSize))
    else (mask ||| 2 ^ i, vaddr)

/-- `gralloc_alloc_framebuffer_locked`: the module, what is returned, and `*pHandle` if it is set;
    `none` is undefined: a shift by 32 and more, or a `framebuffer` that is NULL. -/
def grallocAllocFramebufferLocked (m : PrivateModule) (size : Nat) (usage : BitVec 32)
    (o : AllocOutcome) : Option (PrivateModule × Int × Option PrivateHandle) :=
  if usage &&& usagePrivatePmemAdsp ≠ 0 then some (m, -EINVAL, none)
  else do
    let (m, err) ←
      if m.framebuffer.isNone then (mapFrameBufferLocked m o.map).map fun r => (r.module, r.err)
      else some (m, 0)
    if err < 0 then return (m, err, none)
    else if m.numBuffers = 1 then
      let newUsage := (usage &&& ~~~usageHwFb) ||| usageHw2d
      let r := grallocAllocBuffer (bufferSize m) newUsage o.buffer
      return (m, r.1, r.2)
    else if m.numBuffers ≥ 32 then none
    else if m.bufferMask ≥ 2 ^ m.numBuffers - 1 then return (m, -ENOMEM, none)
    else
      let fb ← m.framebuffer
      let r := findSlot m.bufferMask (bufferSize m) m.numBuffers 0 fb.base
      let flags := privFlagsUsesPmem ||| privFlagsFramebuffer
      let hnd := { PrivateHandle.create o.dup (ssize size) flags with
        base := r.2, offset := ssize (r.2 + 2 ^ 32 - fb.base) }
      return ({ m with bufferMask := r.1 }, 0, some hnd)

/-! ## 4. The interface -/

/-- The slot of a handle, as `free_impl` finds it:
    `(hnd->base - m->framebuffer->base) / bufferSize`. -/
def slotOf (fb : PrivateHandle) (size : Nat) (hnd : PrivateHandle) : Nat :=
  word (hnd.base + 2 ^ 32 - fb.base) / size

/-- `m->bufferMask &= ~(1<<index)`. -/
def clearSlot (m : PrivateModule) (index : Nat) : PrivateModule :=
  { m with bufferMask := (BitVec.ofNat 32 m.bufferMask &&& ~~~(1#32 <<< index)).toNat }

/-- `free_impl`: the module, and whose `free_pmem_buffer` is called; `none` is undefined: a division
    by zero, or a shift by 32 and more. -/
def freeImpl (m : PrivateModule) (hnd : PrivateHandle) : Option (PrivateModule × Option Owner) :=
  if hnd.flags &&& privFlagsFramebuffer ≠ 0 then
    match m.framebuffer with
    | none => none
    | some fb =>
      if bufferSize m = 0 ∨ slotOf fb (bufferSize m) hnd ≥ 32 then none
      else some (clearSlot m (slotOf fb (bufferSize m) hnd), none)
  else some (m, ownerOf hnd.flags)

end Y210.Gralloc.Gpu

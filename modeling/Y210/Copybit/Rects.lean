/-
  File:      Y210/Copybit/Rects.lean
  Subject:   THE RECTANGLES OF A BLIT: `set_rects`, with `MULDIV` and `intersect`.

  The rectangles of the caller are `int`, those of the request are `uint32_t`: a difference of the
  former is stored modulo 2^32 in the latter, and so is a product. The destination of a request is
  what is left of the caller's rectangle inside of the clip. The source is the part of the caller's
  source that belongs to it, scaled, and flipped in the whole image.

  * `muldiv`, `intersect`, `getFormat`, `setRects` -- the code;
  * `Good` -- what a request should be, as sets of pixels;
  * `Exact` -- the same in the numbers of the caller, before the flips;
  * `rects_good` -- the rectangles of a request are good when and only when they are exact;
  * `muldiv_eq` -- what `MULDIV` computes while its product has 32 bits;
  * `Plain`, `exact_of_plain` -- rectangles that are exact wherever the destination is visible.
-/
import Mathlib.Algebra.Group.Int.Defs
import Mathlib.Algebra.Group.Nat.Defs
import Mathlib.Algebra.Order.Group.Unbundled.Int
import Mathlib.Order.Lattice
import Mathlib.Tactic.Common

namespace Y210.Copybit

/-! ## 1. Rectangles and images -/

/-- `copybit_rect_t`. -/
structure Rect where
  l : Int
  t : Int
  r : Int
  b : Int
  deriving DecidableEq

/-- `mdp_rect`. -/
structure MdpRect where
  x : Nat
  y : Nat
  w : Nat
  h : Nat
  deriving DecidableEq

/-- `COPYBIT_FORMAT_`. -/
inductive Format where
  | rgb565
  | rgbx8888
  | rgb888
  | rgba8888
  | bgra8888
  | rgba5551
  | rgba4444
  | yCrCb420Sp
  | yCbCr422Sp
  | other (n : Int)
  deriving DecidableEq

/-- The formats of the MDP; `none` is -1. -/
inductive MdpFormat where
  | rgb565
  | rgbx8888
  | rgb888
  | rgba8888
  | bgra8888
  | yCbCrH2V2
  | yCrCbH2V2
  | yCbCrH2V1
  | yCrCbH2V1
  | none
  deriving DecidableEq

/-- `copybit_image_t`; `usesGpu` is `PRIV_FLAGS_USES_GPU` of its handle. -/
structure Image where
  w : Nat
  h : Nat
  format : Format
  usesGpu : Bool
  deriving DecidableEq

/-- `mdp_img`, without where the image is. -/
structure MdpImg where
  width : Nat
  height : Nat
  format : MdpFormat
  deriving DecidableEq

/-- The bits of `mFlags` that are a transform. -/
structure Transform where
  flipH : Bool
  flipV : Bool
  rot90 : Bool
  deriving DecidableEq

/-! ## 2. The code -/

/-- An `int`, or a difference of two, as a `uint32_t`. -/
def u32 (a : Int) : Nat := (a % 2 ^ 32).toNat

/-- One parameter of `MULDIV`. -/
def muldiv (a : Nat) (mul : Int) (div : Nat) : Nat :=
  if u32 mul ≠ div then (u32 mul * a % 2 ^ 32) / div else a

def intersect (lhs rhs : Rect) : Rect where
  l := max lhs.l rhs.l
  t := max lhs.t rhs.t
  r := min lhs.r rhs.r
  b := min lhs.b rhs.b

def getFormat : Format → MdpFormat
  | .rgb565 => .rgb565
  | .rgbx8888 => .rgbx8888
  | .rgb888 => .rgb888
  | .rgba8888 => .rgba8888
  | .bgra8888 => .bgra8888
  -- not the order of the name: the other one swaps the chroma
  | .yCrCb420Sp => .yCbCrH2V2
  | .yCbCr422Sp => .yCrCbH2V1
  | _ => .none

def setImage (rhs : Image) : MdpImg where
  width := rhs.w
  height := rhs.h
  format :=
    if rhs.usesGpu = true ∧ getFormat rhs.format = .rgba8888 then .bgra8888
    else getFormat rhs.format

def MdpFormat.isYuv : MdpFormat → Bool
  | .yCbCrH2V2 | .yCrCbH2V2 | .yCbCrH2V1 | .yCrCbH2V1 => true
  | _ => false

/-- `& ~1`. -/
def even (a : Nat) : Nat := a / 2 * 2

/-- The size along one axis behind the alignment, for an image of that size. -/
def clampEven (start len size : Nat) : Nat :=
  if size < (even start + even len) % 2 ^ 32 then even (u32 (size - even start)) else even len

def MdpRect.align (m : MdpRect) (img : MdpImg) : MdpRect where
  x := even m.x
  y := even m.y
  w := clampEven m.x m.w img.width
  h := clampEven m.y m.h img.height

/-- The source rectangle before the alignment and the flips. -/
def srcWindow (rot90 : Bool) (dst src clip : Rect) : MdpRect :=
  if rot90 then
    { x := muldiv (u32 (clip.t - dst.t + src.t)) (src.r - src.l) (u32 (dst.b - dst.t))
      y := muldiv (u32 (dst.r - clip.r + src.l)) (src.b - src.t) (u32 (dst.r - dst.l))
      w := muldiv (u32 (clip.b - clip.t)) (src.r - src.l) (u32 (dst.b - dst.t))
      h := muldiv (u32 (clip.r - clip.l)) (src.b - src.t) (u32 (dst.r - dst.l)) }
  else
    { x := muldiv (u32 (clip.l - dst.l + src.l)) (src.r - src.l) (u32 (dst.r - dst.l))
      y := muldiv (u32 (clip.t - dst.t + src.t)) (src.b - src.t) (u32 (dst.b - dst.t))
      w := muldiv (u32 (clip.r - clip.l)) (src.r - src.l) (u32 (dst.r - dst.l))
      h := muldiv (u32 (clip.b - clip.t)) (src.b - src.t) (u32 (dst.b - dst.t)) }

def MdpRect.flip (m : MdpRect) (transform : Transform) (img : MdpImg) : MdpRect :=
  { m with
    x := if transform.flipH then u32 (img.width - (m.x + m.w)) else m.x
    y := if transform.flipV then u32 (img.height - (m.y + m.h)) else m.y }

/-- The rectangle of a clip as it is stored. -/
def dstWindow (clip : Rect) : MdpRect where
  x := u32 clip.l
  y := u32 clip.t
  w := u32 (clip.r - clip.l)
  h := u32 (clip.b - clip.t)

/-- **`set_rects`**: the source and the destination rectangle. -/
def setRects (transform : Transform) (srcImg dstImg : MdpImg) (dst src scissor : Rect) :
    MdpRect × MdpRect :=
  let clip := intersect scissor dst
  let d := dstWindow clip
  let s := srcWindow transform.rot90 dst src clip
  -- the YUV paths want even rectangles
  let d := if srcImg.format.isYuv then d.align dstImg else d
  let s := if srcImg.format.isYuv then s.align srcImg else s
  (s.flip transform srcImg, d)

/-! ## 3. Pixels -/

def Rect.Has (m : Rect) (x y : Int) : Prop := (m.l ≤ x ∧ x < m.r) ∧ m.t ≤ y ∧ y < m.b

def MdpRect.Has (m : MdpRect) (x y : Int) : Prop :=
  ((m.x : Int) ≤ x ∧ x < m.x + m.w) ∧ (m.y : Int) ≤ y ∧ y < m.y + m.h

instance (m : Rect) (x y : Int) : Decidable (m.Has x y) := inferInstanceAs (Decidable (_ ∧ _))

instance (m : MdpRect) (x y : Int) : Decidable (m.Has x y) := inferInstanceAs (Decidable (_ ∧ _))

/-- The rectangle of a whole image. -/
def whole (width height : Nat) : Rect := { l := 0, t := 0, r := width, b := height }

/-- **What a request should be**: its destination is the caller's, inside of the clip and of the
    destination image, and not empty; its source is inside of the image, and of the caller's source
    rectangle when nothing is flipped. -/
structure Good (transform : Transform) (srcImg dstImg : MdpImg) (dst src clip : Rect)
    (srcRect dstRect : MdpRect) : Prop where
  positive : 0 < dstRect.w ∧ 0 < dstRect.h
  exact : ∀ x y, dstRect.Has x y ↔
    dst.Has x y ∧ clip.Has x y ∧ (whole dstImg.width dstImg.height).Has x y
  inImage : ∀ x y, srcRect.Has x y → (whole srcImg.width srcImg.height).Has x y
  inSource : transform.flipH = false → transform.flipV = false →
    ∀ x y, srcRect.Has x y → src.Has x y

/-- A rectangle lies in another. -/
def MdpRect.Inside (m : MdpRect) (outer : Rect) : Prop :=
  (outer.l ≤ m.x ∧ (m.x + m.w : Int) ≤ outer.r) ∧ outer.t ≤ m.y ∧ (m.y + m.h : Int) ≤ outer.b

instance (m : MdpRect) (outer : Rect) : Decidable (m.Inside outer) :=
  inferInstanceAs (Decidable (_ ∧ _))

theorem MdpRect.has_first {m : MdpRect} (hw : 0 < m.w) (hh : 0 < m.h) : m.Has m.x m.y := by
  unfold MdpRect.Has
  omega

theorem MdpRect.inside_iff {m : MdpRect} {outer : Rect} (hw : 0 < m.w) (hh : 0 < m.h) :
    (∀ x y, m.Has x y → outer.Has x y) ↔ m.Inside outer := by
  unfold MdpRect.Has Rect.Has MdpRect.Inside
  constructor
  · intro h
    -- the first and the last pixel
    have hfirst := h m.x m.y (by omega)
    have hlast := h (m.x + m.w - 1) (m.y + m.h - 1) (by omega)
    omega
  · intro h x y hxy
    omega

/-! ## 4. The destination -/

theorem u32_lt (a : Int) : u32 a < 2 ^ 32 := by
  unfold u32
  omega

theorem u32_of_lt {a : Int} (h0 : 0 ≤ a) (hlt : a < 2 ^ 32) : (u32 a : Int) = a := by
  unfold u32
  omega

section Destination

variable {dst clip : Rect} {width height : Nat}

/-- What is left of a rectangle inside of a clip and of an image. -/
def visible (width height : Nat) (dst clip : Rect) : Rect :=
  intersect (intersect (whole width height) clip) dst

theorem visible_has (x y : Int) :
    (visible width height dst clip).Has x y ↔
      dst.Has x y ∧ clip.Has x y ∧ (whole width height).Has x y := by
  simp only [visible, intersect, Rect.Has, max_le_iff, lt_min_iff]
  tauto

/-- A rectangle that is not empty. -/
def Rect.Proper (m : Rect) : Prop := m.l < m.r ∧ m.t < m.b

instance (m : Rect) : Decidable m.Proper := inferInstanceAs (Decidable (_ ∧ _))

/-- What is visible lies in the image. -/
theorem visible_bounds (width height : Nat) (dst clip : Rect) :
    0 ≤ (visible width height dst clip).l ∧ 0 ≤ (visible width height dst clip).t ∧
      (visible width height dst clip).r ≤ width ∧ (visible width height dst clip).b ≤ height := by
  simp only [visible, intersect, whole]
  omega

/-- **The destination is the visible part** unless that is empty. -/
theorem dstWindow_has (hwidth : width < 2 ^ 32) (hheight : height < 2 ^ 32)
    (hproper : (visible width height dst clip).Proper) (x y : Int) :
    (dstWindow (visible width height dst clip)).Has x y ↔
      (visible width height dst clip).Has x y := by
  obtain ⟨hl, ht, hr, hb⟩ := visible_bounds width height dst clip
  obtain ⟨hlr, htb⟩ := hproper
  generalize visible width height dst clip = part at *
  have hx : (u32 part.l : Int) = part.l := u32_of_lt hl (by omega)
  have hy : (u32 part.t : Int) = part.t := u32_of_lt ht (by omega)
  have hw : (u32 (part.r - part.l) : Int) = part.r - part.l := u32_of_lt (by omega) (by omega)
  have hh : (u32 (part.b - part.t) : Int) = part.b - part.t := u32_of_lt (by omega) (by omega)
  simp only [MdpRect.Has, Rect.Has, dstWindow, hx, hy, hw, hh]
  omega

end Destination

/-! ## 5. The source -/

section Source

variable {m : MdpRect} {img : MdpImg}

theorem muldiv_lt {a : Nat} (ha : a < 2 ^ 32) (mul : Int) (div : Nat) :
    muldiv a mul div < 2 ^ 32 := by
  unfold muldiv
  split
  · exact lt_of_le_of_lt (Nat.div_le_self _ _) (Nat.mod_lt _ (by decide))
  · exact ha

theorem srcWindow_lt (rot90 : Bool) (dst src clip : Rect) :
    (srcWindow rot90 dst src clip).x < 2 ^ 32 ∧ (srcWindow rot90 dst src clip).y < 2 ^ 32 := by
  unfold srcWindow
  split
  · exact ⟨muldiv_lt (u32_lt _) _ _, muldiv_lt (u32_lt _) _ _⟩
  · exact ⟨muldiv_lt (u32_lt _) _ _, muldiv_lt (u32_lt _) _ _⟩

/-- Flipping one axis of an image keeps what is inside inside, and what is not outside: the sum that
    the source takes from the size may be more than that, and wrap. -/
theorem flip_axis {start size : Nat} (len : Nat) (hstart : start < 2 ^ 32)
    (hsize : size < 2 ^ 32) :
    (u32 (size - (start + len)) : Int) + len ≤ size ↔ (start : Int) + len ≤ size := by
  unfold u32
  omega

theorem flip_inside (transform : Transform) (hx : m.x < 2 ^ 32) (hy : m.y < 2 ^ 32)
    (hwidth : img.width < 2 ^ 32) (hheight : img.height < 2 ^ 32) :
    (m.flip transform img).Inside (whole img.width img.height) ↔
      m.Inside (whole img.width img.height) := by
  have haxisX := flip_axis m.w hx hwidth
  have haxisY := flip_axis m.h hy hheight
  simp only [MdpRect.Inside, MdpRect.flip, whole]
  cases transform.flipH <;> cases transform.flipV <;> simp [haxisX, haxisY]

end Source

/-! ## 6. A request -/

section Request

variable {transform : Transform} {srcImg dstImg : MdpImg} {dst src clip : Rect}

/-- **The rectangles are exact**: the visible part of the destination is not empty, and the source
    before the flips lies in the image, and in the caller's source when nothing is flipped. -/
def Exact (transform : Transform) (srcImg dstImg : MdpImg) (dst src clip : Rect) : Prop :=
  let part := visible dstImg.width dstImg.height dst clip
  let window := srcWindow transform.rot90 dst src part
  part.Proper ∧ window.Inside (whole srcImg.width srcImg.height) ∧
    (transform.flipH = false → transform.flipV = false → window.Inside src)

instance : Decidable (Exact transform srcImg dstImg dst src clip) :=
  inferInstanceAs (Decidable (_ ∧ _))

/-- The rectangles `set_rects` makes of the clip of a region. -/
def rects (transform : Transform) (srcImg dstImg : MdpImg) (dst src clip : Rect) :
    MdpRect × MdpRect :=
  setRects transform srcImg dstImg dst src
    (intersect (whole dstImg.width dstImg.height) clip)

theorem rects_eq (hyuv : srcImg.format.isYuv = false) :
    rects transform srcImg dstImg dst src clip =
      ((srcWindow transform.rot90 dst src
          (visible dstImg.width dstImg.height dst clip)).flip transform srcImg,
        dstWindow (visible dstImg.width dstImg.height dst clip)) := by
  simp [rects, setRects, hyuv, visible]

/-- **A request is good when and only when its rectangles are exact.** -/
theorem rects_good (hyuv : srcImg.format.isYuv = false)
    (hsrc : srcImg.width < 2 ^ 32 ∧ srcImg.height < 2 ^ 32)
    (hdst : dstImg.width < 2 ^ 32 ∧ dstImg.height < 2 ^ 32)
    {s d : MdpRect} (hrects : rects transform srcImg dstImg dst src clip = (s, d))
    (hs : 0 < s.w ∧ 0 < s.h) (hd : 0 < d.w ∧ 0 < d.h) :
    Good transform srcImg dstImg dst src clip s d ↔ Exact transform srcImg dstImg dst src clip := by
  rw [rects_eq hyuv] at hrects
  obtain ⟨rfl, rfl⟩ := Prod.mk.inj hrects
  obtain ⟨hx, hy⟩ := srcWindow_lt transform.rot90 dst src
    (visible dstImg.width dstImg.height dst clip)
  have himage := (MdpRect.inside_iff hs.1 hs.2).trans
    (flip_inside transform hx hy hsrc.1 hsrc.2)
  have hplain : transform.flipH = false → transform.flipV = false →
      (srcWindow transform.rot90 dst src (visible dstImg.width dstImg.height dst clip)).flip
        transform srcImg =
      srcWindow transform.rot90 dst src (visible dstImg.width dstImg.height dst clip) := by
    intro hH hV
    simp [MdpRect.flip, hH, hV]
  constructor
  · intro hgood
    refine ⟨?_, himage.mp hgood.inImage, fun hH hV => ?_⟩
    · -- the first pixel of the destination is a visible one
      have hfirst := (hgood.exact _ _).mp (MdpRect.has_first hd.1 hd.2)
      rw [← visible_has] at hfirst
      exact ⟨hfirst.1.1.trans_lt hfirst.1.2, hfirst.2.1.trans_lt hfirst.2.2⟩
    · rw [← hplain hH hV]
      exact (MdpRect.inside_iff hs.1 hs.2).mp (hgood.inSource hH hV)
  · rintro ⟨hproper, hinside, hsource⟩
    refine ⟨hd, fun x y => ?_, himage.mpr hinside, fun hH hV => ?_⟩
    · exact (dstWindow_has hdst.1 hdst.2 hproper x y).trans (visible_has x y)
    · refine (MdpRect.inside_iff hs.1 hs.2).mpr ?_
      rw [hplain hH hV]
      exact hsource hH hV

end Request

/-! ## 7. Where the scaling is right -/

/-- The coordinates of a `copybit_rect_t` are of 32 bits. -/
def Rect.Int32 (m : Rect) : Prop :=
  (-2 ^ 31 ≤ m.l ∧ m.l < 2 ^ 31 ∧ -2 ^ 31 ≤ m.r ∧ m.r < 2 ^ 31) ∧
    -2 ^ 31 ≤ m.t ∧ m.t < 2 ^ 31 ∧ -2 ^ 31 ≤ m.b ∧ m.b < 2 ^ 31

instance (m : Rect) : Decidable m.Int32 := inferInstanceAs (Decidable (_ ∧ _))

section Scaling

variable {a len extent dist off start : Int}

/-- **What `MULDIV` computes** while the product has 32 bits. -/
theorem muldiv_eq (ha : 0 ≤ a) (hlen : 0 ≤ len ∧ len < 2 ^ 32) (hext : 0 < extent ∧ extent < 2 ^ 32)
    (hsmall : a * len < 2 ^ 32) : (muldiv (u32 a) len (u32 extent) : Int) = a * len / extent := by
  have hlen32 : (u32 len : Int) = len := u32_of_lt hlen.1 hlen.2
  have hext32 : (u32 extent : Int) = extent := u32_of_lt hext.1.le hext.2
  by_cases hzero : len = 0
  · subst hzero
    have hne : u32 0 ≠ u32 extent := by
      intro heq
      have : (0 : Int) = extent := by rw [← hext32, ← heq]; rfl
      omega
    rw [muldiv, if_pos hne]
    simp [u32]
  have hbig : a < 2 ^ 32 := by
    have hone : a * 1 ≤ a * len := Int.mul_le_mul_of_nonneg_left (by omega) ha
    omega
  have ha32 : (u32 a : Int) = a := u32_of_lt ha hbig
  by_cases hsame : u32 len = u32 extent
  · -- not scaled
    have heq : len = extent := by rw [← hlen32, ← hext32, hsame]
    rw [muldiv, if_neg (not_not.mpr hsame), ha32, heq, Int.mul_ediv_cancel _ (by omega)]
  · have hprod : (u32 len * u32 a : Int) = a * len := by rw [hlen32, ha32, Int.mul_comm]
    have hmod : u32 len * u32 a % 2 ^ 32 = u32 len * u32 a := by
      refine Nat.mod_eq_of_lt ?_
      have : ((u32 len * u32 a : Nat) : Int) < 2 ^ 32 := by
        rw [Int.natCast_mul, hprod]
        exact hsmall
      omega
    rw [muldiv, if_pos hsame, hmod, Int.natCast_ediv, Int.natCast_mul, hprod, hext32]

/-- **An axis that is scaled as it should be**: the offset that is added is the one of this axis,
    and the size is kept, or there is no offset and the product has 32 bits. -/
def AxisPlain (dist off start len extent : Int) : Prop :=
  off = start ∧ (len = extent ∨ start = 0 ∧ dist * len < 2 ^ 32)

instance : Decidable (AxisPlain dist off start len extent) := inferInstanceAs (Decidable (_ ∧ _))

/-- The part of the source that is read lies in the source. -/
theorem AxisPlain.inside (h : AxisPlain dist off start len extent) (size : Int) (hdist : 0 ≤ dist)
    (hsize : 0 ≤ size) (hin : dist + size ≤ extent) (hext : 0 < extent ∧ extent < 2 ^ 32)
    (hstart : 0 ≤ start) (hlen : 0 ≤ len) (hend : start + len < 2 ^ 32)
    (hsmall : size * len < 2 ^ 32) :
    start ≤ muldiv (u32 (dist + off)) len (u32 extent) ∧
      (muldiv (u32 (dist + off)) len (u32 extent) + muldiv (u32 size) len (u32 extent) : Int) ≤
        start + len := by
  obtain ⟨rfl, rfl | ⟨rfl, hprod⟩⟩ := h
  · have hfirst : (u32 (dist + off) : Int) = dist + off := u32_of_lt (by omega) (by omega)
    have hlast : (u32 size : Int) = size := u32_of_lt hsize (by omega)
    simp only [muldiv, ne_eq, not_true_eq_false, if_false, hfirst, hlast]
    omega
  · rw [Int.add_zero, muldiv_eq hdist ⟨hlen, by omega⟩ hext hprod,
      muldiv_eq hsize ⟨hlen, by omega⟩ hext hsmall]
    refine ⟨Int.ediv_nonneg (Int.mul_nonneg hdist hlen) hext.1.le, ?_⟩
    have hfirst := Int.ediv_mul_le (dist * len) (ne_of_gt hext.1)
    have hlast := Int.ediv_mul_le (size * len) (ne_of_gt hext.1)
    have hall : (dist + size) * len ≤ extent * len := Int.mul_le_mul_of_nonneg_right hin hlen
    refine Int.le_of_mul_le_mul_right ?_ hext.1
    calc (dist * len / extent + size * len / extent) * extent
        ≤ dist * len + size * len := by rw [Int.add_mul]; exact add_le_add hfirst hlast
      _ = (dist + size) * len := (Int.add_mul _ _ _).symm
      _ ≤ extent * len := hall
      _ = (0 + len) * extent := by rw [Int.zero_add, Int.mul_comm]

end Scaling

section Plain

variable {transform : Transform} {srcImg dstImg : MdpImg} {dst src clip part : Rect}

/-- **Where the scaling is right**, for a part of the destination: along both axes. With the
    rotation each axis of the source has the offset of the other. -/
def Plain (rot90 : Bool) (dst src part : Rect) : Prop :=
  if rot90 then
    AxisPlain (part.t - dst.t) src.t src.l (src.r - src.l) (dst.b - dst.t) ∧
      AxisPlain (dst.r - part.r) src.l src.t (src.b - src.t) (dst.r - dst.l)
  else
    AxisPlain (part.l - dst.l) src.l src.l (src.r - src.l) (dst.r - dst.l) ∧
      AxisPlain (part.t - dst.t) src.t src.t (src.b - src.t) (dst.b - dst.t)

instance : (rot90 : Bool) → Decidable (Plain rot90 dst src part)
  | true => inferInstanceAs (Decidable (_ ∧ _))
  | false => inferInstanceAs (Decidable (_ ∧ _))

theorem visible_in (width height : Nat) (dst clip : Rect) :
    dst.l ≤ (visible width height dst clip).l ∧ (visible width height dst clip).r ≤ dst.r ∧
      dst.t ≤ (visible width height dst clip).t ∧ (visible width height dst clip).b ≤ dst.b := by
  simp only [visible, intersect]
  omega

/-- A destination that lies in its image is seen as a whole through a clip that is as large. -/
theorem visible_self {width height : Nat} {m : Rect}
    (h : 0 ≤ m.l ∧ 0 ≤ m.t ∧ m.r ≤ width ∧ m.b ≤ height) : visible width height m m = m := by
  obtain ⟨l, t, r, b⟩ := m
  simp only [visible, intersect, whole, Rect.mk.injEq] at h ⊢
  omega

/-- The sides of a source rectangle and of what is seen of the destination, as the checks of a call
    leave them. -/
structure Sides (src part : Rect) : Prop where
  corner : 0 ≤ src.l ∧ 0 ≤ src.t
  ordered : src.l ≤ src.r ∧ src.t ≤ src.b
  source : src.r ≤ 4096 ∧ src.b ≤ 4096
  proper : part.Proper
  seen : 0 ≤ part.l ∧ 0 ≤ part.t ∧ part.r ≤ 4096 ∧ part.b ≤ 4096

/-- No side of the source times one of the part has more than 32 bits. -/
theorem Sides.small {m len : Int} (hm : 0 ≤ m ∧ m ≤ 4096) (hlen : 0 ≤ len ∧ len ≤ 4096) :
    m * len < 2 ^ 32 :=
  calc m * len ≤ 4096 * 4096 := Int.mul_le_mul hm.2 hlen.2 hlen.1 (by decide)
    _ < 2 ^ 32 := by decide

theorem Plain.inside {rot90 : Bool} (h : Plain rot90 dst src part) (hsides : Sides src part)
    (hdst : dst.Int32)
    (hin : dst.l ≤ part.l ∧ part.r ≤ dst.r ∧ dst.t ≤ part.t ∧ part.b ≤ dst.b) :
    (srcWindow rot90 dst src part).Inside src := by
  obtain ⟨⟨hl, ht⟩, ⟨hlr, htb⟩, ⟨hr, hb⟩, ⟨hw, hh⟩, hseen⟩ := hsides
  obtain ⟨hx, hy⟩ := hdst
  cases rot90 with
  | true =>
    obtain ⟨hplainX, hplainY⟩ := h
    have haxisX := hplainX.inside (part.b - part.t) (by omega) (by omega) (by omega)
      (by omega) hl (by omega) (by omega) (Sides.small (by omega) (by omega))
    have haxisY := hplainY.inside (part.r - part.l) (by omega) (by omega) (by omega)
      (by omega) ht (by omega) (by omega) (Sides.small (by omega) (by omega))
    simp only [srcWindow, if_true, MdpRect.Inside]
    omega
  | false =>
    obtain ⟨hplainX, hplainY⟩ := h
    have haxisX := hplainX.inside (part.r - part.l) (by omega) (by omega) (by omega)
      (by omega) hl (by omega) (by omega) (Sides.small (by omega) (by omega))
    have haxisY := hplainY.inside (part.b - part.t) (by omega) (by omega) (by omega)
      (by omega) ht (by omega) (by omega) (Sides.small (by omega) (by omega))
    simp only [srcWindow, Bool.false_eq_true, if_false, MdpRect.Inside]
    omega

/-- **Plain rectangles are exact** wherever something of the destination is visible. -/
theorem exact_of_plain
    (h : Plain transform.rot90 dst src (visible dstImg.width dstImg.height dst clip))
    (hsides : Sides src (visible dstImg.width dstImg.height dst clip)) (hdst : dst.Int32)
    (hsrc : src.r ≤ srcImg.width ∧ src.b ≤ srcImg.height) :
    Exact transform srcImg dstImg dst src clip := by
  have hsource := h.inside hsides hdst (visible_in dstImg.width dstImg.height dst clip)
  have hcorner := hsides.corner
  refine ⟨hsides.proper, ?_, fun _ _ => hsource⟩
  unfold MdpRect.Inside at hsource ⊢
  simp only [whole]
  omega

end Plain

end Y210.Copybit

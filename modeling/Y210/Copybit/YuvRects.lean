/-
  File:      Y210/Copybit/YuvRects.lean
  Subject:   THE RECTANGLES OF A YUV BLIT: even, and inside of their images?

  For a source in one of the YUV formats `set_rects` makes both rectangles even, clamps them to
  their images, and flips the source after that. What the destination is made of lies in its image
  already. The source is scaled in 32 bits, and may begin behind its image; then the clamping
  subtracts more than there is. And a flip takes the rectangle from the size of the image: it is odd
  again if that is.

  * `aligned_axis`, `flipped_even` -- what alignment and flip do along one axis;
  * `EvenInside` -- what a request should be;
  * `Axis`, `FitsYuv` -- the condition, on products of the numbers of the caller;
  * `yuv_requests_iff` -- it is enough, and exact where the products have 32 bits;
  * `odd_image_flipped` -- an image of odd width, and a crop that is turned.
-/
import Y210.Copybit.Stretch

namespace Y210.Copybit

/-! ## 1. One axis -/

theorem even_le (a : Nat) : even a ≤ a := Nat.div_mul_le_self a 2

theorem even_mod (a : Nat) : even a % 2 = 0 := Nat.mul_mod_left _ 2

theorem clampEven_mod (start len size : Nat) : clampEven start len size % 2 = 0 := by
  unfold clampEven
  split
  · exact even_mod _
  · exact even_mod _

section Axis

variable {start len size : Nat}

/-- **An aligned axis lies in the image** when and only when it begins there and its end is a number
    of 32 bits. -/
theorem aligned_axis (hstart : start < 2 ^ 32) (hlen : len < 2 ^ 32) (hsize : size < 2 ^ 31) :
    even start + clampEven start len size ≤ size ↔
      even start ≤ size ∧ even start + even len < 2 ^ 32 := by
  have hle := even_le start
  have hmod := even_mod start
  have hlen' := even_le len
  unfold clampEven
  split
  · rename_i hover
    by_cases hbegins : even start ≤ size
    · -- what is left of the image, made even
      have hleft : u32 ((size : Int) - even start) = size - even start := by
        unfold u32
        omega
      have hclamped := even_le (size - even start)
      rw [hleft]
      omega
    · -- the subtraction wraps
      have hwrapped : u32 ((size : Int) - even start) = 2 ^ 32 + size - even start := by
        unfold u32
        omega
      rw [hwrapped]
      unfold even at *
      omega
  · omega

/-- What lies in the image is not clamped. -/
theorem clampEven_inside (h : start + len ≤ size) :
    clampEven start len size = even len := by
  have hstart := even_le start
  have hlen := even_le len
  exact if_neg (by omega)

/-- An even axis that is flipped is even when and only when the image is. -/
theorem flipped_even (size : Nat) (hstart : start % 2 = 0) (hlen : len % 2 = 0) :
    u32 ((size : Int) - (start + len)) % 2 = 0 ↔ size % 2 = 0 := by
  unfold u32
  omega

end Axis

/-! ## 2. A rectangle -/

/-- All numbers of a rectangle are even. -/
def MdpRect.Even (m : MdpRect) : Prop := m.x % 2 = 0 ∧ m.y % 2 = 0 ∧ m.w % 2 = 0 ∧ m.h % 2 = 0

instance (m : MdpRect) : Decidable m.Even := inferInstanceAs (Decidable (_ ∧ _))

/-- A rectangle begins in an image, and its ends are numbers of 32 bits, once it is made even. -/
def MdpRect.Begins (m : MdpRect) (img : MdpImg) : Prop :=
  (even m.x ≤ img.width ∧ even m.x + even m.w < 2 ^ 32) ∧
    even m.y ≤ img.height ∧ even m.y + even m.h < 2 ^ 32

instance (m : MdpRect) (img : MdpImg) : Decidable (m.Begins img) :=
  inferInstanceAs (Decidable (_ ∧ _))

/-- The image is even along the axes that are flipped. -/
def EvenFlips (transform : Transform) (img : MdpImg) : Prop :=
  (transform.flipH = true → img.width % 2 = 0) ∧ (transform.flipV = true → img.height % 2 = 0)

instance (transform : Transform) (img : MdpImg) : Decidable (EvenFlips transform img) :=
  inferInstanceAs (Decidable (_ ∧ _))

section Rectangle

variable {m : MdpRect} {img : MdpImg}

theorem align_even (m : MdpRect) (img : MdpImg) : (m.align img).Even :=
  ⟨even_mod _, even_mod _, clampEven_mod .., clampEven_mod ..⟩

/-- The numbers of a rectangle are of 32 bits. -/
def MdpRect.Stored (m : MdpRect) : Prop :=
  m.x < 2 ^ 32 ∧ m.y < 2 ^ 32 ∧ m.w < 2 ^ 32 ∧ m.h < 2 ^ 32

theorem srcWindow_stored (rot90 : Bool) (dst src clip : Rect) :
    (srcWindow rot90 dst src clip).Stored := by
  have h : ∀ (a : Int) (mul : Int) (div : Nat), muldiv (u32 a) mul div < 2 ^ 32 :=
    fun a => muldiv_lt (u32_lt a)
  cases rot90 with
  | true => exact ⟨h _ _ _, h _ _ _, h _ _ _, h _ _ _⟩
  | false => exact ⟨h _ _ _, h _ _ _, h _ _ _, h _ _ _⟩

theorem dstWindow_stored (clip : Rect) : (dstWindow clip).Stored :=
  ⟨u32_lt _, u32_lt _, u32_lt _, u32_lt _⟩

theorem align_inside_iff (hm : m.Stored) (hwidth : img.width < 2 ^ 31)
    (hheight : img.height < 2 ^ 31) :
    (m.align img).Inside (whole img.width img.height) ↔ m.Begins img := by
  have haxisX := aligned_axis hm.1 hm.2.2.1 hwidth
  have haxisY := aligned_axis hm.2.1 hm.2.2.2 hheight
  simp only [MdpRect.Inside, MdpRect.align, whole, MdpRect.Begins]
  omega

/-- **An even rectangle stays even** when and only when the image is even along the axes that are
    flipped. -/
theorem flip_even_iff (transform : Transform) (heven : m.Even) :
    (m.flip transform img).Even ↔ EvenFlips transform img := by
  obtain ⟨hx, hy, hw, hh⟩ := heven
  have hflipX := flipped_even img.width hx hw
  have hflipY := flipped_even img.height hy hh
  simp only [MdpRect.Even, MdpRect.flip, EvenFlips]
  cases transform.flipH <;> cases transform.flipV <;> simp [hx, hy, hw, hh, hflipX, hflipY]

/-- Even, and inside of the image. -/
def MdpRect.EvenInside (m : MdpRect) (img : MdpImg) : Prop :=
  m.Even ∧ m.Inside (whole img.width img.height)

instance (m : MdpRect) (img : MdpImg) : Decidable (m.EvenInside img) :=
  inferInstanceAs (Decidable (_ ∧ _))

/-- **A source that was aligned and flipped** is even and inside when and only when it begins in the
    image and the image is even where it is flipped. -/
theorem source_evenInside_iff (transform : Transform) (hm : m.Stored)
    (hwidth : img.width < 2 ^ 31) (hheight : img.height < 2 ^ 31) :
    ((m.align img).flip transform img).EvenInside img ↔
      m.Begins img ∧ EvenFlips transform img := by
  have hx : (m.align img).x < 2 ^ 32 := Nat.lt_of_le_of_lt (even_le m.x) hm.1
  have hy : (m.align img).y < 2 ^ 32 := Nat.lt_of_le_of_lt (even_le m.y) hm.2.1
  have hflipped : ((m.align img).flip transform img).Inside (whole img.width img.height) ↔
      (m.align img).Inside (whole img.width img.height) :=
    flip_inside transform hx hy (by omega) (by omega)
  have hinside := hflipped.trans (align_inside_iff hm hwidth hheight)
  rw [MdpRect.EvenInside, flip_even_iff transform (align_even m img), hinside]
  exact and_comm

/-- **The destination is even and inside**, of whatever is visible. -/
theorem destination_evenInside {dst clip : Rect} (hwidth : img.width < 2 ^ 31)
    (hheight : img.height < 2 ^ 31)
    (hproper : (visible img.width img.height dst clip).Proper) :
    ((dstWindow (visible img.width img.height dst clip)).align img).EvenInside img := by
  obtain ⟨hl, ht, hr, hb⟩ := visible_bounds img.width img.height dst clip
  obtain ⟨hlr, htb⟩ := hproper
  refine ⟨align_even .., (align_inside_iff (dstWindow_stored _) hwidth hheight).mpr ?_⟩
  generalize visible img.width img.height dst clip = part at *
  have hx : (u32 part.l : Int) = part.l := u32_of_lt hl (by omega)
  have hy : (u32 part.t : Int) = part.t := u32_of_lt ht (by omega)
  have hw : (u32 (part.r - part.l) : Int) = part.r - part.l := u32_of_lt (by omega) (by omega)
  have hh : (u32 (part.b - part.t) : Int) = part.b - part.t := u32_of_lt (by omega) (by omega)
  simp only [MdpRect.Begins, dstWindow, even]
  omega

end Rectangle

/-! ## 3. Requests -/

/-- **What a YUV request should be**: both rectangles even and inside of their images. -/
def Request.EvenInside (req : Request) : Prop :=
  req.srcRect.EvenInside req.src ∧ req.dstRect.EvenInside req.dst

/-- The source of a rectangle of the region, before it is aligned and flipped. -/
def Call.window (c : Call) (clip : Rect) : MdpRect :=
  srcWindow c.transform.rot90 c.dstRect c.srcRect (visible c.dst.w c.dst.h c.dstRect clip)

/-- A rectangle of the region of which nothing even is left, at the source or at the destination. -/
def Call.WindowSkips (c : Call) (clip : Rect) : Prop :=
  let part := visible c.dst.w c.dst.h c.dstRect clip
  (((c.window clip).align c.srcImg).w = 0 ∨ ((c.window clip).align c.srcImg).h = 0) ∨
    part.r - part.l < 2 ∨ part.b - part.t < 2

/-- A rectangle of the region makes no request, or its source begins in the image, and the image is
    even along the axes that are flipped. -/
def Call.WindowFits (c : Call) (clip : Rect) : Prop :=
  c.WindowSkips clip ∨ ((c.window clip).Begins c.srcImg ∧ EvenFlips c.transform c.srcImg)

section Requests

variable {c : Call} {region : List Rect} {clip : Rect} {req : Request}

theorem rects_yuv (hyuv : c.srcImg.format.isYuv = true) (clip : Rect) :
    rects c.transform c.srcImg c.dstImg c.dstRect c.srcRect clip =
      (((c.window clip).align c.srcImg).flip c.transform c.srcImg,
        (dstWindow (visible c.dst.w c.dst.h c.dstRect clip)).align c.dstImg) := by
  simp only [rects, setRects, hyuv, if_true]
  rfl

theorem window_stored (c : Call) (clip : Rect) : (c.window clip).Stored := srcWindow_stored ..

theorem small_of_not_refused (h : ¬ c.Refused) :
    (c.srcImg.width < 2 ^ 31 ∧ c.srcImg.height < 2 ^ 31) ∧
      c.dstImg.width < 2 ^ 31 ∧ c.dstImg.height < 2 ^ 31 := by
  simp only [Call.Refused, not_or, not_lt, maxDimension] at h
  simp only [Call.srcImg, Call.dstImg, setImage]
  omega

/-- The destination of a visible part is 0 wide or high when the part is less than two pixels. -/
theorem destination_zero_iff (hdst : c.dstImg.width < 2 ^ 31 ∧ c.dstImg.height < 2 ^ 31)
    (hproper : (visible c.dst.w c.dst.h c.dstRect clip).Proper) :
    (((dstWindow (visible c.dst.w c.dst.h c.dstRect clip)).align c.dstImg).w = 0 ∨
      ((dstWindow (visible c.dst.w c.dst.h c.dstRect clip)).align c.dstImg).h = 0) ↔
    (visible c.dst.w c.dst.h c.dstRect clip).r - (visible c.dst.w c.dst.h c.dstRect clip).l < 2 ∨
      (visible c.dst.w c.dst.h c.dstRect clip).b -
        (visible c.dst.w c.dst.h c.dstRect clip).t < 2 := by
  obtain ⟨hl, ht, hr, hb⟩ := visible_bounds c.dst.w c.dst.h c.dstRect clip
  obtain ⟨hlr, htb⟩ := hproper
  simp only [Call.dstImg, setImage] at hdst
  generalize visible c.dst.w c.dst.h c.dstRect clip = part at *
  have hx : (u32 part.l : Int) = part.l := u32_of_lt hl (by omega)
  have hy : (u32 part.t : Int) = part.t := u32_of_lt ht (by omega)
  have hw : (u32 (part.r - part.l) : Int) = part.r - part.l := u32_of_lt (by omega) (by omega)
  have hh : (u32 (part.b - part.t) : Int) = part.b - part.t := u32_of_lt (by omega) (by omega)
  have hwide : clampEven (u32 part.l) (u32 (part.r - part.l)) c.dst.w =
      even (u32 (part.r - part.l)) := clampEven_inside (by omega)
  have hhigh : clampEven (u32 part.t) (u32 (part.b - part.t)) c.dst.h =
      even (u32 (part.b - part.t)) := clampEven_inside (by omega)
  simp only [MdpRect.align, dstWindow, Call.dstImg, setImage, hwide, hhigh]
  unfold even
  omega

/-- A rectangle of the region makes no request when and only when nothing even is left. -/
theorem request_eq_none_yuv (hrefused : ¬ c.Refused) (hyuv : c.srcImg.format.isYuv = true)
    (hproper : (visible c.dst.w c.dst.h c.dstRect clip).Proper) :
    c.request clip = none ↔ c.WindowSkips clip := by
  have hdst := destination_zero_iff (small_of_not_refused hrefused).2 hproper
  rw [request_none_iff (rects_yuv hyuv clip), hdst]
  rfl

/-- **A rectangle fits when and only when its request is even and inside.** -/
theorem windowFits_iff (hrefused : ¬ c.Refused) (hyuv : c.srcImg.format.isYuv = true)
    (hproper : (visible c.dst.w c.dst.h c.dstRect clip).Proper) :
    c.WindowFits clip ↔ ∀ req, c.request clip = some req → req.EvenInside := by
  obtain ⟨⟨hsw, hsh⟩, hdw, hdh⟩ := small_of_not_refused hrefused
  have hsource := source_evenInside_iff c.transform (window_stored c clip) hsw hsh
  have hdest : ((dstWindow (visible c.dstImg.width c.dstImg.height c.dstRect clip)).align
      c.dstImg).EvenInside c.dstImg := destination_evenInside hdw hdh hproper
  have hrequest : ∀ req, c.request clip = some req → (req.EvenInside ↔
      (c.window clip).Begins c.srcImg ∧ EvenFlips c.transform c.srcImg) := by
    intro req hreq
    obtain ⟨-, hrects, -, -⟩ := request_eq_some hreq
    obtain ⟨hsrc, hdst⟩ := request_images hreq
    rw [rects_yuv hyuv] at hrects
    obtain ⟨hs, hd⟩ := Prod.mk.inj hrects
    rw [Request.EvenInside, hsrc, hdst, ← hs, ← hd, hsource]
    exact and_iff_left hdest
  constructor
  · intro hfits req hreq
    refine (hrequest req hreq).mpr (hfits.resolve_left fun hskips => ?_)
    rw [(request_eq_none_yuv hrefused hyuv hproper).mpr hskips] at hreq
    cases hreq
  · intro hall
    cases hreq : c.request clip with
    | none => exact .inl ((request_eq_none_yuv hrefused hyuv hproper).mp hreq)
    | some req => exact .inr ((hrequest req hreq).mp (hall req hreq))

end Requests

/-! ## 4. The numbers of the caller -/

/-- One axis of a source: where the visible part starts, with the offset of the crop, how long it
    is, the sides of the source and of the destination, and the size of the image. -/
structure Axis where
  start : Int
  part : Int
  len : Int
  extent : Int
  size : Nat

/-- The side of the source is not negative, and the product of the scaling has 32 bits. -/
def Axis.Ordinary (a : Axis) : Prop := 0 ≤ a.len ∧ a.start * a.len < 2 ^ 32

/-- The scaled part starts before the end of the image. -/
def Axis.Begins (a : Axis) : Prop := a.start * a.len < (even a.size + 2) * a.extent

/-- Less than two pixels are left: the part is scaled to less, or starts in the image's last. -/
def Axis.Vanishes (a : Axis) : Prop :=
  a.part * a.len < 2 * a.extent ∨ even a.size * a.extent ≤ a.start * a.len

instance (a : Axis) : Decidable a.Ordinary := inferInstanceAs (Decidable (_ ∧ _))

instance (a : Axis) : Decidable a.Begins := inferInstanceAs (Decidable (_ < _))

instance (a : Axis) : Decidable a.Vanishes := inferInstanceAs (Decidable (_ ∨ _))

/-- What the checks of a call leave of an axis. -/
structure Axis.Bounded (a : Axis) : Prop where
  start : 0 ≤ a.start
  part : 0 ≤ a.part ∧ a.part ≤ 4096
  len : a.len ≤ 4096
  extent : 0 < a.extent ∧ a.extent < 2 ^ 32
  size : a.size ≤ 4096

section Axis

variable {a : Axis}

theorem even_le_iff {n size : Nat} : even n ≤ size ↔ n < even size + 2 := by
  unfold even
  omega

/-- The start and the length in the request, as quotients. -/
theorem Axis.scaled (h : a.Ordinary) (hb : a.Bounded) :
    (muldiv (u32 a.start) a.len (u32 a.extent) : Int) = a.start * a.len / a.extent ∧
      (muldiv (u32 a.part) a.len (u32 a.extent) : Int) = a.part * a.len / a.extent :=
  have hlen := hb.len
  have hlen' : 0 ≤ a.len ∧ a.len < 2 ^ 32 := ⟨h.1, by omega⟩
  ⟨muldiv_eq hb.start hlen' hb.extent h.2,
    muldiv_eq hb.part.1 hlen' hb.extent (Sides.small hb.part ⟨h.1, hlen⟩)⟩

theorem Axis.begins_iff (h : a.Ordinary) (hb : a.Bounded) :
    even (muldiv (u32 a.start) a.len (u32 a.extent)) ≤ a.size ↔ a.Begins := by
  have hlt := Int.ediv_lt_iff_lt_mul (a := a.start * a.len) (b := even a.size + 2) hb.extent.1
  rw [even_le_iff, Axis.Begins, ← hlt, ← (a.scaled h hb).1]
  omega

/-- A part of the screen is scaled to at most the square of its greatest side. -/
theorem Axis.part_le (h : a.Ordinary) (hb : a.Bounded) :
    muldiv (u32 a.part) a.len (u32 a.extent) ≤ 4096 * 4096 := by
  have hprod : a.part * a.len ≤ 4096 * 4096 :=
    Int.mul_le_mul hb.part.2 hb.len h.1 (by decide)
  have hself := Int.ediv_le_self a.extent (Int.mul_nonneg hb.part.1 h.1)
  have hscaled := (a.scaled h hb).2
  omega

theorem Axis.window_begins_iff (h : a.Ordinary) (hb : a.Bounded) :
    (even (muldiv (u32 a.start) a.len (u32 a.extent)) ≤ a.size ∧
      even (muldiv (u32 a.start) a.len (u32 a.extent)) +
        even (muldiv (u32 a.part) a.len (u32 a.extent)) < 2 ^ 32) ↔ a.Begins := by
  rw [← a.begins_iff h hb]
  refine and_iff_left_of_imp fun hbegins => ?_
  have hpart := Nat.le_trans (even_le _) (a.part_le h hb)
  have hsize := hb.size
  omega

/-- **Nothing even is left along an axis** when and only when it begins in the image and
    vanishes. -/
theorem Axis.vanishes_iff (h : a.Ordinary) (hb : a.Bounded) :
    clampEven (muldiv (u32 a.start) a.len (u32 a.extent))
      (muldiv (u32 a.part) a.len (u32 a.extent)) a.size = 0 ↔ a.Begins ∧ a.Vanishes := by
  obtain ⟨hstart, hpart⟩ := a.scaled h hb
  have hthin := Int.ediv_lt_iff_lt_mul (a := a.part * a.len) (b := 2) hb.extent.1
  have hedge := Int.le_ediv_iff_mul_le (a := even a.size) (b := a.start * a.len) hb.extent.1
  rw [← a.begins_iff h hb, Axis.Vanishes, ← hthin, ← hedge, ← hstart, ← hpart]
  have hx := muldiv_lt (u32_lt a.start) a.len (u32 a.extent)
  have hw := a.part_le h hb
  have hsize := hb.size
  generalize muldiv (u32 a.start) a.len (u32 a.extent) = x at *
  generalize muldiv (u32 a.part) a.len (u32 a.extent) = w at *
  unfold clampEven
  split
  · by_cases hbegins : even x ≤ a.size
    · have hleft : u32 ((a.size : Int) - even x) = a.size - even x := by
        unfold u32
        omega
      rw [hleft]
      unfold even at *
      omega
    · -- the subtraction wraps
      have hwrapped : u32 ((a.size : Int) - even x) = 2 ^ 32 + a.size - even x := by
        have := even_le x
        unfold u32
        omega
      rw [hwrapped]
      unfold even at *
      omega
  · unfold even at *
    omega

end Axis

/-- The columns of the source; with the rotation they are taken from the rows of the destination,
    with the offset of the rows of the source. -/
def Call.axisX (c : Call) (clip : Rect) : Axis :=
  let part := visible c.dst.w c.dst.h c.dstRect clip
  let len := c.srcRect.r - c.srcRect.l
  if c.transform.rot90 then
    ⟨part.t - c.dstRect.t + c.srcRect.t, part.b - part.t, len, c.dstRect.b - c.dstRect.t, c.src.w⟩
  else
    ⟨part.l - c.dstRect.l + c.srcRect.l, part.r - part.l, len, c.dstRect.r - c.dstRect.l, c.src.w⟩

/-- The rows of the source. -/
def Call.axisY (c : Call) (clip : Rect) : Axis :=
  let part := visible c.dst.w c.dst.h c.dstRect clip
  let len := c.srcRect.b - c.srcRect.t
  if c.transform.rot90 then
    ⟨c.dstRect.r - part.r + c.srcRect.l, part.r - part.l, len, c.dstRect.r - c.dstRect.l, c.src.h⟩
  else
    ⟨part.t - c.dstRect.t + c.srcRect.t, part.b - part.t, len, c.dstRect.b - c.dstRect.t, c.src.h⟩

/-- The source rectangle has an order, and the products of the scaling have 32 bits. -/
def Call.OrdinaryYuv (c : Call) (clip : Rect) : Prop :=
  (c.axisX clip).Ordinary ∧ (c.axisY clip).Ordinary

/-- **The condition on a rectangle of the region**: less than two pixels of the destination are
    visible; or its products have 32 bits, and nothing is left of one axis of the source, or both
    begin in the image, and the image is even along the axes that are flipped. -/
def Call.FitsYuv (c : Call) (clip : Rect) : Prop :=
  let part := visible c.dst.w c.dst.h c.dstRect clip
  (part.r - part.l < 2 ∨ part.b - part.t < 2) ∨
    c.OrdinaryYuv clip ∧
      (((c.axisX clip).Begins ∧ (c.axisX clip).Vanishes ∨
          (c.axisY clip).Begins ∧ (c.axisY clip).Vanishes) ∨
        ((c.axisX clip).Begins ∧ (c.axisY clip).Begins) ∧ EvenFlips c.transform c.srcImg)

instance (c : Call) (clip : Rect) : Decidable (c.OrdinaryYuv clip) :=
  inferInstanceAs (Decidable (_ ∧ _))

instance (c : Call) (clip : Rect) : Decidable (c.FitsYuv clip) :=
  inferInstanceAs (Decidable (_ ∨ _))

section Caller

variable {c : Call} {clip : Rect}

theorem axes_bounded (hrefused : ¬ c.Refused) (hsrc : c.srcRect.Int32) (hdst : c.dstRect.Int32)
    (hproper : (visible c.dst.w c.dst.h c.dstRect clip).Proper) :
    (c.axisX clip).Bounded ∧ (c.axisY clip).Bounded := by
  have hbounds := visible_bounds c.dst.w c.dst.h c.dstRect clip
  have hin := visible_in c.dst.w c.dst.h c.dstRect clip
  simp only [Call.Refused, not_or, not_lt, maxDimension] at hrefused
  obtain ⟨-, -, hchecks, hwide, hhigh⟩ := hrefused
  unfold Rect.Int32 at hsrc hdst
  unfold Rect.Proper at hproper
  unfold u32 at hchecks
  unfold Call.axisX Call.axisY
  generalize visible c.dst.w c.dst.h c.dstRect clip = part at *
  cases c.transform.rot90 with
  | true =>
    constructor <;> constructor <;> simp only [if_true] <;> omega
  | false =>
    constructor <;> constructor <;> simp only [Bool.false_eq_true, if_false] <;> omega

/-- The source before it is aligned, by its axes. -/
theorem window_eq (c : Call) (clip : Rect) :
    c.window clip =
      ⟨muldiv (u32 (c.axisX clip).start) (c.axisX clip).len (u32 (c.axisX clip).extent),
        muldiv (u32 (c.axisY clip).start) (c.axisY clip).len (u32 (c.axisY clip).extent),
        muldiv (u32 (c.axisX clip).part) (c.axisX clip).len (u32 (c.axisX clip).extent),
        muldiv (u32 (c.axisY clip).part) (c.axisY clip).len (u32 (c.axisY clip).extent)⟩ := by
  unfold Call.window srcWindow Call.axisX Call.axisY
  cases c.transform.rot90 <;> rfl

theorem axis_sizes (c : Call) (clip : Rect) :
    (c.axisX clip).size = c.srcImg.width ∧ (c.axisY clip).size = c.srcImg.height := by
  unfold Call.axisX Call.axisY
  cases c.transform.rot90 <;> exact ⟨rfl, rfl⟩

/-- **The condition on the numbers of the caller is that on the window**, where the products have 32
    bits. -/
theorem fitsYuv_iff_window (hord : c.OrdinaryYuv clip) (hX : (c.axisX clip).Bounded)
    (hY : (c.axisY clip).Bounded) : c.FitsYuv clip ↔ c.WindowFits clip := by
  obtain ⟨hsizeX, hsizeY⟩ := axis_sizes c clip
  have hbeginsX := (c.axisX clip).window_begins_iff hord.1 hX
  have hbeginsY := (c.axisY clip).window_begins_iff hord.2 hY
  have hvanishX := (c.axisX clip).vanishes_iff hord.1 hX
  have hvanishY := (c.axisY clip).vanishes_iff hord.2 hY
  rw [hsizeX] at hbeginsX hvanishX
  rw [hsizeY] at hbeginsY hvanishY
  have hbegins : (c.window clip).Begins c.srcImg ↔
      (c.axisX clip).Begins ∧ (c.axisY clip).Begins := by
    rw [window_eq]
    exact and_congr hbeginsX hbeginsY
  have hsource : (((c.window clip).align c.srcImg).w = 0 ∨ ((c.window clip).align c.srcImg).h = 0) ↔
      (c.axisX clip).Begins ∧ (c.axisX clip).Vanishes ∨
        (c.axisY clip).Begins ∧ (c.axisY clip).Vanishes := by
    rw [window_eq]
    exact or_congr hvanishX hvanishY
  simp only [Call.WindowFits, Call.WindowSkips, Call.FitsYuv]
  rw [hsource, hbegins, and_iff_right hord]
  exact or_left_comm.trans or_assoc.symm

/-- The condition is enough in any case. -/
theorem windowFits_of_fitsYuv (h : c.FitsYuv clip) (hX : (c.axisX clip).Bounded)
    (hY : (c.axisY clip).Bounded) : c.WindowFits clip := by
  rcases h with hthin | ⟨hord, h⟩
  · exact Or.inl (Or.inr hthin)
  · exact (fitsYuv_iff_window hord hX hY).mp (Or.inr ⟨hord, h⟩)

end Caller

/-- **Every request of a YUV blit is even and inside**, whatever the kernel accepts, when every
    rectangle of the region fits; and only then, where the products of the scaling have 32 bits. The
    destination is visible in each of them. -/
theorem yuv_requests_iff {c : Call} (hrefused : ¬ c.Refused)
    (hyuv : c.srcImg.format.isYuv = true) (hsrc : c.srcRect.Int32) (hdst : c.dstRect.Int32)
    {region : List Rect}
    (hmeets : ∀ clip ∈ region, (visible c.dst.w c.dst.h c.dstRect clip).Proper) :
    ((∀ clip ∈ region, c.FitsYuv clip) →
      ∀ kernel, ∀ batch ∈ (stretchCopybit c kernel region).handed, ∀ req ∈ batch,
        req.EvenInside) ∧
    ((∀ clip ∈ region, c.OrdinaryYuv clip) →
      (∀ kernel, ∀ batch ∈ (stretchCopybit c kernel region).handed, ∀ req ∈ batch,
        req.EvenInside) → ∀ clip ∈ region, c.FitsYuv clip) := by
  have haxes := fun clip hclip => axes_bounded hrefused hsrc hdst (hmeets clip hclip)
  have hwindow := fun clip hclip => windowFits_iff hrefused hyuv (hmeets clip hclip)
  rw [handed_iff hrefused]
  refine ⟨fun hfits clip hclip => ?_, fun hord hall clip hclip => ?_⟩
  · obtain ⟨hX, hY⟩ := haxes clip hclip
    exact (hwindow clip hclip).mp (windowFits_of_fitsYuv (hfits clip hclip) hX hY)
  · obtain ⟨hX, hY⟩ := haxes clip hclip
    exact (fitsYuv_iff_window (hord clip hclip) hX hY).mpr
      ((hwindow clip hclip).mpr (hall clip hclip))

/-- A preview of 427 by 320 pixels on a screen of 480 by 320. -/
def preview : Call where
  mAlpha := 255
  transform := { flipH := false, flipV := false, rot90 := false }
  disableStatusbar := true
  dst := { w := 480, h := 320, format := .rgb565, usesGpu := false }
  src := { w := 427, h := 320, format := .yCrCb420Sp, usesGpu := false }
  dstRect := { l := 0, t := 0, r := 427, b := 320 }
  srcRect := { l := 0, t := 0, r := 427, b := 320 }

/-- It is cut down to 426 pixels. -/
theorem yuv_requests_iff_preview :
    (stretchCopybit preview accepts [⟨0, 0, 480, 320⟩]).handed.flatten.map
        (fun req => (req.srcRect, req.dstRect)) = [(⟨0, 0, 426, 320⟩, ⟨0, 0, 426, 320⟩)] ∧
    ∀ kernel, ∀ batch ∈ (stretchCopybit preview kernel [⟨0, 0, 480, 320⟩]).handed, ∀ req ∈ batch,
      req.EvenInside :=
  ⟨by decide, (yuv_requests_iff (by decide) (by decide) (by decide) (by decide) (by decide)).1
    (by decide)⟩

/-- The same, seen in a mirror. -/
def mirrored : Call :=
  { preview with transform := { flipH := true, flipV := false, rot90 := false } }

/-- The lowest lines of a picture of 320 by 416 pixels, turned. -/
def turned : Call :=
  { preview with
    transform := { flipH := false, flipV := false, rot90 := true }
    src := { w := 320, h := 416, format := .yCrCb420Sp, usesGpu := false }
    dstRect := ⟨0, 0, 16, 320⟩
    srcRect := ⟨0, 400, 320, 416⟩ }

/-- **Requests that are odd, or outside**: the mirrored preview begins at the odd column 1, and the
    source of the turned lines begins behind its image, where the clamping wraps. -/
theorem odd_image_flipped :
    (¬ mirrored.Refused ∧ mirrored.srcImg.format.isYuv = true ∧
      (visible 480 320 mirrored.dstRect ⟨0, 0, 480, 320⟩).Proper ∧
      ∃ req, (stretchCopybit mirrored accepts [⟨0, 0, 480, 320⟩]).handed = [[req]] ∧
        req.srcRect = ⟨1, 0, 426, 320⟩ ∧ ¬ req.EvenInside) ∧
    ¬ turned.Refused ∧ turned.srcImg.format.isYuv = true ∧
      (visible 480 320 turned.dstRect ⟨0, 0, 480, 320⟩).Proper ∧
      ∃ req, (stretchCopybit turned accepts [⟨0, 0, 480, 320⟩]).handed = [[req]] ∧
        req.srcRect = ⟨400, 0, 4294967216, 16⟩ ∧ ¬ req.EvenInside := by
  refine ⟨⟨by decide, by decide, by decide, ?_⟩, by decide, by decide, by decide, ?_⟩
  · refine ⟨⟨⟨0, 0, 480, 320⟩, mirrored.srcImg, mirrored.dstImg, ⟨1, 0, 426, 320⟩,
      ⟨0, 0, 426, 320⟩⟩, by decide, rfl, fun hgood => ?_⟩
    exact absurd hgood.1.1.1 (by decide)
  · refine ⟨⟨⟨0, 0, 480, 320⟩, turned.srcImg, turned.dstImg, ⟨400, 0, 4294967216, 16⟩,
      ⟨0, 0, 16, 320⟩⟩, by decide, rfl, fun hgood => ?_⟩
    exact absurd hgood.1.2.1.2 (by decide)

end Y210.Copybit

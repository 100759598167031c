/-
  File:      Y210/Copybit/Stretch.lean
  Subject:   A BLIT: `stretch_copybit` and `blit_copybit`, one request for each rectangle of a
             region, handed to the kernel twelve at a time.

  `kernel n` is whether the kernel accepts the batch `n`; the loop ends with the first it refuses.
  A request carries the rectangle of the region it was made for.

  * `Refused`, `request`, `loop`, `stretchCopybit`, `Call.blit` -- the code;
  * `Hands`, `stretch_hands` -- what becomes of the requests of the region;
  * `Ordinary`, `requests_good` -- rectangles and crops for which every request is good;
  * `crop_seen_iff` -- of a crop that is seen as a whole: when and only when it is;
  * `blit_ordinary` -- every blit of a whole image;
  * `bad_requests` -- a clip beside the destination, a crop that is scaled, a crop that is rotated.
-/
import Mathlib.Data.List.Basic
import Y210.Copybit.Rects

namespace Y210.Copybit

/-! ## 1. The code -/

def maxDimension : Nat := 4096

def maxCount : Nat := 12

/-- A call of `stretch_copybit`; `disableStatusbar` is the property it reads. -/
structure Call where
  mAlpha : Nat
  transform : Transform
  disableStatusbar : Bool
  dst : Image
  src : Image
  dstRect : Rect
  srcRect : Rect
  deriving DecidableEq

/-- The formats that do not go with a plane alpha. -/
def Format.hasAlpha : Format → Bool
  | .rgba8888 | .bgra8888 | .rgba5551 | .rgba4444 => true
  | _ => false

/-- The tests before the first request; one that holds is `-EINVAL`. -/
def Call.Refused (c : Call) : Prop :=
  (c.dst.h ≤ 26 ∧ c.disableStatusbar = true) ∨
  (c.mAlpha < 255 ∧ c.src.format.hasAlpha = true) ∨
  -- the right and the lower side are compared as unsigned numbers
  (c.srcRect.l < 0 ∨ c.src.w < u32 c.srcRect.r ∨ c.srcRect.t < 0 ∨ c.src.h < u32 c.srcRect.b) ∨
  (maxDimension < c.src.w ∨ maxDimension < c.src.h) ∨
  (maxDimension < c.dst.w ∨ maxDimension < c.dst.h)

instance (c : Call) : Decidable c.Refused := inferInstanceAs (Decidable (_ ∨ _))

/-- `mdp_blit_req`, with the rectangle of the region. -/
structure Request where
  clip : Rect
  src : MdpImg
  dst : MdpImg
  srcRect : MdpRect
  dstRect : MdpRect
  deriving DecidableEq

def Call.srcImg (c : Call) : MdpImg := setImage c.src

def Call.dstImg (c : Call) : MdpImg := setImage c.dst

/-- The request of one rectangle of the region; `none` is `continue`. -/
def Call.request (c : Call) (clip : Rect) : Option Request :=
  let r := rects c.transform c.srcImg c.dstImg c.dstRect c.srcRect clip
  if r.1.w = 0 ∨ r.1.h = 0 then none
  else if r.2.w = 0 ∨ r.2.h = 0 then none
  else some { clip := clip, src := c.srcImg, dst := c.dstImg, srcRect := r.1, dstRect := r.2 }

/-- The batches that were handed over, and whether the last call succeeded. -/
structure Outcome where
  handed : List (List Request)
  ok : Bool
  deriving DecidableEq

/-- `msm_copybit`: a list that is too long is not handed over. -/
def msmCopybit (kernel : Nat → Bool) (handed : List (List Request)) (list : List Request) :
    Outcome :=
  if maxCount < list.length then { handed := handed, ok := false }
  else { handed := handed ++ [list], ok := kernel handed.length }

/-- The loop over the region, with the requests that are collected. -/
def Call.loop (c : Call) (kernel : Nat → Bool) (handed : List (List Request))
    (list : List Request) : List Rect → Outcome
  | [] =>
    if list.length = 0 then { handed := handed, ok := true } else msmCopybit kernel handed list
  | clip :: region =>
    match c.request clip with
    | none => c.loop kernel handed list region
    | some req =>
      let list := list ++ [req]
      if list.length = maxCount then
        let out := msmCopybit kernel handed list
        if out.ok then c.loop kernel out.handed [] region else out
      else c.loop kernel handed list region

/-- **`stretch_copybit`.** -/
def stretchCopybit (c : Call) (kernel : Nat → Bool) (region : List Rect) : Outcome :=
  if c.Refused then { handed := [], ok := false } else c.loop kernel [] [] region

/-- **`blit_copybit`**: the call with the rectangles of both images. -/
def Call.blit (c : Call) : Call :=
  { c with dstRect := whole c.dst.w c.dst.h, srcRect := whole c.src.w c.src.h }

/-! ## 2. What is handed over -/

section Handed

variable {c : Call} {kernel : Nat → Bool} {handed : List (List Request)} {list : List Request}
  {region : List Rect} {req : Request}

/-- The requests of a region. -/
def Call.requests (c : Call) (region : List Rect) : List Request := region.filterMap c.request

theorem requests_cons_none {clip : Rect} (h : c.request clip = none) :
    c.requests (clip :: region) = c.requests region :=
  List.filterMap_cons_none h

theorem requests_cons_some {clip : Rect} (h : c.request clip = some req) :
    c.requests (clip :: region) = req :: c.requests region :=
  List.filterMap_cons_some h

/-- A batch is never too long to be handed over. -/
theorem msmCopybit_eq (kernel : Nat → Bool) (handed : List (List Request))
    (h : list.length ≤ maxCount) :
    msmCopybit kernel handed list = { handed := handed ++ [list], ok := kernel handed.length } := by
  rw [msmCopybit, if_neg (by omega)]

/-- The batches before the current one: none is empty or too long, and each was accepted. -/
structure Accepted (kernel : Nat → Bool) (handed : List (List Request)) : Prop where
  sizes : ∀ batch ∈ handed, 0 < batch.length ∧ batch.length ≤ maxCount
  kernel : ∀ n < handed.length, kernel n = true

/-- **What becomes of the requests `todo`.** -/
structure Outcome.Hands (out : Outcome) (kernel : Nat → Bool) (todo : List Request) : Prop where
  sizes : ∀ batch ∈ out.handed, 0 < batch.length ∧ batch.length ≤ maxCount
  /-- What is handed over is the first of them, in their order. -/
  first : out.handed.flatten <+: todo
  /-- After a success it is all of them. -/
  all : out.ok = true → out.handed.flatten = todo
  /-- Only the last batch may be refused. -/
  accepted : ∀ n, n + 1 < out.handed.length → kernel n = true
  ok_iff : out.ok = true ↔ ∀ n < out.handed.length, kernel n = true

theorem accepted_nil (kernel : Nat → Bool) : Accepted kernel [] where
  sizes := by simp
  kernel := by simp

theorem Accepted.sizes_snoc (h : Accepted kernel handed) (hempty : 0 < list.length)
    (hlong : list.length ≤ maxCount) :
    ∀ batch ∈ handed ++ [list], 0 < batch.length ∧ batch.length ≤ maxCount := by
  intro batch hbatch
  rcases List.mem_append.mp hbatch with hbatch | hbatch
  · exact h.sizes batch hbatch
  · rw [List.mem_singleton.mp hbatch]
    exact ⟨hempty, hlong⟩

theorem Accepted.snoc (h : Accepted kernel handed) (hempty : 0 < list.length)
    (hlong : list.length ≤ maxCount) (hkernel : kernel handed.length = true) :
    Accepted kernel (handed ++ [list]) where
  sizes := h.sizes_snoc hempty hlong
  kernel := by
    intro n hn
    rw [List.length_append, List.length_singleton] at hn
    rcases Nat.lt_succ_iff_lt_or_eq.mp hn with hn | rfl
    · exact h.kernel n hn
    · exact hkernel

/-- The end of the loop with nothing collected. -/
theorem Accepted.hands (h : Accepted kernel handed) :
    (Outcome.mk handed true).Hands kernel handed.flatten where
  sizes := h.sizes
  first := List.prefix_refl _
  all := fun _ => rfl
  accepted := fun n hn => h.kernel n (by dsimp only at hn; omega)
  ok_iff := iff_of_true rfl h.kernel

/-- The end of the loop with a last batch: it is refused, or there is nothing behind it. -/
theorem Accepted.hands_last (h : Accepted kernel handed) (hempty : 0 < list.length)
    (hlong : list.length ≤ maxCount) {rest : List Request}
    (hrest : kernel handed.length = true → rest = []) :
    (msmCopybit kernel handed list).Hands kernel (handed.flatten ++ list ++ rest) := by
  rw [msmCopybit_eq kernel handed hlong]
  have hflatten : (handed ++ [list]).flatten = handed.flatten ++ list := by simp
  have hlength : (handed ++ [list]).length = handed.length + 1 := by simp
  refine ⟨h.sizes_snoc hempty hlong, ?_, ?_, ?_, ?_⟩
  · rw [hflatten]
    exact List.prefix_append _ _
  · intro hok
    rw [hflatten, hrest hok, List.append_nil]
  · intro n hn
    rw [hlength] at hn
    exact h.kernel n (by omega)
  · constructor
    · intro hok
      exact (h.snoc hempty hlong hok).kernel
    · intro hall
      exact hall handed.length (by rw [hlength]; omega)

/-- **The loop hands over what it has collected and the requests of the region.** -/
theorem loop_hands (c : Call) (region : List Rect) (h : Accepted kernel handed)
    (hlist : list.length < maxCount) :
    (c.loop kernel handed list region).Hands kernel
      (handed.flatten ++ list ++ c.requests region) := by
  induction region generalizing handed list with
  | nil =>
    unfold Call.loop
    split
    · rename_i hempty
      have hnothing : handed.flatten ++ list ++ c.requests [] = handed.flatten := by
        simp [List.eq_nil_of_length_eq_zero hempty, Call.requests]
      rw [hnothing]
      exact h.hands
    · exact h.hands_last (by omega) (by omega) fun _ => rfl
  | cons clip region ih =>
    unfold Call.loop
    cases hreq : c.request clip with
    | none =>
      rw [requests_cons_none hreq]
      exact ih h hlist
    | some req =>
      have hnext : handed.flatten ++ list ++ c.requests (clip :: region) =
          handed.flatten ++ (list ++ [req]) ++ c.requests region := by
        rw [requests_cons_some hreq]
        simp
      have hlength : (list ++ [req]).length = list.length + 1 := by simp
      rw [hnext]
      dsimp only
      split
      · have hok : (msmCopybit kernel handed (list ++ [req])).ok = kernel handed.length := by
          rw [msmCopybit_eq kernel handed (by omega)]
        split
        · -- the batch is accepted, and the next one begins
          rename_i hfull htrue
          have haccepted : Accepted kernel (handed ++ [list ++ [req]]) :=
            h.snoc (by omega) (by omega) (hok.symm.trans htrue)
          rw [msmCopybit_eq kernel handed (by omega)]
          have htail := ih haccepted (show ([] : List Request).length < maxCount by decide)
          rw [List.flatten_append, List.flatten_singleton, List.append_nil] at htail
          exact htail
        · rename_i hfull hfalse
          rw [hok] at hfalse
          exact h.hands_last (by omega) (by omega) fun htrue => absurd htrue hfalse
      · exact ih h (by omega)

/-- **A call that is not refused** hands over the requests of the region. -/
theorem stretch_hands (hrefused : ¬ c.Refused) (kernel : Nat → Bool) (region : List Rect) :
    (stretchCopybit c kernel region).Hands kernel (c.requests region) := by
  rw [stretchCopybit, if_neg hrefused]
  exact loop_hands c region (accepted_nil kernel) (by decide)

end Handed

/-! ## 3. Good requests -/

section Requests

variable {c : Call} {region : List Rect} {clip : Rect} {req : Request}

/-- A request is what it should be. -/
def Call.GoodRequest (c : Call) (req : Request) : Prop :=
  Good c.transform c.srcImg c.dstImg c.dstRect c.srcRect req.clip req.srcRect req.dstRect

theorem sizes_of_not_refused (h : ¬ c.Refused) :
    (c.srcImg.width < 2 ^ 32 ∧ c.srcImg.height < 2 ^ 32) ∧
      c.dstImg.width < 2 ^ 32 ∧ c.dstImg.height < 2 ^ 32 := by
  simp only [Call.Refused, not_or, not_lt, maxDimension] at h
  simp only [Call.srcImg, Call.dstImg, setImage]
  omega

theorem request_eq_some (h : c.request clip = some req) :
    req.clip = clip ∧
      rects c.transform c.srcImg c.dstImg c.dstRect c.srcRect clip = (req.srcRect, req.dstRect) ∧
      (0 < req.srcRect.w ∧ 0 < req.srcRect.h) ∧ 0 < req.dstRect.w ∧ 0 < req.dstRect.h := by
  unfold Call.request at h
  generalize rects c.transform c.srcImg c.dstImg c.dstRect c.srcRect clip = r at h ⊢
  dsimp only at h
  split at h
  · cases h
  · rename_i hsrc
    split at h
    · cases h
    · rename_i hdst
      cases h
      exact ⟨rfl, rfl, by dsimp only; omega, by dsimp only; omega⟩

theorem request_images (h : c.request clip = some req) :
    req.src = c.srcImg ∧ req.dst = c.dstImg := by
  unfold Call.request at h
  generalize rects c.transform c.srcImg c.dstImg c.dstRect c.srcRect clip = r at h
  dsimp only at h
  split at h
  · cases h
  · split at h
    · cases h
    · cases h
      exact ⟨rfl, rfl⟩

/-- A rectangle of the region makes no request when one of its rectangles is 0 wide or high. -/
theorem request_none_iff {s d : MdpRect}
    (hrects : rects c.transform c.srcImg c.dstImg c.dstRect c.srcRect clip = (s, d)) :
    c.request clip = none ↔ (s.w = 0 ∨ s.h = 0) ∨ d.w = 0 ∨ d.h = 0 := by
  unfold Call.request
  rw [hrects]
  dsimp only
  by_cases hsrc : s.w = 0 ∨ s.h = 0
  · exact ⟨fun _ => .inl hsrc, fun _ => if_pos hsrc⟩
  · rw [if_neg hsrc]
    by_cases hdst : d.w = 0 ∨ d.h = 0
    · exact ⟨fun _ => .inr hdst, fun _ => if_pos hdst⟩
    · rw [if_neg hdst]
      exact ⟨nofun, fun h => absurd h (not_or.mpr ⟨hsrc, hdst⟩)⟩

/-- Nothing is read of an empty source. -/
theorem srcWindow_empty (rot90 : Bool) {dst src : Rect} (part : Rect) (hdst : dst.Int32)
    (hproper : dst.Proper) (hempty : src.l = src.r ∨ src.t = src.b) :
    (srcWindow rot90 dst src part).w = 0 ∨ (srcWindow rot90 dst src part).h = 0 := by
  have hnone : ∀ {a extent len : Int}, 0 < extent → extent < 2 ^ 32 → len = 0 →
      muldiv (u32 a) len (u32 extent) = 0 := by
    intro a extent len hpos hlt hlen
    have hne : u32 len ≠ u32 extent := by
      unfold u32
      omega
    rw [muldiv, if_pos hne, hlen]
    simp [u32]
  obtain ⟨hx, hy⟩ := hdst
  obtain ⟨hlr, htb⟩ := hproper
  cases rot90 with
  | true =>
    exact hempty.imp (fun h => hnone (by omega) (by omega) (by omega))
      fun h => hnone (by omega) (by omega) (by omega)
  | false =>
    exact hempty.imp (fun h => hnone (by omega) (by omega) (by omega))
      fun h => hnone (by omega) (by omega) (by omega)

/-- **The condition on a rectangle of the region**: it touches the destination at most, or the
    source is empty; or something of the destination is visible, and the scaling is right there. -/
def Call.Ordinary (c : Call) (clip : Rect) : Prop :=
  let part := visible c.dst.w c.dst.h c.dstRect clip
  (part.l = part.r ∨ part.t = part.b) ∨
    (c.srcRect.l = c.srcRect.r ∨ c.srcRect.t = c.srcRect.b) ∨
    part.Proper ∧ c.srcRect.Proper ∧ Plain c.transform.rot90 c.dstRect c.srcRect part

instance (c : Call) (clip : Rect) : Decidable (c.Ordinary clip) :=
  inferInstanceAs (Decidable (_ ∨ _))

theorem sides_of_not_refused (h : ¬ c.Refused) (hsrc : c.srcRect.Int32)
    (hordered : c.srcRect.l ≤ c.srcRect.r ∧ c.srcRect.t ≤ c.srcRect.b)
    (hproper : (visible c.dst.w c.dst.h c.dstRect clip).Proper) :
    Sides c.srcRect (visible c.dst.w c.dst.h c.dstRect clip) ∧
      c.srcRect.r ≤ c.src.w ∧ c.srcRect.b ≤ c.src.h := by
  have hbounds := visible_bounds c.dst.w c.dst.h c.dstRect clip
  simp only [Call.Refused, not_or, not_lt, maxDimension] at h
  obtain ⟨-, -, hchecks, hwide, hhigh⟩ := h
  unfold Rect.Int32 at hsrc
  unfold u32 at hchecks
  exact ⟨⟨by omega, by omega, by omega, hproper, by omega⟩, by omega, by omega⟩

/-- **The request of an ordinary rectangle is good.** -/
theorem request_good (hrefused : ¬ c.Refused) (hyuv : c.srcImg.format.isYuv = false)
    (hsrc : c.srcRect.Int32) (hdst : c.dstRect.Int32) (hproper : c.dstRect.Proper)
    (h : c.Ordinary clip) (hreq : c.request clip = some req) : c.GoodRequest req := by
  obtain ⟨hclip, hrects, hs, hd⟩ := request_eq_some hreq
  obtain ⟨hsrcSize, hdstSize⟩ := sizes_of_not_refused hrefused
  have hgood := rects_good hyuv hsrcSize hdstSize hrects hs hd
  rw [rects_eq hyuv] at hrects
  obtain ⟨hsrcRect, hdstRect⟩ := Prod.mk.inj hrects
  rw [Call.GoodRequest, hclip]
  rcases h with hflat | hempty | ⟨hvisible, hordered, hplain⟩
  · -- its destination is 0 wide or high
    rw [← hdstRect] at hd
    simp only [dstWindow, u32] at hd
    simp only [Call.dstImg, setImage] at hd
    omega
  · rw [← hsrcRect] at hs
    have hnone := srcWindow_empty c.transform.rot90 (visible c.dst.w c.dst.h c.dstRect clip) hdst
      hproper hempty
    simp only [MdpRect.flip, Call.dstImg, setImage] at hs
    omega
  · have hsides := sides_of_not_refused hrefused hsrc ⟨hordered.1.le, hordered.2.le⟩ hvisible
    exact hgood.mpr (exact_of_plain hplain hsides.1 hdst hsides.2)

end Requests

/-- **What is true of every request that is handed over**, whatever the kernel accepts, is what is
    true of the requests of the region. -/
theorem handed_iff {c : Call} (hrefused : ¬ c.Refused) (region : List Rect) (p : Request → Prop) :
    (∀ kernel, ∀ batch ∈ (stretchCopybit c kernel region).handed, ∀ req ∈ batch, p req) ↔
      ∀ clip ∈ region, ∀ req, c.request clip = some req → p req := by
  constructor
  · intro hp clip hclip req hreq
    -- a kernel that accepts every batch gets the request
    have hands := stretch_hands hrefused (fun _ => true) region
    have hmem : req ∈ (stretchCopybit c (fun _ => true) region).handed.flatten := by
      rw [hands.all (hands.ok_iff.mpr fun _ _ => rfl)]
      exact List.mem_filterMap.mpr ⟨clip, hclip, hreq⟩
    obtain ⟨batch, hbatch, hreq⟩ := List.mem_flatten.mp hmem
    exact hp _ batch hbatch req hreq
  · intro hp kernel batch hbatch req hreq
    have hmem := (stretch_hands hrefused kernel region).first.subset
      (List.mem_flatten.mpr ⟨batch, hbatch, hreq⟩)
    obtain ⟨clip, hclip, hmade⟩ := List.mem_filterMap.mp hmem
    exact hp clip hclip req hmade

/-- **Every request of a blit is good**, whatever the kernel accepts, when every rectangle of the
    region is ordinary. -/
theorem requests_good {c : Call} (hrefused : ¬ c.Refused) (hyuv : c.srcImg.format.isYuv = false)
    (hsrc : c.srcRect.Int32) (hdst : c.dstRect.Int32) (hproper : c.dstRect.Proper)
    {region : List Rect} (hregion : ∀ clip ∈ region, c.Ordinary clip) :
    ∀ kernel, ∀ batch ∈ (stretchCopybit c kernel region).handed, ∀ req ∈ batch,
      c.GoodRequest req :=
  (handed_iff hrefused region _).mpr fun clip hclip _ hreq =>
    request_good hrefused hyuv hsrc hdst hproper (hregion clip hclip) hreq

/-- A part of an image, blitted without scaling to two parts of the screen. -/
def unscaled : Call where
  mAlpha := 255
  transform := { flipH := false, flipV := false, rot90 := false }
  disableStatusbar := true
  dst := { w := 320, h := 480, format := .rgb565, usesGpu := false }
  src := { w := 100, h := 100, format := .rgb565, usesGpu := false }
  dstRect := { l := -20, t := 0, r := 60, b := 50 }
  srcRect := { l := 20, t := 50, r := 100, b := 100 }

theorem requests_good_unscaled :
    (stretchCopybit unscaled (fun _ => true) [⟨0, 0, 30, 480⟩, ⟨40, 0, 320, 20⟩]).handed.flatten.map
        (fun req => (req.srcRect, req.dstRect)) =
      [(⟨40, 50, 30, 50⟩, ⟨0, 0, 30, 50⟩), (⟨80, 50, 20, 20⟩, ⟨40, 0, 20, 20⟩)] ∧
    ∀ kernel, ∀ batch ∈
      (stretchCopybit unscaled kernel [⟨0, 0, 30, 480⟩, ⟨40, 0, 320, 20⟩]).handed,
        ∀ req ∈ batch, unscaled.GoodRequest req :=
  ⟨by decide, requests_good (by decide) (by decide) (by decide) (by decide) (by decide) (by decide)⟩

/-! ## 4. Crops that are seen as a whole -/

/-- The offset of a crop is worth less than a pixel of the destination once it is scaled. -/
def AxisKept (start len extent : Int) : Prop :=
  0 ≤ start * (len - extent) ∧ start * (len - extent) < extent

theorem axisKept_iff {start len extent : Int} (hpos : 0 < extent) :
    AxisKept start len extent ↔ start * len / extent = start := by
  rw [AxisKept, Int.mul_sub, Int.ediv_eq_iff_of_pos hpos]
  omega

section Seen

variable {c : Call}

/-- The source of a clip that covers the destination begins at the scaled offset and has the size of
    the crop. -/
theorem seen_axis {start len extent : Int} (lo : Int) (hstart : 0 ≤ start ∧ start ≤ 4096)
    (hlen : 0 ≤ len ∧ len ≤ 4096) (hext : 0 < extent ∧ extent ≤ 4096) :
    (muldiv (u32 (lo - lo + start)) len (u32 extent) : Int) = start * len / extent ∧
      (muldiv (u32 extent) len (u32 extent) : Int) = len := by
  have hext' : 0 < extent ∧ extent < 2 ^ 32 := ⟨hext.1, by omega⟩
  have hlen' : 0 ≤ len ∧ len < 2 ^ 32 := ⟨hlen.1, by omega⟩
  rw [Int.sub_self, Int.zero_add, muldiv_eq hstart.1 hlen' hext' (Sides.small hstart hlen),
    muldiv_eq hext.1.le hlen' hext' (Sides.small ⟨hext.1.le, hext.2⟩ hlen),
    Int.mul_ediv_cancel_left _ (by omega)]
  exact ⟨rfl, rfl⟩

/-- **A crop that is seen as a whole**, neither flipped nor rotated, has a good request when and
    only when its offset is kept by the scaling, along both axes. -/
theorem crop_seen_iff (hrefused : ¬ c.Refused) (hyuv : c.srcImg.format.isYuv = false)
    (hsrc : c.srcRect.Int32) (hproper : c.srcRect.Proper) (hdst : c.dstRect.Proper)
    (htransform : c.transform = ⟨false, false, false⟩)
    (hin : 0 ≤ c.dstRect.l ∧ 0 ≤ c.dstRect.t ∧ c.dstRect.r ≤ c.dst.w ∧ c.dstRect.b ≤ c.dst.h) :
    (∀ req, c.request c.dstRect = some req → c.GoodRequest req) ↔
      AxisKept c.srcRect.l (c.srcRect.r - c.srcRect.l) (c.dstRect.r - c.dstRect.l) ∧
        AxisKept c.srcRect.t (c.srcRect.b - c.srcRect.t) (c.dstRect.b - c.dstRect.t) := by
  have hseen : visible c.dst.w c.dst.h c.dstRect c.dstRect = c.dstRect := visible_self hin
  have hvisible : (visible c.dst.w c.dst.h c.dstRect c.dstRect).Proper := hseen.symm ▸ hdst
  obtain ⟨hsides, hr, hb⟩ :=
    sides_of_not_refused hrefused hsrc ⟨hproper.1.le, hproper.2.le⟩ hvisible
  rw [hseen] at hsides
  obtain ⟨⟨hl, ht⟩, -, ⟨hsr, hsb⟩, ⟨hlr, htb⟩, hbounds⟩ := hsides
  obtain ⟨hslr, hstb⟩ := hproper
  obtain ⟨hx, hw⟩ := seen_axis c.dstRect.l ⟨hl, by omega⟩
    (show 0 ≤ c.srcRect.r - c.srcRect.l ∧ _ by omega)
    (show 0 < c.dstRect.r - c.dstRect.l ∧ _ by omega)
  obtain ⟨hy, hh⟩ := seen_axis c.dstRect.t ⟨ht, by omega⟩
    (show 0 ≤ c.srcRect.b - c.srcRect.t ∧ _ by omega)
    (show 0 < c.dstRect.b - c.dstRect.t ∧ _ by omega)
  have hrects : rects c.transform c.srcImg c.dstImg c.dstRect c.srcRect c.dstRect =
      (srcWindow false c.dstRect c.srcRect c.dstRect, dstWindow c.dstRect) := by
    rw [rects_eq hyuv, htransform]
    simp only [Call.dstImg, setImage, hseen, MdpRect.flip]
    rfl
  -- the request is made, since the source is as large as the crop
  obtain ⟨req, hreq⟩ : ∃ req, c.request c.dstRect = some req := by
    refine Option.ne_none_iff_exists'.mp fun hnone => ?_
    have hwide : (u32 (c.dstRect.r - c.dstRect.l) : Int) = _ := u32_of_lt (by omega) (by omega)
    have hhigh : (u32 (c.dstRect.b - c.dstRect.t) : Int) = _ := u32_of_lt (by omega) (by omega)
    rw [request_none_iff hrects] at hnone
    simp only [srcWindow, dstWindow, Bool.false_eq_true, if_false] at hnone
    omega
  obtain ⟨hclip, hrects', hs, hd⟩ := request_eq_some hreq
  obtain ⟨hsrcSize, hdstSize⟩ := sizes_of_not_refused hrefused
  have hgood := rects_good hyuv hsrcSize hdstSize hrects' hs hd
  have hall : (∀ req, c.request c.dstRect = some req → c.GoodRequest req) ↔ c.GoodRequest req :=
    ⟨fun h => h req hreq, fun h req' hreq' => Option.some.inj (hreq.symm.trans hreq') ▸ h⟩
  rw [hall, Call.GoodRequest, hclip, hgood, axisKept_iff (by omega), axisKept_iff (by omega)]
  simp only [Exact, Call.dstImg, Call.srcImg, setImage, hseen, htransform, MdpRect.Inside, whole,
    srcWindow, Bool.false_eq_true, if_false, hx, hw, hy, hh, Rect.Proper, true_implies]
  omega

/-- **A blit of a whole image is ordinary** wherever the clip meets the destination. -/
theorem blit_ordinary (h : ¬ c.blit.Refused) {clip : Rect}
    (hmeets : (visible c.dst.w c.dst.h (whole c.dst.w c.dst.h) clip).l ≤
        (visible c.dst.w c.dst.h (whole c.dst.w c.dst.h) clip).r ∧
      (visible c.dst.w c.dst.h (whole c.dst.w c.dst.h) clip).t ≤
        (visible c.dst.w c.dst.h (whole c.dst.w c.dst.h) clip).b) :
    c.blit.Ordinary clip := by
  have hbounds := visible_bounds c.dst.w c.dst.h (whole c.dst.w c.dst.h) clip
  simp only [Call.Refused, Call.blit, not_or, not_lt, maxDimension] at h
  obtain ⟨-, -, -, hsrc, hdst⟩ := h
  unfold Call.Ordinary Rect.Proper
  simp only [Call.blit]
  generalize visible c.dst.w c.dst.h (whole c.dst.w c.dst.h) clip = part at *
  by_cases hflat : part.l = part.r ∨ part.t = part.b
  · exact Or.inl hflat
  · by_cases hempty : (whole c.src.w c.src.h).l = (whole c.src.w c.src.h).r ∨
        (whole c.src.w c.src.h).t = (whole c.src.w c.src.h).b
    · exact Or.inr (Or.inl hempty)
    · simp only [whole] at hempty
      refine Or.inr (Or.inr ⟨by omega, by simp only [whole]; omega, ?_⟩)
      -- there is no offset, and no distance in the screen is more than its size
      have haxis : ∀ (d : Int) (n : Nat) (extent : Int), 0 ≤ d ∧ d ≤ 4096 → n ≤ 4096 →
          AxisPlain d 0 0 (n - 0) extent := fun d n _ hd hn =>
        ⟨rfl, Or.inr ⟨rfl, Sides.small hd (by omega)⟩⟩
      cases c.transform.rot90 with
      | true => exact ⟨haxis _ _ _ (by simp only [whole]; omega) hsrc.1,
          haxis _ _ _ (by simp only [whole]; omega) hsrc.2⟩
      | false => exact ⟨haxis _ _ _ (by simp only [whole]; omega) hsrc.1,
          haxis _ _ _ (by simp only [whole]; omega) hsrc.2⟩

end Seen

/-! ## 5. Requests that are not -/

/-- The kernel accepts everything. -/
def accepts (_ : Nat) : Bool := true

/-- An image of 100 by 100 pixels at the corner of the screen. -/
def corner : Call :=
  { unscaled with dstRect := ⟨0, 0, 100, 100⟩, srcRect := ⟨0, 0, 100, 100⟩ }

/-- Its right half, twice as wide. -/
def rightHalf : Call := { corner with srcRect := ⟨50, 0, 100, 100⟩ }

/-- Its lower half, turned. -/
def lowerHalf : Call :=
  { corner with
    srcRect := ⟨0, 50, 100, 100⟩
    transform := { flipH := false, flipV := false, rot90 := true } }

/-- **Requests that are not good**: a clip beside the destination gives one of nearly 2^32 pixels, a
    scaled crop begins before its source rectangle, and a rotated one reaches out of the image. -/
theorem bad_requests :
    (¬ corner.Refused ∧ corner.srcImg.format.isYuv = false ∧ corner.dstRect.Proper ∧
      ∃ req, (stretchCopybit corner accepts [⟨200, 200, 300, 300⟩]).handed = [[req]] ∧
        req.dstRect = ⟨200, 200, 4294967196, 4294967196⟩ ∧ ¬ corner.GoodRequest req) ∧
    (¬ rightHalf.Refused ∧ rightHalf.srcImg.format.isYuv = false ∧ rightHalf.dstRect.Proper ∧
      ∃ req, (stretchCopybit rightHalf accepts [⟨0, 0, 320, 480⟩]).handed = [[req]] ∧
        req.srcRect = ⟨25, 0, 50, 100⟩ ∧ ¬ rightHalf.GoodRequest req) ∧
    ¬ lowerHalf.Refused ∧ lowerHalf.srcImg.format.isYuv = false ∧ lowerHalf.dstRect.Proper ∧
      ∃ req, (stretchCopybit lowerHalf accepts [⟨0, 0, 320, 480⟩]).handed = [[req]] ∧
        req.srcRect = ⟨50, 0, 100, 50⟩ ∧ ¬ lowerHalf.GoodRequest req := by
  refine ⟨⟨by decide, by decide, by decide, ?_⟩, ⟨by decide, by decide, by decide, ?_⟩,
    by decide, by decide, by decide, ?_⟩
  · refine ⟨⟨⟨200, 200, 300, 300⟩, corner.srcImg, corner.dstImg, ⟨200, 200, 4294967196, 4294967196⟩,
      ⟨200, 200, 4294967196, 4294967196⟩⟩, by decide, rfl, fun hgood => ?_⟩
    have hpixel := (hgood.exact 200 200).mp (by decide)
    exact absurd hpixel.1 (by decide)
  · refine ⟨⟨⟨0, 0, 320, 480⟩, corner.srcImg, corner.dstImg, ⟨25, 0, 50, 100⟩,
      ⟨0, 0, 100, 100⟩⟩, by decide, rfl, fun hgood => ?_⟩
    have hpixel := hgood.inSource rfl rfl 25 0 (by decide)
    exact absurd hpixel (by decide)
  · refine ⟨⟨⟨0, 0, 320, 480⟩, corner.srcImg, corner.dstImg, ⟨50, 0, 100, 50⟩,
      ⟨0, 0, 100, 100⟩⟩, by decide, rfl, fun hgood => ?_⟩
    have hpixel := hgood.inImage 100 0 (by decide)
    exact absurd hpixel (by decide)

end Y210.Copybit

/-
  File:      Y210/Copybit/Batches.lean
  Subject:   THE BATCHES OF A BLIT, AS THEY ARE STORED: the array of twelve requests that
             `stretch_copybit` fills, and the one of the kernel's layout that `msm_copybit` copies
             it to.

  A turn of the loop writes the entry behind the last one that counts. An empty rectangle leaves it
  there, and the next turn writes it again. `msm_copybit` copies as many entries as count. Neither
  array is set to anything before: what is in it at first is any requests. `none` is a turn that
  divides by 0, or an index behind the end of an array.

  `kernel n` is what `ioctl` gives for the batch `n`: 0, or the `errno` it fails with.

  * `Handle.setImage`, `setInfos`, `imgToK`, `msmCopybit`, `turn`, `stretchCopybit` -- the code;
  * `Mirrors` -- the array holds what `Call.loop` has collected, and no more of it counts;
  * `stretch_refines` -- the batches are those of `stretchCopybit`, in the kernel's layout;
  * `region_delivered` -- so the requests of a region reach the kernel in their order, once.
-/
import Mathlib.Data.List.Forall2
import Y210.Copybit.Stretch

namespace Y210.Copybit

def EINVAL : Int := 22

/-! ## 1. Requests -/

/-- What `set_image` reads of a `private_handle_t`, its flags apart. -/
structure Handle where
  offset : Int
  mapOffset : Int
  fd : Int
  gpuFd : Int
  deriving DecidableEq

/-- `mdp_img`. -/
structure StoredImg extends MdpImg where
  offset : Nat
  memoryId : Int
  deriving DecidableEq

/-- `mdp_blit_req`. -/
structure BlitReq where
  src : StoredImg
  dst : StoredImg
  srcRect : MdpRect
  dstRect : MdpRect
  alpha : Nat
  transpMask : Nat
  flags : BitVec 32
  deriving DecidableEq

/-- `mdp_img_k`: the kernel's image has a field more. -/
structure KernelImg extends StoredImg where
  priv : Nat
  deriving DecidableEq

/-- `mdp_blit_req_k`. -/
structure KernelReq where
  src : KernelImg
  dst : KernelImg
  srcRect : MdpRect
  dstRect : MdpRect
  alpha : Nat
  transpMask : Nat
  flags : BitVec 32
  sharpeningStrength : Int
  deriving DecidableEq

/-- What `MSMFB_BLIT` is given: of the array only the first `count` entries are read. -/
structure KernelList where
  count : Nat
  req : List KernelReq
  deriving DecidableEq

/-- A call of `stretch_copybit` on a device, with the handles of its images. -/
structure Blit where
  mAlpha : BitVec 8
  mFlags : BitVec 8
  disableStatusbar : Bool
  dst : Image
  dstHandle : Handle
  src : Image
  srcHandle : Handle
  dstRect : Rect
  srcRect : Rect

/-- The call without its handles. The transform is the lowest bits of `mFlags`. -/
def Blit.call (b : Blit) : Call where
  mAlpha := b.mAlpha.toNat
  transform :=
    { flipH := b.mFlags.getLsbD 0, flipV := b.mFlags.getLsbD 1, rot90 := b.mFlags.getLsbD 2 }
  disableStatusbar := b.disableStatusbar
  dst := b.dst
  src := b.src
  dstRect := b.dstRect
  srcRect := b.srcRect

/-! ## 2. The code -/

/-- `set_image`, with where the image is. -/
def Handle.setImage (hnd : Handle) (rhs : Image) : StoredImg :=
  { Copybit.setImage rhs with
    offset := if rhs.usesGpu then u32 (hnd.offset + hnd.mapOffset) else u32 hnd.offset
    memoryId := if rhs.usesGpu then hnd.gpuFd else hnd.fd }

/-- `MDP_TRANSP_NOP`, and the flags that are taken out, as in `linux/msm_mdp.h`. -/
def transpNop : Nat := 0xffffffff

def blendFgPremult : BitVec 32 := 0x20000

def dither : BitVec 32 := 0x8

def Blit.setInfos (b : Blit) (req : BlitReq) : BlitReq :=
  let flags := b.mFlags.setWidth 32 &&& ~~~ blendFgPremult
  { req with
    alpha := b.mAlpha.toNat
    transpMask := transpNop
    flags := if req.src.format.isYuv then flags &&& ~~~ dither else flags }

/-- `set_rects`, on the entry it is given. -/
def Blit.setRects (b : Blit) (e : BlitReq) (scissor : Rect) : BlitReq :=
  let r := Copybit.setRects b.call.transform e.src.toMdpImg e.dst.toMdpImg b.dstRect b.srcRect
    scissor
  { e with srcRect := r.1, dstRect := r.2 }

/-- `MULDIV` assumes that it does not divide by 0. -/
def Call.DividesByZero (c : Call) : Prop :=
  let width := u32 (c.dstRect.r - c.dstRect.l)
  let height := u32 (c.dstRect.b - c.dstRect.t)
  let divX := if c.transform.rot90 then height else width
  let divY := if c.transform.rot90 then width else height
  (u32 (c.srcRect.r - c.srcRect.l) ≠ divX ∧ divX = 0) ∨
    (u32 (c.srcRect.b - c.srcRect.t) ≠ divY ∧ divY = 0)

instance (c : Call) : Decidable c.DividesByZero := inferInstanceAs (Decidable (_ ∨ _))

/-- The entry `e` after a turn for one rectangle of the region. -/
def Blit.entry (b : Blit) (e : BlitReq) (clip : Rect) : BlitReq :=
  let clip := intersect (whole b.dst.w b.dst.h) clip
  let e := { e with dst := b.dstHandle.setImage b.dst }
  let e := { e with src := b.srcHandle.setImage b.src }
  let e := b.setInfos e
  b.setRects e clip

def imgToK (u : StoredImg) : KernelImg where
  width := u.width
  height := u.height
  format := u.format
  offset := u.offset
  memoryId := u.memoryId
  priv := 0

/-- An entry of `klist`, as the loop of `msm_copybit` writes it. -/
def reqToK (u : BlitReq) : KernelReq where
  src := imgToK u.src
  dst := imgToK u.dst
  srcRect := u.srcRect
  dstRect := u.dstRect
  alpha := u.alpha
  transpMask := u.transpMask
  flags := u.flags
  sharpeningStrength := 0

/-- The loop of `msm_copybit` from the index `i` on, with the turns that are left. -/
def copyEntries (req : List BlitReq) : Nat → Nat → List KernelReq → Option (List KernelReq)
  | 0, _, kreq => some kreq
  | left + 1, i, kreq =>
    match req[i]? with
    | none => none
    | some u =>
      if i < kreq.length then copyEntries req left (i + 1) (kreq.set i (reqToK u)) else none

/-- What is in the arrays before they are written: the one of the call, and the one of each
    `msm_copybit`. -/
structure Stack where
  req : List BlitReq
  kreq : Nat → List KernelReq
  req_length : req.length = maxCount
  kreq_length : ∀ n, (kreq n).length = maxCount

/-- `list` and `status`, and what `ioctl` was given. -/
structure Filling where
  req : List BlitReq
  count : Nat
  sent : List KernelList
  status : Int

/-- `msm_copybit`. -/
def Filling.msmCopybit (s : Filling) (kernel : Nat → Nat) (stack : Stack) : Option Filling :=
  if maxCount < s.count then some { s with status := -EINVAL }
  else
    match copyEntries s.req s.count 0 (stack.kreq s.sent.length) with
    | none => none
    | some kreq =>
      some { s with
        sent := s.sent ++ [{ count := s.count, req := kreq.take s.count }]
        status := -kernel s.sent.length }

/-- **A turn of the loop of `stretch_copybit`.** -/
def Blit.turn (b : Blit) (kernel : Nat → Nat) (stack : Stack) (s : Filling) (clip : Rect) :
    Option Filling :=
  if b.call.DividesByZero then none
  else
    match s.req[s.count]? with
    | none => none
    | some e =>
      let req := b.entry e clip
      let s := { s with req := s.req.set s.count req }
      -- the entry is written, and does not count
      if req.srcRect.w = 0 ∨ req.srcRect.h = 0 then some s
      else if req.dstRect.w = 0 ∨ req.dstRect.h = 0 then some s
      else
        let s := { s with count := s.count + 1 }
        if s.count = maxCount then
          (s.msmCopybit kernel stack).map fun s => { s with count := 0 }
        else some s

/-- The loop: it ends with the region, or with a status that is not 0. -/
def Blit.loop (b : Blit) (kernel : Nat → Nat) (stack : Stack) :
    List Rect → Filling → Option Filling
  | [], s => some s
  | clip :: region, s =>
    if s.status = 0 then (b.turn kernel stack s clip).bind (b.loop kernel stack region) else some s

/-- The last batch. -/
def Filling.finish (s : Filling) (kernel : Nat → Nat) (stack : Stack) : Option Filling :=
  if s.status = 0 ∧ s.count ≠ 0 then s.msmCopybit kernel stack else some s

/-- **`stretch_copybit`**, from its tests to its last batch. -/
def Blit.stretchCopybit (b : Blit) (kernel : Nat → Nat) (stack : Stack) (region : List Rect) :
    Option Filling :=
  if b.call.Refused then some { req := stack.req, count := 0, sent := [], status := -EINVAL }
  else
    (b.loop kernel stack region { req := stack.req, count := 0, sent := [], status := 0 }).bind
      fun s => s.finish kernel stack

/-! ## 3. The copy -/

section Copy

variable {req : List BlitReq}

theorem take_succ_set {α : Type} {l : List α} {i : Nat} (h : i < l.length) (x : α) :
    (l.set i x).take (i + 1) = l.take i ++ [x] := by
  rw [List.take_succ_eq_append_getElem (by rw [List.length_set]; exact h), List.getElem_set_self,
    List.take_set_of_le (Nat.le_refl i)]

/-- **The loop of `msm_copybit`** writes one entry after the other, and no other. -/
theorem copyEntries_spec (left i : Nat) (kreq : List KernelReq) (hreq : i + left ≤ req.length)
    (hkreq : i + left ≤ kreq.length) :
    ∃ out, copyEntries req left i kreq = some out ∧
      out.take (i + left) = kreq.take i ++ ((req.drop i).take left).map reqToK := by
  induction left generalizing i kreq with
  | zero => exact ⟨kreq, rfl, by simp⟩
  | succ left ih =>
    have hi : i < req.length := by omega
    have hik : i < kreq.length := by omega
    obtain ⟨out, hout, htake⟩ := ih (i + 1) (kreq.set i (reqToK req[i])) (by omega)
      (by rw [List.length_set]; omega)
    refine ⟨out, ?_, ?_⟩
    · rw [copyEntries, List.getElem?_eq_getElem hi]
      exact (if_pos hik).trans hout
    · rw [show i + (left + 1) = i + 1 + left by omega, htake, take_succ_set hik,
        List.drop_eq_getElem_cons hi, List.take_succ_cons, List.map_cons, List.append_assoc]
      rfl

end Copy

/-! ## 4. The array and the requests that are collected -/

section Mirrors

variable {b : Blit} {s : Filling} {handed : List (List Request)} {list : List Request}
  {clip : Rect} {r : Request}

/-- A request with every field of its entry. -/
def Blit.stored (b : Blit) (r : Request) : BlitReq :=
  b.setInfos {
    src := b.srcHandle.setImage b.src
    dst := b.dstHandle.setImage b.dst
    srcRect := r.srcRect
    dstRect := r.dstRect
    alpha := 0
    transpMask := 0
    flags := 0 }

/-- A batch in the kernel's layout. -/
def Blit.kernelList (b : Blit) (batch : List Request) : KernelList where
  count := batch.length
  req := batch.map fun r => reqToK (b.stored r)

/-- **The array mirrors what is collected**: the entries that count are its requests. -/
structure Mirrors (b : Blit) (handed : List (List Request)) (list : List Request) (s : Filling) :
    Prop where
  room : s.req.length = maxCount
  count : s.count = list.length
  collected : s.req.take s.count = list.map b.stored
  sent : s.sent = handed.map b.kernelList

/-- A turn writes every field of its entry. -/
theorem entry_rects (b : Blit) (e : BlitReq) (clip : Rect) :
    ((b.entry e clip).srcRect, (b.entry e clip).dstRect) =
      rects b.call.transform b.call.srcImg b.call.dstImg b.call.dstRect b.call.srcRect clip :=
  rfl

theorem entry_of_request (h : b.call.request clip = some r) (e : BlitReq) :
    b.entry e clip = b.stored r := by
  obtain ⟨-, hrects, -, -⟩ := request_eq_some h
  rw [← entry_rects b e] at hrects
  obtain ⟨hsrc, hdst⟩ := Prod.mk.inj hrects
  rw [Blit.stored, ← hsrc, ← hdst]
  rfl

/-- An entry that is written, and does not count. -/
theorem Mirrors.skip (h : Mirrors b handed list s) (e : BlitReq) :
    Mirrors b handed list { s with req := s.req.set s.count e } where
  room := by rw [List.length_set]; exact h.room
  count := h.count
  collected := by
    rw [List.take_set_of_le (Nat.le_refl _)]
    exact h.collected
  sent := h.sent

/-- An entry that counts. -/
theorem Mirrors.collect (h : Mirrors b handed list s) (hlist : list.length < maxCount)
    (r : Request) :
    Mirrors b handed (list ++ [r])
      { s with req := s.req.set s.count (b.stored r), count := s.count + 1 } where
  room := by rw [List.length_set]; exact h.room
  count := by simp [h.count]
  collected := by
    have hcount : s.count < s.req.length := by rw [h.room, h.count]; exact hlist
    dsimp only
    rw [take_succ_set hcount, h.collected, List.map_append]
    rfl
  sent := h.sent

/-- **`msm_copybit` hands over what is collected.** -/
theorem Mirrors.msmCopybit (h : Mirrors b handed list s) (hlist : list.length ≤ maxCount)
    (kernel : Nat → Nat) (stack : Stack) :
    s.msmCopybit kernel stack = some { s with
      sent := (handed ++ [list]).map b.kernelList
      status := -kernel handed.length } := by
  have hlength : s.sent.length = handed.length := by rw [h.sent, List.length_map]
  obtain ⟨kreq, hkreq, htake⟩ := copyEntries_spec s.count 0 (stack.kreq s.sent.length)
    (show 0 + s.count ≤ s.req.length by rw [h.room, h.count]; omega)
    (show 0 + s.count ≤ _ by rw [stack.kreq_length, h.count]; omega)
  have hbatch : KernelList.mk s.count (kreq.take s.count) = b.kernelList list := by
    rw [Nat.zero_add, List.take_zero, List.nil_append, List.drop_zero, h.collected,
      List.map_map] at htake
    rw [htake, h.count]
    rfl
  rw [Filling.msmCopybit, if_neg (by rw [h.count]; omega), hkreq]
  dsimp only
  rw [hbatch, hlength, h.sent, List.map_append]
  rfl

/-- A turn that makes no request. -/
theorem Mirrors.turn_none (h : Mirrors b handed list s) (hlist : list.length < maxCount)
    (hdiv : ¬ b.call.DividesByZero) (hreq : b.call.request clip = none) (kernel : Nat → Nat)
    (stack : Stack) :
    ∃ s', b.turn kernel stack s clip = some s' ∧ s'.status = s.status ∧
      Mirrors b handed list s' := by
  have hcount : s.count < s.req.length := by rw [h.room, h.count]; exact hlist
  have hempty := (request_none_iff (entry_rects b s.req[s.count] clip).symm).mp hreq
  refine ⟨_, ?_, ?_, h.skip (b.entry s.req[s.count] clip)⟩
  · rw [Blit.turn, if_neg hdiv, List.getElem?_eq_getElem hcount]
    dsimp only
    by_cases hsrc : (b.entry s.req[s.count] clip).srcRect.w = 0 ∨
        (b.entry s.req[s.count] clip).srcRect.h = 0
    · rw [if_pos hsrc]
    · rw [if_neg hsrc, if_pos (hempty.resolve_left hsrc)]
  · rfl

/-- A turn that makes one: the entry counts, and the twelfth is handed over with the others. -/
theorem Mirrors.turn_some (h : Mirrors b handed list s) (hlist : list.length < maxCount)
    (hdiv : ¬ b.call.DividesByZero) (hreq : b.call.request clip = some r) (kernel : Nat → Nat)
    (stack : Stack) :
    ∃ s', b.turn kernel stack s clip = some s' ∧
      (list.length + 1 = maxCount → s'.status = -kernel handed.length ∧
        Mirrors b (handed ++ [list ++ [r]]) [] s') ∧
      (list.length + 1 ≠ maxCount → s'.status = s.status ∧ Mirrors b handed (list ++ [r]) s') := by
  have hcount : s.count < s.req.length := by rw [h.room, h.count]; exact hlist
  obtain ⟨-, -, hsrc, hdst⟩ := request_eq_some hreq
  have hsrc' : ¬ ((b.stored r).srcRect.w = 0 ∨ (b.stored r).srcRect.h = 0) := by
    show ¬ (r.srcRect.w = 0 ∨ r.srcRect.h = 0)
    omega
  have hdst' : ¬ ((b.stored r).dstRect.w = 0 ∨ (b.stored r).dstRect.h = 0) := by
    show ¬ (r.dstRect.w = 0 ∨ r.dstRect.h = 0)
    omega
  have hentry := entry_of_request hreq s.req[s.count]
  have hnext := h.collect hlist r
  have hturn : b.turn kernel stack s clip =
      if s.count + 1 = maxCount then
        (Filling.msmCopybit
          { s with req := s.req.set s.count (b.stored r), count := s.count + 1 } kernel stack).map
            fun s => { s with count := 0 }
      else some { s with req := s.req.set s.count (b.stored r), count := s.count + 1 } := by
    rw [Blit.turn, if_neg hdiv, List.getElem?_eq_getElem hcount]
    dsimp only
    rw [hentry, if_neg hsrc', if_neg hdst']
  rw [h.count] at hturn
  by_cases hfull : list.length + 1 = maxCount
  · rw [if_pos hfull, ← h.count, hnext.msmCopybit (by simp; omega)] at hturn
    refine ⟨_, hturn, fun _ => ⟨rfl, ?_⟩, fun hne => absurd hfull hne⟩
    exact { room := hnext.room, count := rfl, collected := rfl, sent := rfl }
  · rw [if_neg hfull, ← h.count] at hturn
    exact ⟨_, hturn, fun hne => absurd hne hfull, fun _ => ⟨rfl, hnext⟩⟩

end Mirrors

/-! ## 5. The loop -/

section Loop

variable {b : Blit} {kernel : Nat → Nat} {stack : Stack} {s : Filling}
  {handed : List (List Request)} {list : List Request}

/-- Whether the kernel accepts a batch. -/
def accepting (kernel : Nat → Nat) (n : Nat) : Bool := kernel n == 0

/-- The result of the detailed call is that of the other. -/
def Shows (b : Blit) (out : Outcome) (s : Filling) : Prop :=
  s.sent = out.handed.map b.kernelList ∧ (s.status = 0 ↔ out.ok = true)

theorem status_iff (kernel : Nat → Nat) (n : Nat) :
    -(kernel n : Int) = 0 ↔ accepting kernel n = true := by
  rw [accepting, beq_iff_eq]
  omega

/-- Nothing happens behind a status that is not 0. -/
theorem loop_stopped (h : s.status ≠ 0) (region : List Rect) :
    (b.loop kernel stack region s).bind (fun s => s.finish kernel stack) = some s := by
  have hloop : b.loop kernel stack region s = some s := by
    cases region with
    | nil => rfl
    | cons clip region => exact if_neg h
  rw [hloop]
  exact if_neg fun hstatus => h hstatus.1

/-- The last batch. -/
theorem Mirrors.finish (h : Mirrors b handed list s) (hstatus : s.status = 0)
    (hlist : list.length < maxCount) (c : Call) :
    ∃ s', s.finish kernel stack = some s' ∧
      Shows b (c.loop (accepting kernel) handed list []) s' := by
  unfold Call.loop
  by_cases hempty : list.length = 0
  · rw [if_pos hempty]
    refine ⟨s, if_neg ?_, h.sent, iff_of_true hstatus rfl⟩
    rw [h.count]
    exact fun hcount => hcount.2 hempty
  · rw [if_neg hempty, msmCopybit_eq _ _ (by omega), Filling.finish,
      if_pos ⟨hstatus, by rw [h.count]; exact hempty⟩]
    exact ⟨_, h.msmCopybit (by omega) kernel stack, rfl, status_iff kernel _⟩

/-- **The loop fills its array as the other collects its requests.** -/
theorem Mirrors.loop (h : Mirrors b handed list s) (hstatus : s.status = 0)
    (hlist : list.length < maxCount) (hdiv : ¬ b.call.DividesByZero) (region : List Rect) :
    ∃ s', (b.loop kernel stack region s).bind (fun s => s.finish kernel stack) = some s' ∧
      Shows b (b.call.loop (accepting kernel) handed list region) s' := by
  induction region generalizing handed list s with
  | nil => exact h.finish hstatus hlist b.call
  | cons clip region ih =>
    have hloop : b.loop kernel stack (clip :: region) s =
        (b.turn kernel stack s clip).bind (b.loop kernel stack region) := if_pos hstatus
    rw [hloop]
    cases hreq : b.call.request clip with
    | none =>
      obtain ⟨s', hturn, hsame, hmirrors⟩ := h.turn_none hlist hdiv hreq kernel stack
      rw [hturn, Call.loop, hreq]
      exact ih hmirrors (hsame.trans hstatus) hlist
    | some r =>
      obtain ⟨s', hturn, hfull, hroom⟩ := h.turn_some hlist hdiv hreq kernel stack
      have hlength : (list ++ [r]).length = list.length + 1 := by simp
      rw [hturn, Call.loop, hreq]
      dsimp only [Option.bind_some]
      rw [hlength]
      by_cases hmax : list.length + 1 = maxCount
      · obtain ⟨hsent, hmirrors⟩ := hfull hmax
        rw [if_pos hmax, msmCopybit_eq _ _ (by omega)]
        dsimp only
        by_cases hok : accepting kernel handed.length = true
        · rw [if_pos hok]
          exact ih hmirrors (hsent.trans ((status_iff kernel _).mpr hok)) (by decide)
        · have hfailed : s'.status ≠ 0 := by
            rw [hsent]
            exact fun h => hok ((status_iff kernel _).mp h)
          rw [if_neg hok, loop_stopped hfailed]
          exact ⟨s', rfl, hmirrors.sent, iff_of_false hfailed hok⟩
      · obtain ⟨hsame, hmirrors⟩ := hroom hmax
        rw [if_neg hmax]
        exact ih hmirrors (hsame.trans hstatus) (by omega)

/-- **The batches are those of the call without its handles**, with every field of their entries, in
    the kernel's layout. -/
theorem stretch_refines (b : Blit) (hdiv : ¬ b.call.DividesByZero) (kernel : Nat → Nat)
    (stack : Stack) (region : List Rect) :
    ∃ s, b.stretchCopybit kernel stack region = some s ∧
      Shows b (stretchCopybit b.call (accepting kernel) region) s := by
  unfold Blit.stretchCopybit stretchCopybit
  by_cases hrefused : b.call.Refused
  · rw [if_pos hrefused, if_pos hrefused]
    exact ⟨_, rfl, rfl, iff_of_false (show (-EINVAL : Int) ≠ 0 by decide) (by decide)⟩
  · rw [if_neg hrefused, if_neg hrefused]
    refine Mirrors.loop ?_ rfl (by decide) hdiv region
    exact { room := stack.req_length, count := rfl, collected := rfl, sent := rfl }

end Loop

/-! ## 6. What the kernel receives -/

/-- The kernel's layout of a request: every field as it was, and 0 in those that the kernel adds. -/
structure Carried (u : BlitReq) (k : KernelReq) : Prop where
  src : k.src.toStoredImg = u.src
  dst : k.dst.toStoredImg = u.dst
  srcRect : k.srcRect = u.srcRect
  dstRect : k.dstRect = u.dstRect
  alpha : k.alpha = u.alpha
  transpMask : k.transpMask = u.transpMask
  flags : k.flags = u.flags
  added : k.src.priv = 0 ∧ k.dst.priv = 0 ∧ k.sharpeningStrength = 0

theorem reqToK_carried (u : BlitReq) : Carried u (reqToK u) where
  src := rfl
  dst := rfl
  srcRect := rfl
  dstRect := rfl
  alpha := rfl
  transpMask := rfl
  flags := rfl
  added := ⟨rfl, rfl, rfl⟩

/-- The requests of a region, those that are empty left out. -/
def Blit.requests (b : Blit) (region : List Rect) : List BlitReq :=
  (b.call.requests region).map b.stored

/-- **What becomes of the requests of a region.** -/
structure Delivered (b : Blit) (kernel : Nat → Nat) (region : List Rect) (s : Filling) : Prop where
  /-- A batch has one request at least, and twelve at most. -/
  sizes : ∀ batch ∈ s.sent, (1 ≤ batch.count ∧ batch.count ≤ 12) ∧ batch.req.length = batch.count
  /-- The kernel gets the first of them, in the order of the region. -/
  first : ∃ n, List.Forall₂ Carried ((b.requests region).take n) (s.sent.flatMap KernelList.req)
  /-- If the call succeeds, it gets all of them. -/
  all : s.status = 0 → List.Forall₂ Carried (b.requests region) (s.sent.flatMap KernelList.req)
  /-- Behind a batch that fails there is no other. -/
  stops : ∀ n, n + 1 < s.sent.length → kernel n = 0
  /-- The call succeeds when and only when no batch failed. -/
  status : s.status = 0 ↔ ∀ n < s.sent.length, kernel n = 0

section Delivered

variable {b : Blit} {kernel : Nat → Nat}

theorem forall₂_carried (us : List BlitReq) : List.Forall₂ Carried us (us.map reqToK) := by
  rw [List.forall₂_map_right_iff]
  exact List.forall₂_same.mpr fun u _ => reqToK_carried u

/-- The requests of the batches, one after another. -/
theorem flatMap_kernelList (b : Blit) (handed : List (List Request)) :
    (handed.map b.kernelList).flatMap KernelList.req =
      (handed.flatten.map b.stored).map reqToK := by
  induction handed with
  | nil => rfl
  | cons batch handed ih =>
    have hbatch : (b.kernelList batch).req = (batch.map b.stored).map reqToK := by
      rw [List.map_map]
      rfl
    rw [List.map_cons, List.flatMap_cons, ih, hbatch, List.flatten_cons, List.map_append,
      List.map_append]

theorem accepting_iff {n : Nat} : accepting kernel n = true ↔ kernel n = 0 := beq_iff_eq

/-- **Every region, every answer of the kernel**: the requests that are not empty reach it in the
    order of the region, each of them once, in batches of one to twelve, until a batch fails. -/
theorem region_delivered (b : Blit) (hrefused : ¬ b.call.Refused)
    (hdiv : ¬ b.call.DividesByZero) (kernel : Nat → Nat) (stack : Stack) (region : List Rect) :
    ∃ s, b.stretchCopybit kernel stack region = some s ∧ Delivered b kernel region s := by
  obtain ⟨s, hs, hsent, hstatus⟩ := stretch_refines b hdiv kernel stack region
  have hands := stretch_hands hrefused (accepting kernel) region
  generalize stretchCopybit b.call (accepting kernel) region = out at hsent hstatus hands
  have hlength : s.sent.length = out.handed.length := by rw [hsent, List.length_map]
  have hreqs : s.sent.flatMap KernelList.req = (out.handed.flatten.map b.stored).map reqToK := by
    rw [hsent]
    exact flatMap_kernelList b out.handed
  refine ⟨s, hs, ?_, ?_, ?_, ?_, ?_⟩
  · intro batch hbatch
    rw [hsent] at hbatch
    obtain ⟨requests, hmem, rfl⟩ := List.mem_map.mp hbatch
    exact ⟨hands.sizes requests hmem, List.length_map _⟩
  · obtain ⟨rest, hrest⟩ := hands.first
    refine ⟨out.handed.flatten.length, ?_⟩
    have htake : (b.requests region).take out.handed.flatten.length =
        out.handed.flatten.map b.stored := by
      rw [Blit.requests, ← hrest, List.map_append, List.take_left' (List.length_map _)]
    rw [hreqs, htake]
    exact forall₂_carried _
  · intro hzero
    rw [hreqs, hands.all (hstatus.mp hzero)]
    exact forall₂_carried _
  · intro n hn
    rw [hlength] at hn
    exact accepting_iff.mp (hands.accepted n hn)
  · rw [hstatus, hands.ok_iff, hlength]
    exact forall₂_congr fun n _ => accepting_iff

end Delivered

/-- Arrays of zeros. -/
def zeros : Stack where
  req := List.replicate 12 ⟨⟨⟨0, 0, .none⟩, 0, 0⟩, ⟨⟨0, 0, .none⟩, 0, 0⟩, ⟨0, 0, 0, 0⟩,
    ⟨0, 0, 0, 0⟩, 0, 0, 0⟩
  kreq _ := List.replicate 12 ⟨⟨⟨⟨0, 0, .none⟩, 0, 0⟩, 0⟩, ⟨⟨⟨0, 0, .none⟩, 0, 0⟩, 0⟩,
    ⟨0, 0, 0, 0⟩, ⟨0, 0, 0, 0⟩, 0, 0, 0, 0⟩
  req_length := rfl
  kreq_length _ := rfl

/-- A picture on a screen, dithered. -/
def picture : Blit where
  mAlpha := 255
  mFlags := 8
  disableStatusbar := true
  dst := { w := 320, h := 480, format := .rgb565, usesGpu := false }
  dstHandle := { offset := 0, mapOffset := 0, fd := 7, gpuFd := -1 }
  src := { w := 200, h := 100, format := .rgba8888, usesGpu := true }
  srcHandle := { offset := 4096, mapOffset := 8192, fd := 8, gpuFd := 9 }
  dstRect := { l := 0, t := 0, r := 200, b := 100 }
  srcRect := { l := 0, t := 0, r := 200, b := 100 }

/-- Fourteen columns of the screen; the fifth is empty. -/
def columns : List Rect :=
  (List.range 14).map fun i => ⟨10 * i, 0, if i = 4 then 40 else 10 * i + 10, 480⟩

/-- The thirteen requests go in two batches, and only the first is sent if it fails. -/
theorem region_delivered_columns :
    ((picture.stretchCopybit (fun _ => 0) zeros columns).map fun s =>
      (s.sent.map KernelList.count, s.status)) = some ([12, 1], 0) ∧
    ((picture.stretchCopybit (fun _ => 22) zeros columns).map fun s =>
      (s.sent.map KernelList.count, s.status)) = some ([12], -22) ∧
    ∀ kernel, ∃ s, picture.stretchCopybit kernel zeros columns = some s ∧
      Delivered picture kernel columns s :=
  ⟨by decide, by decide, fun kernel =>
    region_delivered picture (by decide) (by decide) kernel zeros columns⟩

end Y210.Copybit

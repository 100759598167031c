/-
  File:      Y210/Gralloc/MapFramebuffer.lean
  Subject:   THE FRAMEBUFFER IS MAPPED ONCE: `mapFrameBufferLocked` of framebuffer.cpp.

  The device is opened, in up to 30 attempts while the panel is suspended; the driver is asked for
  the screen; the handle is made, and the memory mapped. What the calls return is arbitrary, and
  given with each call. A call that fails has set `errno`.

  The handle is in the module before `mmap` is called, and "already initialised" means that there is
  a handle. A mapping that fails leaves one behind that is not mapped.

  * `openLoop` -- the attempts;
  * `mapFrameBufferLocked` -- the function;
  * `MapLaw`, `framebuffer_mapped_or_retried` -- what it should do, and does where the mapping does
    not fail;
  * `unmapped_framebuffer` -- where it fails.
-/
import Y210.Gralloc.BufferLock
import Y210.Lib.Run

namespace Y210.Gralloc.Fb

open Y210.Lib
open Y210.Gralloc.Mapper (privFlagsUsesPmem)

/-! ## 1. The module -/

def EPERM : Int := 1

/-- The `errno` of a call that failed. -/
structure Errno where
  value : Int
  positive : 0 < value

/-- `fb_fix_screeninfo`. -/
structure FixInfo where
  smemLen : Nat
  lineLength : Nat
  deriving DecidableEq

/-- `fb_var_screeninfo`. -/
structure VarInfo where
  xres : Nat
  yres : Nat
  yresVirtual : Nat
  leftMargin : Nat
  rightMargin : Nat
  upperMargin : Nat
  lowerMargin : Nat
  pixclock : Nat
  deriving DecidableEq

/-- The formats a screen is opened in. -/
inductive FbFormat where
  | rgbx8888
  | rgba8888
  deriving DecidableEq

/-- `private_handle_t`. -/
structure PrivateHandle where
  fd : Int
  size : Int
  flags : BitVec 32
  offset : Int
  base : Nat
  lockState : BitVec 32
  deriving DecidableEq

def PrivateHandle.create (fd size : Int) (flags : BitVec 32) : PrivateHandle :=
  ⟨fd, size, flags, 0, 0, 0⟩

/-- `private_module_t`; `pageFlip` is its only flag. -/
structure PrivateModule where
  framebuffer : Option PrivateHandle
  fbFormat : Option FbFormat
  pageFlip : Bool
  numBuffers : Nat
  bufferMask : Nat
  info : VarInfo
  finfo : FixInfo
  deriving DecidableEq

/-- `roundUpToPageSize`. -/
def roundUpToPageSize (x : Nat) : Nat := word (x + pagesize - 1) / pagesize * pagesize

/-! ## 2. The attempts -/

/-- What `open` returns for `/dev/graphics/fb0`, and for `/dev/fb0`. -/
structure OpenTry where
  graphics : Except Errno Nat
  dev : Except Errno Nat

/-- One attempt: the second device is tried if the first does not exist. -/
def openFb (t : OpenTry) : Except Errno Nat :=
  match t.graphics with
  | .ok fd => .ok fd
  | .error e => if e.value = ENOENT then t.dev else .error e

/-- The loop, with so many attempts left: a descriptor or `saved_errno`, and the attempts made. The
    first time "on" is written to `/sys/power/state`; nothing of that is read here. -/
def openLoop (tries : Nat → OpenTry) : Nat → Nat → Errno → Except Errno Nat × Nat
  | 0, attempt, savedErrno => (.error savedErrno, attempt)
  | left + 1, attempt, _ =>
    match openFb (tries attempt) with
    | .ok fd => (.ok fd, attempt + 1)
    | .error e =>
      if e.value ≠ EPERM then (.error e, attempt + 1) else openLoop tries left (attempt + 1) e

theorem openLoop_attempts (tries : Nat → OpenTry) (left attempt : Nat) (e : Errno) :
    (openLoop tries left attempt e).2 ≤ attempt + left := by
  induction left generalizing attempt e with
  | zero => exact Nat.le_refl _
  | succ left ih =>
      unfold openLoop
      split
      · simp only
        omega
      · split
        · simp only
          omega
        · have := ih (attempt + 1) (by assumption)
          omega

theorem le_openLoop_attempts (tries : Nat → OpenTry) (left attempt : Nat) (e : Errno) :
    attempt ≤ (openLoop tries left attempt e).2 := by
  induction left generalizing attempt e with
  | zero => exact Nat.le_refl _
  | succ left ih =>
      unfold openLoop
      split
      · exact Nat.le_succ _
      · split
        · exact Nat.le_succ _
        · exact Nat.le_of_succ_le (ih (attempt + 1) _)

/-- With an attempt left there is one. -/
theorem openLoop_once (tries : Nat → OpenTry) (left attempt : Nat) (e : Errno) :
    attempt + 1 ≤ (openLoop tries (left + 1) attempt e).2 := by
  unfold openLoop
  split
  · exact Nat.le_refl _
  · split
    · exact Nat.le_refl _
    · exact le_openLoop_attempts tries left (attempt + 1) _

/-! ## 3. The function -/

/-- What the calls return: the attempts to open the device, the screen before it is set up, whether
    `debug.sf.hw` is set to 0, the screen set up and read again, the `errno` that is left by then,
    the descriptor from `dup`, and the address from `mmap`. -/
structure MapOutcome where
  tries : Nat → OpenTry
  fix₁ : Except Errno FixInfo
  var₁ : Except Errno VarInfo
  noHw : Bool
  put : Except Errno VarInfo
  var₂ : Except Errno VarInfo
  fix₂ : Except Errno FixInfo
  errno : Int
  dup : Int
  map : Except Errno Nat

/-- What a picosecond count is divided by for the refresh rate. -/
def VarInfo.frame (i : VarInfo) : Nat :=
  word (i.upperMargin + i.lowerMargin + i.yres) * word (i.leftMargin + i.rightMargin + i.xres) *
    i.pixclock % 2 ^ 64

/-- The screen as the driver sets it up can show one buffer while another is drawn. -/
def pageFlip : Except Errno VarInfo → Bool
  | .error _ => false
  | .ok info => !decide (info.yresVirtual < word (info.yres * 2))

/-- From the first `FBIOGET_FSCREENINFO` to the test of `smem_len`: what is returned, or the
    screen; `none` is a division by zero. -/
def readScreen (m : PrivateModule) (o : MapOutcome) :
    Option (PrivateModule × Except Int (VarInfo × FixInfo)) :=
  match o.fix₁, o.var₁ with
  | .error e, _ => some (m, .error (-e.value))
  | .ok _, .error e => some (m, .error (-e.value))
  | .ok _, .ok _ =>
    let m := { m with fbFormat := some (if o.noHw then .rgbx8888 else .rgba8888) }
    match o.var₂ with
    | .error e => some (m, .error (-e.value))
    | .ok info =>
      if info.frame = 0 then none
      else match o.fix₂ with
        | .error e => some (m, .error (-e.value))
        | .ok finfo =>
          if finfo.smemLen = 0 then some (m, .error (-o.errno)) else some (m, .ok (info, finfo))

/-- What a call leaves: the module, what is returned, the attempts to open the device, and the
    mapping that was made, as address and size. -/
structure MapResult where
  module : PrivateModule
  err : Int
  attempts : Nat
  mapping : Option (Nat × Nat)
  deriving DecidableEq

/-- From the handle to the end; `none` is a division by zero. -/
def mapScreen (m : PrivateModule) (o : MapOutcome) (attempts : Nat) (info : VarInfo)
    (finfo : FixInfo) : Option MapResult :=
  if info.yres = 0 then none
  else
    let fbSize := roundUpToPageSize (word (finfo.lineLength * info.yresVirtual))
    let hnd := PrivateHandle.create o.dup (ssize fbSize) privFlagsUsesPmem
    let m := { m with
      pageFlip := pageFlip o.put, info := info, finfo := finfo, framebuffer := some hnd
      numBuffers := info.yresVirtual / info.yres, bufferMask := 0 }
    match o.map with
    | .error e => some ⟨m, -e.value, attempts, none⟩
    | .ok vaddr =>
      some ⟨{ m with framebuffer := some { hnd with base := vaddr } }, 0, attempts,
        some (vaddr, fbSize)⟩

def mapFrameBufferLocked (m : PrivateModule) (o : MapOutcome) : Option MapResult :=
  if m.framebuffer.isSome then some ⟨m, 0, 0, none⟩
  else
    let opened := openLoop o.tries 30 0 ⟨ENOENT, by decide⟩
    match opened.1 with
    | .error e => some ⟨m, -e.value, opened.2, none⟩
    | .ok _ => do
      match ← readScreen m o with
      | (m, .error err) => return ⟨m, err, opened.2, none⟩
      | (m, .ok (info, finfo)) => mapScreen m o opened.2 info finfo

/-! ## 4. Calls -/

/-- The module, and the mappings the process has of the screen. -/
structure State where
  module : PrivateModule
  mapped : List (Nat × Nat)
  deriving DecidableEq

/-- The mappings after a call. -/
def State.mappedBy (s : State) (r : MapResult) : List (Nat × Nat) := r.mapping.toList ++ s.mapped

def State.step (s : State) (o : MapOutcome) : Option State :=
  (mapFrameBufferLocked s.module o).map fun r => ⟨r.module, s.mappedBy r⟩

/-- `HAL_MODULE_INFO_SYM`. -/
def State.first : State := ⟨⟨none, none, false, 0, 0, ⟨0, 0, 0, 0, 0, 0, 0, 0⟩, ⟨0, 0⟩⟩, []⟩

/-- The driver reports memory. -/
def MapOutcome.hasMemory (o : MapOutcome) : Bool :=
  match o.fix₂ with
  | .error _ => true
  | .ok finfo => finfo.smemLen != 0

/-- **The usual case**: `mmap` does not fail, and a screen without memory comes with an `errno`. It
    matters only while there is no handle. -/
def State.usual (s : State) (o : MapOutcome) : Bool :=
  s.module.framebuffer.isSome || (o.map.isOk && (o.hasMemory || decide (o.errno ≠ 0)))

/-- The handle is mapped. -/
def Mapped (m : PrivateModule) (mapped : List (Nat × Nat)) : Prop :=
  ∃ hnd n, m.framebuffer = some hnd ∧ hnd.size = ssize n ∧ (hnd.base, n) ∈ mapped

/-- **What a call should do**: it returns 0 only with the handle mapped; after an error the next
    call opens the device again; and there are at most 30 attempts. -/
structure MapLaw (mapped : List (Nat × Nat)) (r : MapResult) : Prop where
  zero : r.err = 0 → Mapped r.module mapped
  again : r.err ≠ 0 → ∀ o r', mapFrameBufferLocked r.module o = some r' → 1 ≤ r'.attempts
  attempts : r.attempts ≤ 30

/-! ## 5. What a call does -/

section Call

variable {m m' : PrivateModule} {o : MapOutcome} {r : MapResult} {s s' : State}

/-- The screen is read without touching the handle, and an error is one. -/
theorem readScreen_spec {x : Except Int (VarInfo × FixInfo)}
    (h : readScreen m o = some (m', x)) :
    m'.framebuffer = m.framebuffer ∧
      ∀ err, x = .error err → (o.hasMemory || decide (o.errno ≠ 0)) = true → err ≠ 0 := by
  -- a call that failed has set `errno`
  have hfailed : ∀ (e : Errno) (n : PrivateModule),
      some (n, Except.error (-e.value)) = some (m', x) → n.framebuffer = m.framebuffer →
        m'.framebuffer = m.framebuffer ∧
        ∀ err, x = .error err → (o.hasMemory || decide (o.errno ≠ 0)) = true → err ≠ 0 := by
    intro e n hret hn
    cases hret
    refine ⟨hn, fun err herr _ => ?_⟩
    cases herr
    have := e.positive
    omega
  unfold readScreen at h
  cases hfix₁ : o.fix₁ with
  | error e =>
      simp only [hfix₁] at h
      exact hfailed e m h rfl
  | ok f =>
  cases hvar₁ : o.var₁ with
  | error e =>
      simp only [hfix₁, hvar₁] at h
      exact hfailed e m h rfl
  | ok i =>
  cases hvar₂ : o.var₂ with
  | error e =>
      simp only [hfix₁, hvar₁, hvar₂] at h
      exact hfailed e _ h rfl
  | ok info =>
  simp only [hfix₁, hvar₁, hvar₂] at h
  by_cases hframe : info.frame = 0
  · rw [if_pos hframe] at h
    cases h
  rw [if_neg hframe] at h
  cases hfix₂ : o.fix₂ with
  | error e =>
      simp only [hfix₂] at h
      exact hfailed e _ h rfl
  | ok finfo =>
      simp only [hfix₂] at h
      by_cases hlen : finfo.smemLen = 0
      · -- the `errno` that is returned is a stale one
        simp only [if_pos hlen, Option.some.injEq, Prod.mk.injEq] at h
        obtain ⟨rfl, rfl⟩ := h
        refine ⟨rfl, fun err herr hcond => ?_⟩
        cases herr
        simp only [MapOutcome.hasMemory, hfix₂, hlen, bne_self_eq_false, Bool.false_or,
          decide_eq_true_eq] at hcond
        omega
      · simp only [if_neg hlen, Option.some.injEq, Prod.mk.injEq] at h
        obtain ⟨rfl, rfl⟩ := h
        exact ⟨rfl, fun err herr => by cases herr⟩

theorem mapScreen_attempts {attempts : Nat} {info : VarInfo} {finfo : FixInfo}
    (h : mapScreen m o attempts info finfo = some r) : r.attempts = attempts := by
  unfold mapScreen at h
  split at h
  · cases h
  · cases hmap : o.map <;> simp only [hmap, Option.some.injEq] at h <;> rw [← h]

/-- A mapping that is made is the handle's. -/
theorem mapScreen_mapped {attempts : Nat} {info : VarInfo} {finfo : FixInfo} {vaddr : Nat}
    (h : mapScreen m o attempts info finfo = some r) (hmap : o.map = .ok vaddr) :
    r.err = 0 ∧ Mapped r.module r.mapping.toList := by
  unfold mapScreen at h
  split at h
  · cases h
  · simp only [hmap, Option.some.injEq] at h
    rw [← h]
    exact ⟨rfl, _, _, rfl, rfl, List.mem_singleton.mpr rfl⟩

/-- **A call without a handle** opens the device, at most 30 times. -/
theorem attempts_bounds (hnone : m.framebuffer = none) (h : mapFrameBufferLocked m o = some r) :
    1 ≤ r.attempts ∧ r.attempts ≤ 30 := by
  have hge := openLoop_once o.tries 29 0 ⟨ENOENT, by decide⟩
  have hle := openLoop_attempts o.tries 30 0 ⟨ENOENT, by decide⟩
  simp only [mapFrameBufferLocked, hnone, Option.isSome_none, Bool.false_eq_true, if_false] at h
  split at h
  · cases h
    exact ⟨hge, hle⟩
  · obtain ⟨⟨m', x⟩, -, h⟩ := Option.bind_eq_some_iff.mp h
    cases x with
    | error err =>
        cases h
        exact ⟨hge, hle⟩
    | ok screen =>
        rw [mapScreen_attempts h]
        exact ⟨hge, hle⟩

/-- **A usual call without a handle** maps it, or leaves the module without one. -/
theorem map_cases (hnone : m.framebuffer = none) (hmap : o.map.isOk = true)
    (hmem : (o.hasMemory || decide (o.errno ≠ 0)) = true)
    (h : mapFrameBufferLocked m o = some r) :
    (r.err = 0 ∧ Mapped r.module r.mapping.toList) ∨
      (r.err ≠ 0 ∧ r.module.framebuffer = none) := by
  simp only [mapFrameBufferLocked, hnone, Option.isSome_none, Bool.false_eq_true, if_false] at h
  split at h
  · rename_i e _
    cases h
    have := e.positive
    exact .inr ⟨by simp only; omega, hnone⟩
  · obtain ⟨⟨m', x⟩, hread, h⟩ := Option.bind_eq_some_iff.mp h
    obtain ⟨hsame, herr⟩ := readScreen_spec hread
    cases x with
    | error err =>
        cases h
        exact .inr ⟨herr err rfl hmem, hsame.trans hnone⟩
    | ok screen =>
        cases hok : o.map with
        | error e => simp [hok, Except.isOk, Except.toBool] at hmap
        | ok vaddr => exact .inl (mapScreen_mapped h hok)

theorem Mapped.mono {mapped more : List (Nat × Nat)} (h : Mapped m mapped) :
    Mapped m (mapped ++ more) := by
  obtain ⟨hnd, n, hfb, hsize, hmem⟩ := h
  exact ⟨hnd, n, hfb, hsize, List.mem_append_left _ hmem⟩

/-- The handle is mapped, or there is none. -/
def State.Ready (s : State) : Prop := s.module.framebuffer = none ∨ Mapped s.module s.mapped

/-- **What a usual call does**, and leaves. -/
theorem State.Ready.call (h : s.Ready) (husual : s.usual o = true)
    (hcall : mapFrameBufferLocked s.module o = some r) :
    MapLaw (s.mappedBy r) r ∧ State.Ready ⟨r.module, s.mappedBy r⟩ := by
  by_cases hnone : s.module.framebuffer = none
  · simp only [State.usual, hnone, Option.isSome_none, Bool.false_or, Bool.and_eq_true] at husual
    have hattempts := attempts_bounds hnone hcall
    rcases map_cases hnone husual.1 husual.2 hcall with ⟨herr, hmapped⟩ | ⟨herr, hstill⟩
    · exact ⟨⟨fun _ => hmapped.mono, fun hne => absurd herr hne, hattempts.2⟩, .inr hmapped.mono⟩
    · exact ⟨⟨fun hzero => absurd hzero herr, fun _ o' r' hcall' =>
        (attempts_bounds hstill hcall').1, hattempts.2⟩, .inl hstill⟩
  · have hmapped := h.resolve_left hnone
    have hsome : s.module.framebuffer.isSome = true := Option.isSome_iff_ne_none.mpr hnone
    simp only [mapFrameBufferLocked, if_pos hsome, Option.some.injEq] at hcall
    subst hcall
    exact ⟨⟨fun _ => hmapped, fun hne => absurd rfl hne, Nat.zero_le _⟩, .inr hmapped⟩

end Call

/-- **A call that returns 0 leaves the handle mapped, and one that fails is followed by another
    attempt**, in every run of usual calls; and no call opens the device more than 30 times. -/
theorem framebuffer_mapped_or_retried {s : State}
    (hr : Reach State.step (fun s o => s.usual o = true) State.first s) {o : MapOutcome}
    (husual : s.usual o = true) {r : MapResult}
    (hcall : mapFrameBufferLocked s.module o = some r) : MapLaw (s.mappedBy r) r := by
  have hready : s.Ready := by
    refine hr.inv (.inl rfl) fun s o s' h hu hs => ?_
    obtain ⟨r, hcall, rfl⟩ := Option.map_eq_some_iff.mp hs
    exact (h.call hu hcall).2
  exact (hready.call husual hcall).1

/-- The screen of the phone: 320 by 480, two buffers. -/
def screen : VarInfo := ⟨320, 480, 960, 16, 16, 4, 4, 25000⟩

/-- The calls for it, with what `open`, `mmap` and the second `FBIOGET_FSCREENINFO` return. -/
def screenCalls (t : OpenTry) (finfo : FixInfo) (map : Except Errno Nat) : MapOutcome where
  tries := fun _ => t
  fix₁ := .ok finfo
  var₁ := .ok screen
  noHw := false
  put := .ok screen
  var₂ := .ok screen
  fix₂ := .ok finfo
  errno := 0
  dup := 6
  map := map

/-- The panel is suspended for too long; the next call maps the screen. -/
theorem framebuffer_mapped_or_retried_resume :
    ∃ s r, Reach State.step (fun s o => s.usual o = true) State.first s ∧ s.mapped = [] ∧
      mapFrameBufferLocked s.module (screenCalls ⟨.ok 5, .ok 5⟩ ⟨1228800, 1280⟩ (.ok 4096)) =
        some r ∧
      r.err = 0 ∧ MapLaw (s.mappedBy r) r := by
  have hrun : runTest State.step State.usual State.first
      [screenCalls ⟨.error ⟨EPERM, by decide⟩, .ok 5⟩ ⟨1228800, 1280⟩ (.ok 4096)]
      (fun s => decide (s.mapped = []) &&
        s.usual (screenCalls ⟨.ok 5, .ok 5⟩ ⟨1228800, 1280⟩ (.ok 4096)) &&
        (mapFrameBufferLocked s.module (screenCalls ⟨.ok 5, .ok 5⟩ ⟨1228800, 1280⟩ (.ok 4096))).any
          fun r => decide (r.err = 0)) = true := by
    decide
  obtain ⟨s, hr, hlast⟩ := reach_of_runTest hrun
  obtain ⟨hlast, hcall⟩ := (Bool.and_eq_true _ _).mp hlast
  obtain ⟨hmapped, husual⟩ := (Bool.and_eq_true _ _).mp hlast
  obtain ⟨r, hcall, herr⟩ := Option.any_eq_true _ _ |>.mp hcall
  exact ⟨s, r, hr, of_decide_eq_true hmapped, hcall, of_decide_eq_true herr,
    framebuffer_mapped_or_retried hr husual hcall⟩

/-- **A framebuffer that is not mapped.** `mmap` fails with `ENOMEM`: the call returns that, and the
    next one, whatever the system would do in it, returns 0 without opening the device and without
    a mapping. And a screen without memory, reported with no `errno` left over from before, makes
    the first call return 0 without a handle. -/
theorem unmapped_framebuffer :
    (∃ r, mapFrameBufferLocked State.first.module
        (screenCalls ⟨.ok 5, .ok 5⟩ ⟨1228800, 1280⟩ (.error ⟨ENOMEM, by decide⟩)) = some r ∧
      r.err = -ENOMEM ∧ r.mapping = none ∧
      ∀ o, mapFrameBufferLocked r.module o = some ⟨r.module, 0, 0, none⟩) ∧
    ∃ r, mapFrameBufferLocked State.first.module
        (screenCalls ⟨.ok 5, .ok 5⟩ ⟨0, 1280⟩ (.ok 4096)) = some r ∧
      r.err = 0 ∧ r.module.framebuffer = none := by
  constructor
  · refine ⟨_, rfl, rfl, rfl, fun o => ?_⟩
    rfl
  · exact ⟨_, rfl, rfl, rfl⟩

end Y210.Gralloc.Fb

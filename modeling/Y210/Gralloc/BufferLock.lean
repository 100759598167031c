/-
  File:      Y210/Gralloc/BufferLock.lean
  Subject:   LOCKING A BUFFER: `gralloc_lock` and `gralloc_unlock` of mapper.cpp.

  The lock of a buffer is one word of its handle: a bit for the writer, a bit for "mapped", and a
  count. Any number of threads change it by compare-and-swap; the writer's thread id is stored
  beside it, in an access of its own. A step is one access of the handle by one thread; the accesses
  one statement makes to `flags` are one step. What `mmap` returns is arbitrary.

  A thread has a lock from the swap that takes it to the swap that gives it back. The swap comes
  before the mapping, and a mapping that fails does not undo it.

  * `lockCount`, `writeBit` -- the word, and what each operation makes of it;
  * `Agrees` -- the word agrees with the locks that are out: any number of readers, or one writer;
  * `Move` -- what a step does to the word: each is a step of that abstract lock, or none;
  * `lock_word_agrees` -- the word agrees in every run in which no mapping fails;
  * `failed_map_stays_locked` -- the lock nobody has.
-/
import Mathlib.Data.BitVec
import Mathlib.Logic.Function.Basic
import Mathlib.Tactic.Common
import Y210.Gralloc.Allocator
import Y210.Lib.History
import Y210.Lib.Indexed

namespace Y210.Gralloc.Mapper

open Y210.Lib

/-! ## 1. The handle -/

def lockStateWrite : BitVec 32 := 0x80000000
def lockStateMapped : BitVec 32 := 0x40000000
def lockStateReadMask : BitVec 32 := 0x3FFFFFFF

def privFlagsFramebuffer : BitVec 32 := 0x00000001
def privFlagsUsesPmem : BitVec 32 := 0x00000002
def privFlagsUsesPmemAdsp : BitVec 32 := 0x00000004
def privFlagsNeedsFlush : BitVec 32 := 0x00000008

def pmemMask : BitVec 32 := privFlagsUsesPmem ||| privFlagsUsesPmemAdsp

def usageSwReadMask : BitVec 32 := 0x0000000F
def usageSwWriteMask : BitVec 32 := 0x000000F0
def usageHwRender : BitVec 32 := 0x00000200

def EBUSY : Int := 16

/-- `private_handle_t`. -/
structure Handle where
  version : Nat
  numFds : Nat
  numInts : Nat
  magic : Nat
  flags : BitVec 32
  offset : BitVec 32
  base : BitVec 32
  lockState : BitVec 32
  writeOwner : Int
  deriving DecidableEq

/-- `private_handle_t::validate`. -/
def Handle.validate (h : Handle) : Int :=
  -- `sizeof(native_handle)`, `sNumInts`, `sNumFds` and `sMagic` ('gmsm')
  if h.version ≠ 12 ∨ h.numInts ≠ 10 ∨ h.numFds ≠ 1 ∨ h.magic ≠ 0x676D736D then -EINVAL else 0

/-- `gralloc_map`, with the address `mmap` returns or the `errno` it fails with: the handle,
    `*vaddr`, and what is returned. -/
def grallocMap (h : Handle) (vaddr : BitVec 32) (mmap : Except Int (BitVec 32)) :
    Handle × BitVec 32 × Int :=
  if h.flags &&& privFlagsFramebuffer = 0 then
    match mmap with
    | .ok addr => ({ h with base := addr + h.offset }, addr + h.offset, 0)
    | .error errno => ({ h with base := 0 }, vaddr, -errno)
  else (h, h.base, 0)

/-! ## 2. Threads -/

/-- What a lock is for. -/
inductive Mode where
  | read
  | write
  deriving DecidableEq

/-- `usage & (GRALLOC_USAGE_SW_WRITE_MASK | GRALLOC_USAGE_HW_RENDER)`. -/
def modeOf (usage : BitVec 32) : Mode :=
  if usage &&& (usageSwWriteMask ||| usageHwRender) ≠ 0 then .write else .read

/-- Where a thread stands, with `usage`, `current_value`, `new_value` and `err`. -/
inductive Pc where
  | idle
  -- `gralloc_lock`
  | lockRead (usage : BitVec 32)
  | lockSwap (usage current new : BitVec 32)
  | lockOwn (usage current : BitVec 32)
  | lockFlag (usage current : BitVec 32)
  | mapEnter (usage : BitVec 32)
  | mapCheck (usage : BitVec 32)
  | mapCall (usage : BitVec 32)
  | mapSet (usage : BitVec 32)
  | mapLeave (usage : BitVec 32) (err : Int)
  | address (usage : BitVec 32) (err : Int)
  -- `gralloc_unlock`
  | unlockStart
  | unlockFlush
  | unlockRead
  | unlockOwner (current : BitVec 32)
  | unlockDisown (current : BitVec 32)
  | unlockSwap (current new : BitVec 32)
  deriving DecidableEq

/-- A thread: its id, the locks it was given and has not given back, `*vaddr`, and what its last
    call returned. -/
structure Thread where
  tid : Int
  pc : Pc
  held : List Mode
  vaddr : BitVec 32
  err : Int
  deriving DecidableEq

/-- The handle, and the thread that has `sMapLock`. -/
structure Shared where
  handle : Handle
  sMapLock : Option Int
  deriving DecidableEq

def Shared.setLockState (g : Shared) (w : BitVec 32) : Shared :=
  { g with handle := { g.handle with lockState := w } }

def Shared.setWriteOwner (g : Shared) (tid : Int) : Shared :=
  { g with handle := { g.handle with writeOwner := tid } }

def Shared.setFlags (g : Shared) (flags : BitVec 32) : Shared :=
  { g with handle := { g.handle with flags := flags } }

def Thread.at (t : Thread) (pc : Pc) : Thread := { t with pc := pc }

/-- `gralloc_lock` returns. -/
def Thread.locked (t : Thread) (usage : BitVec 32) (err : Int) : Thread :=
  { t with pc := .idle, err := err, held := if err = 0 then modeOf usage :: t.held else t.held }

/-- The loop of `gralloc_lock`: the new value, or `none` where it returns `-EBUSY`. -/
def lockedValue (usage current : BitVec 32) : Option (BitVec 32) :=
  if current &&& lockStateWrite ≠ 0 then none
  else if current &&& lockStateReadMask ≠ 0 ∧ modeOf usage = .write then none
  else some ((if modeOf usage = .write then current ||| lockStateWrite else current) + 1)

/-- The flags `gralloc_lock` leaves. -/
def flagged (usage flags : BitVec 32) : BitVec 32 :=
  if usage &&& usageSwWriteMask ≠ 0 ∧ flags &&& pmemMask ≠ 0 ∧
      flags &&& privFlagsFramebuffer = 0 then
    flags ||| privFlagsNeedsFlush
  else flags

/-- `gralloc_lock` behind the flags: it maps, or goes on to the address, or returns. -/
def Thread.flagged (t : Thread) (usage current : BitVec 32) : Thread :=
  if usage &&& (usageSwReadMask ||| usageSwWriteMask) ≠ 0 then
    t.at (if current &&& lockStateMapped = 0 then .mapEnter usage else .address usage 0)
  else t.locked usage 0

/-- **One access** of a thread that is in a call. -/
def run (g : Shared) (t : Thread) (mmap : Except Int (BitVec 32)) : Option (Shared × Thread) :=
  let h := g.handle
  match t.pc with
  | .idle => none
  | .lockRead usage =>
    match lockedValue usage h.lockState with
    | some new => some (g, t.at (.lockSwap usage h.lockState new))
    | none => some (g, t.locked usage (-EBUSY))
  | .lockSwap usage current new =>
    if h.lockState = current then
      some (g.setLockState new,
        t.at (if new &&& lockStateWrite ≠ 0 then .lockOwn usage current
          else .lockFlag usage current))
    else some (g, t.at (.lockRead usage))
  | .lockOwn usage current => some (g.setWriteOwner t.tid, t.at (.lockFlag usage current))
  | .lockFlag usage current => some (g.setFlags (flagged usage h.flags), t.flagged usage current)
  | .mapEnter usage =>
    if g.sMapLock = none then some ({ g with sMapLock := some t.tid }, t.at (.mapCheck usage))
    else none
  | .mapCheck usage =>
    some (g, t.at (if h.lockState &&& lockStateMapped = 0 then .mapCall usage
      else .mapLeave usage 0))
  | .mapCall usage =>
    let r := grallocMap h t.vaddr mmap
    some ({ g with handle := r.1 },
      { t with pc := if r.2.2 = 0 then .mapSet usage else .mapLeave usage r.2.2, vaddr := r.2.1 })
  | .mapSet usage =>
    some (g.setLockState (h.lockState ||| lockStateMapped), t.at (.mapLeave usage 0))
  | .mapLeave usage err => some ({ g with sMapLock := none }, t.at (.address usage err))
  | .address usage err => some (g, { t.locked usage err with vaddr := h.base })
  | .unlockStart =>
    some (g, t.at (if h.flags &&& privFlagsNeedsFlush ≠ 0 then .unlockFlush else .unlockRead))
  | .unlockFlush => some (g.setFlags (h.flags &&& ~~~privFlagsNeedsFlush), t.at .unlockRead)
  | .unlockRead =>
    some (g, t.at (if h.lockState &&& lockStateWrite ≠ 0 then .unlockOwner h.lockState
      else .unlockSwap h.lockState h.lockState))
  | .unlockOwner current =>
    some (g, t.at (if h.writeOwner = t.tid then .unlockDisown current
      else .unlockSwap current current))
  | .unlockDisown current =>
    some (g.setWriteOwner 0, t.at (.unlockSwap current (current &&& ~~~lockStateWrite)))
  | .unlockSwap current new =>
    if new &&& lockStateReadMask = 0 then some (g, { t with pc := .idle, err := -EINVAL })
    else if h.lockState = current then
      some (g.setLockState (new - 1), { t with pc := .idle, err := 0, held := t.held.tail })
    else some (g, t.at .unlockRead)

/-! ## 3. The machine -/

structure State where
  shared : Shared
  threads : List Thread
  deriving DecidableEq

inductive Act where
  | lock (i : Nat) (usage : BitVec 32)
  | unlock (i : Nat)
  | run (i : Nat) (mmap : Except Int (BitVec 32))

def Act.thread : Act → Nat
  | .lock i _ | .unlock i | .run i _ => i

/-- A thread that is in no call enters `gralloc_lock`. -/
def Thread.enterLock (t : Thread) (h : Handle) (usage : BitVec 32) : Option Thread :=
  if t.pc = .idle then
    some (if h.validate < 0 then t.locked usage (-EINVAL) else t.at (.lockRead usage))
  else none

/-- A thread that has a lock and is in no call enters `gralloc_unlock`. -/
def Thread.enterUnlock (t : Thread) (h : Handle) : Option Thread :=
  if t.pc = .idle ∧ t.held ≠ [] then
    some (if h.validate < 0 then { t with err := -EINVAL } else t.at .unlockStart)
  else none

/-- What an action does to the shared part and to its thread. -/
def act (g : Shared) (t : Thread) : Act → Option (Shared × Thread)
  | .lock _ usage => (t.enterLock g.handle usage).map (g, ·)
  | .unlock _ => (t.enterUnlock g.handle).map (g, ·)
  | .run _ mmap => Mapper.run g t mmap

/-- **One step.** -/
def step (s : State) (a : Act) : Option State := do
  let t ← s.threads[a.thread]?
  let r ← act s.shared t a
  return ⟨r.1, s.threads.set a.thread r.2⟩

/-- A buffer that is not locked, and threads that are in no call. -/
def first (h : Handle) (tids : List Int) : State :=
  ⟨⟨h, none⟩, tids.map fun tid => ⟨tid, .idle, [], 0, 0⟩⟩

/-! ## 4. The locks that are out -/

/-- The count. -/
def lockCount (w : BitVec 32) : Nat := (w &&& lockStateReadMask).toNat

/-- The WRITE bit. -/
def writeBit (w : BitVec 32) : Bool := decide (w &&& lockStateWrite ≠ 0)

/-- The lock a call of `gralloc_lock` has taken, unless it is going to return an error. -/
def Pc.taken : Pc → Option Mode
  | .lockOwn usage _ | .lockFlag usage _ | .mapEnter usage | .mapCheck usage | .mapCall usage
  | .mapSet usage => some (modeOf usage)
  | .mapLeave usage err | .address usage err => if err = 0 then some (modeOf usage) else none
  | _ => none

def Thread.outstanding (t : Thread) : List Mode := t.pc.taken.toList ++ t.held

/-- **The outstanding locks** of all threads. -/
def State.outstanding (s : State) : List Mode := s.threads.flatMap Thread.outstanding

/-- **The usual case**: `gralloc_map` succeeds, and the count has room for one more. -/
def usualStep (g : Shared) (t : Thread) : Act → Bool
  | .run _ mmap =>
    match t.pc with
    | .lockSwap _ current _ => decide (lockCount current + 1 < 2 ^ 30)
    | .mapCall _ => decide ((grallocMap g.handle t.vaddr mmap).2.2 = 0)
    | _ => true
  | _ => true

def State.usual (s : State) (a : Act) : Bool := s.threads[a.thread]?.all (usualStep s.shared · a)

/-! ## 5. What the past was -/

def Act.begins : Act → Bool
  | .run _ _ => false
  | _ => true

/-- Whether the call each thread is in has changed the count or the WRITE bit. -/
def touch (s : State) (a : Act) (s' : State) (g : Nat → Bool) : Nat → Bool :=
  let w := s.shared.handle.lockState
  let w' := s'.shared.handle.lockState
  Function.update g a.thread
    ((!a.begins && g a.thread) || lockCount w != lockCount w' || writeBit w != writeBit w')

def Pc.inLock : Pc → Bool
  | .lockRead _ | .lockSwap .. | .lockOwn .. | .lockFlag .. | .mapEnter _ | .mapCheck _ | .mapCall _
  | .mapSet _ | .mapLeave .. | .address .. => true
  | _ => false

/-- The action is one of `gralloc_lock`. -/
def Act.locks : Act → Thread → Bool
  | .lock .., _ => true
  | .unlock _, _ => false
  | .run .., t => t.pc.inLock

/-- The action ends a `gralloc_lock` of its thread, and the call returns an error. -/
def failsLock (t : Thread) (a : Act) (t' : Thread) : Bool :=
  a.locks t && decide (t'.pc = .idle ∧ t'.err ≠ 0)

/-! ## 6. The word -/

section Word

variable {usage w w' b : BitVec 32}

theorem lockCount_eq (w : BitVec 32) : lockCount w = w.toNat % 2 ^ 30 := by
  unfold lockCount
  rw [BitVec.toNat_and]
  exact Nat.and_two_pow_sub_one_eq_mod _ 30

theorem writeBit_msb (w : BitVec 32) : writeBit w = w.msb := by
  have hbit : w &&& lockStateWrite = if w.msb then lockStateWrite else 0 := BitVec.and_twoPow w 31
  unfold writeBit
  rw [hbit]
  cases w.msb <;> decide

theorem writeBit_eq (w : BitVec 32) : writeBit w = decide (2 ^ 31 ≤ w.toNat) := by
  rw [writeBit_msb, BitVec.msb_eq_decide]

theorem writeBit_iff : writeBit w = true ↔ w &&& lockStateWrite ≠ 0 := decide_eq_true_iff

theorem lockCount_eq_zero : lockCount w = 0 ↔ w &&& lockStateReadMask = 0 :=
  ⟨fun h => BitVec.eq_of_toNat_eq h, fun h => congrArg BitVec.toNat h⟩

theorem lockCount_or (h : lockCount b = 0) : lockCount (w ||| b) = lockCount w := by
  rw [lockCount_eq] at *
  rw [lockCount_eq, BitVec.toNat_or, Nat.or_mod_two_pow, h, Nat.or_zero]

theorem writeBit_or (w b : BitVec 32) : writeBit (w ||| b) = (writeBit w || writeBit b) := by
  rw [writeBit_msb, writeBit_msb, writeBit_msb, BitVec.msb_or]

theorem lockCount_clear (w : BitVec 32) : lockCount (w &&& ~~~lockStateWrite) = lockCount w := by
  unfold lockCount
  rw [BitVec.and_assoc]
  congr 2

theorem writeBit_clear (w : BitVec 32) : writeBit (w &&& ~~~lockStateWrite) = false := by
  rw [writeBit_msb, BitVec.msb_and]
  exact Bool.and_false _

/-- One lock more. -/
theorem word_add_one (h : lockCount w + 1 < 2 ^ 30) :
    lockCount (w + 1) = lockCount w + 1 ∧ writeBit (w + 1) = writeBit w := by
  have hadd : (w + 1).toNat = w.toNat + 1 := by
    have := w.isLt
    rw [lockCount_eq] at h
    rw [BitVec.toNat_add]
    exact Nat.mod_eq_of_lt (by simp; omega)
  rw [lockCount_eq, lockCount_eq, writeBit_eq, writeBit_eq, hadd] at *
  exact ⟨by omega, decide_eq_decide.mpr (by omega)⟩

/-- One lock less. -/
theorem word_sub_one (h : 0 < lockCount w) :
    lockCount (w - 1) = lockCount w - 1 ∧ writeBit (w - 1) = writeBit w := by
  have hsub : (w - 1).toNat = w.toNat - 1 := by
    rw [lockCount_eq] at h
    bv_omega
  rw [lockCount_eq, lockCount_eq, writeBit_eq, writeBit_eq, hsub] at *
  exact ⟨by omega, decide_eq_decide.mpr (by omega)⟩

/-- **The loop of `gralloc_lock`** finds no writer, and for a writer nobody at all. -/
theorem lockedValue_spec (h : lockedValue usage w = some w') (hroom : lockCount w + 1 < 2 ^ 30) :
    writeBit w = false ∧ (modeOf usage = .write → lockCount w = 0) ∧
      lockCount w' = lockCount w + 1 ∧ writeBit w' = decide (modeOf usage = .write) := by
  unfold lockedValue at h
  by_cases hwrite : w &&& lockStateWrite ≠ 0
  · rw [if_pos hwrite] at h
    cases h
  rw [if_neg hwrite] at h
  have hbit : writeBit w = false := decide_eq_false hwrite
  by_cases hbusy : w &&& lockStateReadMask ≠ 0 ∧ modeOf usage = .write
  · rw [if_pos hbusy] at h
    cases h
  rw [if_neg hbusy] at h
  cases h
  cases hmode : modeOf usage with
  | read =>
      obtain ⟨hcount, hsame⟩ := word_add_one hroom
      refine ⟨hbit, nofun, ?_, ?_⟩
      · simpa using hcount
      · simpa [hbit] using hsame
  | write =>
      have hnone : lockCount w = 0 :=
        lockCount_eq_zero.mpr (Classical.byContradiction fun hne => hbusy ⟨hne, hmode⟩)
      have hor : lockCount (w ||| lockStateWrite) = lockCount w := lockCount_or (by decide)
      obtain ⟨hcount, hsame⟩ := word_add_one (hor ▸ hroom)
      refine ⟨hbit, fun _ => hnone, ?_, ?_⟩
      · simpa [hor] using hcount
      · have hset : writeBit lockStateWrite = true := by decide
        simpa [writeBit_or, hset] using hsame

end Word

/-! ## 7. Any number of readers, or one writer -/

/-- **The word agrees with the locks that are out.** -/
structure Agrees (w : BitVec 32) (l : List Mode) : Prop where
  count : lockCount w = l.length
  write : writeBit w = true ↔ .write ∈ l
  alone : .write ∈ l → l = [.write]

/-- **What a step does** to the word and to the locks of its thread. -/
inductive Move (w : BitVec 32) : List Mode → BitVec 32 → List Mode → Prop where
  | still (l : List Mode) : Move w l w l
  | mapped {l : List Mode} (h : l ≠ []) : Move w l (w ||| lockStateMapped) l
  | taken {usage w' : BitVec 32} (l : List Mode) (h : lockedValue usage w = some w')
      (hroom : lockCount w + 1 < 2 ^ 30) : Move w l w' (modeOf usage :: l)
  | readBack (l : List Mode) : Move w (.read :: l) (w - 1) l
  | writeBack : Move w [.write] ((w &&& ~~~lockStateWrite) - 1) []

section Abstract

variable {w w' : BitVec 32} {l l' rest : List Mode}

theorem Agrees.perm (h : Agrees w l) (hp : l.Perm l') : Agrees w l' := by
  refine ⟨h.count.trans hp.length_eq, h.write.trans hp.mem_iff, fun hw => ?_⟩
  rw [h.alone (hp.mem_iff.mpr hw)] at hp
  exact List.perm_singleton.mp hp.symm

/-- A writer among some of the locks has all of them. -/
theorem Agrees.others (h : Agrees w (l ++ rest)) (hw : .write ∈ rest) :
    writeBit w = true ∧ l = [] := by
  have hmem : Mode.write ∈ l ++ rest := List.mem_append_right l hw
  refine ⟨h.write.mpr hmem, ?_⟩
  have hlen := congrArg List.length (h.alone hmem)
  have hpos := List.length_pos_of_mem hw
  rw [List.length_append, List.length_singleton] at hlen
  exact List.eq_nil_of_length_eq_zero (by omega)

/-- A thread that has a lock of a buffer locked for write is the writer. -/
theorem Agrees.mine (h : Agrees w (l ++ rest)) (hne : l ≠ []) (hw : writeBit w = true) :
    l = [.write] := by
  have hall := h.alone (h.write.mp hw)
  rcases List.append_eq_singleton_iff.mp hall with ⟨hl, -⟩ | ⟨hl, -⟩
  · exact absurd hl hne
  · exact hl

/-- **A step keeps the agreement.** -/
theorem Agrees.move (h : Agrees w (l ++ rest)) (hm : Move w l w' l') : Agrees w' (l' ++ rest) := by
  cases hm with
  | still => exact h
  | mapped hne =>
      have hcount : lockCount (w ||| lockStateMapped) = lockCount w := lockCount_or (by decide)
      have hbit : writeBit lockStateMapped = false := by decide
      refine ⟨hcount.trans h.count, ?_, h.alone⟩
      rw [writeBit_or, hbit, Bool.or_false]
      exact h.write
  | @taken usage _ _ hval hroom =>
      obtain ⟨hfree, hnone, hcount, hbit⟩ := lockedValue_spec hval hroom
      have hreaders : Mode.write ∉ l ++ rest := fun hw => by
        rw [h.write.mpr hw] at hfree
        cases hfree
      have hcount' : lockCount w' = (modeOf usage :: l ++ rest).length := by
        rw [hcount, h.count, List.cons_append, List.length_cons]
      cases hmode : modeOf usage with
      | read =>
          rw [hmode] at hcount' hbit
          refine ⟨hcount', ?_, fun hw => absurd hw (by simpa using hreaders)⟩
          rw [hbit]
          simpa using hreaders
      | write =>
          have hnil : l ++ rest = [] := List.eq_nil_of_length_eq_zero (h.count ▸ hnone hmode)
          rw [hmode] at hcount' hbit
          refine ⟨hcount', ?_, fun _ => congrArg _ hnil⟩
          rw [hbit]
          simp
  | readBack =>
      have hpos : 0 < lockCount w := by
        rw [h.count]
        exact Nat.succ_pos _
      obtain ⟨hcount, hbit⟩ := word_sub_one hpos
      refine ⟨?_, ?_, fun hw => ?_⟩
      · rw [hcount, h.count]
        rfl
      · rw [hbit, h.write]
        simp
      · cases h.alone (List.mem_cons_of_mem _ hw)
  | writeBack =>
      have hall := h.alone List.mem_cons_self
      have hcount := h.count
      rw [hall, ← lockCount_clear] at hcount
      have hpos : 0 < lockCount (w &&& ~~~lockStateWrite) := by
        rw [hcount]
        exact Nat.one_pos
      obtain ⟨hless, hbit⟩ := word_sub_one hpos
      have hrest : rest = [] := (List.cons.inj hall).2
      subst hrest
      refine ⟨?_, ?_, nofun⟩
      · rw [hless, hcount]
        rfl
      · rw [hbit, writeBit_clear]
        simp

/-- Without a lock, and while there is a writer, a step leaves the word as it is. -/
theorem Move.blocked (hm : Move w l w' l') (hw : writeBit w = true) (hnone : l = []) : w' = w := by
  cases hm with
  | still => rfl
  | mapped hne => exact absurd hnone hne
  | taken _ hval hroom =>
      rw [(lockedValue_spec hval hroom).1] at hw
      cases hw
  | readBack | writeBack => cases hnone

end Abstract

/-! ## 8. Where a thread stands -/

/-- What a thread knows where it stands. A writer that gives its lock back has read the word as it
    is, for nobody else can change it. -/
def Pc.Ok (h : Handle) (held : List Mode) : Pc → Prop
  | .lockSwap usage current new => lockedValue usage current = some new
  | .lockOwn usage _ => modeOf usage = .write
  | .mapLeave _ err | .address _ err => err = 0
  | .unlockStart | .unlockFlush | .unlockRead => held ≠ []
  | .unlockOwner current | .unlockDisown current =>
    held = [.write] ∧ current = h.lockState ∧ writeBit current = true
  | .unlockSwap current new =>
    held ≠ [] ∧ (new = current ∧ 0 < lockCount current ∧ .write ∉ held ∨
      new = current &&& ~~~lockStateWrite ∧ held = [.write] ∧ current = h.lockState)
  | _ => True

/-- The owner is stored, and not yet cleared. -/
def Pc.owned : Pc → Bool
  | .lockOwn .. | .unlockSwap .. => false
  | _ => true

/-- In the loop of `gralloc_lock`. -/
def Pc.waits : Pc → Bool
  | .lockRead _ | .lockSwap .. => true
  | _ => false

/-- **A thread is where the handle says.** -/
structure Thread.Ok (h : Handle) (t : Thread) : Prop where
  place : t.pc.Ok h t.held
  owner : .write ∈ t.outstanding → t.pc.owned = true → h.writeOwner = t.tid

section Threads

variable {g g' : Shared} {t t' : Thread} {a : Act} {h h' : Handle} {rest : List Mode}

/-- A thread is not disturbed by the others: while it is the writer, they change nothing. -/
theorem Thread.Ok.frame (hok : t.Ok h)
    (hsame : .write ∈ t.outstanding → h'.lockState = h.lockState ∧ h'.writeOwner = h.writeOwner) :
    t.Ok h' := by
  refine ⟨?_, fun hw howned => (hsame hw).2.trans (hok.owner hw howned)⟩
  have hplace := hok.place
  obtain ⟨tid, pc, held, vaddr, err⟩ := t
  cases pc with
  | unlockOwner current | unlockDisown current =>
      obtain ⟨rfl, hcur, hw⟩ := hplace
      exact ⟨rfl, hcur.trans (hsame (List.mem_singleton.mpr rfl)).1.symm, hw⟩
  | unlockSwap current new =>
      obtain ⟨hne, hread | ⟨hnew, rfl, hcur⟩⟩ := hplace
      · exact ⟨hne, .inl hread⟩
      · exact ⟨hne, .inr ⟨hnew, rfl, hcur.trans (hsame (List.mem_singleton.mpr rfl)).1.symm⟩⟩
  | _ => exact hplace

/-- The count of a thread with a lock is not 0. -/
theorem Agrees.pos {w : BitVec 32} {l : List Mode} (h : Agrees w (l ++ rest)) (hne : l ≠ []) :
    0 < lockCount w := by
  rw [h.count, List.length_append]
  have := List.length_pos_of_ne_nil hne
  omega

theorem grallocMap_keeps (h : Handle) (vaddr : BitVec 32) (mmap : Except Int (BitVec 32)) :
    (grallocMap h vaddr mmap).1.lockState = h.lockState ∧
      (grallocMap h vaddr mmap).1.writeOwner = h.writeOwner := by
  unfold grallocMap
  split
  · cases mmap <;> exact ⟨rfl, rfl⟩
  · exact ⟨rfl, rfl⟩

/-- The lock is taken, or has changed since it was read. -/
theorem lockSwap_move {mmap : Except Int (BitVec 32)} {i : Nat} {usage current new : BitVec 32}
    (hpc : t.pc = .lockSwap usage current new) (hok : t.Ok g.handle)
    (hall : Agrees g.handle.lockState (t.outstanding ++ rest))
    (husual : usualStep g t (.run i mmap) = true) (hrun : run g t mmap = some (g', t')) :
    Move g.handle.lockState t.outstanding g'.handle.lockState t'.outstanding ∧ t'.Ok g'.handle := by
  have hplace := hok.place
  have howner := hok.owner
  obtain ⟨tid, pc, held, vaddr, err⟩ := t
  cases hpc
  simp only [run] at hrun
  split at hrun
  · rename_i hcur
    cases hrun
    have hroom : lockCount current + 1 < 2 ^ 30 := of_decide_eq_true husual
    obtain ⟨hfree, -, -, hbit⟩ := lockedValue_spec hplace hroom
    have hmove : Move current held new (modeOf usage :: held) := .taken held hplace hroom
    subst hcur
    by_cases hw : new &&& lockStateWrite ≠ 0
    · rw [if_pos hw]
      rw [writeBit_iff.mpr hw] at hbit
      have hmode : modeOf usage = .write := of_decide_eq_true hbit.symm
      exact ⟨hmove, hmode, nofun⟩
    · rw [if_neg hw]
      refine ⟨hmove, trivial, fun hmem _ => ?_⟩
      have hread : modeOf usage ≠ .write :=
        of_decide_eq_false (hbit.symm.trans (decide_eq_false hw))
      rcases List.mem_cons.mp hmem with hmode | hmem
      · exact absurd hmode.symm hread
      · rw [hall.write.mpr (List.mem_append_left rest hmem)] at hfree
        cases hfree
  · cases hrun
    exact ⟨.still _, trivial, howner⟩

/-- Whoever unlocks reads whether it is the writer. -/
theorem unlockRead_move {mmap : Except Int (BitVec 32)} (hpc : t.pc = .unlockRead)
    (hok : t.Ok g.handle)
    (hall : Agrees g.handle.lockState (t.outstanding ++ rest))
    (hrun : run g t mmap = some (g', t')) :
    Move g.handle.lockState t.outstanding g'.handle.lockState t'.outstanding ∧ t'.Ok g'.handle := by
  have hplace := hok.place
  have howner := hok.owner
  obtain ⟨tid, pc, held, vaddr, err⟩ := t
  cases hpc
  cases hrun
  by_cases hw : g.handle.lockState &&& lockStateWrite ≠ 0
  · rw [if_pos hw]
    have hbit := writeBit_iff.mpr hw
    exact ⟨.still _, ⟨hall.mine hplace hbit, rfl, hbit⟩, howner⟩
  · rw [if_neg hw]
    have hbit : writeBit g.handle.lockState = false := decide_eq_false hw
    refine ⟨.still _, ⟨hplace, .inl ⟨rfl, hall.pos hplace, fun hmem => ?_⟩⟩, nofun⟩
    rw [hall.write.mpr (List.mem_append_left rest hmem)] at hbit
    cases hbit

/-- The lock is given back, or has changed since it was read. -/
theorem unlockSwap_move {mmap : Except Int (BitVec 32)} {current new : BitVec 32}
    (hpc : t.pc = .unlockSwap current new) (hok : t.Ok g.handle)
    (hall : Agrees g.handle.lockState (t.outstanding ++ rest))
    (hrun : run g t mmap = some (g', t')) :
    Move g.handle.lockState t.outstanding g'.handle.lockState t'.outstanding ∧ t'.Ok g'.handle := by
  have hplace := hok.place
  obtain ⟨tid, pc, held, vaddr, err⟩ := t
  cases hpc
  obtain ⟨hne, hcase⟩ := hplace
  simp only [run] at hrun
  split at hrun
  · rename_i hzero
    have hcount : 0 < lockCount new := by
      rcases hcase with ⟨rfl, hpos, -⟩ | ⟨rfl, -, rfl⟩
      · exact hpos
      · rw [lockCount_clear]
        exact hall.pos hne
    rw [lockCount_eq_zero.mpr hzero] at hcount
    cases hcount
  split at hrun
  · rename_i hcur
    cases hrun
    subst hcur
    rcases hcase with ⟨rfl, -, hread⟩ | ⟨rfl, rfl, -⟩
    · cases held with
      | nil => exact absurd rfl hne
      | cons m l =>
          cases m with
          | read =>
              exact ⟨.readBack l, trivial,
                fun hmem _ => absurd (List.mem_cons_of_mem _ hmem) hread⟩
          | write => exact absurd List.mem_cons_self hread
    · exact ⟨.writeBack, trivial, nofun⟩
  · rename_i hmoved
    cases hrun
    rcases hcase with ⟨-, -, hread⟩ | ⟨-, -, hcur⟩
    · exact ⟨.still _, hne, fun hmem _ => absurd hmem hread⟩
    · exact absurd hcur.symm hmoved

/-- **What a thread's own access does.** -/
theorem run_move {mmap : Except Int (BitVec 32)} {i : Nat} (hok : t.Ok g.handle)
    (hall : Agrees g.handle.lockState (t.outstanding ++ rest))
    (husual : usualStep g t (.run i mmap) = true) (hrun : run g t mmap = some (g', t')) :
    Move g.handle.lockState t.outstanding g'.handle.lockState t'.outstanding ∧ t'.Ok g'.handle := by
  have hplace := hok.place
  have howner := hok.owner
  obtain ⟨tid, pc, held, vaddr, err⟩ := t
  cases pc with
  | idle => cases hrun
  | lockRead usage =>
      simp only [run] at hrun
      split at hrun
      · rename_i new hval
        cases hrun
        exact ⟨.still _, hval, howner⟩
      · cases hrun
        exact ⟨.still _, trivial, howner⟩
  | lockSwap usage current new => exact lockSwap_move rfl hok hall husual hrun
  | lockOwn usage current =>
      cases hrun
      exact ⟨.still _, trivial, fun _ _ => rfl⟩
  | lockFlag usage current =>
      cases hrun
      unfold Thread.flagged
      split
      · split
        · exact ⟨.still _, trivial, howner⟩
        · exact ⟨.still _, rfl, howner⟩
      · exact ⟨.still _, trivial, howner⟩
  | mapEnter usage =>
      simp only [run] at hrun
      split at hrun
      · cases hrun
        exact ⟨.still _, trivial, howner⟩
      · cases hrun
  | mapCheck usage =>
      cases hrun
      split
      · exact ⟨.still _, trivial, howner⟩
      · exact ⟨.still _, rfl, howner⟩
  | mapCall usage =>
      cases hrun
      obtain ⟨hword, hown⟩ := grallocMap_keeps g.handle vaddr mmap
      have hdone : (grallocMap g.handle vaddr mmap).2.2 = 0 := of_decide_eq_true husual
      simp only [if_pos hdone, hword]
      exact ⟨.still _, trivial, fun hmem _ => hown.trans (howner hmem rfl)⟩
  | mapSet usage =>
      cases hrun
      exact ⟨.mapped (List.cons_ne_nil _ _), rfl, howner⟩
  | mapLeave usage err' =>
      cases hrun
      exact ⟨.still _, hplace, howner⟩
  | address usage err' =>
      cases hplace
      cases hrun
      exact ⟨.still _, trivial, howner⟩
  | unlockStart =>
      cases hrun
      split
      · exact ⟨.still _, hplace, howner⟩
      · exact ⟨.still _, hplace, howner⟩
  | unlockFlush =>
      cases hrun
      exact ⟨.still _, hplace, howner⟩
  | unlockRead => exact unlockRead_move rfl hok hall hrun
  | unlockOwner current =>
      cases hrun
      -- it is the writer that is here, so the owner is this thread
      obtain rfl : held = [.write] := hplace.1
      have hown : g.handle.writeOwner = tid := howner List.mem_cons_self rfl
      simp only [if_pos hown]
      exact ⟨.still _, hplace, howner⟩
  | unlockDisown current =>
      cases hrun
      obtain ⟨hheld, hcur, -⟩ := hplace
      exact ⟨.still _, ⟨hheld ▸ List.cons_ne_nil _ _, .inr ⟨rfl, hheld, hcur⟩⟩, nofun⟩
  | unlockSwap current new => exact unlockSwap_move rfl hok hall hrun

/-- **What an action does.** -/
theorem act_move (hok : t.Ok g.handle) (hall : Agrees g.handle.lockState (t.outstanding ++ rest))
    (husual : usualStep g t a = true) (hact : act g t a = some (g', t')) :
    Move g.handle.lockState t.outstanding g'.handle.lockState t'.outstanding ∧ t'.Ok g'.handle := by
  cases a with
  | run i mmap => exact run_move hok hall husual hact
  | lock i usage =>
      obtain ⟨u, henter, hu⟩ := Option.map_eq_some_iff.mp hact
      cases hu
      obtain ⟨tid, pc, held, vaddr, err⟩ := t
      unfold Thread.enterLock at henter
      split at henter
      · rename_i hidle
        cases hidle
        cases henter
        split
        · exact ⟨.still _, trivial, hok.owner⟩
        · exact ⟨.still _, trivial, hok.owner⟩
      · cases henter
  | unlock i =>
      obtain ⟨u, henter, hu⟩ := Option.map_eq_some_iff.mp hact
      cases hu
      obtain ⟨tid, pc, held, vaddr, err⟩ := t
      unfold Thread.enterUnlock at henter
      split at henter
      · rename_i hidle
        obtain ⟨hidle, hheld⟩ := hidle
        cases hidle
        cases henter
        split
        · exact ⟨.still _, trivial, hok.owner⟩
        · exact ⟨.still _, hheld, hok.owner⟩
      · cases henter

/-- A call is entered without touching the handle. -/
theorem act_begins (hbegins : a.begins = true) (hact : act g t a = some (g', t')) : g' = g := by
  cases a with
  | run i mmap => cases hbegins
  | lock i usage | unlock i =>
      obtain ⟨u, -, hu⟩ := Option.map_eq_some_iff.mp hact
      cases hu
      rfl

/-- A thread without a lock does not change the owner. -/
theorem act_owner (hok : t.Ok g.handle) (hnone : t.outstanding = [])
    (hact : act g t a = some (g', t')) : g'.handle.writeOwner = g.handle.writeOwner := by
  cases a with
  | lock i usage | unlock i => rw [act_begins rfl hact]
  | run i mmap =>
      have hplace := hok.place
      obtain ⟨tid, pc, held, vaddr, err⟩ := t
      cases pc with
      | lockOwn usage current => cases hnone
      | unlockDisown current =>
          obtain ⟨hheld, -⟩ := hplace
          cases hheld.symm.trans hnone
      | mapCall usage =>
          cases hact
          exact (grallocMap_keeps g.handle vaddr mmap).2
      | lockRead usage | lockSwap usage current new | mapEnter usage | unlockSwap current new =>
          simp only [act, run] at hact
          grind [Shared.setLockState]
      | idle => cases hact
      | _ =>
          cases hact
          rfl

/-- Outside its loop `gralloc_lock` does not try again, and does not fail. -/
theorem run_settled {mmap : Except Int (BitVec 32)} {i : Nat} (hok : t.Ok g.handle)
    (hrun : run g t mmap = some (g', t')) (hout : t.pc.waits = false)
    (husual : usualStep g t (.run i mmap) = true) :
    t'.pc.waits = false ∧ failsLock t (.run i mmap) t' = false := by
  have hplace := hok.place
  obtain ⟨tid, pc, held, vaddr, err⟩ := t
  cases pc with
  | idle => cases hrun
  | lockRead usage | lockSwap usage current new => cases hout
  | lockFlag usage current =>
      cases hrun
      unfold Thread.flagged
      split
      · split <;> exact ⟨rfl, rfl⟩
      · exact ⟨rfl, rfl⟩
  | mapEnter usage =>
      simp only [run] at hrun
      split at hrun <;> cases hrun
      exact ⟨rfl, rfl⟩
  | mapCheck usage | unlockStart | unlockRead | unlockOwner current =>
      cases hrun
      split <;> exact ⟨rfl, rfl⟩
  | mapCall usage =>
      cases hrun
      simp only [if_pos (of_decide_eq_true husual)]
      exact ⟨rfl, rfl⟩
  | address usage err' =>
      cases hplace
      cases hrun
      exact ⟨rfl, rfl⟩
  | unlockSwap current new =>
      simp only [run] at hrun
      split at hrun
      · cases hrun
        exact ⟨rfl, rfl⟩
      · split at hrun <;> cases hrun <;> exact ⟨rfl, rfl⟩
  | lockOwn usage current | mapSet usage | mapLeave usage err' | unlockFlush
  | unlockDisown current =>
      cases hrun
      exact ⟨rfl, rfl⟩

/-- A call of `gralloc_lock` that tries again, or returns an error, has not changed the word. -/
theorem act_untouched (hok : t.Ok g.handle) (husual : usualStep g t a = true)
    (hact : act g t a = some (g', t')) (h : t'.pc.waits = true ∨ failsLock t a t' = true) :
    g'.handle.lockState = g.handle.lockState ∧ (a.begins = true ∨ t.pc.waits = true) := by
  cases a with
  | lock i usage | unlock i =>
      rw [act_begins rfl hact]
      exact ⟨rfl, .inl rfl⟩
  | run i mmap =>
      cases hwaits : t.pc.waits with
      | false =>
          obtain ⟨hpc, hfails⟩ := run_settled hok hact hwaits husual
          rw [hpc, hfails] at h
          rcases h with h | h <;> cases h
      | true =>
          refine ⟨?_, .inr rfl⟩
          obtain ⟨tid, pc, held, vaddr, err⟩ := t
          cases pc with
          | lockRead usage =>
              simp only [act, run] at hact
              split at hact <;> cases hact <;> rfl
          | lockSwap usage current new =>
              simp only [act, run] at hact
              split at hact
              · -- the swap took the lock: neither of the two
                cases hact
                split at h <;> rcases h with h | h <;> cases h
              · cases hact
                rfl
          | _ => cases hwaits

end Threads

/-! ## 9. Runs -/

/-- **The invariant**: the word agrees with the outstanding locks, and every thread is where the
    handle says. -/
structure Inv (s : State) : Prop where
  agrees : Agrees s.shared.handle.lockState s.outstanding
  ok : ∀ t ∈ s.threads, t.Ok s.shared.handle

/-- A call in the loop of `gralloc_lock` has changed nothing. -/
def Untouched (s : State) (g : Nat → Bool) : Prop :=
  ∀ i t, s.threads[i]? = some t → t.pc.waits = true → g i = false

section Runs

variable {s s' : State} {a : Act} {g : Nat → Bool}

theorem step_eq_some (hs : step s a = some s') :
    ∃ t t', s.threads[a.thread]? = some t ∧ act s.shared t a = some (s'.shared, t') ∧
      s'.threads = s.threads.set a.thread t' := by
  unfold step at hs
  obtain ⟨t, ht, hs⟩ := Option.bind_eq_some_iff.mp hs
  obtain ⟨⟨g', t'⟩, hact, hs⟩ := Option.bind_eq_some_iff.mp hs
  cases hs
  exact ⟨t, t', ht, hact, rfl⟩

theorem usualStep_of {t : Thread} (husual : s.usual a = true)
    (ht : s.threads[a.thread]? = some t) : usualStep s.shared t a = true := by
  simpa [State.usual, ht] using husual

/-- One thread and the others. -/
theorem perm_others {l : List Thread} {i : Nat} {t : Thread} (ht : l[i]? = some t) :
    l.Perm (t :: l.eraseIdx i) := by
  obtain ⟨hi, rfl⟩ := List.getElem?_eq_some_iff.mp ht
  exact (List.getElem_cons_eraseIdx_perm hi).symm

theorem Inv.step (h : Inv s) (husual : s.usual a = true) (hs : step s a = some s') : Inv s' := by
  obtain ⟨t, t', ht, hact, hthreads⟩ := step_eq_some hs
  have hu := usualStep_of husual ht
  have hold := perm_others ht
  have hnew := perm_others (getElem?_set_at t' ht)
  rw [List.eraseIdx_set_eq, ← hthreads] at hnew
  have hall : Agrees s.shared.handle.lockState
      (t.outstanding ++ (s.threads.eraseIdx a.thread).flatMap Thread.outstanding) :=
    h.agrees.perm (hold.flatMap_right _)
  have hok : t.Ok s.shared.handle := h.ok t (hold.mem_iff.mpr List.mem_cons_self)
  obtain ⟨hmove, hok'⟩ := act_move hok hall hu hact
  refine ⟨(hall.move hmove).perm (hnew.flatMap_right _).symm, fun u hmem => ?_⟩
  rcases List.mem_cons.mp (hnew.mem_iff.mp hmem) with rfl | hmem
  · exact hok'
  -- while another thread is the writer, the one that moves has no lock, and changes nothing
  refine (h.ok u (hold.mem_iff.mpr (List.mem_cons_of_mem t hmem))).frame fun hw => ?_
  obtain ⟨hbit, hnone⟩ := hall.others (List.mem_flatMap.mpr ⟨u, hmem, hw⟩)
  exact ⟨hmove.blocked hbit hnone, act_owner hok hnone hact⟩

/-- A step that tries again or fails leaves the mark of its call off. -/
theorem touch_eq_false {t t' : Thread} (h : Inv s) (hg : Untouched s g) (husual : s.usual a = true)
    (ht : s.threads[a.thread]? = some t) (hact : act s.shared t a = some (s'.shared, t'))
    (hlast : t'.pc.waits = true ∨ failsLock t a t' = true) : touch s a s' g a.thread = false := by
  have hu := usualStep_of husual ht
  obtain ⟨hword, hcall⟩ := act_untouched (h.ok t (List.mem_of_getElem? ht)) hu hact hlast
  unfold touch
  rw [Function.update_self, hword]
  rcases hcall with hbegins | hwaits
  · simp [hbegins]
  · simp [hg _ t ht hwaits]

theorem Untouched.step (hg : Untouched s g) (h : Inv s) (husual : s.usual a = true)
    (hs : step s a = some s') : Untouched s' (touch s a s' g) := by
  obtain ⟨t, t', ht, hact, hthreads⟩ := step_eq_some hs
  intro i u hu hwaits
  rw [hthreads] at hu
  rcases getElem?_set_cases ht hu with ⟨rfl, rfl⟩ | ⟨hne, hu⟩
  · exact touch_eq_false h hg husual ht hact (.inl hwaits)
  · unfold touch
    rw [Function.update_of_ne hne]
    exact hg i u hu hwaits

theorem outstanding_first (h : Handle) (tids : List Int) : (first h tids).outstanding = [] := by
  simp [first, State.outstanding, Thread.outstanding, Pc.taken]

theorem inv_first {h : Handle} (tids : List Int) (hcount : lockCount h.lockState = 0)
    (hwrite : writeBit h.lockState = false) : Inv (first h tids) := by
  refine ⟨?_, fun t ht => ?_⟩
  · rw [outstanding_first]
    exact ⟨hcount, by simp [first, hwrite], nofun⟩
  · obtain ⟨tid, -, rfl⟩ := List.mem_map.mp ht
    exact ⟨trivial, nofun⟩

end Runs

/-- Every run of usual steps keeps the invariant. -/
theorem inv_run {h : Handle} {tids : List Int} {s : State} (hcount : lockCount h.lockState = 0)
    (hwrite : writeBit h.lockState = false)
    (hr : Reach step (fun s a => s.usual a = true) (first h tids) s) : Inv s :=
  hr.inv (inv_first tids hcount hwrite) fun _ _ _ hi hu hs => hi.step hu hs

/-- **The word agrees with the outstanding locks.** In every run of usual steps on a buffer that is
    not locked at first, the count is the number of outstanding locks, and the WRITE bit is set
    while one of them is a writer's, which then is the only one; and a call of `gralloc_lock` that
    returns an error has changed neither. -/
theorem lock_word_agrees {h : Handle} {tids : List Int} {s : State} {g : Nat → Bool}
    (hcount : lockCount h.lockState = 0) (hwrite : writeBit h.lockState = false)
    (hr : Reach (tracked step touch) (fun x a => x.1.usual a = true) (first h tids, fun _ => false)
      (s, g)) :
    lockCount s.shared.handle.lockState = s.outstanding.length ∧
      (writeBit s.shared.handle.lockState = true ↔ .write ∈ s.outstanding) ∧
      (.write ∈ s.outstanding → s.outstanding = [.write]) ∧
      ∀ a s' t t', s.usual a = true → step s a = some s' → s.threads[a.thread]? = some t →
        s'.threads[a.thread]? = some t' → failsLock t a t' = true →
          touch s a s' g a.thread = false := by
  have hinv := inv_run hcount hwrite hr.untracked
  have hg : Untouched s g :=
    hr.invOn (I := fun x => Untouched x.1 x.2) (J := fun x => Inv x.1)
      (fun _ hx => inv_run hcount hwrite hx.untracked) (fun _ _ _ _ => rfl)
      fun _ _ _ hj hi hu hs => by
        obtain ⟨hs, hafter⟩ := tracked_eq_some hs
        rw [hafter]
        exact hi.step hj hu hs
  refine ⟨hinv.agrees.count, hinv.agrees.write, hinv.agrees.alone, ?_⟩
  intro a s' t t' husual hs ht ht' hfails
  obtain ⟨u, u', hu, hact, hthreads⟩ := step_eq_some hs
  rw [hu] at ht
  rw [hthreads, getElem?_set_at u' hu] at ht'
  cases ht
  cases ht'
  exact touch_eq_false hinv hg husual hu hact (.inr hfails)

/-- A buffer of another process, not mapped here. -/
def sampleHandle : Handle := ⟨12, 1, 10, 0x676D736D, privFlagsUsesPmem, 4096, 0, 0, 0⟩

/-- Two threads read, and the first of them maps the buffer; a third wants to write, and is busy
    while they do. -/
theorem lock_word_agrees_readers :
    ∃ s g, Reach (tracked step touch) (fun x a => x.1.usual a = true)
        (first sampleHandle [7, 8, 9], fun _ => false) (s, g) ∧
      s.outstanding = [.read, .read] ∧ lockCount s.shared.handle.lockState = 2 ∧
      ∃ s', step s (.run 2 (.ok 0)) = some s' ∧ s'.threads.map Thread.err = [0, 0, -EBUSY] ∧
        touch s (.run 2 (.ok 0)) s' g 2 = false := by
  have hrun : runTest (tracked step touch) (fun x a => x.1.usual a)
      (first sampleHandle [7, 8, 9], fun _ => false)
      (List.flatten [[.lock 0 0x3], List.replicate 9 (.run 0 (.ok 0x40000000)), [.lock 1 0x3],
        List.replicate 4 (.run 1 (.ok 0)), [.lock 2 0x20]])
      (fun x => decide (x.1.outstanding = [.read, .read]) && x.1.usual (.run 2 (.ok 0)) &&
        (step x.1 (.run 2 (.ok 0))).any fun s' =>
          decide (s'.threads.map Thread.err = [0, 0, -EBUSY]) &&
            x.1.threads[2]?.any fun t =>
              s'.threads[2]?.any (failsLock t (.run 2 (.ok 0)))) = true := by
    decide
  obtain ⟨⟨s, g⟩, hr, hlast⟩ := reach_of_runTest hrun
  obtain ⟨hhead, hstep⟩ := Bool.and_eq_true_iff.mp hlast
  obtain ⟨hout, husual⟩ := Bool.and_eq_true_iff.mp hhead
  obtain ⟨s', hs, hstep⟩ := Option.any_eq_true _ _ |>.mp hstep
  obtain ⟨herrs, hfails⟩ := Bool.and_eq_true_iff.mp hstep
  obtain ⟨t, ht, hfails⟩ := Option.any_eq_true _ _ |>.mp hfails
  obtain ⟨t', ht', hfails⟩ := Option.any_eq_true _ _ |>.mp hfails
  obtain ⟨hcount, -, -, herror⟩ := lock_word_agrees (by decide) (by decide) hr
  have hout : s.outstanding = [.read, .read] := of_decide_eq_true hout
  refine ⟨s, g, hr, hout, ?_, s', hs, of_decide_eq_true herrs,
    herror _ s' t t' husual hs ht ht' hfails⟩
  rw [hcount, hout]
  rfl

/-- **The lock nobody has.** The buffer is locked for write, and mapping it fails: the call returns
    an error, and the buffer stays locked. -/
theorem failed_map_stays_locked :
    ∃ s g, Reach (tracked step touch) Always (first sampleHandle [7], fun _ => false) (s, g) ∧
      s.threads = [⟨7, .idle, [], 0, -ENOMEM⟩] ∧ s.outstanding = [] ∧ g 0 = true ∧
      lockCount s.shared.handle.lockState = 1 ∧ writeBit s.shared.handle.lockState = true := by
  have hrun : runTest (tracked step touch) (fun _ _ => true)
      (first sampleHandle [7], fun _ => false)
      (.lock 0 0x20 :: List.replicate 9 (.run 0 (.error ENOMEM)))
      (fun x => decide (x.1.threads = [⟨7, .idle, [], 0, -ENOMEM⟩] ∧ x.1.outstanding = [] ∧
        x.2 0 = true ∧ lockCount x.1.shared.handle.lockState = 1 ∧
        writeBit x.1.shared.handle.lockState = true)) = true := by
    decide
  obtain ⟨⟨s, g⟩, hr, hlast⟩ := reach_of_runTest hrun
  exact ⟨s, g, hr.always, of_decide_eq_true hlast⟩

end Y210.Gralloc.Mapper

/-
  File:      Y210/Gralloc/Slots.lean
  Subject:   THE SLOTS OF THE FRAMEBUFFER, allocated and freed in any order.

  The memory of the screen is a few buffers one behind the other. `bufferMask` has a bit for each
  slot that is taken; a handle has the address of its slot, which the search for a free bit adds up.
  `free_impl` divides the address to find the bit again.

  * `Screen` -- a screen that was mapped;
  * `findSlot_spec` -- the search;
  * `Slots.Inv` -- the mask is the slots of the handles that are live;
  * `slots_marked` -- it is so after every sequence of calls;
  * `screen_of_map` -- what `mapFrameBufferLocked` leaves is such a screen.
-/
import Y210.Gralloc.Gpu
import Y210.Lib.Run

namespace Y210.Gralloc.Gpu

open Y210.Lib Y210.Gralloc.Fb
open Y210.Gralloc.Mapper (privFlagsFramebuffer)

/-! ## 1. The screen and its handles -/

/-- **2 to 31 buffers of a size**, mapped at `fb`: they have bytes, and lie in the address space one
    behind the other. -/
structure Layout (fb : PrivateHandle) (n size : Nat) : Prop where
  buffers : 2 ≤ n ∧ n ≤ 31
  nonempty : 0 < size
  room : n * size < 2 ^ 32
  base : fb.base < 2 ^ 32

/-- A screen that was mapped, with no slot taken. -/
structure Screen (m : PrivateModule) (fb : PrivateHandle) : Prop where
  framebuffer : m.framebuffer = some fb
  layout : Layout fb m.numBuffers (bufferSize m)
  unused : m.bufferMask = 0

/-- The handle is for this slot. -/
structure Occupies (fb : PrivateHandle) (size slot : Nat) (hnd : PrivateHandle) : Prop where
  flag : hnd.flags &&& privFlagsFramebuffer ≠ 0
  base : hnd.base = word (fb.base + slot * size)
  offset : hnd.offset = ssize (slot * size)

/-- The module and the handles that are live. -/
structure Slots where
  module : PrivateModule
  live : List PrivateHandle
  deriving DecidableEq

/-- A framebuffer is allocated, or a live one freed. -/
inductive Slots.Act where
  | alloc (size : Nat) (usage : BitVec 32) (o : AllocOutcome)
  | free (i : Nat)

def Slots.step (s : Slots) : Slots.Act → Option Slots
  | .alloc size usage o => do
    let r ← grallocAllocFramebufferLocked s.module size usage o
    return ⟨r.1, r.2.2.toList ++ s.live⟩
  | .free i => do
    let hnd ← s.live[i]?
    let r ← freeImpl s.module hnd
    return ⟨r.1, s.live.eraseIdx i⟩

/-! ## 2. Bits -/

section Bits

variable {mask n : Nat}

/-- A mask that has all bits below `n` is at least as large as they are. -/
theorem two_pow_sub_one_le (h : ∀ i < n, mask.testBit i = true) : 2 ^ n - 1 ≤ mask := by
  have hand : (2 ^ n - 1) &&& mask = 2 ^ n - 1 := by
    refine Nat.eq_of_testBit_eq fun i => ?_
    rw [Nat.testBit_and, Nat.testBit_two_pow_sub_one]
    by_cases hi : i < n
    · simp [hi, h i hi]
    · simp [hi]
  calc 2 ^ n - 1 = (2 ^ n - 1) &&& mask := hand.symm
    _ ≤ mask := Nat.and_le_right

/-- **The test for "no buffers left"**, with no bits but those of the slots. -/
theorem mask_full_iff (hbelow : ∀ i, mask.testBit i = true → i < n) :
    2 ^ n - 1 ≤ mask ↔ ∀ i < n, mask.testBit i = true := by
  refine ⟨fun hle => ?_, two_pow_sub_one_le⟩
  have hlt : mask < 2 ^ n := by
    refine Nat.lt_pow_two_of_testBit mask fun i hi => ?_
    by_contra hbit
    exact absurd (hbelow i (by simpa using hbit)) (by omega)
  have heq : mask = 2 ^ n - 1 := by omega
  intro i hi
  rw [heq, Nat.testBit_two_pow_sub_one, decide_eq_true hi]

theorem testBit_set (mask j i : Nat) :
    (mask ||| 2 ^ j).testBit i = true ↔ mask.testBit i = true ∨ i = j := by
  rw [Nat.testBit_or, Nat.testBit_two_pow, Bool.or_eq_true, decide_eq_true_eq]
  exact or_congr_right eq_comm

/-- `m->bufferMask &= ~(1<<index)`. -/
theorem testBit_clear (hmask : mask < 2 ^ 32) (index i : Nat) :
    (BitVec.ofNat 32 mask &&& ~~~(1#32 <<< index)).toNat.testBit i = true ↔
      mask.testBit i = true ∧ i ≠ index := by
  rw [BitVec.testBit_toNat, BitVec.getLsbD_and, BitVec.getLsbD_not, BitVec.getLsbD_ofNat,
    BitVec.getLsbD_shiftLeft]
  by_cases hi : i < 32
  · simp only [hi, decide_true, Bool.true_and, BitVec.getLsbD_one, Bool.and_eq_true]
    grind
  · have hzero : mask.testBit i = false :=
      Nat.testBit_lt_two_pow (lt_of_lt_of_le hmask (Nat.pow_le_pow_right (by decide) (by omega)))
    simp [hi, hzero]

end Bits

/-! ## 3. The search for a slot -/

/-- **The search finds a free slot, and its address.** -/
theorem findSlot_spec (mask size base : Nat) {left i : Nat}
    (hfree : ∃ j, i ≤ j ∧ j < i + left ∧ mask.testBit j = false) :
    ∃ j, i ≤ j ∧ j < i + left ∧ mask.testBit j = false ∧
      findSlot mask size left i (word (base + i * size)) =
        (mask ||| 2 ^ j, word (base + j * size)) := by
  induction left generalizing i with
  | zero =>
      obtain ⟨j, hle, hlt, -⟩ := hfree
      omega
  | succ left ih =>
      unfold findSlot
      by_cases hbit : mask.testBit i = true
      · obtain ⟨j, hle, hlt, hj⟩ := hfree
        have hne : j ≠ i := by
          rintro rfl
          rw [hbit] at hj
          cases hj
        have hnext : word (word (base + i * size) + size) = word (base + (i + 1) * size) := by
          rw [Nat.succ_mul, ← Nat.add_assoc]
          exact Nat.mod_add_mod ..
        obtain ⟨k, hik, hk, hkfree, hfound⟩ := ih (i := i + 1) ⟨j, by omega, by omega, hj⟩
        refine ⟨k, by omega, by omega, hkfree, ?_⟩
        rw [if_pos hbit, hnext, hfound]
      · refine ⟨i, Nat.le_refl i, by omega, by simpa using hbit, ?_⟩
        rw [if_neg hbit]

/-! ## 4. Allocating and freeing -/

/-- **The mask is the slots of the live handles**, which are different, and each handle has the
    address and the offset of its slot. -/
structure Slots.Inv (fb : PrivateHandle) (n size : Nat) (s : Slots) : Prop where
  framebuffer : s.module.framebuffer = some fb
  numBuffers : s.module.numBuffers = n
  bytes : bufferSize s.module = size
  occupies : ∀ hnd ∈ s.live, Occupies fb size (slotOf fb size hnd) hnd ∧ slotOf fb size hnd < n
  distinct : (s.live.map (slotOf fb size)).Nodup
  mask : ∀ i, s.module.bufferMask.testBit i = true ↔ i ∈ s.live.map (slotOf fb size)

section Calls

variable {fb hnd : PrivateHandle} {n size i : Nat} {s s' : Slots}

theorem Layout.slot_lt (h : Layout fb n size) (hi : i < n) : i * size < 2 ^ 32 := by
  have := Nat.mul_le_mul_right size (Nat.le_of_lt hi)
  have := h.room
  omega

/-- **`free_impl` finds the slot again.** -/
theorem Layout.slotOf_eq (h : Layout fb n size) (hi : i < n) (ho : Occupies fb size i hnd) :
    slotOf fb size hnd = i := by
  have hlt := h.slot_lt hi
  have hbase := h.base
  have hdiff : word (hnd.base + 2 ^ 32 - fb.base) = i * size := by
    rw [ho.base]
    generalize i * size = x at hlt
    unfold word
    omega
  rw [slotOf, hdiff, Nat.mul_div_cancel _ h.nonempty]

/-- No bits but those of the slots. -/
theorem Slots.Inv.mask_below (h : s.Inv fb n size) (hbit : s.module.bufferMask.testBit i = true) :
    i < n := by
  obtain ⟨hnd, hlive, rfl⟩ := List.mem_map.mp ((h.mask i).mp hbit)
  exact (h.occupies hnd hlive).2

theorem Slots.Inv.mask_lt (hl : Layout fb n size) (h : s.Inv fb n size) :
    s.module.bufferMask < 2 ^ 32 := by
  refine Nat.lt_pow_two_of_testBit _ fun i hi => ?_
  by_contra hbit
  have hlt := h.mask_below (by simpa using hbit)
  have := hl.buffers.2
  omega

/-- The handle of the slot at `vaddr`. -/
def slotHandle (fb : PrivateHandle) (dup : Int) (bytes vaddr : Nat) : PrivateHandle :=
  { PrivateHandle.create dup (ssize bytes) (Mapper.privFlagsUsesPmem ||| privFlagsFramebuffer) with
    base := vaddr, offset := ssize (vaddr + 2 ^ 32 - fb.base) }

theorem occupies_new (hl : Layout fb n size) (hi : i < n) (dup : Int) (bytes : Nat) :
    Occupies fb size i (slotHandle fb dup bytes (word (fb.base + i * size))) := by
  have hlt := hl.slot_lt hi
  have hbase := hl.base
  refine ⟨by simp only [slotHandle, PrivateHandle.create]; decide, rfl, ?_⟩
  simp only [slotHandle]
  generalize i * size = x at hlt ⊢
  unfold ssize word
  omega

/-- What is done on a mapped screen of several buffers. -/
theorem allocFramebuffer_eq {m : PrivateModule} (hfb : m.framebuffer = some fb)
    (hone : ¬ m.numBuffers = 1) (hshift : ¬ m.numBuffers ≥ 32) {usage : BitVec 32}
    (hadsp : usage &&& usagePrivatePmemAdsp = 0) (bytes : Nat) (o : AllocOutcome) :
    grallocAllocFramebufferLocked m bytes usage o =
      if m.bufferMask ≥ 2 ^ m.numBuffers - 1 then some (m, -ENOMEM, none)
      else
        let r := findSlot m.bufferMask (bufferSize m) m.numBuffers 0 fb.base
        some ({ m with bufferMask := r.1 }, 0, some (slotHandle fb o.dup bytes r.2)) := by
  simp only [grallocAllocFramebufferLocked, hadsp, ne_eq, not_true_eq_false, if_false, hfb,
    Option.isNone_some, Bool.false_eq_true, Option.bind_eq_bind, Option.bind_some, Int.lt_irrefl,
    if_neg hone, if_neg hshift]
  rfl

/-- **Allocating**: all slots are taken, or one that was free is. -/
theorem Slots.Inv.alloc (hl : Layout fb n size) (h : s.Inv fb n size) {bytes : Nat}
    {usage : BitVec 32} (hadsp : usage &&& usagePrivatePmemAdsp = 0) (o : AllocOutcome) :
    (grallocAllocFramebufferLocked s.module bytes usage o = some (s.module, -ENOMEM, none) ∧
      ∀ i < n, i ∈ s.live.map (slotOf fb size)) ∨
    ∃ m hnd, grallocAllocFramebufferLocked s.module bytes usage o = some (m, 0, some hnd) ∧
      Slots.Inv fb n size ⟨m, hnd :: s.live⟩ ∧ ∃ i < n, i ∉ s.live.map (slotOf fb size) := by
  have hbuffers := hl.buffers
  rw [← h.numBuffers] at hbuffers
  have hcall := allocFramebuffer_eq h.framebuffer (by omega) (by omega) hadsp bytes o
  rw [h.numBuffers, h.bytes] at hcall
  have hfull := mask_full_iff fun i => h.mask_below (i := i)
  by_cases hle : 2 ^ n - 1 ≤ s.module.bufferMask
  · rw [if_pos hle] at hcall
    exact .inl ⟨hcall, fun i hi => (h.mask i).mp (hfull.mp hle i hi)⟩
  · right
    rw [if_neg hle] at hcall
    obtain ⟨j, hj, hjfree⟩ : ∃ j < n, s.module.bufferMask.testBit j = false := by
      by_contra hno
      refine hle (hfull.mpr fun i hi => ?_)
      by_contra hbit
      exact hno ⟨i, hi, by simpa using hbit⟩
    obtain ⟨i, -, hi, hifree, hfound⟩ := findSlot_spec s.module.bufferMask size fb.base (i := 0)
      ⟨j, Nat.zero_le j, by rwa [Nat.zero_add], hjfree⟩
    rw [Nat.zero_mul, Nat.add_zero, word_eq hl.base] at hfound
    rw [Nat.zero_add] at hi
    simp only [hfound] at hcall
    have hnew := occupies_new hl hi o.dup bytes
    have hslot := hl.slotOf_eq hi hnew
    have hfresh : i ∉ s.live.map (slotOf fb size) := by
      intro hmem
      rw [← h.mask i, hifree] at hmem
      cases hmem
    refine ⟨_, _, hcall, ⟨h.framebuffer, rfl, h.bytes, ?_, ?_, ?_⟩, i, hi, hfresh⟩
    · intro hnd hlive
      rcases List.mem_cons.mp hlive with rfl | hlive
      · rw [hslot]
        exact ⟨hnew, hi⟩
      · exact h.occupies hnd hlive
    · rw [List.map_cons, hslot]
      exact List.nodup_cons.mpr ⟨hfresh, h.distinct⟩
    · intro k
      rw [testBit_set, h.mask k, List.map_cons, hslot, List.mem_cons]
      exact or_comm

/-- **Freeing** a live handle gives its slot back. -/
theorem Slots.Inv.free (hl : Layout fb n size) (h : s.Inv fb n size) {k : Nat}
    (hk : s.live[k]? = some hnd) :
    ∃ m, freeImpl s.module hnd = some (m, none) ∧
      Slots.Inv fb n size ⟨m, s.live.eraseIdx k⟩ := by
  obtain ⟨ho, hlt⟩ := h.occupies hnd (List.mem_of_getElem? hk)
  have hlive := split_at hk
  have herase : s.live.eraseIdx k = s.live.take k ++ s.live.drop (k + 1) :=
    List.eraseIdx_eq_take_drop_succ ..
  have hdistinct := h.distinct
  rw [hlive, List.map_append, List.map_cons, List.nodup_middle, List.nodup_cons, ← List.map_append,
    ← herase] at hdistinct
  have hmask : ∀ i, i ∈ s.live.map (slotOf fb size) ↔
      i = slotOf fb size hnd ∨ i ∈ (s.live.eraseIdx k).map (slotOf fb size) := by
    intro i
    rw [herase]
    nth_rewrite 1 [hlive]
    simp only [List.map_append, List.map_cons, List.mem_append, List.mem_cons]
    exact or_left_comm
  have hdefined : ¬ (size = 0 ∨ slotOf fb size hnd ≥ 32) := by
    have := hl.nonempty
    have := hl.buffers.2
    omega
  have hcall : freeImpl s.module hnd =
      some (clearSlot s.module (slotOf fb size hnd), none) := by
    rw [freeImpl, if_pos ho.flag, h.framebuffer]
    simp only [h.bytes]
    rw [if_neg hdefined]
  refine ⟨_, hcall, h.framebuffer, h.numBuffers, h.bytes,
    fun hnd' hmem => h.occupies hnd' (List.mem_of_mem_eraseIdx hmem), hdistinct.2, fun i => ?_⟩
  rw [show (clearSlot s.module (slotOf fb size hnd)).bufferMask.testBit i = true ↔ _ from
    testBit_clear (h.mask_lt hl) _ i, h.mask i, hmask i]
  constructor
  · rintro ⟨hslot | hmem, hne⟩
    · exact absurd hslot hne
    · exact hmem
  · intro hmem
    exact ⟨.inr hmem, fun heq => hdistinct.1 (heq ▸ hmem)⟩

/-- One call keeps mask and handles together. -/
theorem Slots.Inv.step {a : Slots.Act} (hl : Layout fb n size) (h : s.Inv fb n size)
    (hs : s.step a = some s') : s'.Inv fb n size := by
  cases a with
  | alloc bytes usage o =>
      obtain ⟨r, hcall, hs⟩ := Option.bind_eq_some_iff.mp hs
      cases hs
      by_cases hadsp : usage &&& usagePrivatePmemAdsp = 0
      · rcases h.alloc hl hadsp o with ⟨hfull, -⟩ | ⟨m, hnd, hnew, hinv, -⟩
        · rw [hfull] at hcall
          cases hcall
          exact h
        · rw [hnew] at hcall
          cases hcall
          exact hinv
      · rw [grallocAllocFramebufferLocked, if_pos hadsp] at hcall
        cases hcall
        exact h
  | free k =>
      obtain ⟨hnd, hk, hs⟩ := Option.bind_eq_some_iff.mp hs
      obtain ⟨m, hfree, hinv⟩ := h.free hl hk
      obtain ⟨r, hr, hs⟩ := Option.bind_eq_some_iff.mp hs
      rw [hfree] at hr
      cases hr
      cases hs
      exact hinv

theorem Slots.Inv.reached {m : PrivateModule} (hm : Screen m fb)
    (hr : Reach Slots.step Always ⟨m, []⟩ s) : s.Inv fb m.numBuffers (bufferSize m) := by
  have hfirst : Slots.Inv fb m.numBuffers (bufferSize m) ⟨m, []⟩ := by
    refine ⟨hm.framebuffer, rfl, rfl, nofun, List.nodup_nil, fun i => ?_⟩
    simp [hm.unused]
  exact hr.inv hfirst fun _ _ _ h _ hs => h.step hm.layout hs

end Calls

/-- **Mask and handles agree**: the live handles have different slots below the number of buffers,
    the bits of the mask are these slots, and every handle has the offset of its slot. -/
structure Marked (fb : PrivateHandle) (n size : Nat) (s : Slots) : Prop where
  distinct : (s.live.map (slotOf fb size)).Nodup
  below : ∀ hnd ∈ s.live, slotOf fb size hnd < n
  mask : ∀ i, s.module.bufferMask.testBit i = true ↔ i ∈ s.live.map (slotOf fb size)
  -- an `int`; where it is not negative, the product itself
  offset : ∀ hnd ∈ s.live, hnd.offset = ssize (slotOf fb size hnd * size) ∧
    (slotOf fb size hnd * size < 2 ^ 31 → hnd.offset = (slotOf fb size hnd * size : Nat))

/-- All slots are taken. -/
def AllTaken (fb : PrivateHandle) (n size : Nat) (s : Slots) : Prop :=
  ∀ i < n, i ∈ s.live.map (slotOf fb size)

/-- **The mask is the set of the slots that are taken**, after every sequence of allocations and of
    frees of live handles, on a screen of 2 to 31 buffers. The next allocation returns `-ENOMEM`
    when and only when all slots are taken, and else 0 with a handle; and every live handle can be
    freed. -/
theorem slots_marked {m : PrivateModule} {fb : PrivateHandle} (hm : Screen m fb) {s : Slots}
    (hr : Reach Slots.step Always ⟨m, []⟩ s) :
    Marked fb m.numBuffers (bufferSize m) s ∧
      (∀ size usage o, usage &&& usagePrivatePmemAdsp = 0 →
        ∃ m' err hnd, grallocAllocFramebufferLocked s.module size usage o = some (m', err, hnd) ∧
          (err = -ENOMEM ↔ AllTaken fb m.numBuffers (bufferSize m) s) ∧
          (err ≠ -ENOMEM → err = 0 ∧ hnd.isSome = true)) ∧
      ∀ k < s.live.length, (s.step (.free k)).isSome = true := by
  have h := Slots.Inv.reached hm hr
  refine ⟨⟨h.distinct, fun hnd hlive => (h.occupies hnd hlive).2, h.mask, fun hnd hlive => ?_⟩,
    fun size usage o hadsp => ?_, fun k hk => ?_⟩
  · obtain ⟨ho, -⟩ := h.occupies hnd hlive
    exact ⟨ho.offset, fun hsmall => ho.offset.trans (ssize_eq hsmall)⟩
  · rcases h.alloc hm.layout hadsp o with ⟨hcall, hfull⟩ | ⟨m', hnd, hcall, -, i, hi, hfree⟩
    · exact ⟨_, _, _, hcall, iff_of_true rfl hfull, fun hne => absurd rfl hne⟩
    · refine ⟨_, _, _, hcall, iff_of_false (by decide) fun hall => hfree (hall i hi), fun _ => ?_⟩
      exact ⟨rfl, rfl⟩
  · obtain ⟨m', hcall, -⟩ := h.free hm.layout (List.getElem?_eq_getElem hk)
    simp [Slots.step, List.getElem?_eq_getElem hk, hcall]

/-- Calls that succeed; the screen is mapped already. -/
def quietAlloc : AllocOutcome where
  map := screenCalls ⟨.ok 5, .ok 5⟩ ⟨1843200, 1280⟩ (.ok 4096)
  dup := 7
  buffer := ⟨0, ⟨0, 0, 5⟩, 5, 0⟩

/-- A screen of three buffers at the end of the address space of a process. -/
def tripleScreen : PrivateModule where
  framebuffer := some ⟨6, 1843200, Mapper.privFlagsUsesPmem, 0, 3219320832, 0⟩
  fbFormat := some .rgba8888
  pageFlip := true
  numBuffers := 3
  bufferMask := 0
  info := ⟨320, 480, 1440, 16, 16, 4, 4, 25000⟩
  finfo := ⟨1843200, 1280⟩

/-- The first of three buffers is freed and the slot taken again. -/
theorem slots_marked_again :
    ∃ fb s, Screen tripleScreen fb ∧ Reach Slots.step Always ⟨tripleScreen, []⟩ s ∧
      s.live.map PrivateHandle.offset = [0, 1228800, 614400] ∧
      Marked fb 3 (bufferSize tripleScreen) s := by
  have hm : Screen tripleScreen ⟨6, 1843200, Mapper.privFlagsUsesPmem, 0, 3219320832, 0⟩ :=
    ⟨rfl, ⟨by decide, by decide, by decide, by decide⟩, rfl⟩
  have hrun : runTest Slots.step (fun _ _ => true) ⟨tripleScreen, []⟩
      [.alloc 614400 usageHwFb quietAlloc, .alloc 614400 usageHwFb quietAlloc,
        .alloc 614400 usageHwFb quietAlloc, .free 2, .alloc 614400 usageHwFb quietAlloc]
      (fun s => decide (s.live.map PrivateHandle.offset = [0, 1228800, 614400])) = true := by
    decide
  obtain ⟨s, hr, hlive⟩ := reach_of_runTest hrun
  exact ⟨_, s, hm, hr.always, of_decide_eq_true hlive, (slots_marked hm hr.always).1⟩

/-! ## 5. The screen as it is mapped -/

/-- **What a framebuffer driver reports**: lines that have bytes, and a virtual screen that lies in
    the memory it has. -/
structure Reported (info : VarInfo) (finfo : FixInfo) : Prop where
  lines : 0 < finfo.lineLength
  memory : finfo.lineLength * info.yresVirtual ≤ finfo.smemLen
  width : finfo.smemLen < 2 ^ 32

/-- **`mapFrameBufferLocked` leaves such a screen**, also when `mmap` fails: what it puts into the
    module of a screen with 2 to 31 buffers is what `slots_marked` starts from. -/
theorem screen_of_map {m : PrivateModule} {o : MapOutcome} {attempts : Nat} {info : VarInfo}
    {finfo : FixInfo} {r : MapResult} (hreported : Reported info finfo)
    (hbuffers : 2 ≤ info.yresVirtual / info.yres ∧ info.yresVirtual / info.yres ≤ 31)
    (haddress : ∀ vaddr, o.map = .ok vaddr → vaddr < 2 ^ 32)
    (hcall : mapScreen m o attempts info finfo = some r) : ∃ fb, Screen r.module fb := by
  have hlines := hreported.lines
  have hmemory := hreported.memory
  have hwidth := hreported.width
  have hall : info.yresVirtual / info.yres * info.yres ≤ info.yresVirtual := Nat.div_mul_le_self ..
  unfold mapScreen at hcall
  by_cases hyres : info.yres = 0
  · rw [if_pos hyres] at hcall
    cases hcall
  have hsize : finfo.lineLength * (info.yresVirtual / info.yres * info.yres) < 2 ^ 32 :=
    Nat.lt_of_le_of_lt (Nat.le_trans (Nat.mul_le_mul_left _ hall) hmemory) hwidth
  have hroom : info.yresVirtual / info.yres * (finfo.lineLength * info.yres) < 2 ^ 32 := by
    rwa [Nat.mul_left_comm]
  have hpos : 0 < finfo.lineLength * info.yres :=
    Nat.mul_pos hlines (Nat.pos_of_ne_zero hyres)
  have hone : finfo.lineLength * info.yres ≤
      info.yresVirtual / info.yres * (finfo.lineLength * info.yres) :=
    Nat.le_mul_of_pos_left _ (by omega)
  have hword : word (finfo.lineLength * info.yres) = finfo.lineLength * info.yres :=
    word_eq (Nat.lt_of_le_of_lt hone hroom)
  rw [if_neg hyres] at hcall
  cases hmap : o.map with
  | error e =>
      simp only [hmap, Option.some.injEq] at hcall
      subst hcall
      refine ⟨_, rfl, ⟨hbuffers, ?_, ?_, show 0 < 2 ^ 32 by decide⟩, rfl⟩ <;>
        simp only [bufferSize, hword] <;> assumption
  | ok vaddr =>
      simp only [hmap, Option.some.injEq] at hcall
      subst hcall
      refine ⟨_, rfl, ⟨hbuffers, ?_, ?_, haddress vaddr hmap⟩, rfl⟩ <;>
        simp only [bufferSize, hword] <;> assumption

end Y210.Gralloc.Gpu

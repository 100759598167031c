/-
  File:      Y210/Gralloc/Pmem.lean
  Subject:   BUFFERS OF THE PMEM AREA: `PmemUserspaceAllocator` of pmemalloc.cpp.

  The area is initialised: `init_pmem_area` returns 0 and the allocator has its size. What the
  system calls return is arbitrary, and given with each call. A buffer is held from the call that
  returned it until it is unmapped; if the unmapping fails, it stays held.

  The offset of a buffer is an `int`, and a block behind the first 2^31 bytes has a negative one:
  the call takes that for a failure of the allocator, and forgets the block.

  * `allocPmemBuffer`, `freePmemBuffer` -- the two functions;
  * `alloc_spec` -- a buffer is made, or everything is as before;
  * `pmem_buffers_apart` -- no two buffers that are held overlap;
  * `offset_turns_negative` -- the forgotten block.
-/
import Y210.Gralloc.Sound
import Y210.Lib.Indexed
import Y210.Lib.Run

namespace Y210.Gralloc

open Y210.Lib LinkedList

/-! ## 1. The two functions -/

/-- The area, once it is initialised. -/
structure Area where
  allocator : Allocator
  masterBase : Int
  deriving DecidableEq

/-- What the caller is given: `*pBase`, `*pOffset`, `*pFd`. -/
structure Outputs where
  base : Int
  offset : Int
  fd : Int
  deriving DecidableEq

/-- What `open`, `connectPmem`, `mapPmem` and `getErrno` return. -/
structure Outcome where
  openFd : Int
  connect : Int
  map : Int
  errno : Int
  deriving DecidableEq

/-- `err` after the sub-heap was opened, connected and mapped. -/
def Outcome.err (o : Outcome) : Int :=
  let err := if o.openFd < 0 then o.openFd else 0
  let err := if err = 0 then o.connect else err
  if err = 0 then o.map else err

/-- An `int` as `size_t`. -/
def toSize (n : Int) : Nat := (n % 2 ^ 32).toNat

/-- `alloc_pmem_buffer`, with the addresses `new` returns in it: the area, the outputs, and what is
    returned. -/
def allocPmemBuffer (p : Area) (size new₁ new₂ : Nat) (o : Outcome) (out : Outputs) :
    Option (Area × Outputs × Int) := do
  let r ← p.allocator.allocate size new₁ new₂
  if r.2 < 0 then return ({ p with allocator := r.1 }, out, -ENOMEM)
  else if o.err < 0 then
    let d ← r.1.deallocate (toSize r.2)
    return ({ p with allocator := d.1 }, out, -o.errno)
  else return ({ p with allocator := r.1 }, ⟨p.masterBase, r.2, o.openFd⟩, o.err)

/-- `free_pmem_buffer`, with what `unmapPmem` returns. -/
def freePmemBuffer (p : Area) (offset fd unmap : Int) : Option Area :=
  if fd ≥ 0 ∧ unmap = 0 then do
    let d ← p.allocator.deallocate (toSize offset)
    return { p with allocator := d.1 }
  else some p

/-! ## 2. Buffers -/

/-- A buffer somebody holds. -/
structure Buffer where
  offset : Int
  size : Nat
  fd : Int
  unmapFailed : Bool
  deriving DecidableEq

/-- Two buffers do not overlap. -/
def Buffer.Apart (b c : Buffer) : Prop :=
  b.offset + b.size ≤ c.offset ∨ c.offset + c.size ≤ b.offset

theorem Buffer.Apart.symm {b c : Buffer} (h : b.Apart c) : c.Apart b := Or.symm h

/-- The area and the buffers that are live, or whose unmapping failed. -/
structure Pmem where
  area : Area
  held : List Buffer
  deriving DecidableEq

inductive Pmem.Act where
  | alloc (size new₁ new₂ : Nat) (o : Outcome) (out : Outputs)
  | free (i : Nat) (unmap : Int)

namespace Pmem

/-- A size of whole pages, and addresses at which there is no node. -/
def admits (x : Pmem) (size new₁ new₂ : Nat) : Bool :=
  decide (0 < size ∧ size % pagesize = 0 ∧ size < 2 ^ 32 ∧
    x.area.allocator.mList.node new₁ = none ∧ x.area.allocator.mList.node new₂ = none ∧ new₂ ≠ new₁)

/-- **One call.** -/
def step (x : Pmem) : Pmem.Act → Option Pmem
  | .alloc size new₁ new₂ o out =>
    if x.admits size new₁ new₂ then do
      let r ← allocPmemBuffer x.area size new₁ new₂ o out
      return ⟨r.1, if r.2.2 = 0 then ⟨r.2.1.offset, size, r.2.1.fd, false⟩ :: x.held else x.held⟩
    else none
  | .free i unmap => do
    let b ← x.held[i]?
    let area ← freePmemBuffer x.area b.offset b.fd unmap
    return ⟨area, if b.fd ≥ 0 ∧ unmap = 0 then x.held.eraseIdx i
      else x.held.set i { b with unmapFailed := true }⟩

/-- The area as `init_pmem_area` leaves it. -/
def first (size new : Nat) (masterBase : Int) : Option Pmem := do
  let r ← Allocator.empty.setSize size new
  return ⟨⟨r.1, masterBase⟩, []⟩

/-- **The usual case**: the area has at most 2^31 bytes, `connectPmem` and `mapPmem` return 0 or
    something negative, and a call that fails sets `errno`. -/
def usual (x : Pmem) : Pmem.Act → Bool
  | .alloc _ _ _ o _ => decide (x.area.allocator.mHeapSize ≤ 2 ^ 31 ∧ o.connect ≤ 0 ∧ o.map ≤ 0 ∧
      (o.err < 0 → o.errno ≠ 0))
  | .free _ _ => true

end Pmem

/-! ## 3. A buffer is made, or everything is as before -/

section Alloc

variable {p : Area} {xs : List (Nat × Chunk)}

theorem toSize_eq {n : Nat} (h : n < 2 ^ 31) : toSize n = n := by
  unfold toSize
  omega

/-- A sub-heap that is not reported to fail is open, connected and mapped. -/
theorem Outcome.err_eq_zero {o : Outcome} (hconnect : o.connect ≤ 0) (hmap : o.map ≤ 0)
    (h : ¬ o.err < 0) : o.err = 0 ∧ 0 ≤ o.openFd := by
  unfold Outcome.err at *
  by_cases hopen : o.openFd < 0
  · simp only [if_pos hopen, if_neg (by omega : ¬ o.openFd = 0)] at h
    omega
  · simp only [if_neg hopen, if_true] at h ⊢
    split at h <;> omega

/-- The same blocks are taken: the chunks are as before. -/
theorem restored {s s' : Allocator} {xs ys : List (Nat × Chunk)} (h : Sound s xs) (h' : Sound s' ys)
    (hheap : s'.mHeapSize = s.mHeapSize) (htaken : taken (values ys) = taken (values xs)) :
    values ys = values xs :=
  chunks_unique h'.tiles (hheap ▸ h.tiles) h'.apart h.apart htaken

/-- **A buffer is made, or everything is as before.** -/
theorem alloc_spec (h : Sound p.allocator xs) (hheap : p.allocator.mHeapSize ≤ 2 ^ 31)
    {size new₁ new₂ : Nat} (hpos : 0 < size) (hpage : size % pagesize = 0) (hsize : size < 2 ^ 32)
    (hnew₁ : p.allocator.mList.node new₁ = none) (hnew₂ : p.allocator.mList.node new₂ = none)
    (hne : new₂ ≠ new₁) {o : Outcome} (hconnect : o.connect ≤ 0) (hmap : o.map ≤ 0)
    (herrno : o.err < 0 → o.errno ≠ 0) (out : Outputs) :
    (∃ s ys err, allocPmemBuffer p size new₁ new₂ o out = some (⟨s, p.masterBase⟩, out, err) ∧
      err ≠ 0 ∧ s.mHeapSize = p.allocator.mHeapSize ∧ Sound s ys ∧ values ys = values xs) ∨
    ∃ s ys pre c post, allocPmemBuffer p size new₁ new₂ o out =
        some (⟨s, p.masterBase⟩, ⟨p.masterBase, (c.start * kMemoryAlign : Nat), o.openFd⟩, 0) ∧
      0 ≤ o.openFd ∧ s.mHeapSize = p.allocator.mHeapSize ∧ Sound s ys ∧
      taken (values xs) = pre ++ post ∧ taken (values ys) = pre ++ c :: post ∧
      size ≤ c.size * kMemoryAlign := by
  have hroom : size + kMemoryAlign ≤ 2 ^ 32 := by
    unfold pagesize kMemoryAlign at *
    omega
  rcases h.allocate_block hheap hpos hroom hnew₁ hnew₂ hne with
    hfull | ⟨s, ys, pre, post, b, hcall, hsame, hsound, hys, hb, hold, hoffset, hcover,
      -⟩
  · exact .inl ⟨p.allocator, xs, -ENOMEM, by simp [allocPmemBuffer, hfull, ENOMEM], by decide, rfl,
      h, rfl⟩
  have hnonneg : ¬ ((b.start * kMemoryAlign : Nat) : Int) < 0 := by omega
  by_cases herr : o.err < 0
  · -- the block goes back, and leaves what was taken before
    left
    obtain ⟨s', zs, hback, hsame', hsound', hzs⟩ := hsound.deallocate hys hb
    rw [← hold] at hzs
    refine ⟨s', zs, -o.errno, ?_, by have := herrno herr; omega, hsame'.trans hsame, hsound',
      restored h hsound' (hsame'.trans hsame) hzs⟩
    simp only [allocPmemBuffer, hcall, Option.bind_eq_bind, Option.bind_some, if_neg hnonneg,
      if_pos herr, toSize_eq hoffset, hback]
    rfl
  · right
    have hzero := Outcome.err_eq_zero hconnect hmap herr
    have hnew : taken (values ys) = taken pre ++ b :: taken post := by
      rw [hys, taken_append, taken_cons_taken hb]
    refine ⟨s, ys, taken pre, b, taken post, ?_, hzero.2, hsame, hsound, hold, hnew, hcover⟩
    simp only [allocPmemBuffer, hcall, Option.bind_eq_bind, Option.bind_some, if_neg hnonneg,
      hzero.1]
    rfl

end Alloc

/-! ## 4. Buffers that are held -/

/-- Every buffer that is held is open, and lies in a taken chunk. -/
def Covered (held : List Buffer) (cs : List Chunk) : Prop :=
  ∀ b ∈ held, 0 ≤ b.fd ∧ 0 < b.size ∧ ∃ c ∈ cs, b.offset = (c.start * kMemoryAlign : Nat) ∧
    b.size ≤ c.size * kMemoryAlign

/-- **The invariant**: an empty area has no buffers; in another one the buffers that are held lie in
    taken chunks, each in its own. -/
structure Pmem.Inv (x : Pmem) (xs : List (Nat × Chunk)) : Prop where
  holds : Holds x.area.allocator.mList xs
  apart : x.held.Pairwise Buffer.Apart
  covered : Covered x.held (taken (values xs))
  area : x.area.allocator.mHeapSize = 0 ∧ x.held = [] ∨ Sound x.area.allocator xs

section Held

variable {x x' : Pmem} {xs : List (Nat × Chunk)} {held : List Buffer} {pre post : List Chunk}
  {c : Chunk} {b : Buffer}

/-- A buffer in a chunk of its own overlaps no other. -/
theorem Covered.apart (h : Covered held (pre ++ post))
    (hsorted : (pre ++ c :: post).Pairwise fun c d => c.start + c.size ≤ d.start)
    (hoffset : b.offset = (c.start * kMemoryAlign : Nat)) (hsize : b.size ≤ c.size * kMemoryAlign) :
    ∀ b' ∈ held, b.Apart b' := by
  intro b' hb'
  obtain ⟨-, -, d, hd, hoffset', hsize'⟩ := h b' hb'
  obtain ⟨-, hpost, hpre⟩ := List.pairwise_append.mp hsorted
  unfold Buffer.Apart
  unfold kMemoryAlign at *
  rcases List.mem_append.mp hd with hd | hd
  · have := hpre d hd c List.mem_cons_self
    omega
  · have := (List.pairwise_cons.mp hpost).1 d hd
    omega

theorem Covered.mono (h : Covered held (pre ++ post)) : Covered held (pre ++ c :: post) := by
  intro b hb
  obtain ⟨hfd, hpos, d, hd, hlies⟩ := h b hb
  exact ⟨hfd, hpos, d, by grind, hlies⟩

/-- A buffer that does not overlap the one in `c` lies in another chunk. -/
theorem Covered.erase (h : Covered held (pre ++ c :: post)) (hpos : 0 < b.size)
    (hoffset : b.offset = (c.start * kMemoryAlign : Nat)) (hapart : ∀ b' ∈ held, b.Apart b') :
    Covered held (pre ++ post) := by
  intro b' hb'
  obtain ⟨hfd, hpos', d, hd, hoffset', hsize'⟩ := h b' hb'
  refine ⟨hfd, hpos', d, ?_, hoffset', hsize'⟩
  have hne : d ≠ c := by
    rintro rfl
    have := hapart b' hb'
    unfold Buffer.Apart at this
    omega
  grind

/-- The taken chunks are in order. -/
theorem taken_sorted {s : Allocator} (h : Sound s xs) :
    (taken (values xs)).Pairwise fun c d => c.start + c.size ≤ d.start :=
  h.tiles.sorted.filter _

/-- **Asking for a buffer.** -/
theorem Pmem.Inv.alloc (h : x.Inv xs) {size new₁ new₂ : Nat} {o : Outcome} {out : Outputs}
    (hadmits : x.admits size new₁ new₂ = true)
    (husual : x.usual (.alloc size new₁ new₂ o out) = true) :
    ∃ p out' err ys, allocPmemBuffer x.area size new₁ new₂ o out = some (p, out', err) ∧
      Pmem.Inv ⟨p, if err = 0 then ⟨out'.offset, size, out'.fd, false⟩ :: x.held else x.held⟩ ys ∧
      (err ≠ 0 → values ys = values xs ∧ out' = out) := by
  obtain ⟨hpos, hpage, hsize, hnew₁, hnew₂, hne⟩ := of_decide_eq_true hadmits
  obtain ⟨hheap, hconnect, hmap, herrno⟩ := of_decide_eq_true husual
  rcases h.area with ⟨hzero, -⟩ | hsound
  · refine ⟨x.area, out, -ENOMEM, xs, ?_, h, fun _ => ⟨rfl, rfl⟩⟩
    simp [allocPmemBuffer, Allocator.allocate, hzero, EINVAL]
  rcases alloc_spec hsound hheap hpos hpage hsize hnew₁ hnew₂ hne hconnect hmap herrno out with
    ⟨s, ys, err, hcall, herr, -, hsound', hsame⟩ |
      ⟨s, ys, pre, c, post, hcall, hfd, -, hsound', hold, hnew, hcover⟩
  · refine ⟨_, _, _, ys, hcall, ?_, fun _ => ⟨hsame, rfl⟩⟩
    rw [if_neg herr]
    exact ⟨hsound'.holds, h.apart, by simpa [hsame] using h.covered, .inr hsound'⟩
  · refine ⟨_, _, _, ys, hcall, ?_, fun hne => absurd rfl hne⟩
    have hcovered := h.covered
    rw [hold] at hcovered
    have hsorted := taken_sorted hsound'
    rw [hnew] at hsorted
    refine ⟨hsound'.holds, List.Pairwise.cons (hcovered.apart hsorted rfl hcover) h.apart, ?_,
      .inr hsound'⟩
    rw [hnew]
    intro b hb
    rcases List.mem_cons.mp hb with rfl | hb
    · exact ⟨hfd, hpos, c, by simp, rfl, hcover⟩
    · exact hcovered.mono b hb

/-- **Giving a buffer back.** -/
theorem Pmem.Inv.free (h : x.Inv xs) {i : Nat} (hb : x.held[i]? = some b) (unmap : Int) :
    ∃ x' ys, x.step (.free i unmap) = some x' ∧ x'.Inv ys := by
  obtain ⟨hfd, hpos, c, hc, hoffset, hsize⟩ := h.covered b (List.mem_of_getElem? hb)
  have hsound : Sound x.area.allocator xs := by
    rcases h.area with ⟨-, hnone⟩ | hsound
    · rw [hnone] at hb
      cases hb
    · exact hsound
  -- the buffer, and the ones before and behind it
  have happart := h.apart
  rw [split_at hb] at happart
  obtain ⟨hbefore, hrest, hacross⟩ := List.pairwise_append.mp happart
  obtain ⟨hbehind, hafter⟩ := List.pairwise_cons.mp hrest
  by_cases hunmap : unmap = 0
  · obtain ⟨hmem, hfree⟩ := mem_taken.mp hc
    obtain ⟨pre, post, hxs⟩ := List.append_of_mem hmem
    obtain ⟨s', ys, hcall, -, hsound', hys⟩ := hsound.deallocate hxs hfree
    have hstart : toSize b.offset = c.start * kMemoryAlign := by
      have hend := (hsound.tiles.mem hmem).2.2
      have hheap := hsound.heap_lt
      rw [hoffset]
      unfold toSize kMemoryAlign at *
      omega
    refine ⟨⟨⟨s', x.area.masterBase⟩, x.held.eraseIdx i⟩, ys, ?_, hsound'.holds, ?_, ?_,
      .inr hsound'⟩
    · simp [step, hb, freePmemBuffer, hfd, hunmap, hstart, hcall]
    · exact h.apart.sublist (List.eraseIdx_sublist ..)
    · have hcovered : Covered (x.held.eraseIdx i) (taken (values xs)) :=
        fun b' hb' => h.covered b' (List.mem_of_mem_eraseIdx hb')
      rw [hxs, taken_append, taken_cons_taken hfree] at hcovered
      rw [hys]
      refine hcovered.erase hpos hoffset fun b' hb' => ?_
      rw [List.eraseIdx_eq_take_drop_succ] at hb'
      rcases List.mem_append.mp hb' with hb' | hb'
      · exact (hacross b' hb' b List.mem_cons_self).symm
      · exact hbehind b' hb'
  · refine ⟨⟨x.area, x.held.set i { b with unmapFailed := true }⟩, xs, ?_, h.holds, ?_, ?_,
      .inr hsound⟩
    · simp [step, hb, freePmemBuffer, hunmap]
    · rw [List.set_eq_take_append_cons_drop, if_pos (List.getElem?_eq_some_iff.mp hb).1]
      refine List.pairwise_append.mpr ⟨hbefore, List.pairwise_cons.mpr ⟨hbehind, hafter⟩, ?_⟩
      intro d hd e he
      rcases List.mem_cons.mp he with rfl | he
      · exact hacross d hd b List.mem_cons_self
      · exact hacross d hd e (List.mem_cons_of_mem _ he)
    · intro d hd
      rcases List.mem_or_eq_of_mem_set hd with hd | rfl
      · exact h.covered d hd
      · exact ⟨hfd, hpos, c, hc, hoffset, hsize⟩

theorem Pmem.Inv.step {a : Pmem.Act} (h : ∃ xs, x.Inv xs) (husual : x.usual a = true)
    (hs : x.step a = some x') : ∃ xs, x'.Inv xs := by
  obtain ⟨xs, h⟩ := h
  cases a with
  | alloc size new₁ new₂ o out =>
      by_cases hadmits : x.admits size new₁ new₂ = true
      · obtain ⟨p, out', err, ys, hcall, hinv, -⟩ := h.alloc hadmits husual
        simp only [Pmem.step, if_pos hadmits, hcall] at hs
        cases hs
        exact ⟨ys, hinv⟩
      · simp only [Pmem.step, if_neg hadmits] at hs
        cases hs
  | free i unmap =>
      cases hb : x.held[i]? with
      | none =>
          simp only [Pmem.step, hb] at hs
          cases hs
      | some b =>
          obtain ⟨x'', ys, hstep, hinv⟩ := h.free hb unmap
          rw [hstep] at hs
          cases hs
          exact ⟨ys, hinv⟩

theorem Pmem.inv_first {size new : Nat} {base : Int} {x₀ : Pmem}
    (hfirst : Pmem.first size new base = some x₀) : ∃ xs, x₀.Inv xs := by
  obtain ⟨s, hset, -, hholds⟩ := Sound.setSize_holds size new
  have hx₀ : x₀ = ⟨⟨s, base⟩, []⟩ := by
    simpa [Pmem.first, hset, eq_comm] using hfirst
  subst hx₀
  refine ⟨_, hholds, List.Pairwise.nil, nofun, ?_⟩
  rcases Nat.eq_zero_or_pos s.mHeapSize with hzero | hpos
  · exact .inl ⟨hzero, rfl⟩
  · exact .inr (Sound.setSize hset hpos)

end Held

/-- **No two buffers overlap, and an error changes nothing.** In every run of usual calls the
    buffers that are held are apart, and each can be given back; and the next usual call for a
    buffer returns, and leaves the chunks and the outputs as they were unless it returns 0. -/
theorem pmem_buffers_apart {size new : Nat} {base : Int} {x₀ x : Pmem}
    (hfirst : Pmem.first size new base = some x₀)
    (hr : Reach Pmem.step (fun x a => x.usual a = true) x₀ x) :
    x.held.Pairwise Buffer.Apart ∧
      (∀ i < x.held.length, ∀ unmap, (x.step (.free i unmap)).isSome) ∧
      ∃ cs, x.area.allocator.mList.toList = some cs ∧
        ∀ size new₁ new₂ o out, x.admits size new₁ new₂ = true →
          x.usual (.alloc size new₁ new₂ o out) = true →
            ∃ p out' err, allocPmemBuffer x.area size new₁ new₂ o out = some (p, out', err) ∧
              (err ≠ 0 → p.allocator.mList.toList = some cs ∧ out' = out) := by
  obtain ⟨xs, h⟩ := hr.inv (I := fun x => ∃ xs, x.Inv xs) (Pmem.inv_first hfirst)
    fun _ _ _ hi hu hs => Pmem.Inv.step hi hu hs
  refine ⟨h.apart, fun i hi unmap => ?_, values xs, h.holds.toList,
    fun size new₁ new₂ o out hadmits husual => ?_⟩
  · obtain ⟨x', -, hstep, -⟩ := h.free (List.getElem?_eq_getElem hi) unmap
    rw [hstep]
    rfl
  obtain ⟨p, out', err, ys, hcall, hinv, herr⟩ := h.alloc hadmits husual
  refine ⟨p, out', err, hcall, fun hne => ?_⟩
  obtain ⟨hsame, hout⟩ := herr hne
  exact ⟨hinv.holds.toList.trans (congrArg some hsame), hout⟩

/-- A buffer whose unmapping failed keeps its place; the next one is behind it. -/
theorem pmem_buffers_apart_stuck :
    ∃ x₀ x, Pmem.first 16384 0 0 = some x₀ ∧
      Reach Pmem.step (fun x a => x.usual a = true) x₀ x ∧
      x.held = [⟨4096, 4096, 6, false⟩, ⟨0, 4096, 5, true⟩] ∧ x.held.Pairwise Buffer.Apart := by
  have hrun : (Pmem.first 16384 0 0).any (fun x₀ =>
      runTest Pmem.step Pmem.usual x₀
        [.alloc 4096 1 2 ⟨5, 0, 0, 0⟩ ⟨0, 0, 0⟩, .free 0 (-1),
          .alloc 4096 3 4 ⟨6, 0, -1, 22⟩ ⟨0, 0, 0⟩, .alloc 4096 5 6 ⟨6, 0, 0, 0⟩ ⟨0, 0, 0⟩]
        (fun x => decide (x.held = [⟨4096, 4096, 6, false⟩, ⟨0, 4096, 5, true⟩]))) = true := by
    decide
  obtain ⟨x₀, hfirst, hrun⟩ := Option.any_eq_true _ _ |>.mp hrun
  obtain ⟨x, hr, hheld⟩ := reach_of_runTest hrun
  exact ⟨x₀, x, hfirst, hr, of_decide_eq_true hheld, (pmem_buffers_apart hfirst hr).1⟩

/-- **A block forgotten.** In an area of a page more than 2^31 bytes the second buffer begins at
    byte 2^31: its offset is negative, the call returns an error, and the block stays taken. -/
theorem offset_turns_negative :
    ∃ x₀ x p out, Pmem.first 2147487744 0 0 = some x₀ ∧ Reach Pmem.step Always x₀ x ∧
      allocPmemBuffer x.area 4096 3 4 ⟨6, 0, 0, 0⟩ out = some (p, out, -ENOMEM) ∧
      x.area.allocator.mList.toList = some [⟨0, 67108864, false⟩, ⟨67108864, 128, true⟩] ∧
      p.allocator.mList.toList = some [⟨0, 67108864, false⟩, ⟨67108864, 128, false⟩] := by
  have hrun : (Pmem.first 2147487744 0 0).any (fun x₀ =>
      runTest Pmem.step (fun _ _ => true) x₀
        [.alloc 2147483648 1 2 ⟨5, 0, 0, 0⟩ ⟨0, 0, 0⟩]
        (fun x => (allocPmemBuffer x.area 4096 3 4 ⟨6, 0, 0, 0⟩ ⟨0, 0, 0⟩).any (fun r =>
          decide (r.2 = (⟨0, 0, 0⟩, -ENOMEM) ∧
            x.area.allocator.mList.toList = some [⟨0, 67108864, false⟩, ⟨67108864, 128, true⟩] ∧
            r.1.allocator.mList.toList =
              some [⟨0, 67108864, false⟩, ⟨67108864, 128, false⟩])))) = true := by
    decide
  obtain ⟨x₀, hfirst, hrun⟩ := Option.any_eq_true _ _ |>.mp hrun
  obtain ⟨x, hr, hcall⟩ := reach_of_runTest hrun
  obtain ⟨⟨p, out, err⟩, hcall, hlast⟩ := Option.any_eq_true _ _ |>.mp hcall
  obtain ⟨hout, hbefore, hafter⟩ := of_decide_eq_true hlast
  cases hout
  exact ⟨x₀, x, p, _, hfirst, hr.always, hcall, hbefore, hafter⟩

end Y210.Gralloc

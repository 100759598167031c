/-
  File:      Y210/Gralloc/Heap.lean
  Subject:   HISTORIES OF ALLOCATING AND GIVING BACK.

  A heap is set up once; then blocks are allocated and live blocks given back, in any order. Beside
  the allocator there is what its users know: the blocks they hold, and how many bytes they asked
  for.

  * `Heap.step` -- one call;
  * `Heap.Consistent`, `heap_stays_consistent` -- the list of chunks after every history;
  * `zero_heap_has_empty_chunk` -- a heap of no bytes.
-/
import Y210.Gralloc.Sound
import Y210.Lib.Run

namespace Y210.Gralloc

open Y210.Lib LinkedList

/-! ## 1. Calls -/

/-- The allocator, and the blocks that are held: their offset, and the bytes that were asked for. -/
structure Heap where
  allocator : Allocator
  live : List (Nat × Nat)
  deriving DecidableEq

/-- A call, with the addresses that `new` returns in it. -/
inductive Heap.Act where
  | allocate (size new₁ new₂ : Nat)
  | deallocate (offset : Nat)

namespace Heap

/-- `new` returns two different addresses at which there is no node. -/
def fresh (x : Heap) (new₁ new₂ : Nat) : Bool :=
  decide (x.allocator.mList.node new₁ = none ∧ x.allocator.mList.node new₂ = none ∧ new₂ ≠ new₁)

/-- **One call**: a block of 1 to 2^31 bytes is asked for, or a live one given back. -/
def step (x : Heap) : Heap.Act → Option Heap
  | .allocate size new₁ new₂ =>
    if 1 ≤ size ∧ size ≤ 2 ^ 31 ∧ x.fresh new₁ new₂ then do
      let r ← x.allocator.allocate size new₁ new₂
      return ⟨r.1, if 0 ≤ r.2 then (r.2.toNat, size) :: x.live else x.live⟩
    else none
  | .deallocate offset =>
    if offset ∈ x.live.map Prod.fst then do
      let r ← x.allocator.deallocate offset
      return ⟨r.1, x.live.filter fun b => b.1 ≠ offset⟩
    else none

/-- A new heap. -/
def create (size new : Nat) : Option Heap := do
  let r ← Allocator.empty.setSize size new
  return ⟨r.1, []⟩

end Heap

/-! ## 2. The live blocks -/

/-- **The taken chunks are the live blocks**, and cover the bytes that were asked for. -/
structure Blocks (live : List (Nat × Nat)) (blocks : List Chunk) : Prop where
  covers : ∀ b ∈ live, ∃ c ∈ blocks, c.start * kMemoryAlign = b.1 ∧ b.2 ≤ c.size * kMemoryAlign
  owned : ∀ c ∈ blocks, ∃ b ∈ live, b.1 = c.start * kMemoryAlign ∧ b.2 ≤ c.size * kMemoryAlign

section Blocks

variable {live : List (Nat × Nat)} {pre post : List Chunk} {c : Chunk}

theorem Blocks.insert (h : Blocks live (pre ++ post)) {size : Nat}
    (hsize : size ≤ c.size * kMemoryAlign) :
    Blocks ((c.start * kMemoryAlign, size) :: live) (pre ++ c :: post) := by
  constructor
  · intro b hb
    rcases List.mem_cons.mp hb with rfl | hb
    · exact ⟨c, by simp, rfl, hsize⟩
    · obtain ⟨d, hd, hcover⟩ := h.covers b hb
      exact ⟨d, by grind, hcover⟩
  · intro d hd
    rcases (by simpa using hd : d ∈ pre ∨ d = c ∨ d ∈ post) with hd | rfl | hd
    · obtain ⟨b, hb, howned⟩ := h.owned d (by simp [hd])
      exact ⟨b, by simp [hb], howned⟩
    · exact ⟨_, List.mem_cons_self, rfl, hsize⟩
    · obtain ⟨b, hb, howned⟩ := h.owned d (by simp [hd])
      exact ⟨b, by simp [hb], howned⟩

theorem Blocks.erase (h : Blocks live (pre ++ c :: post))
    (hother : ∀ d ∈ pre ++ post, d.start ≠ c.start) :
    Blocks (live.filter fun b => b.1 ≠ c.start * kMemoryAlign) (pre ++ post) := by
  constructor
  · intro b hb
    obtain ⟨hb, hne⟩ := List.mem_filter.mp hb
    obtain ⟨d, hd, hstart, hcover⟩ := h.covers b hb
    refine ⟨d, ?_, hstart, hcover⟩
    have hdc : d ≠ c := by
      rintro rfl
      exact of_decide_eq_true hne hstart.symm
    grind
  · intro d hd
    obtain ⟨b, hb, hstart, hcover⟩ := h.owned d (by grind)
    refine ⟨b, List.mem_filter.mpr ⟨hb, decide_eq_true ?_⟩, hstart, hcover⟩
    have hne := hother d hd
    rw [hstart]
    unfold kMemoryAlign
    omega

end Blocks

/-! ## 3. The list of chunks -/

namespace Heap

/-- **The list of chunks is consistent**: it is a doubly linked list, its chunks tile the heap in
    order and none is empty, no two free chunks are neighbours, the taken chunks begin on pages, and
    they are the live blocks. -/
structure Consistent (x : Heap) (xs : List (Nat × Chunk)) : Prop where
  list : Holds x.allocator.mList xs
  tiles : Tiles 0 (x.allocator.mHeapSize / kMemoryAlign) (values xs)
  apart : Apart (values xs)
  pages : ∀ c ∈ taken (values xs), c.start * kMemoryAlign % pagesize = 0
  blocks : Blocks x.live (taken (values xs))

/-- Every call returns. -/
structure Returns (x : Heap) : Prop where
  allocate : ∀ size new₁ new₂, 1 ≤ size → size ≤ 2 ^ 31 → x.fresh new₁ new₂ = true →
    (x.step (.allocate size new₁ new₂)).isSome = true
  deallocate : ∀ offset ∈ x.live.map Prod.fst, (x.step (.deallocate offset)).isSome = true

/-- A sound allocator of this size, and its live blocks. -/
structure Inv (heapSize : Nat) (x : Heap) (xs : List (Nat × Chunk)) : Prop where
  sound : Sound x.allocator xs
  size : x.allocator.mHeapSize = heapSize
  blocks : Blocks x.live (taken (values xs))

section Calls

variable {x x' : Heap} {xs : List (Nat × Chunk)} {heapSize : Nat}

/-- **Asking for a block.** -/
theorem Inv.allocate (h : Inv heapSize x xs) (hheap : heapSize ≤ 2 ^ 31) {size new₁ new₂ : Nat}
    (hpos : 1 ≤ size) (hsize : size ≤ 2 ^ 31) (hfresh : x.fresh new₁ new₂ = true) :
    ∃ x' ys, x.step (.allocate size new₁ new₂) = some x' ∧ Inv heapSize x' ys := by
  obtain ⟨hnew₁, hnew₂, hne⟩ := of_decide_eq_true hfresh
  have hroom : size + kMemoryAlign ≤ 2 ^ 32 := by
    unfold kMemoryAlign
    omega
  have hasked : 1 ≤ size ∧ size ≤ 2 ^ 31 ∧ x.fresh new₁ new₂ = true := ⟨hpos, hsize, hfresh⟩
  rcases h.sound.allocate_block (h.size ▸ hheap) hpos hroom hnew₁ hnew₂ hne with
    hfull | ⟨s', ys, pre, post, b, hcall, hsame, hsound, hys, hb, hold, -, hcover, -⟩
  · exact ⟨x, xs, by simp only [step, if_pos hasked, hfull]; rfl, h⟩
  · refine ⟨⟨s', (b.start * kMemoryAlign, size) :: x.live⟩, ys, ?_, hsound, hsame.trans h.size, ?_⟩
    · generalize b.start * kMemoryAlign = offset at hcall
      simp only [step, if_pos hasked, hcall]
      simp
    · have hblocks := h.blocks
      rw [hold] at hblocks
      rw [hys, taken_append, taken_cons_taken hb]
      exact hblocks.insert hcover

/-- **Giving a block back.** -/
theorem Inv.deallocate (h : Inv heapSize x xs) {offset : Nat}
    (hlive : offset ∈ x.live.map Prod.fst) :
    ∃ x' ys, x.step (.deallocate offset) = some x' ∧ Inv heapSize x' ys := by
  obtain ⟨b, hb, rfl⟩ := List.mem_map.mp hlive
  obtain ⟨c, hc, hstart, -⟩ := h.blocks.covers b hb
  obtain ⟨hmem, hfree⟩ := mem_taken.mp hc
  obtain ⟨pre, post, hxs⟩ := List.append_of_mem hmem
  obtain ⟨s', ys, hcall, hsame, hsound, hys⟩ := h.sound.deallocate hxs hfree
  refine ⟨⟨s', x.live.filter fun b' => b'.1 ≠ b.1⟩, ys, ?_, hsound, hsame.trans h.size, ?_⟩
  · rw [hstart] at hcall
    simp only [step, if_pos hlive, hcall]
    rfl
  · have hblocks := h.blocks
    have htiles := h.sound.tiles
    rw [hxs] at htiles hblocks
    rw [taken_append, taken_cons_taken hfree] at hblocks
    rw [hys, ← hstart]
    refine hblocks.erase fun d hd => htiles.start_ne ?_
    rw [← taken_append] at hd
    exact (mem_taken.mp hd).1

/-- One call keeps the allocator sound. -/
theorem Inv.step {a : Heap.Act} (hheap : heapSize ≤ 2 ^ 31) (h : ∃ xs, Inv heapSize x xs)
    (hs : x.step a = some x') : ∃ xs, Inv heapSize x' xs := by
  obtain ⟨xs, h⟩ := h
  cases a with
  | allocate size new₁ new₂ =>
      by_cases hguard : 1 ≤ size ∧ size ≤ 2 ^ 31 ∧ x.fresh new₁ new₂ = true
      · obtain ⟨x'', ys, hstep, hinv⟩ := h.allocate hheap hguard.1 hguard.2.1 hguard.2.2
        rw [hstep] at hs
        cases hs
        exact ⟨ys, hinv⟩
      · simp only [Heap.step, if_neg hguard] at hs
        cases hs
  | deallocate offset =>
      by_cases hlive : offset ∈ x.live.map Prod.fst
      · obtain ⟨x'', ys, hstep, hinv⟩ := h.deallocate hlive
        rw [hstep] at hs
        cases hs
        exact ⟨ys, hinv⟩
      · simp only [Heap.step, if_neg hlive] at hs
        cases hs

end Calls

end Heap

/-- **Every history leaves a consistent list.** A heap of 1 to 2^31 - 1 bytes, rounded up to pages,
    is set up; after any calls its list of chunks is consistent, and every call returns. -/
theorem heap_stays_consistent {size new : Nat} (hpos : 0 < size) (hsize : size < 2 ^ 31)
    {x₀ x : Heap} (hcreate : Heap.create size new = some x₀)
    (hr : Reach Heap.step Always x₀ x) :
    x.allocator.mHeapSize = (size + pagesize - 1) / pagesize * pagesize ∧
      (∃ xs, x.Consistent xs) ∧ x.Returns := by
  obtain ⟨s, hset, hheap, -⟩ := Sound.setSize_holds size new
  rw [word_eq (by unfold pagesize; omega)] at hheap
  have hsound := Sound.setSize hset (by unfold pagesize at hheap; simp only; omega)
  have hle : (size + pagesize - 1) / pagesize * pagesize ≤ 2 ^ 31 := by
    unfold pagesize
    omega
  have hx₀ : x₀ = ⟨s, []⟩ := by
    simpa [Heap.create, hset, eq_comm] using hcreate
  generalize (size + pagesize - 1) / pagesize * pagesize = heapSize at hheap hle ⊢
  have hinv₀ : ∃ xs, Heap.Inv heapSize x₀ xs := by
    rw [hx₀]
    exact ⟨_, hsound, hheap, ⟨nofun, nofun⟩⟩
  obtain ⟨xs, hinv⟩ := hr.inv (I := fun x => ∃ xs, Heap.Inv heapSize x xs) hinv₀
    fun _ _ _ hi _ hs => Heap.Inv.step hle hi hs
  refine ⟨hinv.size, ⟨xs, hinv.sound.holds, hinv.sound.tiles, hinv.sound.apart, hinv.sound.pages,
    hinv.blocks⟩, ?_, ?_⟩
  · intro size new₁ new₂ h1 h2 hfresh
    obtain ⟨x', -, hstep, -⟩ := hinv.allocate hle h1 h2 hfresh
    rw [hstep]
    rfl
  · intro offset hlive
    obtain ⟨x', -, hstep, -⟩ := hinv.deallocate hlive
    rw [hstep]
    rfl

/-- A block in the middle of three is given back, then taken again in two parts, of which the second
    begins on the next page. -/
theorem heap_stays_consistent_split :
    ∃ x₀ x, Heap.create 40960 0 = some x₀ ∧ Reach Heap.step Always x₀ x ∧
      x.live = [(8192, 32), (4096, 100), (16384, 4096), (0, 4096)] ∧ ∃ xs, x.Consistent xs := by
  have hrun : (Heap.create 40960 0).any (fun x₀ =>
      runTest Heap.step (fun _ _ => true) x₀
        [.allocate 4096 1 2, .allocate 12288 3 4, .allocate 4096 5 6, .deallocate 4096,
          .allocate 100 7 8, .allocate 32 9 10]
        (fun x =>
          decide (x.live = [(8192, 32), (4096, 100), (16384, 4096), (0, 4096)]))) = true := by
    decide
  obtain ⟨x₀, hcreate, hrun⟩ := Option.any_eq_true _ _ |>.mp hrun
  obtain ⟨x, hr, hlive⟩ := reach_of_runTest hrun
  exact ⟨x₀, x, hcreate, hr.always, of_decide_eq_true hlive,
    (heap_stays_consistent (by decide) (by decide) hcreate hr.always).2.1⟩

/-- **A heap of no bytes** is given a chunk all the same, which is empty. -/
theorem zero_heap_has_empty_chunk :
    ∃ x, Heap.create 0 0 = some x ∧ ∀ xs, ¬ x.Consistent xs := by
  refine ⟨_, rfl, fun xs h => ?_⟩
  have hfirst := h.list.first
  cases xs with
  | nil => cases hfirst
  | cons y ys =>
      obtain ⟨a, c⟩ := y
      cases hfirst
      have hval : some (Chunk.create 0 0) = some c :=
        congrArg (Option.map Node.val) h.list.segment.1
      cases hval
      exact absurd h.tiles.2.1 (by decide)

end Y210.Gralloc

/-
  File:      Y210/Gralloc/Histories.lean
  Subject:   THE LIST OF CHUNKS HAS NO MEMORY.

  Two heaps of one size may be used in different ways; if the same blocks are held in the end, their
  lists of chunks are the same. It needs more than a consistent list: the taken chunks are exactly
  the blocks that are held, and the code breaks that in two ways. A request of nearly 2^32 bytes is
  rounded up to no units, and the offset of a block behind byte 2^31 reads as an error.

  * `Heap.call`, `rounded` -- one call, and the blocks that are held;
  * `Heap.Exact` -- the taken chunks are these blocks;
  * `chunks_forget_history` -- the list of chunks after two histories;
  * `history_leaves_trace` -- two histories that can be told apart.
-/
import Y210.Gralloc.Heap
import Mathlib.Data.List.Sort

namespace Y210.Gralloc

open Y210.Lib LinkedList

/-! ## 1. Calls -/

namespace Heap

/-- **One call**: a block of any positive size is asked for, or a live one given back. -/
def call (x : Heap) : Heap.Act → Option Heap
  | .allocate size new₁ new₂ =>
    if 1 ≤ size ∧ size < 2 ^ 32 ∧ x.fresh new₁ new₂ = true then do
      let r ← x.allocator.allocate size new₁ new₂
      return ⟨r.1, if 0 ≤ r.2 then (r.2.toNat, size) :: x.live else x.live⟩
    else none
  | .deallocate offset =>
    if offset ∈ x.live.map Prod.fst then do
      let r ← x.allocator.deallocate offset
      return ⟨r.1, x.live.filter fun b => b.1 ≠ offset⟩
    else none

/-- **The usual calls**: rounding the request does not overflow, and the heap has no byte whose
    offset is negative. -/
def usual (x : Heap) : Heap.Act → Bool
  | .allocate size _ _ => decide (x.allocator.mHeapSize ≤ 2 ^ 31 ∧ size + kMemoryAlign ≤ 2 ^ 32)
  | .deallocate _ => decide (x.allocator.mHeapSize ≤ 2 ^ 31)

/-- The chunks of the heap. -/
def chunks (x : Heap) : Option (List Chunk) := x.allocator.mList.toList

end Heap

/-- The offsets of the blocks, and their sizes as `alloc` rounds them. -/
def rounded (live : List (Nat × Nat)) : List (Nat × Nat) :=
  live.map fun b => (b.1, word (b.2 + kMemoryAlign - 1) / kMemoryAlign)

/-- The offsets and the sizes of the taken chunks. -/
def places (cs : List Chunk) : List (Nat × Nat) :=
  (taken cs).map fun c => (c.start * kMemoryAlign, c.size)

/-! ## 2. Taken chunks and their places -/

section Places

variable {s e : Nat} {cs ds : List Chunk} {c : Chunk}

theorem mem_places {b : Nat × Nat} :
    b ∈ places cs ↔ ∃ c ∈ taken cs, c.start * kMemoryAlign = b.1 ∧ c.size = b.2 := by
  simp [places, Prod.ext_iff]

theorem taken_of_places (h : ∀ b ∈ places cs, b ∈ places ds) (hc : c ∈ taken cs) :
    c ∈ taken ds := by
  obtain ⟨d, hd, hstart, hsize⟩ := mem_places.mp (h _ (List.mem_map_of_mem hc))
  have hfree := (mem_taken.mp hc).2.trans (mem_taken.mp hd).2.symm
  have hstart : d.start = c.start := Nat.eq_of_mul_eq_mul_right (by decide) hstart
  rwa [show c = d from by cases c; cases d; simp_all]

/-- The taken chunks begin one behind the other. -/
theorem Tiles.taken_sorted (h : Tiles s e cs) :
    (taken cs).Pairwise fun c d => c.start < d.start := by
  refine List.Pairwise.filter _ (h.sorted.imp_of_mem fun hc _ hle => ?_)
  have := (h.mem hc).2.1
  omega

/-- **The taken chunks are known by their places.** -/
theorem taken_eq_of_places (hcs : Tiles s e cs) (hds : Tiles s e ds)
    (h : ∀ b, b ∈ places cs ↔ b ∈ places ds) : taken cs = taken ds := by
  have : Std.Irrefl fun c d : Chunk => c.start < d.start := ⟨fun _ => Nat.lt_irrefl _⟩
  have : Std.Antisymm fun c d : Chunk => c.start < d.start :=
    ⟨fun _ _ hlt hgt => absurd hlt (Nat.lt_asymm hgt)⟩
  exact hcs.taken_sorted.eq_of_mem_iff hds.taken_sorted fun c =>
    ⟨taken_of_places fun b => (h b).mp, taken_of_places fun b => (h b).mpr⟩

theorem places_insert {pre post : List Chunk} (hc : c.free = false)
    (hcs : taken cs = taken pre ++ taken post) (b : Nat × Nat) :
    b ∈ places (pre ++ c :: post) ↔ b = (c.start * kMemoryAlign, c.size) ∨ b ∈ places cs := by
  simp only [places, hcs, taken_append, taken_cons_taken hc, List.map_append, List.map_cons,
    List.mem_append, List.mem_cons]
  tauto

theorem places_erase {pre post : List Chunk} (hc : c.free = false)
    (h : Tiles s e (pre ++ c :: post)) (hcs : taken cs = taken pre ++ taken post) (b : Nat × Nat) :
    b ∈ places cs ↔ b ∈ places (pre ++ c :: post) ∧ b.1 ≠ c.start * kMemoryAlign := by
  have hother : b ∈ places cs → b.1 ≠ c.start * kMemoryAlign := by
    intro hb hsame
    obtain ⟨d, hd, hstart, -⟩ := mem_places.mp hb
    rw [hcs, ← taken_append] at hd
    exact h.start_ne (mem_taken.mp hd).1
      (Nat.eq_of_mul_eq_mul_right (by decide) (hstart.trans hsame))
  rw [places_insert hc hcs]
  grind

end Places

theorem mem_rounded_filter {live : List (Nat × Nat)} {offset : Nat} (b : Nat × Nat) :
    b ∈ rounded (live.filter fun b => b.1 ≠ offset) ↔ b ∈ rounded live ∧ b.1 ≠ offset := by
  simp only [rounded, List.mem_map, List.mem_filter, decide_eq_true_eq]
  grind

/-! ## 3. The blocks that are held -/

namespace Heap

/-- **The taken chunks are the blocks that are held**, in a sound allocator of this size. -/
structure Exact (heapSize : Nat) (x : Heap) (xs : List (Nat × Chunk)) : Prop where
  sound : Sound x.allocator xs
  size : x.allocator.mHeapSize = heapSize
  live : ∀ b, b ∈ rounded x.live ↔ b ∈ places (values xs)

section Calls

variable {x x' y : Heap} {xs ys : List (Nat × Chunk)} {heapSize : Nat}

/-- **The blocks that are held determine the chunks.** -/
theorem Exact.unique (hx : Exact heapSize x xs) (hy : Exact heapSize y ys)
    (hlive : ∀ b, b ∈ rounded x.live ↔ b ∈ rounded y.live) : values xs = values ys := by
  have htiles := hx.sound.tiles
  have htiles' := hy.sound.tiles
  rw [hx.size] at htiles
  rw [hy.size] at htiles'
  have hplaces : ∀ b, b ∈ places (values xs) ↔ b ∈ places (values ys) := fun b =>
    (hx.live b).symm.trans ((hlive b).trans (hy.live b))
  exact chunks_unique htiles htiles' hx.sound.apart hy.sound.apart
    (taken_eq_of_places htiles htiles' hplaces)

/-- **Asking for a block**: there is none, or one is held that was not held before. -/
theorem Exact.allocate (h : Exact heapSize x xs) (hheap : heapSize ≤ 2 ^ 31)
    {size new₁ new₂ : Nat} (hpos : 1 ≤ size) (hsize : size + kMemoryAlign ≤ 2 ^ 32)
    (hfresh : x.fresh new₁ new₂ = true) :
    x.call (.allocate size new₁ new₂) = some x ∨
      ∃ x' ys offset, x.call (.allocate size new₁ new₂) = some x' ∧ Exact heapSize x' ys ∧
        x'.live = (offset, size) :: x.live ∧ offset ∉ x.live.map Prod.fst := by
  obtain ⟨hnew₁, hnew₂, hne⟩ := of_decide_eq_true hfresh
  have hasked : 1 ≤ size ∧ size < 2 ^ 32 ∧ x.fresh new₁ new₂ = true :=
    ⟨hpos, by unfold kMemoryAlign at hsize; omega, hfresh⟩
  rcases h.sound.allocate_block (h.size ▸ hheap) hpos hsize hnew₁ hnew₂ hne with
    hfull | ⟨s', ys, pre, post, b, hcall, hsame, hsound, hys, hb, hold, -, -, hunits⟩
  · exact .inl (by simp only [call, if_pos hasked, hfull]; rfl)
  right
  have htiles := hsound.tiles
  rw [hys] at htiles
  refine ⟨⟨s', (b.start * kMemoryAlign, size) :: x.live⟩, ys, b.start * kMemoryAlign, ?_,
    ⟨hsound, hsame.trans h.size, fun p => ?_⟩, rfl, fun hmem => ?_⟩
  · generalize b.start * kMemoryAlign = offset at hcall
    simp only [call, if_pos hasked, hcall]
    simp
  · have hround : word (size + kMemoryAlign - 1) / kMemoryAlign = b.size := by
      rw [word_eq (by unfold kMemoryAlign at *; omega), hunits, units]
    rw [hys, places_insert hb hold, ← h.live p, ← hround]
    simp [rounded]
  · -- a block held there would have a taken chunk of its own
    obtain ⟨p, hp, hoffset⟩ := List.mem_map.mp hmem
    have hplace := (h.live _).mp (List.mem_map_of_mem hp)
    exact ((places_erase hb htiles hold _).mp hplace).2 hoffset

/-- What a usual request that was answered has done. -/
theorem Exact.of_allocate (h : Exact heapSize x xs) {size new₁ new₂ : Nat}
    (hc : x.usual (.allocate size new₁ new₂) = true)
    (hs : x.call (.allocate size new₁ new₂) = some x') :
    x' = x ∨ ∃ ys offset, Exact heapSize x' ys ∧
      x'.live = (offset, size) :: x.live ∧ offset ∉ x.live.map Prod.fst := by
  obtain ⟨hheap, hsize⟩ := of_decide_eq_true hc
  have hasked : 1 ≤ size ∧ size < 2 ^ 32 ∧ x.fresh new₁ new₂ = true := by
    by_contra hguard
    simp only [Heap.call, if_neg hguard] at hs
    cases hs
  rcases h.allocate (h.size ▸ hheap) hasked.1 hsize hasked.2.2 with
    hfull | ⟨y, ys, offset, hstep, hexact, hlive, hnew⟩
  · rw [hfull] at hs
    cases hs
    exact .inl rfl
  · rw [hstep] at hs
    cases hs
    exact .inr ⟨ys, offset, hexact, hlive, hnew⟩

/-- **Giving a block back.** -/
theorem Exact.deallocate (h : Exact heapSize x xs) {offset : Nat}
    (hlive : offset ∈ x.live.map Prod.fst) :
    ∃ x' ys, x.call (.deallocate offset) = some x' ∧ Exact heapSize x' ys ∧
      x'.live = x.live.filter fun b => b.1 ≠ offset := by
  obtain ⟨b, hb, rfl⟩ := List.mem_map.mp hlive
  obtain ⟨c, hc, hstart, -⟩ := mem_places.mp ((h.live _).mp (List.mem_map_of_mem hb))
  obtain ⟨hmem, hfree⟩ := mem_taken.mp hc
  obtain ⟨pre, post, hxs⟩ := List.append_of_mem hmem
  obtain ⟨s', ys, hcall, hsame, hsound, hys⟩ := h.sound.deallocate hxs hfree
  simp only at hstart
  have htiles := h.sound.tiles
  rw [hxs] at htiles
  refine ⟨⟨s', x.live.filter fun b' => b'.1 ≠ b.1⟩, ys, ?_,
    ⟨hsound, hsame.trans h.size, fun p => ?_⟩, rfl⟩
  · rw [hstart] at hcall
    simp only [call, if_pos hlive, hcall]
    rfl
  · rw [mem_rounded_filter, places_erase hfree htiles hys, h.live p, hxs, hstart]

/-- One usual call keeps the taken chunks and the blocks together. -/
theorem Exact.call {a : Heap.Act} (h : ∃ xs, Exact heapSize x xs) (hc : x.usual a = true)
    (hs : x.call a = some x') : ∃ xs, Exact heapSize x' xs := by
  obtain ⟨xs, h⟩ := h
  cases a with
  | allocate size new₁ new₂ =>
      rcases h.of_allocate hc hs with rfl | ⟨ys, -, hexact, -⟩
      · exact ⟨xs, h⟩
      · exact ⟨ys, hexact⟩
  | deallocate offset =>
      by_cases hlive : offset ∈ x.live.map Prod.fst
      · obtain ⟨x'', ys, hstep, hexact, -⟩ := h.deallocate hlive
        rw [hstep] at hs
        cases hs
        exact ⟨ys, hexact⟩
      · simp only [Heap.call, if_neg hlive] at hs
        cases hs

/-- **A block that was just allocated** is given back: the chunks are as before. -/
theorem Exact.restore (h : Exact heapSize x xs) (h' : Exact heapSize x' ys) {offset size : Nat}
    (hlive : x'.live = (offset, size) :: x.live) (hnew : offset ∉ x.live.map Prod.fst) :
    ∃ x'', x'.call (.deallocate offset) = some x'' ∧ x''.live = x.live ∧
      x''.chunks = x.chunks := by
  have hmem : offset ∈ x'.live.map Prod.fst := by simp [hlive]
  obtain ⟨x'', zs, hback, h'', hfiltered⟩ := h'.deallocate hmem
  -- the other blocks that are held are elsewhere
  have hsame : x''.live = x.live := by
    rw [hfiltered, hlive, List.filter_cons_of_neg (by simp), List.filter_eq_self]
    exact fun b hb => decide_eq_true fun h => hnew (h ▸ List.mem_map_of_mem hb)
  have hvalues : values zs = values xs := h''.unique h fun b => by rw [hsame]
  have hchunks : x''.chunks = some (values zs) := h''.sound.holds.toList
  refine ⟨x'', hback, hsame, ?_⟩
  rw [hchunks, hvalues]
  exact h.sound.holds.toList.symm

/-- **A heap of no bytes** refuses every request and keeps its empty chunk. -/
def Empty (x : Heap) : Prop :=
  x.allocator.mHeapSize = 0 ∧ x.live = [] ∧ x.chunks = some [⟨0, 0, true⟩]

theorem Empty.call {a : Heap.Act} (h : x.Empty) (hs : x.call a = some x') : x'.Empty := by
  obtain ⟨hzero, hnone, hchunks⟩ := h
  cases a with
  | allocate size new₁ new₂ =>
      have hcall : x.allocator.allocate size new₁ new₂ = some (x.allocator, -EINVAL) := if_pos hzero
      simp only [Heap.call] at hs
      split at hs
      · rw [hcall] at hs
        cases hs
        exact ⟨hzero, hnone, hchunks⟩
      · cases hs
  | deallocate offset =>
      simp [Heap.call, hnone] at hs

/-- A heap of this size whose chunks and blocks belong together. -/
def Kept (heapSize : Nat) (x : Heap) : Prop :=
  (heapSize = 0 ∧ x.Empty) ∨ ∃ xs, Exact heapSize x xs

theorem Kept.same_chunks (hx : Kept heapSize x) (hy : Kept heapSize y)
    (hlive : ∀ b, b ∈ rounded x.live ↔ b ∈ rounded y.live) :
    ∃ cs, x.chunks = some cs ∧ y.chunks = some cs := by
  rcases hx with ⟨hzero, hx⟩ | ⟨xs, hx⟩
  · rcases hy with ⟨-, hy⟩ | ⟨ys, hy⟩
    · exact ⟨_, hx.2.2, hy.2.2⟩
    · exact absurd (hy.size.trans hzero) (Nat.ne_of_gt hy.sound.heap.1)
  · rcases hy with ⟨hzero, -⟩ | ⟨ys, hy⟩
    · exact absurd (hx.size.trans hzero) (Nat.ne_of_gt hx.sound.heap.1)
    · refine ⟨values xs, hx.sound.holds.toList, ?_⟩
      rw [hx.unique hy hlive]
      exact hy.sound.holds.toList

theorem Kept.restore (h : Kept heapSize x) {size new₁ new₂ offset : Nat}
    (hc : x.usual (.allocate size new₁ new₂) = true)
    (hs : x.call (.allocate size new₁ new₂) = some x')
    (hgrown : x'.live = (offset, size) :: x.live) :
    ∃ x'', x'.call (.deallocate offset) = some x'' ∧ x''.live = x.live ∧
      x''.chunks = x.chunks := by
  rcases h with ⟨-, h⟩ | ⟨xs, h⟩
  · have hnone := (h.call hs).2.1
    rw [hgrown] at hnone
    cases hnone
  · rcases h.of_allocate hc hs with rfl | ⟨ys, o, hexact, hlive, hnew⟩
    · exact absurd (congrArg List.length hgrown) (by simp)
    · obtain ⟨rfl, -⟩ := Prod.mk.inj (List.cons.inj (hlive.symm.trans hgrown)).1
      exact h.restore hexact hlive hnew

/-- **Every history of usual calls** leaves the taken chunks and the blocks together. -/
theorem kept_reached {size new : Nat} {x₀ : Heap} (hcreate : Heap.create size new = some x₀)
    (hr : Reach Heap.call (fun x a => x.usual a = true) x₀ x) :
    Kept x₀.allocator.mHeapSize x := by
  obtain ⟨s, hset, -, hholds⟩ := Sound.setSize_holds size new
  have hx₀ : x₀ = ⟨s, []⟩ := by
    simpa [Heap.create, hset, eq_comm] using hcreate
  subst hx₀
  by_cases hzero : s.mHeapSize = 0
  · rw [hzero] at hholds
    have hempty : Empty ⟨s, []⟩ := ⟨hzero, rfl, hholds.toList⟩
    exact .inl ⟨hzero, hr.inv hempty fun _ _ _ h _ hs => h.call hs⟩
  · have hsound := Sound.setSize hset (Nat.pos_of_ne_zero hzero)
    have hexact : ∃ xs, Exact s.mHeapSize ⟨s, []⟩ xs :=
      ⟨_, hsound, rfl, fun b => iff_of_false List.not_mem_nil List.not_mem_nil⟩
    exact .inr (hr.inv (I := fun x => ∃ xs, Exact s.mHeapSize x xs) hexact
      fun _ _ _ h hc hs => Exact.call h hc hs)

end Calls

end Heap

/-! ## 4. Two histories -/

/-- **The list of chunks has no memory.** After two histories of usual calls on heaps of one size,
    in which the same blocks are held in the end, the chunks are the same; and giving back the
    block a usual call has just returned restores them. -/
theorem chunks_forget_history {size new size' new' : Nat} {x₀ x y₀ y : Heap}
    (hcreate : Heap.create size new = some x₀) (hcreate' : Heap.create size' new' = some y₀)
    (hsize : x₀.allocator.mHeapSize = y₀.allocator.mHeapSize)
    (hx : Reach Heap.call (fun x a => x.usual a = true) x₀ x)
    (hy : Reach Heap.call (fun x a => x.usual a = true) y₀ y)
    (hlive : ∀ b, b ∈ rounded x.live ↔ b ∈ rounded y.live) :
    (∃ cs, x.chunks = some cs ∧ y.chunks = some cs) ∧
      ∀ asked new₁ new₂ x' offset, x.usual (.allocate asked new₁ new₂) = true →
        x.call (.allocate asked new₁ new₂) = some x' → x'.live = (offset, asked) :: x.live →
        ∃ x'', x'.call (.deallocate offset) = some x'' ∧ x''.live = x.live ∧
          x''.chunks = x.chunks := by
  have hx := Heap.kept_reached hcreate hx
  have hy := Heap.kept_reached hcreate' hy
  rw [← hsize] at hy
  constructor
  · exact hx.same_chunks hy hlive
  · intro asked new₁ new₂ x' offset hc hcall hgrown
    exact hx.restore hc hcall hgrown

/-- A block that was given back and taken again in part, and the same blocks at once. -/
theorem chunks_forget_history_part :
    ∃ x₀ x y, Heap.create 40960 0 = some x₀ ∧
      Reach Heap.call (fun x a => x.usual a = true) x₀ x ∧
      Reach Heap.call (fun x a => x.usual a = true) x₀ y ∧
      x.live = [(0, 100), (4096, 8192)] ∧ y.live = [(4096, 8190), (0, 128)] ∧
      ∃ cs, x.chunks = some cs ∧ y.chunks = some cs := by
  have hrun : (Heap.create 40960 0).any (fun x₀ =>
      runTest Heap.call Heap.usual x₀
        [.allocate 4096 1 2, .allocate 8192 3 4, .deallocate 0, .allocate 100 5 6]
        (fun x => decide (x.live = [(0, 100), (4096, 8192)])) &&
      runTest Heap.call Heap.usual x₀ [.allocate 128 1 2, .allocate 8190 3 4]
        (fun y => decide (y.live = [(4096, 8190), (0, 128)]))) = true := by
    decide
  obtain ⟨x₀, hcreate, hrun⟩ := Option.any_eq_true _ _ |>.mp hrun
  obtain ⟨hrun, hrun'⟩ := (Bool.and_eq_true _ _).mp hrun
  obtain ⟨x, hx, hlive⟩ := reach_of_runTest hrun
  obtain ⟨y, hy, hlive'⟩ := reach_of_runTest hrun'
  have hlive := of_decide_eq_true hlive
  have hlive' := of_decide_eq_true hlive'
  refine ⟨x₀, x, y, hcreate, hx, hy, hlive, hlive',
    (chunks_forget_history hcreate hcreate rfl hx hy fun b => ?_).1⟩
  have hsame : rounded x.live = (rounded y.live).reverse := by
    rw [hlive, hlive']
    decide
  rw [hsame, List.mem_reverse]

/-- **Two histories that can be told apart.** In a heap of 2^31 bytes and a page, the block behind
    byte 2^31 looks like an error to its caller and is never given back. And a block of 2^32 - 1
    bytes is rounded up to none: to give it back ends in `LOG_FATAL_IF`. -/
theorem history_leaves_trace :
    (∃ x₀ x y, Heap.create 2147487744 0 = some x₀ ∧ Reach Heap.call Always x₀ x ∧
      x.call (.allocate 4096 3 4) = some y ∧ x.live = y.live ∧
      x.chunks = some [⟨0, 67108864, false⟩, ⟨67108864, 128, true⟩] ∧
      y.chunks = some [⟨0, 67108864, false⟩, ⟨67108864, 128, false⟩]) ∧
    ∃ x₀ x y, Heap.create 8192 0 = some x₀ ∧ Reach Heap.call Always x₀ x ∧
      x.call (.allocate 4294967295 3 4) = some y ∧ y.live = (4096, 4294967295) :: x.live ∧
      y.call (.deallocate 4096) = none := by
  constructor
  · have hrun : (Heap.create 2147487744 0).any (fun x₀ =>
        runTest Heap.call (fun _ _ => true) x₀ [.allocate 2147483648 1 2]
          (fun x => decide (x.chunks = some [⟨0, 67108864, false⟩, ⟨67108864, 128, true⟩]) &&
            (x.call (.allocate 4096 3 4)).any fun y => decide (x.live = y.live ∧
              y.chunks = some [⟨0, 67108864, false⟩, ⟨67108864, 128, false⟩]))) = true := by
      decide
    obtain ⟨x₀, hcreate, hrun⟩ := Option.any_eq_true _ _ |>.mp hrun
    obtain ⟨x, hx, hlast⟩ := reach_of_runTest hrun
    obtain ⟨hchunks, hcall⟩ := (Bool.and_eq_true _ _).mp hlast
    obtain ⟨y, hcall, hafter⟩ := Option.any_eq_true _ _ |>.mp hcall
    obtain ⟨hlive, hchunks'⟩ := of_decide_eq_true hafter
    exact ⟨x₀, x, y, hcreate, hx.always, hcall, hlive, of_decide_eq_true hchunks, hchunks'⟩
  · have hrun : (Heap.create 8192 0).any (fun x₀ =>
        runTest Heap.call (fun _ _ => true) x₀ [.allocate 4096 1 2]
          (fun x => (x.call (.allocate 4294967295 3 4)).any fun y =>
            decide (y.live = (4096, 4294967295) :: x.live ∧
              y.call (.deallocate 4096) = none))) = true := by
      decide
    obtain ⟨x₀, hcreate, hrun⟩ := Option.any_eq_true _ _ |>.mp hrun
    obtain ⟨x, hx, hcall⟩ := reach_of_runTest hrun
    obtain ⟨y, hcall, hafter⟩ := Option.any_eq_true _ _ |>.mp hcall
    obtain ⟨hlive, hback⟩ := of_decide_eq_true hafter
    exact ⟨x₀, x, y, hcreate, hx.always, hcall, hlive, hback⟩

end Y210.Gralloc

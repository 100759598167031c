/-
  File:      Y210/Gralloc/AnyCalls.lean
  Subject:   WHAT `allocate` DOES, in every state any calls can lead to.

  `setSize`, `allocate` and `deallocate` are called with any arguments, in any order. A request of
  nearly 2^32 bytes is rounded up to no units, and `setSize` with no bytes leaves an empty chunk
  behind: lists come about that do not tile the heap. What is left of that is enough to follow the
  search and the split of `alloc`.

  * `Allocator.call` -- one call;
  * `Loosely`, `Loose` -- the lists that come about;
  * `AllocateLaw` -- what `allocate` should do;
  * `allocate_law_iff` -- it does so unless the block begins behind byte 2^31;
  * `block_behind_sign` -- a block there.
-/
import Y210.Gralloc.Sound
import Y210.Lib.Run

namespace Y210.Gralloc

open Y210.Lib LinkedList

/-! ## 1. Calls -/

/-- A call, with the addresses that `new` returns in it. -/
inductive Call where
  | setSize (size new : Nat)
  | allocate (size new₁ new₂ : Nat)
  | deallocate (offset : Nat)

namespace Allocator

/-- `new` returns two different addresses at which there is no node. -/
def fresh (s : Allocator) (new₁ new₂ : Nat) : Bool :=
  decide (s.mList.node new₁ = none ∧ s.mList.node new₂ = none ∧ new₂ ≠ new₁)

/-- **One call**, whatever its arguments. -/
def call (s : Allocator) : Call → Option Allocator
  | .setSize size new =>
    if size < 2 ^ 32 ∧ s.mList.node new = none then (s.setSize size new).map Prod.fst else none
  | .allocate size new₁ new₂ =>
    if size < 2 ^ 32 ∧ s.fresh new₁ new₂ = true then (s.allocate size new₁ new₂).map Prod.fst
    else none
  | .deallocate offset =>
    if offset < 2 ^ 32 then (s.deallocate offset).map Prod.fst else none

end Allocator

/-! ## 2. The lists that come about -/

/-- The chunks of a `setSize` with no bytes. -/
def Zeros (cs : List Chunk) : Prop := ∀ c ∈ cs, c.start = 0 ∧ c.size = 0

/-- **The chunks cover the area** from `s` to `e` in order, some of them empty; behind them there
    are chunks of a `setSize` with no bytes. -/
def Loosely (s e : Nat) : List Chunk → Prop
  | [] => s = e
  | c :: cs => (c.start = s ∧ Loosely (s + c.size) e cs) ∨ (s = e ∧ Zeros (c :: cs))

section Loosely

variable {s e size : Nat} {pre post cs : List Chunk} {c p : Chunk}

theorem loosely_zeros (h : Zeros cs) : Loosely e e cs := by
  cases cs with
  | nil => rfl
  | cons c cs => exact .inr ⟨rfl, h⟩

theorem Loosely.le (h : Loosely s e cs) : s ≤ e := by
  induction cs generalizing s with
  | nil => exact Nat.le_of_eq h
  | cons c cs ih =>
      rcases h with ⟨-, h⟩ | ⟨h, -⟩
      · have := ih h
        omega
      · exact Nat.le_of_eq h

theorem Loosely.end_le (h : Loosely s e cs) (hc : c ∈ cs) : c.start + c.size ≤ e := by
  induction cs generalizing s with
  | nil => cases hc
  | cons d cs ih =>
      rcases h with ⟨hd, h⟩ | ⟨-, h⟩
      · rcases List.mem_cons.mp hc with rfl | hc
        · have := h.le
          omega
        · exact ih h hc
      · have := h c hc
        omega

/-- In an area of no bytes there is nothing else. -/
theorem Loosely.zeros (h : Loosely 0 0 cs) : Zeros cs := by
  intro c hc
  have := h.end_le hc
  omega

/-- What is done to the chunks from `c` on is done behind the chunks before it. -/
theorem Loosely.behind {old new : List Chunk} (h : Loosely s e (pre ++ old))
    (hcover : ∀ s, Loosely s e old → Loosely s e new) (hzeros : Zeros old → Zeros new) :
    Loosely s e (pre ++ new) := by
  induction pre generalizing s with
  | nil => exact hcover s h
  | cons d pre ih =>
      rcases h with ⟨hd, h⟩ | ⟨hs, h⟩
      · exact .inl ⟨hd, ih h⟩
      · refine .inr ⟨hs, fun x hx => ?_⟩
        rcases List.mem_cons.mp hx with rfl | hx
        · exact h x List.mem_cons_self
        · rcases List.mem_append.mp hx with hx | hx
          · exact h x (by simp [hx])
          · exact hzeros (fun y hy => h y (by simp [hy])) x hx

/-- A chunk is marked. -/
theorem Loosely.mark (h : Loosely s e (pre ++ c :: post)) (free : Bool) :
    Loosely s e (pre ++ ⟨c.start, c.size, free⟩ :: post) := by
  have hzeros : Zeros (c :: post) → Zeros (⟨c.start, c.size, free⟩ :: post) := by
    intro hz x hx
    rcases List.mem_cons.mp hx with rfl | hx
    · exact hz c List.mem_cons_self
    · exact hz x (List.mem_cons_of_mem _ hx)
  exact h.behind (fun s hs => hs.imp id fun hz => ⟨hz.1, hzeros hz.2⟩) hzeros

/-- Two neighbours become one chunk. -/
theorem Loosely.join (h : Loosely s e (pre ++ p :: c :: post)) :
    Loosely s e (pre ++ ⟨p.start, p.size + c.size, p.free⟩ :: post) := by
  have hzeros : Zeros (p :: c :: post) → Zeros (⟨p.start, p.size + c.size, p.free⟩ :: post) := by
    intro hz x hx
    rcases List.mem_cons.mp hx with rfl | hx
    · have hp := hz p (by simp)
      have hc := hz c (by simp)
      simp only
      omega
    · exact hz x (by simp [hx])
  refine h.behind (fun s hs => ?_) hzeros
  rcases hs with ⟨hp, ⟨-, hpost⟩ | ⟨hend, hz⟩⟩ | ⟨hend, hz⟩
  · exact .inl ⟨hp, by rwa [← Nat.add_assoc]⟩
  · have hc := (hz c List.mem_cons_self).2
    refine .inl ⟨hp, ?_⟩
    simp only [hc, Nat.add_zero, hend]
    exact loosely_zeros fun x hx => hz x (List.mem_cons_of_mem _ hx)
  · exact .inr ⟨hend, hzeros hz⟩

/-- The pieces of a chunk cover what it covered. -/
theorem loosely_carved (hc : c.start = s) (hfit : size + extra c.start ≤ c.size)
    (hpost : Loosely (s + c.size) e post) : Loosely s e (carved c size ++ post) := by
  have htail : Loosely (c.start + extra c.start + size) e (tailPiece c size ++ post) := by
    unfold tailPiece
    split
    · have heq : c.start + extra c.start + size = s + c.size := by omega
      rw [heq]
      exact hpost
    · have heq : c.start + extra c.start + size + (c.size - (size + extra c.start)) =
          s + c.size := by omega
      refine .inl ⟨rfl, ?_⟩
      simp only [heq]
      exact hpost
  have hblock : Loosely (c.start + extra c.start) e
      (block c size :: (tailPiece c size ++ post)) := .inl ⟨rfl, htail⟩
  unfold carved frontPiece
  split
  · rename_i hextra
    rw [hextra, Nat.add_zero, hc] at hblock
    simpa using hblock
  · refine .inl ⟨hc, ?_⟩
    simp only [← hc]
    simpa using hblock

/-- Out of an empty chunk comes an empty block, and nothing else. -/
theorem zeros_carved (hz : Zeros (c :: post)) (hfit : size + extra c.start ≤ c.size) :
    Zeros (carved c size ++ post) := by
  have hzero : extra 0 = 0 := by decide
  obtain ⟨hstart, hsize⟩ := hz c List.mem_cons_self
  have hextra : extra c.start = 0 := by rw [hstart, hzero]
  have hnone : size = 0 := by omega
  have hcarved : carved c size = [block c size] := by
    simp [carved, frontPiece, tailPiece, hextra, hsize]
  intro x hx
  rw [hcarved] at hx
  rcases List.mem_cons.mp hx with rfl | hx
  · simp [block, hstart, hzero, hnone]
  · exact hz x (List.mem_cons_of_mem _ hx)

/-- A block is taken out of a chunk. -/
theorem Loosely.carve (h : Loosely s e (pre ++ c :: post)) (hfit : size + extra c.start ≤ c.size) :
    Loosely s e (pre ++ (carved c size ++ post)) := by
  refine h.behind (fun t ht => ?_) fun hz => zeros_carved hz hfit
  rcases ht with ⟨hc, hpost⟩ | ⟨hend, hz⟩
  · exact loosely_carved hc hfit hpost
  · exact hend ▸ loosely_zeros (zeros_carved hz hfit)

end Loosely

/-! ## 3. `dealloc` on such a list -/

section Dealloc

variable {l : LinkedList Chunk} {e : Nat}

/-- What the search of `dealloc` finds is a node of the list. -/
theorem findStart_mem {start fuel a : Nat} {pre post : List (Nat × Chunk)}
    (h : Holds l (pre ++ post))
    (hfind : findStart l start fuel (headAddr none post) = some (some a)) :
    ∃ before c behind, pre ++ post = before ++ (a, c) :: behind := by
  induction post generalizing pre fuel with
  | nil =>
      rw [headAddr, findStart] at hfind
      cases hfind
  | cons x post ih =>
      obtain ⟨b, d⟩ := x
      cases fuel with
      | zero =>
          rw [headAddr, findStart] at hfind
          cases hfind
      | succ fuel =>
          simp only [headAddr, findStart, h.node, Option.bind_eq_bind, Option.bind_some] at hfind
          split at hfind
          · cases hfind
            exact ⟨pre, d, post, rfl⟩
          · have hrest : Holds l ((pre ++ [(b, d)]) ++ post) := by simpa using h
            obtain ⟨before, c, behind, heq⟩ := ih hrest hfind
            exact ⟨before, c, behind, by simpa using heq⟩

/-- One turn of the merging loop: the chunk goes into the one before it, or stays. -/
theorem absorb_loose {pre post : List (Nat × Chunk)} {a : Nat} {c : Chunk}
    (h : Holds l (pre ++ (a, c) :: post)) (hl : Loosely 0 e (values (pre ++ (a, c) :: post)))
    (he : e < 2 ^ 28) (freed : Nat) :
    ∃ r pre', absorb l ⟨c, lastAddr none pre, headAddr none post⟩ a freed = some r ∧
      Holds r.1 (pre' ++ post) ∧ Loosely 0 e (values (pre' ++ post)) := by
  have hstays (hr : absorb l ⟨c, lastAddr none pre, headAddr none post⟩ a freed = some (l, freed)) :
      ∃ r pre', absorb l ⟨c, lastAddr none pre, headAddr none post⟩ a freed = some r ∧
        Holds r.1 (pre' ++ post) ∧ Loosely 0 e (values (pre' ++ post)) :=
    ⟨(l, freed), pre ++ [(a, c)], hr, by simpa using h, by simpa using hl⟩
  rcases List.eq_nil_or_concat' pre with rfl | ⟨pre, ⟨p, q⟩, rfl⟩
  · exact hstays rfl
  · have hpair : Holds l (pre ++ (p, q) :: (a, c) :: post) := by simpa using h
    have hchunks : Loosely 0 e (values pre ++ q :: c :: values post) := by simpa using hl
    by_cases hjoins : q.free = true ∨ c.size = 0
    · have hjoin := hchunks.join
      have hsize := hjoin.end_le (c := ⟨q.start, q.size + c.size, q.free⟩) (by simp)
      obtain ⟨l', hl', h'⟩ := absorb_joins hpair hjoins (by simp only at hsize; omega) freed
        (headAddr none post)
      refine ⟨(l', p), pre ++ [(p, ⟨q.start, q.size + c.size, q.free⟩)], ?_, by simpa using h',
        by simpa using hjoin⟩
      rw [lastAddr_append]
      exact hl'
    · refine hstays ?_
      rw [lastAddr_append]
      simp [absorb, lastAddr, hpair.node, hjoins]

/-- **The merging loop keeps such a list.** -/
theorem merge_loose {fuel : Nat} {pre post : List (Nat × Chunk)} {a freed : Nat} {c : Chunk}
    {r : LinkedList Chunk × Nat} (h : Holds l (pre ++ (a, c) :: post))
    (hl : Loosely 0 e (values (pre ++ (a, c) :: post))) (he : e < 2 ^ 28)
    (hmerge : merge fuel l a freed = some r) :
    ∃ ys, Holds r.1 ys ∧ Loosely 0 e (values ys) := by
  induction fuel generalizing l pre post a freed c with
  | zero => cases hmerge
  | succ fuel ih =>
      obtain ⟨r', pre', habsorb, h', hl'⟩ := absorb_loose h hl he freed
      simp only [merge, h.node, Option.bind_eq_bind, Option.bind_some, habsorb] at hmerge
      cases post with
      | nil =>
          rw [headAddr, whileFree] at hmerge
          cases hmerge
          exact ⟨_, h', hl'⟩
      | cons x post =>
          obtain ⟨b, d⟩ := x
          simp only [headAddr, whileFree, h'.node, Option.bind_eq_bind, Option.bind_some] at hmerge
          split at hmerge
          · exact ih h' hl' hmerge
          · cases hmerge
            exact ⟨_, h', hl'⟩

theorem dealloc_loose {xs : List (Nat × Chunk)} {offset : Nat} {r : LinkedList Chunk × Option Nat}
    (h : Holds l xs) (hl : Loosely 0 e (values xs)) (he : e < 2 ^ 28)
    (hdealloc : dealloc l offset = some r) : ∃ ys, Holds r.1 ys ∧ Loosely 0 e (values ys) := by
  unfold dealloc at hdealloc
  cases hfind : findStart l (offset / kMemoryAlign) l.mem.length l.mFirst with
  | none =>
      rw [hfind] at hdealloc
      cases hdealloc
  | some found =>
      rw [hfind, Option.bind_eq_bind, Option.bind_some] at hdealloc
      cases found with
      | none =>
          cases hdealloc
          exact ⟨xs, h, hl⟩
      | some a =>
          rw [h.first] at hfind
          obtain ⟨pre, c, post, heq⟩ :=
            findStart_mem (show Holds l ([] ++ xs) from h) hfind
          rw [List.nil_append] at heq
          subst heq
          obtain ⟨l₁, hl₁, h₁⟩ := h.modify fun c => { c with free := true }
          have hmarked : Loosely 0 e (values (pre ++ (a, { c with free := true }) :: post)) := by
            simpa using (show Loosely 0 e (values pre ++ c :: values post) by simpa using hl).mark
              true
          simp only [h.node, Option.bind_eq_bind, Option.bind_some, hl₁] at hdealloc
          split at hdealloc
          · cases hdealloc
          · obtain ⟨m, hm, hdealloc⟩ := Option.bind_eq_some_iff.mp hdealloc
            obtain ⟨n, hn, hdealloc⟩ := Option.bind_eq_some_iff.mp hdealloc
            split at hdealloc
            · cases hdealloc
              exact merge_loose h₁ hmarked he hm
            · cases hdealloc

end Dealloc

/-! ## 4. Every state that any calls lead to -/

/-- **The memory holds a list** whose chunks cover the heap loosely. -/
structure Loose (s : Allocator) (xs : List (Nat × Chunk)) : Prop where
  heap : s.mHeapSize < 2 ^ 32
  holds : Holds s.mList xs
  covers : Loosely 0 (s.mHeapSize / kMemoryAlign) (values xs)

namespace Loose

variable {s s' : Allocator} {xs : List (Nat × Chunk)}

theorem heap_lt (h : Loose s xs) : s.mHeapSize / kMemoryAlign < 2 ^ 27 := by
  have := h.heap
  unfold kMemoryAlign
  omega

theorem end_lt (h : Loose s xs) {c : Chunk} (hc : c ∈ values xs) : c.start + c.size < 2 ^ 27 :=
  lt_of_le_of_lt (h.covers.end_le hc) h.heap_lt

theorem empty : Loose Allocator.empty [] :=
  ⟨by decide, ⟨List.nodup_nil, rfl, rfl, trivial⟩, rfl⟩

theorem setSize (h : Loose s xs) (size : Nat) {new : Nat} (hnew : s.mList.node new = none) :
    ∃ r ys, s.setSize size new = some r ∧ Loose r.1 ys := by
  by_cases hzero : s.mHeapSize = 0
  · have hcovers := h.covers
    rw [hzero] at hcovers
    obtain ⟨heapSize, hheap⟩ : ∃ n, n = word (size + pagesize - 1) / pagesize * pagesize := ⟨_, rfl⟩
    have hlt : heapSize < 2 ^ 32 ∧ heapSize / kMemoryAlign < 2 ^ 28 := by
      unfold word pagesize kMemoryAlign at *
      omega
    obtain ⟨l₁, hl₁, h₁, hout, hnode, -⟩ :=
      h.holds.new hnew (Chunk.create 0 (heapSize / kMemoryAlign))
    obtain ⟨l₂, hl₂, h₂⟩ := h₁.insertHead hout hnode
    refine ⟨(⟨l₂, heapSize⟩, ssize size), _, ?_, hlt.1, h₂, .inl ⟨rfl, ?_⟩⟩
    · simp [Allocator.setSize, hzero, ← hheap, hl₁, hl₂]
    · simp only [Chunk.create, sizeBits_eq hlt.2, Nat.zero_add]
      exact loosely_zeros hcovers.zeros
  · exact ⟨_, xs, if_pos hzero, h⟩

/-- **`allocate` on such a list**: with no chunk that fits nothing happens, and else a block is
    carved out of the best one. -/
theorem allocate (h : Loose s xs) {size new₁ new₂ n : Nat} (hpos : size ≠ 0)
    (hn : word (size + kMemoryAlign - 1) / kMemoryAlign = n) (hheap : s.mHeapSize ≠ 0)
    (hfresh : s.fresh new₁ new₂ = true) :
    (s.allocate size new₁ new₂ = some (s, -ENOMEM) ∧ ∀ c ∈ values xs, ¬ Fits n c) ∨
      ∃ s' ys pre c post, values xs = pre ++ c :: post ∧ Best n pre c post ∧
        s.allocate size new₁ new₂ = some (s', ssize ((block c n).start * kMemoryAlign)) ∧
        Loose s' ys ∧ values ys = pre ++ (carved c n ++ post) := by
  obtain ⟨hnew₁, hnew₂, hne⟩ := of_decide_eq_true hfresh
  have hend : ∀ c ∈ values xs, c.start + c.size < 2 ^ 28 := by
    intro c hc
    have := h.end_lt hc
    omega
  rcases alloc_carves h.holds hend hpos hn hnew₁ hnew₂ hne with
    ⟨hfull, hnone⟩ | ⟨l', pre, a, c, post, mid, rfl, hbest, hcall, h', hmid⟩
  · exact .inl ⟨by simp [Allocator.allocate, hheap, hfull], hnone⟩
  · have hvalues : values (pre ++ mid ++ post) = values pre ++ (carved c n ++ values post) := by
      simp [hmid]
    have hcovers : Loosely 0 (s.mHeapSize / kMemoryAlign) (values pre ++ c :: values post) := by
      simpa using h.covers
    refine .inr ⟨{ s with mList := l' }, _, values pre, c, values post, by simp, hbest,
      by simp [Allocator.allocate, hheap, hcall], ⟨h.heap, h', ?_⟩, hvalues⟩
    rw [hvalues]
    exact hcovers.carve hbest.fits.2

theorem deallocate (h : Loose s xs) {offset : Nat} {r : Allocator × Int}
    (hcall : s.deallocate offset = some r) : ∃ ys, Loose r.1 ys := by
  unfold Allocator.deallocate at hcall
  split at hcall
  · cases hcall
    exact ⟨xs, h⟩
  · obtain ⟨d, hd, hcall⟩ := Option.bind_eq_some_iff.mp hcall
    cases hcall
    have := h.heap_lt
    obtain ⟨ys, hys, hcovers⟩ := dealloc_loose h.holds h.covers (by omega) hd
    exact ⟨ys, h.heap, hys, hcovers⟩

/-- One call. -/
theorem call {a : Call} (h : ∃ xs, Loose s xs) (hs : s.call a = some s') : ∃ xs, Loose s' xs := by
  obtain ⟨xs, h⟩ := h
  cases a with
  | setSize size new =>
      simp only [Allocator.call] at hs
      split at hs
      · rename_i hguard
        obtain ⟨r, ys, hr, h'⟩ := h.setSize size hguard.2
        rw [hr] at hs
        cases hs
        exact ⟨ys, h'⟩
      · cases hs
  | allocate size new₁ new₂ =>
      simp only [Allocator.call] at hs
      split at hs
      · rename_i hguard
        obtain ⟨r, hr, rfl⟩ := Option.map_eq_some_iff.mp hs
        by_cases hheap : s.mHeapSize = 0
        · rw [Allocator.allocate, if_pos hheap] at hr
          cases hr
          exact ⟨xs, h⟩
        by_cases hpos : size = 0
        · simp only [Allocator.allocate, if_neg hheap, alloc, if_pos hpos] at hr
          cases hr
          exact ⟨xs, h⟩
        rcases h.allocate hpos rfl hheap hguard.2 with
          ⟨hcall, -⟩ | ⟨s'', ys, pre, c, post, -, -, hcall, h', -⟩
        · rw [hcall] at hr
          cases hr
          exact ⟨xs, h⟩
        · rw [hcall] at hr
          cases hr
          exact ⟨ys, h'⟩
      · cases hs
  | deallocate offset =>
      simp only [Allocator.call] at hs
      split at hs
      · obtain ⟨r, hr, rfl⟩ := Option.map_eq_some_iff.mp hs
        exact h.deallocate hr
      · cases hs

theorem reached (hr : Reach Allocator.call Always Allocator.empty s) : ∃ xs, Loose s xs :=
  hr.inv (I := fun s => ∃ xs, Loose s xs) ⟨[], empty⟩ fun _ _ _ hi _ hs => call hi hs

end Loose

/-! ## 5. The law -/

/-- **What `allocate` should do** with the chunks `cs`, for a request of `n` units: it succeeds when
    and only when a chunk fits; the block is carved out of the best fit, at its first page boundary,
    and the other taken chunks stay; and if it fails, so do all chunks. -/
structure AllocateLaw (n : Nat) (cs : List Chunk) (r : Int) (cs' : List Chunk) : Prop where
  succeeds : 0 ≤ r ↔ ∃ c ∈ cs, Fits n c
  carves : 0 ≤ r → ∃ pre c post, cs = pre ++ c :: post ∧ Best n pre c post ∧
    r = ((c.start + extra c.start) * kMemoryAlign : Nat) ∧
    (c.start + extra c.start) * kMemoryAlign % pagesize = 0 ∧
    cs' = pre ++ (carved c n ++ post) ∧ taken cs' = taken pre ++ block c n :: taken post
  fails : r < 0 → cs' = cs

section Law

variable {n : Nat} {cs pre post : List Chunk} {c : Chunk} {r : Int}

/-- Where no chunk fits, an error and the same chunks. -/
theorem AllocateLaw.full (hnone : ∀ c ∈ cs, ¬ Fits n c) (hr : r < 0) : AllocateLaw n cs r cs where
  succeeds := ⟨fun h => absurd h (by omega), fun ⟨c, hc, hfits⟩ => absurd hfits (hnone c hc)⟩
  carves := fun h => absurd h (by omega)
  fails := fun _ => rfl

/-- Where one does, its offset, unless that is taken for an error. -/
theorem AllocateLaw.carved (hbest : Best n pre c post) (hend : c.start + c.size < 2 ^ 27)
    (hoffset : (c.start + extra c.start) * kMemoryAlign < 2 ^ 31) :
    AllocateLaw n (pre ++ c :: post) (ssize ((block c n).start * kMemoryAlign))
      (pre ++ (Gralloc.carved c n ++ post)) := by
  have hr : ssize ((block c n).start * kMemoryAlign) =
      ((c.start + extra c.start) * kMemoryAlign : Nat) := ssize_eq hoffset
  have hpage := page_of_extra (by omega : c.start < 2 ^ 32)
  refine ⟨⟨fun _ => ⟨c, by simp, hbest.fits⟩, fun _ => by rw [hr]; omega⟩,
    fun _ => ⟨pre, c, post, rfl, hbest, hr, ?_, rfl, ?_⟩, fun hneg => absurd hneg ?_⟩
  · unfold kMemoryAlign pagesize
    omega
  · rw [← List.append_assoc]
    exact taken_carve pre post c n
  · rw [hr]
    omega

/-- **A request of 1 to 2^31 bytes** in any state. -/
theorem Loose.allocate_bytes {s : Allocator} {xs : List (Nat × Chunk)} (h : Loose s xs)
    {size new₁ new₂ : Nat} (hpos : 1 ≤ size) (hsize : size ≤ 2 ^ 31)
    (hfresh : s.fresh new₁ new₂ = true) :
    ∃ s' ys r, s.allocate size new₁ new₂ = some (s', r) ∧ Loose s' ys ∧
      ((r < 0 ∧ (∀ c ∈ values xs, ¬ Fits (units size) c) ∧ values ys = values xs) ∨
        ∃ pre c post, values xs = pre ++ c :: post ∧ Best (units size) pre c post ∧
          r = ssize ((block c (units size)).start * kMemoryAlign) ∧
          values ys = pre ++ (Gralloc.carved c (units size) ++ post)) := by
  have hunits : word (size + kMemoryAlign - 1) / kMemoryAlign = units size := by
    rw [word_eq (by unfold kMemoryAlign; omega), units]
  by_cases hheap : s.mHeapSize = 0
  · -- the chunks of such a heap are empty
    refine ⟨s, xs, -EINVAL, if_pos hheap, h, .inl ⟨by decide, fun c hc hfits => ?_, rfl⟩⟩
    have hcovers := h.covers
    rw [hheap] at hcovers
    have hempty := (hcovers.zeros c hc).2
    have hfit := hfits.2
    unfold units kMemoryAlign at hfit
    omega
  rcases h.allocate (by omega) hunits hheap hfresh with
    ⟨hcall, hnone⟩ | ⟨s', ys, pre, c, post, hxs, hbest, hcall, h', hys⟩
  · exact ⟨s, xs, -ENOMEM, hcall, h, .inl ⟨by decide, hnone, rfl⟩⟩
  · exact ⟨s', ys, _, hcall, h', .inr ⟨pre, c, post, hxs, hbest, rfl, hys⟩⟩

end Law

/-- **`allocate` obeys its law** in every state that any calls lead to, for every size from 1 to
    2^31, when and only when the block would not begin behind byte 2^31. -/
theorem allocate_law_iff {s : Allocator} (hr : Reach Allocator.call Always Allocator.empty s)
    {size new₁ new₂ : Nat} (hpos : 1 ≤ size) (hsize : size ≤ 2 ^ 31)
    (hfresh : s.fresh new₁ new₂ = true) :
    ∃ cs s' cs' r, s.mList.toList = some cs ∧ s.allocate size new₁ new₂ = some (s', r) ∧
      s'.mList.toList = some cs' ∧
      (AllocateLaw (units size) cs r cs' ↔
        ∀ pre c post, cs = pre ++ c :: post → Best (units size) pre c post →
          (c.start + extra c.start) * kMemoryAlign < 2 ^ 31) := by
  obtain ⟨xs, h⟩ := Loose.reached hr
  obtain ⟨s', ys, r, hcall, h', hcases⟩ := h.allocate_bytes hpos hsize hfresh
  refine ⟨values xs, s', values ys, r, h.holds.toList, hcall, h'.holds.toList, ?_⟩
  rcases hcases with ⟨hneg, hnone, hys⟩ | ⟨pre, c, post, hxs, hbest, rfl, hys⟩
  · -- with no chunk that fits both sides hold
    rw [hys]
    refine iff_of_true (.full hnone hneg) fun pre c post hcs hbest => ?_
    exact absurd hbest.fits (hnone c (by simp [hcs]))
  · have hend := h.end_lt (c := c) (by simp [hxs])
    rw [hxs, hys]
    constructor
    · intro hlaw pre' c' post' heq hbest'
      obtain rfl := hbest.unique hbest' heq
      have hnonneg := hlaw.succeeds.mpr ⟨c, by simp, hbest.fits⟩
      have hfit := hbest.fits.2
      simp only [block, ssize, word, kMemoryAlign] at hnonneg ⊢
      omega
    · intro hoffset
      exact .carved hbest hend (hoffset pre c post rfl hbest)

/-- Two chunks fit a page, and the smaller one is behind the larger. -/
theorem allocate_law_iff_holes :
    ∃ s, Reach Allocator.call Always Allocator.empty s ∧
      ∃ s' cs' r, s.mList.toList =
          some [⟨0, 256, true⟩, ⟨256, 128, false⟩, ⟨384, 128, true⟩, ⟨512, 128, false⟩] ∧
        s.allocate 4000 20 21 = some (s', r) ∧ s'.mList.toList = some cs' ∧
        AllocateLaw 125 [⟨0, 256, true⟩, ⟨256, 128, false⟩, ⟨384, 128, true⟩, ⟨512, 128, false⟩]
          r cs' := by
  have hrun : runTest Allocator.call (fun _ _ => true) Allocator.empty
      [.setSize 20480 0, .allocate 8192 1 2, .allocate 4096 3 4, .allocate 4096 5 6,
        .allocate 4096 7 8, .deallocate 0, .deallocate 12288]
      (fun s => s.fresh 20 21 && decide (s.mList.toList =
        some [⟨0, 256, true⟩, ⟨256, 128, false⟩, ⟨384, 128, true⟩, ⟨512, 128, false⟩])) = true := by
    decide
  obtain ⟨s, hr, hlast⟩ := reach_of_runTest hrun
  obtain ⟨hfresh, hlist⟩ := (Bool.and_eq_true _ _).mp hlast
  have hlist := of_decide_eq_true hlist
  obtain ⟨cs, s', cs', r, hcs, hcall, hcs', hlaw⟩ :=
    allocate_law_iff hr.always (by decide : 1 ≤ 4000) (by decide) hfresh
  rw [hlist] at hcs
  cases hcs
  refine ⟨s, hr.always, s', cs', r, hlist, hcall, hcs', hlaw.mpr fun pre c post hsplit _ => ?_⟩
  have hall : ∀ c ∈ [(⟨0, 256, true⟩ : Chunk), ⟨256, 128, false⟩, ⟨384, 128, true⟩,
      ⟨512, 128, false⟩], (c.start + extra c.start) * kMemoryAlign < 2 ^ 31 := by
    decide
  exact hall c (hsplit ▸ List.mem_append_right pre List.mem_cons_self)

/-- **A block behind byte 2^31**: in a heap of a page more, the second block is carved out of the
    only chunk that fits, and its offset is returned as -2^31. -/
theorem block_behind_sign :
    ∃ s s' cs', Reach Allocator.call Always Allocator.empty s ∧
      s.mList.toList = some [⟨0, 67108864, false⟩, ⟨67108864, 128, true⟩] ∧
      s.allocate 4096 20 21 = some (s', -2147483648) ∧ s'.mList.toList = some cs' ∧
      cs' = [⟨0, 67108864, false⟩, ⟨67108864, 128, false⟩] ∧
      ¬ AllocateLaw (units 4096) [⟨0, 67108864, false⟩, ⟨67108864, 128, true⟩] (-2147483648)
        cs' := by
  have hrun : runTest Allocator.call (fun _ _ => true) Allocator.empty
      [.setSize 2147487744 0, .allocate 2147483648 1 2]
      (fun s => decide (s.mList.toList = some [⟨0, 67108864, false⟩, ⟨67108864, 128, true⟩]) &&
        (s.allocate 4096 20 21).any fun r => decide (r.2 = -2147483648 ∧
          r.1.mList.toList = some [⟨0, 67108864, false⟩, ⟨67108864, 128, false⟩])) = true := by
    decide
  obtain ⟨s, hr, hlast⟩ := reach_of_runTest hrun
  obtain ⟨hlist, hcall⟩ := (Bool.and_eq_true _ _).mp hlast
  obtain ⟨⟨s', r⟩, hcall, hafter⟩ := Option.any_eq_true _ _ |>.mp hcall
  obtain ⟨hneg, hafter⟩ := of_decide_eq_true hafter
  cases hneg
  refine ⟨s, s', _, hr.always, of_decide_eq_true hlist, hcall, hafter, rfl, fun hlaw => ?_⟩
  have hnonneg := hlaw.succeeds.mpr ⟨⟨67108864, 128, true⟩, by simp, by decide⟩
  exact absurd hnonneg (by decide)

end Y210.Gralloc

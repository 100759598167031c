/-
  File:      Y210/Gralloc/Sound.lean
  Subject:   THE ALLOCATOR'S LIST IN MEMORY, and what `allocate` and `deallocate` do to the chunks.

  `Sound` says that the memory holds a list whose chunks tile the heap. The loops of `alloc` and
  `dealloc` are followed here once, pointer by pointer; what comes after knows the two only by
  `Sound.allocate` and `Sound.deallocate`, which speak of lists of chunks.

  * `bestFit_spec`, `carve_spec`, `alloc_carves` -- the search of `alloc`, and the split;
  * `findStart_spec`, `merge_spec` -- the search of `dealloc`, and the merging loop;
  * `Sound`, `Sound.allocate`, `Sound.deallocate`.
-/
import Y210.Gralloc.Chunks

namespace Y210.Gralloc

open Y210.Lib LinkedList

/-- The chunks of a list of nodes. -/
def values (xs : List (Nat × Chunk)) : List Chunk := xs.map Prod.snd

@[simp] theorem values_append (xs ys : List (Nat × Chunk)) :
    values (xs ++ ys) = values xs ++ values ys := List.map_append

@[simp] theorem values_cons (x : Nat × Chunk) (xs : List (Nat × Chunk)) :
    values (x :: xs) = x.2 :: values xs := rfl

@[simp] theorem values_nil : values [] = [] := rfl

theorem word_eq {n : Nat} (h : n < 2 ^ 32) : word n = n := Nat.mod_eq_of_lt h

theorem sizeBits_eq {n : Nat} (h : n < 2 ^ 28) : sizeBits n = n := Nat.mod_eq_of_lt h

theorem ssize_eq {n : Nat} (h : n < 2 ^ 31) : ssize n = n := by
  unfold ssize word
  omega

theorem extra_lt (start : Nat) : extra start < 128 := by
  unfold extra pagesize kMemoryAlign
  omega

/-! ## 1. The search for the best fit -/

section BestFit

variable {l : LinkedList Chunk} {xs pre post : List (Nat × Chunk)} {size a : Nat} {c : Chunk}

/-- What a search among these nodes should find. -/
def Found (size : Nat) (xs : List (Nat × Chunk)) : Option Nat → Prop
  | none => ∀ c ∈ values xs, ¬ Fits size c
  | some a => ∃ pre c post, xs = pre ++ (a, c) :: post ∧ Best size (values pre) c (values post)

/-- A chunk that does not fit changes nothing. -/
theorem Found.skip {best : Option Nat} (h : Found size pre best) (hc : ¬ Fits size c) :
    Found size (pre ++ [(a, c)]) best := by
  cases best with
  | none =>
      intro d hd
      rcases (by simpa using hd : d ∈ values pre ∨ d = c) with hd | rfl
      · exact h d hd
      · exact hc
  | some b =>
      obtain ⟨before, d, behind, rfl, hbest⟩ := h
      refine ⟨before, d, behind ++ [(a, c)], by simp, hbest.fits, hbest.before,
        fun e he hfits => ?_⟩
      rcases (by simpa using he : e ∈ values behind ∨ e = c) with he | rfl
      · exact hbest.behind e he hfits
      · exact absurd hfits hc

/-- A chunk that fits is the best so far, or not smaller than that. -/
theorem better_spec (h : Holds l (pre ++ (a, c) :: post)) (hc : Fits size c) {best : Option Nat}
    (hbest : Found size pre best) :
    ∃ b, better l c a best = some b ∧ Found size (pre ++ [(a, c)]) (some b) := by
  cases best with
  | none =>
      exact ⟨a, rfl, pre, c, [], rfl, hc, fun d hd hfits => absurd hfits (hbest d hd), nofun⟩
  | some b =>
      obtain ⟨before, d, behind, rfl, hbest⟩ := hbest
      have hnode : l.node b = some ⟨d, lastAddr none before, _⟩ :=
        (show Holds l (before ++ (b, d) :: (behind ++ (a, c) :: post)) by simpa using h).node
      refine ⟨if c.size < d.size then a else b, by simp [better, hnode], ?_⟩
      split
      · rename_i hless
        refine ⟨before ++ (b, d) :: behind, c, [], rfl, hc, fun e he hfits => ?_, nofun⟩
        exact lt_of_lt_of_le hless (hbest.le (by simpa using he) hfits)
      · rename_i hmore
        refine ⟨before, d, behind ++ [(a, c)], by simp, hbest.fits, hbest.before,
          fun e he hfits => ?_⟩
        rcases (by simpa using he : e ∈ values behind ∨ e = c) with he | rfl
        · exact hbest.behind e he hfits
        · omega

/-- A chunk of the very size ends the search: none behind it is smaller. -/
theorem Found.stop {b : Nat} (h : Found size (pre ++ [(a, c)]) (some b)) (hc : Fits size c)
    (hsize : c.size = size) : Found size (pre ++ (a, c) :: post) (some b) := by
  obtain ⟨before, d, behind, heq, hbest⟩ := h
  have hle : d.size ≤ c.size := by
    refine hbest.le ?_ hc
    have hmem : c ∈ values (pre ++ [(a, c)]) := by simp
    rw [heq] at hmem
    simpa using hmem
  refine ⟨before, d, behind ++ post, ?_, hbest.fits, hbest.before, fun e he hfits => ?_⟩
  · rw [List.append_cons, heq, List.append_assoc]
    rfl
  · rcases (by simpa using he : e ∈ values behind ∨ e ∈ values post) with he | he
    · exact hbest.behind e he hfits
    · have := hfits.2
      omega

/-- **The search ends, and finds the best fit.** -/
theorem bestFit_spec (h : Holds l xs) (hxs : xs = pre ++ post) (hsize : size + 128 ≤ 2 ^ 32)
    {fuel : Nat} (hfuel : post.length ≤ fuel) {best : Option Nat} (hbest : Found size pre best) :
    ∃ r, bestFit l size fuel (headAddr none post) best = some r ∧ Found size xs r := by
  induction post generalizing pre fuel best with
  | nil =>
      rw [List.append_nil] at hxs
      exact ⟨best, by rw [headAddr, bestFit], hxs ▸ hbest⟩
  | cons x post ih =>
      obtain ⟨fuel, rfl⟩ : ∃ n, fuel = n + 1 := ⟨fuel - 1, by simp at hfuel; omega⟩
      obtain ⟨a, c⟩ := x
      have hhere : Holds l (pre ++ (a, c) :: post) := hxs ▸ h
      have hrest : xs = (pre ++ [(a, c)]) ++ post := by simp [hxs]
      have hle : post.length ≤ fuel := by simpa using hfuel
      have hword : word (size + extra c.start) = size + extra c.start := by
        have := extra_lt c.start
        exact word_eq (by omega)
      simp only [headAddr, bestFit, hhere.node, Option.bind_eq_bind, Option.bind_some, hword]
      split
      · rename_i hfits
        simp only [Bool.and_eq_true, decide_eq_true_eq] at hfits
        obtain ⟨b, hb, hfound⟩ := better_spec hhere hfits hbest
        rw [hb, Option.bind_some]
        split
        · rename_i hequal
          exact ⟨some b, rfl, hxs ▸ hfound.stop hfits hequal⟩
        · exact ih hrest hle hfound
      · rename_i hfits
        simp only [Bool.and_eq_true, decide_eq_true_eq] at hfits
        exact ih hrest hle (hbest.skip hfits)

end BestFit

/-! ## 2. The split -/

section Carve

variable {l : LinkedList Chunk} {pre post : List (Nat × Chunk)} {a : Nat} {c : Chunk}

theorem splitFront_spec (h : Holds l (pre ++ (a, c) :: post)) {e new : Nat}
    (hstart : c.start + e < 2 ^ 32) (he : e < 2 ^ 28) (hnew : l.node new = none) :
    ∃ l' front, splitFront l a e new = some l' ∧
      Holds l' (pre ++ front ++ (a, ⟨c.start + e, c.size, c.free⟩) :: post) ∧
      values front = (if e = 0 then [] else [⟨c.start, e, true⟩]) ∧
      ∀ b, b ≠ new → l.node b = none → l'.node b = none := by
  unfold splitFront
  split
  · rename_i hzero
    subst hzero
    exact ⟨l, [], rfl, by simpa using h, rfl, fun _ _ hb => hb⟩
  · obtain ⟨l₁, hl₁, h₁, hout, hnode, hnone₁⟩ := h.new hnew (Chunk.create c.start e)
    obtain ⟨l₂, hl₂, h₂⟩ := h₁.modify fun c => { c with start := word (c.start + e) }
    have hne : new ≠ a := by
      rintro rfl
      exact hout (by simp [addrs])
    have hnode₂ := (node_modify_ne hl₂ hne).trans hnode
    obtain ⟨l₃, hl₃, h₃⟩ := h₂.insertBefore (by simpa [addrs] using hout) hnode₂
    refine ⟨l₃, [(new, Chunk.create c.start e)], ?_, ?_, ?_, fun b hb hnone => ?_⟩
    · simp only [h.node, Option.bind_eq_bind, Option.bind_some, hl₁, hl₂, hl₃]
    · rw [word_eq hstart] at h₃
      simpa using h₃
    · simp [Chunk.create, sizeBits_eq he]
    · exact insertBefore_none hl₃ (modify_none hl₂ (hnone₁ b hb hnone))

theorem splitTail_spec (h : Holds l (pre ++ (a, c) :: post)) {n new : Nat}
    (hend : c.start + c.size < 2 ^ 32) (hn : n < 2 ^ 28) (hnew : l.node new = none) :
    ∃ l' tail, splitTail l a n new = some l' ∧ Holds l' (pre ++ (a, c) :: (tail ++ post)) ∧
      values tail = if n = 0 then [] else [⟨c.start + c.size, n, true⟩] := by
  unfold splitTail
  split
  · rename_i hpos
    have hne : n ≠ 0 := by omega
    obtain ⟨l₁, hl₁, h₁, hout, hnode, -⟩ :=
      h.new hnew (Chunk.create (word (c.start + c.size)) (Int.toNat n))
    obtain ⟨l₂, hl₂, h₂⟩ := h₁.insertAfter hout hnode
    refine ⟨l₂, [(new, _)], ?_, h₂, ?_⟩
    · simp only [h.node, Option.bind_eq_bind, Option.bind_some, hl₁, hl₂]
    · simp [Chunk.create, word_eq hend, sizeBits_eq hn, hne]
  · have hzero : n = 0 := by omega
    exact ⟨l, [], rfl, h, by simp [hzero]⟩

/-- **The chunk at `a` is split** as `carved` says. -/
theorem carve_spec (h : Holds l (pre ++ (a, c) :: post)) {size new₁ new₂ : Nat}
    (hfit : size + extra c.start ≤ c.size) (hend : c.start + c.size < 2 ^ 28)
    (hnew₁ : l.node new₁ = none) (hnew₂ : l.node new₂ = none) (hne : new₂ ≠ new₁) :
    ∃ l' mid, carve l a size new₁ new₂ = some (l', ssize ((block c size).start * kMemoryAlign)) ∧
      Holds l' (pre ++ mid ++ post) ∧ values mid = carved c size := by
  obtain ⟨l₁, hl₁, h₁⟩ := h.modify fun c => ⟨c.start, sizeBits size, false⟩
  rw [sizeBits_eq (by omega)] at h₁
  have hnone₁ {b : Nat} (hb : l.node b = none) : l₁.node b = none := modify_none hl₁ hb
  by_cases hsize : c.size > size
  · have hextra := extra_lt c.start
    obtain ⟨l₂, front, hl₂, h₂, hfront, hnone₂⟩ := splitFront_spec h₁ (e := extra c.start)
      (by simp only; omega) (by omega) (hnone₁ hnew₁)
    obtain ⟨l₃, tail, hl₃, h₃, htail⟩ := splitTail_spec h₂ (n := c.size - (size + extra c.start))
      (by simp only; omega) (by omega) (hnone₂ new₂ hne (hnone₁ hnew₂))
    have hleft : ssize (c.size + 2 ^ 32 - word (size + extra c.start)) =
        ((c.size - (size + extra c.start) : Nat) : Int) := by
      unfold ssize word
      omega
    refine ⟨l₃, front ++ (a, block c size) :: tail, ?_, by simpa [block] using h₃, ?_⟩
    · simp only [carve, h.node, Option.bind_eq_bind, Option.bind_some, hl₁, if_pos hsize, hl₂,
        hleft, hl₃, h₃.node]
      rfl
    · simp only [values_append, values_cons, hfront, htail, carved, frontPiece, tailPiece,
        Nat.sub_eq_zero_iff_le, block]
  · -- the chunk is as large as the block, and begins on a page
    have hextra : extra c.start = 0 := by omega
    refine ⟨l₁, [(a, block c size)], ?_, by simpa [block, hextra] using h₁, ?_⟩
    · simp only [carve, h.node, Option.bind_eq_bind, Option.bind_some, hl₁, if_neg hsize, h₁.node]
      simp [block, hextra]
    · simp [carved, frontPiece, tailPiece, hextra]
      omega

/-- **`alloc`** finds no chunk that fits, or carves a block out of the best one. -/
theorem alloc_carves {xs : List (Nat × Chunk)} (h : Holds l xs)
    (hend : ∀ c ∈ values xs, c.start + c.size < 2 ^ 28) {size new₁ new₂ n : Nat} (hpos : size ≠ 0)
    (hn : word (size + kMemoryAlign - 1) / kMemoryAlign = n) (hnew₁ : l.node new₁ = none)
    (hnew₂ : l.node new₂ = none) (hne : new₂ ≠ new₁) :
    (alloc l size new₁ new₂ = some (l, -ENOMEM) ∧ ∀ c ∈ values xs, ¬ Fits n c) ∨
      ∃ l' pre a c post mid, xs = pre ++ (a, c) :: post ∧
        Best n (values pre) c (values post) ∧
        alloc l size new₁ new₂ = some (l', ssize ((block c n).start * kMemoryAlign)) ∧
        Holds l' (pre ++ mid ++ post) ∧ values mid = carved c n := by
  have hunits : n + 128 ≤ 2 ^ 32 := by
    unfold word kMemoryAlign at hn
    omega
  have hnone : Found n [] none := nofun
  obtain ⟨r, hr, hfound⟩ := bestFit_spec h (List.nil_append xs).symm hunits h.length_le hnone
  rw [← h.first] at hr
  cases r with
  | none => exact .inl ⟨by simp [alloc, hpos, hn, hr], hfound⟩
  | some a =>
      right
      obtain ⟨pre, c, post, rfl, hbest⟩ := hfound
      obtain ⟨l', mid, hl', h', hmid⟩ :=
        carve_spec h hbest.fits.2 (hend c (by simp)) hnew₁ hnew₂ hne
      exact ⟨l', pre, a, c, post, mid, rfl, hbest, by simp [alloc, hpos, hn, hr, hl'], h', hmid⟩

end Carve

/-! ## 3. The search of `dealloc` -/

section Merge

variable {l : LinkedList Chunk} {pre post : List (Nat × Chunk)} {a p freed : Nat} {c q : Chunk}

/-- **The search finds the chunk that begins there**, if none before it does. -/
theorem findStart_spec {rest : List (Nat × Chunk)} (h : Holds l (pre ++ (rest ++ (a, c) :: post)))
    (hrest : ∀ x ∈ rest, x.2.start ≠ c.start) {fuel : Nat} (hfuel : rest.length < fuel) :
    findStart l c.start fuel (headAddr none (rest ++ (a, c) :: post)) = some (some a) := by
  induction rest generalizing pre fuel with
  | nil =>
      obtain ⟨fuel, rfl⟩ : ∃ n, fuel = n + 1 := ⟨fuel - 1, by simp at hfuel; omega⟩
      simp [findStart, (show Holds l (pre ++ (a, c) :: post) from h).node]
  | cons x rest ih =>
      obtain ⟨fuel, rfl⟩ : ∃ n, fuel = n + 1 := ⟨fuel - 1, by simp at hfuel; omega⟩
      obtain ⟨b, d⟩ := x
      have hnode := (show Holds l (pre ++ (b, d) :: (rest ++ (a, c) :: post)) from h).node
      have hnext : Holds l ((pre ++ [(b, d)]) ++ (rest ++ (a, c) :: post)) := by simpa using h
      have htail := ih hnext (fun x hx => hrest x (List.mem_cons_of_mem _ hx))
        (by simpa using hfuel)
      have hne : d.start ≠ c.start := hrest (b, d) List.mem_cons_self
      simp only [List.cons_append, headAddr_cons, findStart, hnode, Option.bind_eq_bind,
        Option.bind_some, if_neg hne, htail]

/-! ## 4. The merging loop -/

/-- A chunk behind a taken one stays. -/
theorem absorb_stays (h : Holds l (pre ++ (a, c) :: post)) (hlast : LastTaken (values pre))
    (hpos : 0 < c.size) (freed : Nat) :
    absorb l ⟨c, lastAddr none pre, headAddr none post⟩ a freed = some (l, freed) := by
  rcases List.eq_nil_or_concat' pre with rfl | ⟨pre, ⟨p, q⟩, rfl⟩
  · rfl
  · have hq : q.free = false := by simpa [LastTaken] using hlast
    have hnode := (show Holds l (pre ++ (p, q) :: (a, c) :: post) by simpa using h).node
    have hsize : c.size ≠ 0 := by omega
    simp [absorb, lastAddr, hnode, hq, hsize]

/-- A chunk behind a free one goes into it, and so does an empty chunk behind any. -/
theorem absorb_joins (h : Holds l (pre ++ (p, q) :: (a, c) :: post))
    (hjoins : q.free = true ∨ c.size = 0) (hsize : q.size + c.size < 2 ^ 28) (freed : Nat)
    (next : Option Nat) :
    ∃ l', absorb l ⟨c, some p, next⟩ a freed = some (l', p) ∧
      Holds l' (pre ++ (p, ⟨q.start, q.size + c.size, q.free⟩) :: post) := by
  obtain ⟨l₁, hl₁, h₁⟩ := h.modify fun d => { d with size := sizeBits (d.size + c.size) }
  rw [sizeBits_eq hsize] at h₁
  have hnext : Holds l₁ ((pre ++ [(p, ⟨q.start, q.size + c.size, q.free⟩)]) ++ (a, c) :: post) := by
    simpa using h₁
  obtain ⟨l₂, hl₂, h₂, hout⟩ := hnext.remove
  refine ⟨l₂.delete a, ?_, by simpa using h₂.delete hout⟩
  simp [absorb, h.node, hjoins, hl₁, hl₂]

/-- The last turn of the loop: the chunk behind the freed one is free. -/
theorem merge_last (h : Holds l (pre ++ (p, q) :: (a, c) :: post)) (hq : q.free = true)
    (hsize : q.size + c.size < 2 ^ 28) (hhead : HeadTaken (values post)) {fuel : Nat}
    (hfuel : 0 < fuel) (freed : Nat) :
    ∃ l', merge fuel l a freed = some (l', p) ∧
      Holds l' (pre ++ (p, ⟨q.start, q.size + c.size, true⟩) :: post) := by
  obtain ⟨fuel, rfl⟩ : ∃ n, fuel = n + 1 := ⟨fuel - 1, by omega⟩
  have hnode : l.node a = some ⟨c, some p, headAddr none post⟩ := by
    have := (show Holds l ((pre ++ [(p, q)]) ++ (a, c) :: post) by simpa using h).node
    simpa [lastAddr] using this
  obtain ⟨l', hl', h'⟩ := absorb_joins h (.inl hq) hsize freed (headAddr none post)
  rw [hq] at h'
  refine ⟨l', ?_, h'⟩
  cases post with
  | nil =>
      simp only [headAddr_nil] at hnode hl'
      simp [merge, whileFree, hnode, hl']
  | cons x post =>
      obtain ⟨b, d⟩ := x
      have hd : d.free = false := headTaken_cons.mp hhead
      have hnext := (show Holds l' ((pre ++ [(p, ⟨q.start, q.size + c.size, true⟩)]) ++
        (b, d) :: post) by simpa using h').node
      simp only [headAddr_cons] at hnode hl'
      simp [merge, whileFree, hnode, hl', hnext, hd]

/-- A list in which a chunk was given back: these are still taken. -/
structure GivenBack (s e : Nat) (still : List Chunk) (r : LinkedList Chunk × Nat)
    (ys : List (Nat × Chunk)) : Prop where
  holds : Holds r.1 ys
  freed : ∃ n, r.1.node r.2 = some n ∧ n.val.free = true
  tiles : Tiles s e (values ys)
  apart : Apart (values ys)
  taken : taken (values ys) = still

/-- After the first turn the chunk before the freed one is taken. -/
theorem whileFree_spec {s e : Nat} (h : Holds l (pre ++ (p, q) :: post)) (hq : q.free = true)
    (htiles : Tiles s e (values (pre ++ (p, q) :: post))) (he : e < 2 ^ 28)
    (hpre : Apart (values pre)) (hlast : LastTaken (values pre)) (hpost : Apart (values post))
    {fuel : Nat} (hfuel : post.length ≤ fuel) :
    ∃ r ys, whileFree (merge fuel) (l, p) (headAddr none post) = some r ∧
      GivenBack s e (taken (values pre) ++ taken (values post)) r ys := by
  simp only [values_append, values_cons] at htiles
  cases post with
  | nil =>
      refine ⟨(l, p), _, rfl, h, ⟨_, h.node, hq⟩, by simpa using htiles, ?_, ?_⟩
      · simpa using (apart_free hq).mpr ⟨hpre, hpost, hlast, nofun⟩
      · simp [taken_append, taken_cons_free hq]
  | cons x post =>
      obtain ⟨b, d⟩ := x
      rw [values_cons] at htiles hpost
      have hnext := (show Holds l ((pre ++ [(p, q)]) ++ (b, d) :: post) by simpa using h).node
      cases hd : d.free with
      | false =>
          refine ⟨(l, p), _, by simp [whileFree, hnext, hd], h, ⟨_, h.node, hq⟩,
            by simpa using htiles, ?_, ?_⟩
          · simpa using (apart_free hq).mpr ⟨hpre, hpost, hlast, headTaken_cons.mpr hd⟩
          · simp [taken_append, taken_cons_free hq]
      | true =>
          obtain ⟨hpost', hhead⟩ := (apart_cons_free hd).mp hpost
          have hsize : q.size + d.size < 2 ^ 28 := by
            obtain ⟨m, -, -, -, hd', -, hrest⟩ := tiles_append.mp htiles
            have := hrest.le
            simp only at this
            omega
          have hturn : 0 < fuel := by
            rw [List.length_cons] at hfuel
            omega
          obtain ⟨l', hl', h'⟩ := merge_last h hq hsize hhead hturn p
          refine ⟨(l', p), _, by simp [whileFree, hnext, hd, hl'], h', ⟨_, h'.node, rfl⟩,
            by simpa using htiles.join true, ?_, ?_⟩
          · simpa using (apart_free rfl).mpr ⟨hpre, hpost', hlast, hhead⟩
          · simp [taken_append, taken_cons_free, hd]

/-- **The merging loop gives the chunk at `a` back.** -/
theorem merge_spec {s e : Nat} (h : Holds l (pre ++ (a, c) :: post)) (hc : c.free = true)
    (htiles : Tiles s e (values (pre ++ (a, c) :: post))) (he : e < 2 ^ 28)
    (hpre : Apart (values pre)) (hpost : Apart (values post)) {fuel : Nat}
    (hfuel : post.length < fuel) :
    ∃ r ys, merge fuel l a a = some r ∧
      GivenBack s e (taken (values pre) ++ taken (values post)) r ys := by
  obtain ⟨fuel, rfl⟩ : ∃ n, fuel = n + 1 := ⟨fuel - 1, by omega⟩
  have hpos : 0 < c.size := (htiles.mem (by simp)).2.1
  by_cases hlast : LastTaken (values pre)
  · obtain ⟨r, ys, hr, hback⟩ := whileFree_spec h hc htiles he hpre hlast hpost
      (Nat.le_of_lt_succ hfuel)
    exact ⟨r, ys, by simp [merge, h.node, absorb_stays h hlast hpos, hr], hback⟩
  · -- the chunk before it is free, and takes it in
    obtain ⟨pre, ⟨p, q⟩, rfl⟩ : ∃ pre' x, pre = pre' ++ [x] :=
      (List.eq_nil_or_concat' pre).resolve_left (by rintro rfl; exact hlast nofun)
    have hq : q.free = true := by simpa [LastTaken] using hlast
    rw [values_append, values_cons, values_nil] at hpre
    obtain ⟨hpre', -, hlast', -⟩ := (apart_free hq).mp hpre
    have h₀ : Holds l (pre ++ (p, q) :: (a, c) :: post) := by simpa using h
    have htiles₀ : Tiles s e (values pre ++ q :: c :: values post) := by simpa using htiles
    have hsize : q.size + c.size < 2 ^ 28 := by
      obtain ⟨m, -, -, -, -, -, hrest⟩ := tiles_append.mp htiles₀
      have := hrest.le
      omega
    obtain ⟨l', hl', h'⟩ := absorb_joins h₀ (.inl hq) hsize a (headAddr none post)
    rw [hq] at h'
    obtain ⟨r, ys, hr, hback⟩ := whileFree_spec h' rfl (by simpa using htiles₀.join true) he hpre'
      hlast' hpost (Nat.le_of_lt_succ hfuel)
    refine ⟨r, ys, ?_, by simpa [taken_append, taken_cons_free hq] using hback⟩
    have hnode := h.node
    rw [lastAddr_append] at hnode
    simp only [lastAddr] at hnode
    simp [merge, hnode, hl', hr]

end Merge

/-! ## 5. The allocator -/

/-- **A sound allocator**: its memory holds a list whose chunks tile the heap, no two free chunks
    are neighbours, and every taken chunk begins on a page. -/
structure Sound (s : Allocator) (xs : List (Nat × Chunk)) : Prop where
  heap : 0 < s.mHeapSize ∧ s.mHeapSize < 2 ^ 32
  holds : Holds s.mList xs
  tiles : Tiles 0 (s.mHeapSize / kMemoryAlign) (values xs)
  apart : Apart (values xs)
  pages : ∀ c ∈ taken (values xs), c.start * kMemoryAlign % pagesize = 0

/-- The size of a request, in units. -/
def units (size : Nat) : Nat := (size + kMemoryAlign - 1) / kMemoryAlign

namespace Sound

variable {s : Allocator} {xs : List (Nat × Chunk)}

theorem heap_lt (h : Sound s xs) : s.mHeapSize / kMemoryAlign < 2 ^ 27 := by
  have := h.heap.2
  unfold kMemoryAlign
  omega

/-- **`setSize`** makes the heap one free chunk; the chunk is empty if the heap is. -/
theorem setSize_holds (size new : Nat) :
    ∃ s, Allocator.empty.setSize size new = some (s, ssize size) ∧
      s.mHeapSize = word (size + pagesize - 1) / pagesize * pagesize ∧
      Holds s.mList [(new, ⟨0, s.mHeapSize / kMemoryAlign, true⟩)] := by
  obtain ⟨heapSize, hheap⟩ : ∃ n, n = word (size + pagesize - 1) / pagesize * pagesize := ⟨_, rfl⟩
  have hsize : heapSize / kMemoryAlign < 2 ^ 28 := by
    unfold word pagesize kMemoryAlign at *
    omega
  have hempty : Holds (LinkedList.empty : LinkedList Chunk) [] :=
    ⟨List.nodup_nil, rfl, rfl, trivial⟩
  obtain ⟨l₁, hl₁, h₁, -, hnode, -⟩ :=
    hempty.new (b := new) rfl (Chunk.create 0 (heapSize / kMemoryAlign))
  obtain ⟨l₂, hl₂, h₂⟩ := h₁.insertHead (List.not_mem_nil) hnode
  refine ⟨⟨l₂, heapSize⟩, ?_, hheap, by simpa [Chunk.create, sizeBits_eq hsize] using h₂⟩
  simp [Allocator.setSize, Allocator.empty, ← hheap, hl₁, hl₂]

theorem setSize {size new : Nat} {r : Allocator × Int}
    (hset : Allocator.empty.setSize size new = some r) (hpos : 0 < r.1.mHeapSize) :
    Sound r.1 [(new, ⟨0, r.1.mHeapSize / kMemoryAlign, true⟩)] := by
  obtain ⟨s, hs, hheap, h⟩ := setSize_holds size new
  rw [hset] at hs
  cases hs
  have hunits : 0 < s.mHeapSize / kMemoryAlign := by
    simp only at hpos
    unfold word pagesize kMemoryAlign at *
    omega
  have hlt : s.mHeapSize < 2 ^ 32 := by
    unfold word pagesize at *
    omega
  exact ⟨⟨hpos, hlt⟩, h, ⟨rfl, hunits, Nat.zero_add _⟩, List.isChain_singleton _, nofun⟩

/-- **`allocate`** finds no chunk that is large enough, or carves a block out of one. -/
theorem allocate (h : Sound s xs) {size new₁ new₂ : Nat} (hpos : 0 < size)
    (hsize : size + kMemoryAlign ≤ 2 ^ 32) (hnew₁ : s.mList.node new₁ = none)
    (hnew₂ : s.mList.node new₂ = none) (hne : new₂ ≠ new₁) :
    s.allocate size new₁ new₂ = some (s, -ENOMEM) ∨
      ∃ s' pre c post ys, values xs = pre ++ c :: post ∧ c.free = true ∧
        s.allocate size new₁ new₂ =
          some (s', ssize ((block c (units size)).start * kMemoryAlign)) ∧
        s'.mHeapSize = s.mHeapSize ∧ Sound s' ys ∧
        values ys = pre ++ carved c (units size) ++ post := by
  have hheap := h.heap_lt
  have hzero : s.mHeapSize ≠ 0 := by
    have := h.heap.1
    omega
  have hunits : word (size + kMemoryAlign - 1) / kMemoryAlign = units size := by
    rw [word_eq (by unfold kMemoryAlign at *; omega), units]
  have hbounds : 0 < units size := by
    unfold units kMemoryAlign
    omega
  have hend : ∀ c ∈ values xs, c.start + c.size < 2 ^ 28 := by
    intro c hc
    have := (h.tiles.mem hc).2.2
    omega
  rcases alloc_carves h.holds hend (Nat.ne_of_gt hpos) hunits hnew₁ hnew₂ hne with
    ⟨hfull, -⟩ | ⟨l', pre, a, c, post, mid, rfl, hbest, hcall, h', hmid⟩
  · left
    simp [Allocator.allocate, hzero, hfull]
  · right
    obtain ⟨hfree, hfit⟩ := hbest.fits
    have htiles := h.tiles
    have hapart := h.apart
    rw [values_append, values_cons] at htiles hapart
    have hvalues :
        values (pre ++ mid ++ post) = values pre ++ carved c (units size) ++ values post := by
      simp [hmid]
    refine ⟨{ s with mList := l' }, values pre, c, values post, pre ++ mid ++ post, by simp,
      hfree, ?_, rfl, ⟨h.heap, h', ?_, ?_, ?_⟩, hvalues⟩
    · simp [Allocator.allocate, hzero, hcall]
    · rw [hvalues]
      exact htiles.carve hbounds hfit
    · rw [hvalues]
      exact hapart.carve hfree _
    · intro d hd
      rw [hvalues, taken_carve] at hd
      rcases List.mem_append.mp hd with hd | hd
      · exact h.pages d (by simp [taken_append, hd])
      · rcases List.mem_cons.mp hd with rfl | hd
        · have hstart := hend c (by simp)
          have hpage := page_of_extra (by omega : c.start < 2 ^ 32)
          simp only [block, kMemoryAlign, pagesize]
          omega
        · exact h.pages d (by simp [taken_append, taken_cons_free hfree, hd])

/-- **In a heap of at most 2^31 bytes** no offset is negative: a block is added to the taken ones,
    or nothing happens. -/
theorem allocate_block (h : Sound s xs) (hheap : s.mHeapSize ≤ 2 ^ 31) {size new₁ new₂ : Nat}
    (hpos : 0 < size) (hsize : size + kMemoryAlign ≤ 2 ^ 32) (hnew₁ : s.mList.node new₁ = none)
    (hnew₂ : s.mList.node new₂ = none) (hne : new₂ ≠ new₁) :
    s.allocate size new₁ new₂ = some (s, -ENOMEM) ∨
      ∃ (s' : Allocator) (ys : List (Nat × Chunk)) (pre post : List Chunk) (b : Chunk),
        s.allocate size new₁ new₂ = some (s', ((b.start * kMemoryAlign : Nat) : Int)) ∧
        s'.mHeapSize = s.mHeapSize ∧ Sound s' ys ∧ values ys = pre ++ b :: post ∧
        b.free = false ∧ taken (values xs) = taken pre ++ taken post ∧
        b.start * kMemoryAlign < 2 ^ 31 ∧ size ≤ b.size * kMemoryAlign ∧ b.size = units size := by
  rcases h.allocate hpos hsize hnew₁ hnew₂ hne with
    hfull | ⟨s', pre, c, post, ys, hxs, hfree, hcall, hsame, hsound, hys⟩
  · exact .inl hfull
  right
  rw [carved_split] at hys
  have hmem := hsound.tiles.mem (c := block c (units size)) (by simp [hys])
  have hoffset : (block c (units size)).start * kMemoryAlign < 2 ^ 31 := by
    rw [hsame] at hmem
    unfold kMemoryAlign at *
    omega
  rw [ssize_eq hoffset] at hcall
  refine ⟨s', ys, _, _, _, hcall, hsame, hsound, hys, rfl, ?_, hoffset, ?_, rfl⟩
  · rw [hxs, taken_append, taken_cons_free hfree, taken_append, taken_append, taken_frontPiece,
      taken_tailPiece, List.append_nil, List.nil_append]
  · simp only [block, units, kMemoryAlign]
    omega

/-- **`deallocate`** gives a taken chunk back, and leaves the other taken chunks. -/
theorem deallocate (h : Sound s xs) {pre post : List Chunk} {c : Chunk}
    (hxs : values xs = pre ++ c :: post) (hc : c.free = false) :
    ∃ s' ys, s.deallocate (c.start * kMemoryAlign) = some (s', 0) ∧
      s'.mHeapSize = s.mHeapSize ∧ Sound s' ys ∧ taken (values ys) = taken pre ++ taken post := by
  obtain ⟨pre, rest, rfl, rfl, hrest⟩ := List.map_eq_append_iff.mp hxs
  obtain ⟨⟨a, d⟩, post, rfl, rfl, rfl⟩ := List.map_eq_cons_iff.mp hrest
  have hd : d.free = false := hc
  have hheap := h.heap_lt
  have hzero : s.mHeapSize ≠ 0 := by
    have := h.heap.1
    omega
  have htiles := h.tiles
  have hapart := h.apart
  rw [values_append, values_cons] at htiles hapart
  obtain ⟨hpre, hpost⟩ := (apart_taken hc).mp hapart
  have hlength := h.holds.length_le
  simp only [List.length_append, List.length_cons] at hlength
  -- no chunk before it begins at the same place
  have hfirst : ∀ x ∈ pre, x.2.start ≠ d.start := fun x hx =>
    htiles.start_ne (List.mem_append_left _ (List.mem_map_of_mem hx))
  have hfuel : pre.length < s.mList.mem.length := by omega
  have hfind := findStart_spec (show Holds s.mList ([] ++ (pre ++ (a, d) :: post)) from h.holds)
    hfirst hfuel
  rw [← h.holds.first] at hfind
  obtain ⟨l₁, hl₁, h₁⟩ := h.holds.modify fun d => { d with free := true }
  have hlength₁ := h₁.length_le
  simp only [List.length_append, List.length_cons] at hlength₁
  have hfuel₁ : post.length < l₁.mem.length := by omega
  obtain ⟨r, ys, hr, hback⟩ := merge_spec h₁ rfl (by simpa using htiles.mark true) (by omega) hpre
    hpost hfuel₁
  obtain ⟨n, hn, hfreed⟩ := hback.freed
  have hunits : d.start * kMemoryAlign / kMemoryAlign = d.start := Nat.mul_div_cancel _ (by decide)
  refine ⟨{ s with mList := r.1 }, ys, ?_, rfl,
    ⟨h.heap, hback.holds, hback.tiles, hback.apart, fun c hc => ?_⟩, hback.taken⟩
  · simp [Allocator.deallocate, hzero, dealloc, hunits, hfind, h.holds.node, hd, hl₁, hr, hn,
      hfreed]
  · rw [hback.taken] at hc
    refine h.pages c ?_
    rw [values_append, values_cons, taken_append, taken_cons_taken hd]
    rcases List.mem_append.mp hc with hc | hc
    · exact List.mem_append_left _ hc
    · exact List.mem_append_right _ (List.mem_cons_of_mem _ hc)

end Sound

end Y210.Gralloc

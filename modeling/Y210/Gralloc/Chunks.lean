/-
  File:      Y210/Gralloc/Chunks.lean
  Subject:   LISTS OF CHUNKS as the allocator means them: pieces of one area, side by side.

  Here a list of chunks is only that, without memory and pointers. The chunks tile the area from its
  beginning to its end, and no two free chunks are neighbours; then the free chunks are what the
  taken ones leave, and a list is known by its taken chunks.

  * `Tiles`, `Apart`, `taken` -- the shape of a list;
  * `Fits`, `Best` -- the chunk a block should be taken out of;
  * `carved`, `Tiles.carve`, `Apart.carve` -- a block is taken out of a free chunk;
  * `Tiles.join`, `apart_free` -- neighbours become one chunk;
  * `chunks_unique` -- the taken chunks determine the list.
-/
import Y210.Gralloc.Allocator
import Mathlib.Data.List.Chain

namespace Y210.Gralloc

/-! ## 1. The shape of a list -/

/-- **The chunks tile the area** from `s` to `e`, in order and none of them empty. -/
def Tiles (s e : Nat) : List Chunk → Prop
  | [] => s = e
  | c :: cs => c.start = s ∧ 0 < c.size ∧ Tiles (s + c.size) e cs

/-- **No two free chunks are neighbours.** -/
def Apart (cs : List Chunk) : Prop := cs.IsChain fun c d => ¬ (c.free = true ∧ d.free = true)

/-- The chunks that are not free. -/
def taken (cs : List Chunk) : List Chunk := cs.filter fun c => !c.free

section Shape

variable {s e m : Nat} {cs ds : List Chunk} {c d : Chunk}

theorem tiles_append : Tiles s e (cs ++ ds) ↔ ∃ m, Tiles s m cs ∧ Tiles m e ds := by
  induction cs generalizing s with
  | nil => simp [Tiles]
  | cons c cs ih => simp [Tiles, ih, and_assoc]

theorem Tiles.le (h : Tiles s e cs) : s ≤ e := by
  induction cs generalizing s with
  | nil => exact Nat.le_of_eq h
  | cons c cs ih =>
      have := ih h.2.2
      omega

/-- Every chunk lies in the area. -/
theorem Tiles.mem (h : Tiles s e cs) (hc : c ∈ cs) :
    s ≤ c.start ∧ 0 < c.size ∧ c.start + c.size ≤ e := by
  induction cs generalizing s with
  | nil => cases hc
  | cons d cs ih =>
      obtain ⟨hs, hpos, htail⟩ := h
      rcases List.mem_cons.mp hc with rfl | hc
      · have := htail.le
        omega
      · have := ih htail hc
        omega

/-- An earlier chunk ends before a later one begins. -/
theorem Tiles.sorted (h : Tiles s e cs) : cs.Pairwise fun c d => c.start + c.size ≤ d.start := by
  induction cs generalizing s with
  | nil => exact List.Pairwise.nil
  | cons c cs ih =>
      obtain ⟨hs, -, htail⟩ := h
      refine List.Pairwise.cons (fun d hd => ?_) (ih htail)
      have := (htail.mem hd).1
      omega

/-- No other chunk begins where one does. -/
theorem Tiles.start_ne (h : Tiles s e (cs ++ c :: ds)) (hd : d ∈ cs ++ ds) : d.start ≠ c.start := by
  have hsorted := List.pairwise_append.mp h.sorted
  rcases List.mem_append.mp hd with hd | hd
  · have hle := hsorted.2.2 d hd c List.mem_cons_self
    have hpos := (h.mem (List.mem_append_left _ hd)).2.1
    omega
  · have hle := (List.pairwise_cons.mp hsorted.2.1).1 d hd
    have hpos := (h.mem (List.mem_append_right cs List.mem_cons_self)).2.1
    omega

@[simp] theorem taken_nil : taken [] = [] := rfl

theorem taken_append (cs ds : List Chunk) : taken (cs ++ ds) = taken cs ++ taken ds :=
  List.filter_append cs ds

theorem mem_taken : c ∈ taken cs ↔ c ∈ cs ∧ c.free = false := by
  simp [taken]

end Shape

/-! ## 2. Neighbours -/

/-- The last chunk of a list is not free. -/
def LastTaken (cs : List Chunk) : Prop := ∀ c ∈ cs.getLast?, c.free = false

/-- The first chunk of a list is not free. -/
def HeadTaken (cs : List Chunk) : Prop := ∀ c ∈ cs.head?, c.free = false

section Neighbours

variable {s e : Nat} {pre post : List Chunk} {c d : Chunk}

/-- Around a free chunk the neighbours are taken. -/
theorem apart_free (hc : c.free = true) :
    Apart (pre ++ c :: post) ↔ Apart pre ∧ Apart post ∧ LastTaken pre ∧ HeadTaken post := by
  unfold Apart LastTaken HeadTaken
  rw [List.isChain_append, List.isChain_cons]
  simp only [List.head?_cons, Option.mem_def, Option.some.injEq, forall_eq', hc, and_true, true_and,
    Bool.not_eq_true]
  tauto

theorem apart_cons_free (hc : c.free = true) :
    Apart (c :: post) ↔ Apart post ∧ HeadTaken post := by
  rw [← List.nil_append (c :: post), apart_free hc]
  exact ⟨fun h => ⟨h.2.1, h.2.2.2⟩, fun h => ⟨List.isChain_nil, h.1, nofun, h.2⟩⟩

/-- Around a taken chunk there is nothing to ask for. -/
theorem apart_taken (hc : c.free = false) : Apart (pre ++ c :: post) ↔ Apart pre ∧ Apart post := by
  unfold Apart
  rw [List.isChain_append, List.isChain_cons]
  simp [hc]

theorem headTaken_cons : HeadTaken (c :: post) ↔ c.free = false := by
  simp [HeadTaken]

/-- Two neighbours become one chunk. -/
theorem Tiles.join (h : Tiles s e (pre ++ c :: d :: post)) (free : Bool) :
    Tiles s e (pre ++ ⟨c.start, c.size + d.size, free⟩ :: post) := by
  obtain ⟨m, hpre, hc, hcpos, hd, hdpos, hpost⟩ := tiles_append.mp h
  refine tiles_append.mpr ⟨m, hpre, hc, by simp only; omega, ?_⟩
  rwa [← Nat.add_assoc]

/-- A chunk is marked. -/
theorem Tiles.mark (h : Tiles s e (pre ++ c :: post)) (free : Bool) :
    Tiles s e (pre ++ ⟨c.start, c.size, free⟩ :: post) := by
  obtain ⟨m, hpre, hc, hcpos, hpost⟩ := tiles_append.mp h
  exact tiles_append.mpr ⟨m, hpre, hc, hcpos, hpost⟩

end Neighbours

/-! ## 3. The best fit -/

/-- The chunk is free, and large enough from its first page boundary on. -/
def Fits (size : Nat) (c : Chunk) : Prop := c.free = true ∧ size + extra c.start ≤ c.size

instance (size : Nat) (c : Chunk) : Decidable (Fits size c) := inferInstanceAs (Decidable (_ ∧ _))

/-- **The best fit**: the first of the smallest chunks that fit. -/
structure Best (size : Nat) (pre : List Chunk) (c : Chunk) (post : List Chunk) : Prop where
  fits : Fits size c
  before : ∀ d ∈ pre, Fits size d → c.size < d.size
  behind : ∀ d ∈ post, Fits size d → c.size ≤ d.size

section Best

variable {size : Nat} {pre post pre' post' : List Chunk} {c d : Chunk}

/-- A best fit is not larger than another chunk that fits. -/
theorem Best.le (h : Best size pre c post) (hd : d ∈ pre ++ c :: post) (hfits : Fits size d) :
    c.size ≤ d.size := by
  rcases List.mem_append.mp hd with hd | hd
  · exact Nat.le_of_lt (h.before d hd hfits)
  · rcases List.mem_cons.mp hd with rfl | hd
    · exact Nat.le_refl _
    · exact h.behind d hd hfits

/-- The best fit stands nowhere before another best fit. -/
theorem Best.not_before (h : Best size pre c post) (h' : Best size pre' d post')
    (heq : pre ++ c :: post = pre' ++ d :: post') : ¬ pre.length < pre'.length := by
  intro hlt
  have hmem : c ∈ pre' := by
    have hget : (pre ++ c :: post)[pre.length]? = some c := by simp
    rw [heq, List.getElem?_append_left hlt] at hget
    exact List.mem_of_getElem? hget
  have hle := h.le (heq ▸ List.mem_append_right pre' List.mem_cons_self) h'.fits
  have hback := h'.before c hmem h.fits
  omega

/-- **There is one best fit.** -/
theorem Best.unique (h : Best size pre c post) (h' : Best size pre' d post')
    (heq : pre ++ c :: post = pre' ++ d :: post') : c = d := by
  have hlength : pre.length = pre'.length := by
    have := h.not_before h' heq
    have := h'.not_before h heq.symm
    omega
  obtain ⟨-, hrest⟩ := List.append_inj heq hlength
  exact (List.cons.inj hrest).1

end Best

/-! ## 4. A block is taken out of a free chunk -/

/-- The piece of a chunk before its first page boundary, -/
def frontPiece (c : Chunk) : List Chunk :=
  if extra c.start = 0 then [] else [⟨c.start, extra c.start, true⟩]

/-- the block of `size` units that begins there, -/
def block (c : Chunk) (size : Nat) : Chunk := ⟨c.start + extra c.start, size, false⟩

/-- and the piece behind the block. -/
def tailPiece (c : Chunk) (size : Nat) : List Chunk :=
  if c.size ≤ size + extra c.start then []
  else [⟨c.start + extra c.start + size, c.size - (size + extra c.start), true⟩]

/-- **What becomes of a free chunk** that gives a block. -/
def carved (c : Chunk) (size : Nat) : List Chunk :=
  frontPiece c ++ block c size :: tailPiece c size

/-- A block begins on a page. -/
theorem page_of_extra {start : Nat} (h : start < 2 ^ 32) : (start + extra start) % 128 = 0 := by
  unfold extra word pagesize kMemoryAlign
  omega

/-- The block between what is before and what is behind it. -/
theorem carved_split (pre post : List Chunk) (c : Chunk) (size : Nat) :
    pre ++ carved c size ++ post =
      (pre ++ frontPiece c) ++ block c size :: (tailPiece c size ++ post) := by
  simp [carved]

section Carve

variable {s e size : Nat} {pre post : List Chunk} {c : Chunk}

theorem Tiles.carve (h : Tiles s e (pre ++ c :: post)) (hsize : 0 < size)
    (hfit : size + extra c.start ≤ c.size) : Tiles s e (pre ++ carved c size ++ post) := by
  obtain ⟨m, hpre, hc, hcpos, hpost⟩ := tiles_append.mp h
  subst hc
  have hfront : Tiles c.start (c.start + extra c.start) (frontPiece c) := by
    unfold frontPiece
    split
    · simp only [Tiles]
      omega
    · exact ⟨rfl, by simp only; omega, rfl⟩
  have htail : Tiles (c.start + extra c.start + size) (c.start + c.size) (tailPiece c size) := by
    unfold tailPiece
    split
    · simp only [Tiles]
      omega
    · exact ⟨rfl, by simp only; omega, by simp only [Tiles]; omega⟩
  have hcarved : Tiles c.start (c.start + c.size) (carved c size) :=
    tiles_append.mpr ⟨_, hfront, rfl, hsize, htail⟩
  exact tiles_append.mpr ⟨_, tiles_append.mpr ⟨_, hpre, hcarved⟩, hpost⟩

theorem Apart.carve (h : Apart (pre ++ c :: post)) (hc : c.free = true) (size : Nat) :
    Apart (pre ++ carved c size ++ post) := by
  obtain ⟨hpre, hpost, hlast, hhead⟩ := (apart_free hc).mp h
  have hfront : Apart (pre ++ frontPiece c) := by
    unfold frontPiece
    split
    · rwa [List.append_nil]
    · exact (apart_free rfl).mpr ⟨hpre, List.isChain_nil, hlast, nofun⟩
  have htail : Apart (tailPiece c size ++ post) := by
    unfold tailPiece
    split
    · exact hpost
    · exact apart_cons_free rfl |>.mpr ⟨hpost, hhead⟩
  rw [carved_split]
  exact (apart_taken rfl).mpr ⟨hfront, htail⟩

theorem taken_frontPiece (c : Chunk) : taken (frontPiece c) = [] := by
  unfold frontPiece
  split <;> rfl

theorem taken_tailPiece (c : Chunk) (size : Nat) : taken (tailPiece c size) = [] := by
  unfold tailPiece
  split <;> rfl

theorem taken_carve (pre post : List Chunk) (c : Chunk) (size : Nat) :
    taken (pre ++ carved c size ++ post) = taken pre ++ block c size :: taken post := by
  have hblock (cs : List Chunk) : taken (block c size :: cs) = block c size :: taken cs := rfl
  rw [carved_split]
  simp [taken_append, hblock, taken_frontPiece, taken_tailPiece]

end Carve

/-! ## 5. A list is known by its taken chunks -/

section Unique

variable {s e : Nat} {c d : Chunk} {cs ds : List Chunk}

theorem taken_cons_free (hc : c.free = true) : taken (c :: cs) = taken cs := by
  simp [taken, hc]

theorem taken_cons_taken (hc : c.free = false) : taken (c :: cs) = c :: taken cs := by
  simp [taken, hc]

/-- Behind a free chunk comes a taken one, or the end of the area. -/
theorem after_free (h : Tiles s e cs) (hhead : HeadTaken cs) :
    s = e ∨ ∃ c ∈ taken cs, c.start = s := by
  cases cs with
  | nil => exact .inl h
  | cons c cs =>
      exact .inr ⟨c, mem_taken.mpr ⟨List.mem_cons_self, headTaken_cons.mp hhead⟩, h.1⟩

/-- A free chunk is not shorter than another one at its place. -/
theorem free_le (hcs : Tiles (s + c.size) e cs) (hds : Tiles (s + d.size) e ds)
    (hhead : HeadTaken cs) (htaken : taken cs = taken ds) : d.size ≤ c.size := by
  rcases after_free hcs hhead with hend | ⟨b, hb, hstart⟩
  · have := hds.le
    omega
  · rw [htaken] at hb
    have := (hds.mem (mem_taken.mp hb).1).1
    omega

/-- What is taken behind a chunk does not begin where the chunk does. -/
theorem taken_behind (hcs : Tiles (s + c.size) e cs) (hpos : 0 < c.size) (hd : d ∈ taken cs) :
    d.start ≠ s := by
  have := (hcs.mem (mem_taken.mp hd).1).1
  omega

/-- **Two lists with the same taken chunks are the same.** -/
theorem chunks_unique (hcs : Tiles s e cs) (hds : Tiles s e ds) (hac : Apart cs) (had : Apart ds)
    (htaken : taken cs = taken ds) : cs = ds := by
  induction cs generalizing s ds with
  | nil =>
      cases ds with
      | nil => rfl
      | cons d ds =>
          have hpos := hds.2.1
          have hle := hds.2.2.le
          simp only [Tiles] at hcs
          omega
  | cons c cs ih =>
      obtain ⟨hc, hcpos, hcs⟩ := hcs
      cases ds with
      | nil =>
          have hle := hcs.le
          simp only [Tiles] at hds
          omega
      | cons d ds =>
          obtain ⟨hd, hdpos, hds⟩ := hds
          have hac' : Apart cs := hac.tail
          have had' : Apart ds := had.tail
          cases hcf : c.free <;> cases hdf : d.free
          · rw [taken_cons_taken hcf, taken_cons_taken hdf] at htaken
            obtain ⟨rfl, hrest⟩ := List.cons.inj htaken
            rw [ih hcs hds hac' had' hrest]
          · rw [taken_cons_taken hcf, taken_cons_free hdf] at htaken
            exact absurd hc (taken_behind hds hdpos (htaken ▸ List.mem_cons_self))
          · rw [taken_cons_free hcf, taken_cons_taken hdf] at htaken
            exact absurd hd (taken_behind hcs hcpos (htaken ▸ List.mem_cons_self))
          · rw [taken_cons_free hcf, taken_cons_free hdf] at htaken
            have hle := free_le hcs hds ((apart_cons_free hcf).mp hac).2 htaken
            have hge := free_le hds hcs ((apart_cons_free hdf).mp had).2 htaken.symm
            have hsize : c.size = d.size := by omega
            have heq : c = d := by
              cases c
              cases d
              simp_all
            rw [heq, ih (hsize ▸ hcs) hds hac' had' htaken]

end Unique

end Y210.Gralloc

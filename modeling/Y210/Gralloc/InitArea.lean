/-
  File:      Y210/Gralloc/InitArea.lean
  Subject:   HOW THE PMEM AREA IS INITIALISED: `init_pmem_area` of pmemalloc.cpp.

  The device is opened, asked for its size and mapped as a whole, once. What the calls return is
  arbitrary, and given with each call. `master_fd` is the descriptor, the error the first call ended
  with, or `MASTER_FD_INIT`; and -1 is both an error and that mark.

  If the device does not tell its size, 8 MiB of it are mapped all the same ("limp mode"), but the
  error is still in `err`: it is returned, and written over the descriptor.

  * `Master`, `initPmemArea` -- the state and the two functions;
  * `Master.step` -- calls in any order, also those that ask for buffers and give them back;
  * `init_zero_iff_mapped` -- what is returned, where the size is known;
  * `limp_mode_fails` -- the limp mode.
-/
import Y210.Gralloc.AnyCalls
import Y210.Gralloc.Pmem

namespace Y210.Gralloc

open Y210.Lib LinkedList

/-! ## 1. The two functions -/

def MASTER_FD_INIT : Int := -1

/-- What `open`, `PMEM_GET_TOTAL_SIZE`, `mmap` and `getErrno` return; `none` is `MAP_FAILED`. -/
structure InitOutcome where
  openFd : Int
  query : Int
  len : Nat
  map : Option Int
  errno : Int
  deriving DecidableEq

/-- What `PmemUserspaceAllocator` keeps, and what the process holds because of it: the master
    descriptors that are open, and the mappings of the area with their sizes. -/
structure Master where
  masterFd : Int
  masterBase : Int
  allocator : Allocator
  fds : List Int
  mapped : List (Int × Nat)
  deriving DecidableEq

/-- `getPmemTotalSize`: what is returned, and `*size` then. -/
def getPmemTotalSize (o : InitOutcome) (size : Nat) : Int × Nat :=
  (o.query, if o.query = 0 then o.len else size)

/-- The size that is mapped. -/
def InitOutcome.size (o : InitOutcome) : Nat :=
  let r := getPmemTotalSize o 0
  if r.1 < 0 then 8 * 2 ^ 20 else r.2

namespace Master

/-- The constructor; `master_base` is not set by it. -/
def create (masterBase : Int) : Master := ⟨MASTER_FD_INIT, masterBase, .empty, [], []⟩

/-- `init_pmem_area_locked`, with the address `new` returns in it. -/
def initPmemAreaLocked (s : Master) (o : InitOutcome) (new : Nat) : Option (Master × Int) :=
  if o.openFd ≥ 0 then do
    let err := (getPmemTotalSize o 0).1
    let r ← s.allocator.setSize o.size new
    match o.map with
    | none =>
      let fds := (o.openFd :: s.fds).erase o.openFd
      return ({ s with allocator := r.1, fds := fds }, -o.errno)
    | some base =>
      return (⟨o.openFd, base, r.1, o.openFd :: s.fds, (base, o.size) :: s.mapped⟩, err)
  else return (s, -o.errno)

def initPmemArea (s : Master) (o : InitOutcome) (new : Nat) : Option (Master × Int) :=
  if s.masterFd = MASTER_FD_INIT then do
    let r ← s.initPmemAreaLocked o new
    -- the error takes the place of the descriptor
    if r.2 ≠ 0 then return ({ r.1 with masterFd := r.2 }, r.2) else return r
  else if s.masterFd < 0 then some (s, s.masterFd)
  else some (s, 0)

/-- The area, as the functions for buffers use it. -/
def area (s : Master) : Area := ⟨s.allocator, s.masterBase⟩

/-- `alloc_pmem_buffer` from its first line on. -/
def allocPmemBuffer (s : Master) (o : InitOutcome) (new size new₁ new₂ : Nat) (sub : Outcome)
    (out : Outputs) : Option (Master × Outputs × Int) := do
  let r ← s.initPmemArea o new
  if r.2 = 0 then
    let b ← Gralloc.allocPmemBuffer r.1.area size new₁ new₂ sub out
    return ({ r.1 with allocator := b.1.allocator }, b.2.1, b.2.2)
  else return (r.1, out, r.2)

/-! ## 2. Calls -/

/-- A call, with what the system returns in it. -/
inductive Act where
  | init (o : InitOutcome) (new : Nat)
  | alloc (o : InitOutcome) (new size new₁ new₂ : Nat) (sub : Outcome) (out : Outputs)
  | free (offset fd unmap : Int)

/-- `new` returns an address at which there is no node. -/
def fresh (s : Master) (new : Nat) : Bool := decide (s.allocator.mList.node new = none)

/-- **One call.** -/
def step (s : Master) : Act → Option Master
  | .init o new => if s.fresh new then (s.initPmemArea o new).map Prod.fst else none
  | .alloc o new size new₁ new₂ sub out =>
    if s.fresh new && decide (size < 2 ^ 32) &&
        (s.initPmemArea o new).all (fun r => r.1.allocator.fresh new₁ new₂) then
      (s.allocPmemBuffer o new size new₁ new₂ sub out).map Prod.fst
    else none
  | .free offset fd unmap => do
    let area ← freePmemBuffer s.area offset fd unmap
    return { s with allocator := area.allocator }

/-- **The usual outcome**: a device that is opened and mapped has told its size, and a call that
    fails sets `errno`. It matters only where the area is initialised. -/
def usualInit (s : Master) (o : InitOutcome) : Bool :=
  decide (s.masterFd = MASTER_FD_INIT →
    (o.openFd ≥ 0 → o.map.isSome → o.query = 0) ∧ (o.openFd < 0 ∨ o.map = none → o.errno > 0))

def usual (s : Master) : Act → Bool
  | .init o _ => s.usualInit o
  | .alloc o _ _ _ _ _ _ => s.usualInit o
  | .free _ _ _ => true

/-! ## 3. The area is mapped, or nothing is left of the attempt -/

/-- **The descriptor, the mapping and the mark agree.** -/
structure Inv (s : Master) : Prop where
  list : ∃ xs, Loose s.allocator xs
  area : (s.masterFd < 0 ∧ s.fds = [] ∧ s.mapped = []) ∨
    (0 ≤ s.masterFd ∧ s.fds = [s.masterFd] ∧ ∃ size, s.mapped = [(s.masterBase, size)])

/-- **What `init_pmem_area` should return**: 0 when and only when the area is mapped; the area that
    it maps has the right size, and an error leaves no descriptor. -/
structure InitLaw (s : Master) (o : InitOutcome) (s' : Master) (err : Int) : Prop where
  zero_iff : err = 0 ↔ s'.mapped ≠ []
  size : ∀ m ∈ s'.mapped, m ∈ s.mapped ∨ m.2 = o.size
  closed : err ≠ 0 → s'.fds = []

section Calls

variable {s s' : Master} {o : InitOutcome} {new : Nat}

/-- The area is initialised: opened and mapped, or closed again. -/
theorem Inv.locked (h : s.Inv) (hinit : s.masterFd = MASTER_FD_INIT)
    (hnew : s.fresh new = true) (husual : s.usualInit o = true) :
    ∃ s' err, s.initPmemAreaLocked o new = some (s', err) ∧ (∃ xs, Loose s'.allocator xs) ∧
      ((err < 0 ∧ s'.fds = [] ∧ s'.mapped = []) ∨
        (err = 0 ∧ 0 ≤ s'.masterFd ∧ s'.fds = [s'.masterFd] ∧
          s'.mapped = [(s'.masterBase, o.size)])) := by
  obtain ⟨xs, hlist⟩ := h.list
  obtain ⟨hquery, herrno⟩ := of_decide_eq_true husual hinit
  have hnone : s.fds = [] ∧ s.mapped = [] := by
    rcases h.area with ⟨-, hnone⟩ | ⟨hopen, -⟩
    · exact hnone
    · rw [hinit] at hopen
      exact absurd hopen (by decide)
  by_cases hopen : o.openFd ≥ 0
  · obtain ⟨r, ys, hset, hlist'⟩ := hlist.setSize o.size (of_decide_eq_true hnew)
    cases hmap : o.map with
    | none =>
        have := herrno (.inr hmap)
        have hcall : s.initPmemAreaLocked o new = some ({ s with allocator := r.1 }, -o.errno) := by
          simp [initPmemAreaLocked, hopen, hset, hmap]
        exact ⟨_, _, hcall, ⟨ys, hlist'⟩, .inl ⟨by omega, hnone⟩⟩
    | some base =>
        have hcall : s.initPmemAreaLocked o new =
            some (⟨o.openFd, base, r.1, [o.openFd], [(base, o.size)]⟩, o.query) := by
          simp [initPmemAreaLocked, hopen, hset, hmap, hnone, getPmemTotalSize]
        exact ⟨_, _, hcall, ⟨ys, hlist'⟩, .inr ⟨hquery hopen (by simp [hmap]), hopen, rfl, rfl⟩⟩
  · have := herrno (.inl (by omega))
    exact ⟨s, _, if_neg hopen, ⟨xs, hlist⟩, .inl ⟨by omega, hnone⟩⟩

/-- **`init_pmem_area` returns**, and does what it should. -/
theorem Inv.initPmemArea (h : s.Inv) (hnew : s.fresh new = true) (husual : s.usualInit o = true) :
    ∃ s' err, s.initPmemArea o new = some (s', err) ∧ s'.Inv ∧ InitLaw s o s' err := by
  by_cases hinit : s.masterFd = MASTER_FD_INIT
  · obtain ⟨s', err, hcall, hlist, ⟨hneg, hfds, hmapped⟩ | ⟨rfl, hfd, hfds, hmapped⟩⟩ :=
      h.locked hinit hnew husual
    · have hne : err ≠ 0 := by omega
      refine ⟨{ s' with masterFd := err }, err, ?_, ⟨hlist, .inl ⟨hneg, hfds, hmapped⟩⟩, ?_, ?_,
        fun _ => hfds⟩
      · simp [Master.initPmemArea, hinit, hcall, hne]
      · exact iff_of_false hne fun hmap => hmap hmapped
      · simp [hmapped]
    · refine ⟨s', 0, by simp [Master.initPmemArea, hinit, hcall],
        ⟨hlist, .inr ⟨hfd, hfds, _, hmapped⟩⟩, ?_, ?_, fun hne => absurd rfl hne⟩
      · simp [hmapped]
      · simp [hmapped]
  · rcases h.area with harea | harea
    · have hne : s.masterFd ≠ 0 := by omega
      refine ⟨s, s.masterFd, by simp [Master.initPmemArea, hinit, harea.1], h, ?_, fun m => .inl,
        fun _ => harea.2.1⟩
      exact iff_of_false hne fun hmap => hmap harea.2.2
    · obtain ⟨hfd, -, size, hmapped⟩ := harea
      refine ⟨s, 0, by simp [Master.initPmemArea, hinit, not_lt.mpr hfd], h, ?_, fun m => .inl,
        fun hne => absurd rfl hne⟩
      simp [hmapped]

/-- Asking for a buffer keeps the list of chunks. -/
theorem allocPmemBuffer_loose {p : Area} {xs : List (Nat × Chunk)} (h : Loose p.allocator xs)
    {size new₁ new₂ : Nat} (hsize : size < 2 ^ 32) (hfresh : p.allocator.fresh new₁ new₂ = true)
    {sub : Outcome} {out : Outputs} {r : Area × Outputs × Int}
    (hcall : Gralloc.allocPmemBuffer p size new₁ new₂ sub out = some r) :
    ∃ ys, Loose r.1.allocator ys := by
  obtain ⟨b, hb, hcall⟩ := Option.bind_eq_some_iff.mp hcall
  have hlist : ∃ ys, Loose b.1 ys :=
    Loose.call (a := .allocate size new₁ new₂) ⟨xs, h⟩
      (by simp only [Allocator.call, if_pos (And.intro hsize hfresh), hb, Option.map_some])
  split at hcall
  · cases hcall
    exact hlist
  split at hcall
  · -- the block is given back
    obtain ⟨d, hd, hcall⟩ := Option.bind_eq_some_iff.mp hcall
    cases hcall
    obtain ⟨ys, hlist⟩ := hlist
    exact hlist.deallocate hd
  · cases hcall
    exact hlist

theorem Inv.allocPmemBuffer (h : s.Inv) (hnew : s.fresh new = true)
    (husual : s.usualInit o = true) {size new₁ new₂ : Nat} (hsize : size < 2 ^ 32)
    (hfresh : (s.initPmemArea o new).all (fun r => r.1.allocator.fresh new₁ new₂) = true)
    {sub : Outcome} {out : Outputs} {r : Master × Outputs × Int}
    (hcall : s.allocPmemBuffer o new size new₁ new₂ sub out = some r) : r.1.Inv := by
  obtain ⟨s', err, hinit, h', -⟩ := h.initPmemArea hnew husual
  simp only [Master.allocPmemBuffer, hinit, Option.bind_eq_bind, Option.bind_some] at hcall
  rw [hinit, Option.all_some] at hfresh
  split at hcall
  · obtain ⟨b, hb, hcall⟩ := Option.bind_eq_some_iff.mp hcall
    cases hcall
    obtain ⟨xs, hlist⟩ := h'.list
    exact ⟨allocPmemBuffer_loose hlist hsize hfresh hb, h'.area⟩
  · cases hcall
    exact h'

/-- One usual call keeps descriptor, mapping and mark together. -/
theorem Inv.step {a : Act} (h : s.Inv) (husual : s.usual a = true) (hs : s.step a = some s') :
    s'.Inv := by
  cases a with
  | init o new =>
      simp only [Master.step] at hs
      split at hs
      · rename_i hnew
        obtain ⟨s'', err, hcall, h', -⟩ := h.initPmemArea hnew husual
        rw [hcall] at hs
        cases hs
        exact h'
      · cases hs
  | alloc o new size new₁ new₂ sub out =>
      simp only [Master.step] at hs
      split at hs
      · rename_i hguard
        simp only [Bool.and_eq_true, decide_eq_true_eq] at hguard
        obtain ⟨r, hr, rfl⟩ := Option.map_eq_some_iff.mp hs
        exact h.allocPmemBuffer hguard.1.1 husual hguard.1.2 hguard.2 hr
      · cases hs
  | free offset fd unmap =>
      obtain ⟨p, hp, hs⟩ := Option.bind_eq_some_iff.mp hs
      cases hs
      refine ⟨?_, h.area⟩
      obtain ⟨xs, hlist⟩ := h.list
      unfold freePmemBuffer at hp
      split at hp
      · obtain ⟨d, hd, hp⟩ := Option.bind_eq_some_iff.mp hp
        cases hp
        exact hlist.deallocate hd
      · cases hp
        exact ⟨xs, hlist⟩

end Calls

end Master

/-- **`init_pmem_area` returns 0 when and only when the area is mapped**, and leaves no descriptor
    with an error: the first call and every later one, in every run of usual calls. -/
theorem init_zero_iff_mapped {base : Int} {s : Master}
    (hr : Reach Master.step (fun s a => s.usual a = true) (Master.create base) s)
    {o : InitOutcome} {new : Nat} (hnew : s.fresh new = true) (husual : s.usualInit o = true) :
    ∃ s' err, s.initPmemArea o new = some (s', err) ∧ s.InitLaw o s' err := by
  have hfirst : (Master.create base).Inv :=
    ⟨⟨[], Loose.empty⟩, .inl ⟨show (-1 : Int) < 0 by decide, rfl, rfl⟩⟩
  have hinv : s.Inv := hr.inv hfirst fun _ _ _ h hu hs => h.step hu hs
  obtain ⟨s', err, hcall, -, hlaw⟩ := hinv.initPmemArea hnew husual
  exact ⟨s', err, hcall, hlaw⟩

/-- The mapping is refused with `EPERM`, which is `MASTER_FD_INIT`: the next call tries again. -/
theorem init_zero_iff_mapped_again :
    ∃ s, Reach Master.step (fun s a => s.usual a = true) (Master.create 0) s ∧
      s.masterFd = MASTER_FD_INIT ∧
      ∃ s' err, s.initPmemArea ⟨6, 0, 33554432, some 4096, 0⟩ 1 = some (s', err) ∧
        s.InitLaw ⟨6, 0, 33554432, some 4096, 0⟩ s' err := by
  have hrun : runTest Master.step Master.usual (Master.create 0)
      [.init ⟨5, 0, 33554432, none, 1⟩ 0]
      (fun s => decide (s.masterFd = MASTER_FD_INIT) && s.fresh 1) = true := by
    decide
  obtain ⟨s, hr, hlast⟩ := reach_of_runTest hrun
  obtain ⟨hinit, hnew⟩ := (Bool.and_eq_true _ _).mp hlast
  exact ⟨s, hr, of_decide_eq_true hinit,
    init_zero_iff_mapped hr hnew (decide_eq_true fun _ => ⟨fun _ _ => rfl, by decide⟩)⟩

/-- **The limp mode fails.** The device does not tell its size, and 8 MiB of it are mapped: -1 is
    returned, and written over the descriptor; it is `MASTER_FD_INIT`, so the next call opens and
    maps the device once more. -/
theorem limp_mode_fails :
    ∃ s₁ s₂, (Master.create 0).initPmemArea ⟨5, -1, 0, some 4096, 25⟩ 0 = some (s₁, -1) ∧
      s₁.fds = [5] ∧ s₁.mapped = [(4096, 8388608)] ∧
      s₁.initPmemArea ⟨6, -1, 0, some 8392704, 25⟩ 1 = some (s₂, -1) ∧
      s₂.fds = [6, 5] ∧ s₂.mapped = [(8392704, 8388608), (4096, 8388608)] ∧
      ¬ (Master.create 0).InitLaw ⟨5, -1, 0, some 4096, 25⟩ s₁ (-1) := by
  have hrun : ((Master.create 0).initPmemArea ⟨5, -1, 0, some 4096, 25⟩ 0).any (fun r =>
      decide (r.2 = -1 ∧ r.1.fds = [5] ∧ r.1.mapped = [(4096, 8388608)]) &&
      (r.1.initPmemArea ⟨6, -1, 0, some 8392704, 25⟩ 1).any fun r =>
        decide (r.2 = -1 ∧ r.1.fds = [6, 5] ∧
          r.1.mapped = [(8392704, 8388608), (4096, 8388608)])) = true := by
    decide
  obtain ⟨⟨s₁, err₁⟩, hcall₁, hrun⟩ := Option.any_eq_true _ _ |>.mp hrun
  obtain ⟨h₁, hrun⟩ := (Bool.and_eq_true _ _).mp hrun
  obtain ⟨rfl, hfds₁, hmapped₁⟩ := of_decide_eq_true h₁
  obtain ⟨⟨s₂, err₂⟩, hcall₂, h₂⟩ := Option.any_eq_true _ _ |>.mp hrun
  obtain ⟨rfl, hfds₂, hmapped₂⟩ := of_decide_eq_true h₂
  refine ⟨s₁, s₂, hcall₁, hfds₁, hmapped₁, hcall₂, hfds₂, hmapped₂, fun hlaw => ?_⟩
  have hclosed := hlaw.closed (by decide)
  rw [hfds₁] at hclosed
  cases hclosed

/-! ## 4. What is returned -/

section Returned

variable {s : Master}

theorem Outcome.err_nonpos {o : Outcome} (hconnect : o.connect ≤ 0) (hmap : o.map ≤ 0) :
    o.err ≤ 0 := by
  by_cases hopen : o.openFd < 0
  · simp only [Outcome.err, if_pos hopen, if_neg (by omega : ¬ o.openFd = 0)]
    omega
  · simp only [Outcome.err, if_neg hopen, if_true]
    split
    · exact hmap
    · exact hconnect

theorem Master.initPmemArea_nonpos {o : InitOutcome} {new : Nat} {r : Master × Int}
    (hquery : o.query ≤ 0) (herrno : 0 ≤ o.errno) (hcall : s.initPmemArea o new = some r) :
    r.2 ≤ 0 := by
  unfold initPmemArea at hcall
  split at hcall
  · obtain ⟨⟨s', err⟩, hlocked, hcall⟩ := Option.bind_eq_some_iff.mp hcall
    have herr : err ≤ 0 := by
      unfold initPmemAreaLocked at hlocked
      split at hlocked
      · obtain ⟨a, -, hlocked⟩ := Option.bind_eq_some_iff.mp hlocked
        cases hmap : o.map with
        | none =>
            simp only [hmap] at hlocked
            cases hlocked
            omega
        | some base =>
            simp only [hmap] at hlocked
            cases hlocked
            exact hquery
      · cases hlocked
        omega
    split at hcall
    · cases hcall
      exact herr
    · cases hcall
      exact herr
  · split at hcall
    · cases hcall
      simp only
      omega
    · cases hcall
      exact Int.le_refl 0

/-- **`alloc_pmem_buffer` returns nothing positive**, where the calls of the system do not. -/
theorem Master.allocPmemBuffer_nonpos {o : InitOutcome} {new size new₁ new₂ : Nat} {sub : Outcome}
    {out : Outputs} {r : Master × Outputs × Int} (hquery : o.query ≤ 0) (herrno : 0 ≤ o.errno)
    (hconnect : sub.connect ≤ 0) (hmap : sub.map ≤ 0) (hsub : 0 ≤ sub.errno)
    (hcall : s.allocPmemBuffer o new size new₁ new₂ sub out = some r) : r.2.2 ≤ 0 := by
  obtain ⟨i, hinit, hcall⟩ := Option.bind_eq_some_iff.mp hcall
  have hfirst := Master.initPmemArea_nonpos hquery herrno hinit
  split at hcall
  · obtain ⟨b, hb, hcall⟩ := Option.bind_eq_some_iff.mp hcall
    cases hcall
    obtain ⟨a, -, hb⟩ := Option.bind_eq_some_iff.mp hb
    split at hb
    · cases hb
      simp only
      decide
    split at hb
    · obtain ⟨d, -, hb⟩ := Option.bind_eq_some_iff.mp hb
      cases hb
      simp only
      omega
    · cases hb
      exact Outcome.err_nonpos hconnect hmap
  · cases hcall
    exact hfirst

end Returned

end Y210.Gralloc

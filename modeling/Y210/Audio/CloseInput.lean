/-
  File:      Y210/Audio/CloseInput.lean
  Subject:   CLOSING INPUT STREAMS: `AudioHardware::closeInputStream` by several threads.

  `closeInputStream` looks for the stream in `mInputs` under `mLock`, drops the lock while it
  deletes what stands at the position it found, takes it again and removes what stands at that
  position then. Any number of threads close streams, each a stream of its own; a step is what a
  thread does between two accesses that the others can see. `removeAt` of a position behind the
  end leaves the vector.

  * `step` -- the machine; `State.deleted` is what was deleted, in order;
  * `Inv` -- every position that was found is still the position of its stream;
  * `usual` -- no position is removed while another thread goes by a position behind it;
  * `closes_leave_the_rest` -- in every run of such steps each stream is deleted once, and the
    streams nobody closed are left;
  * `overlapping_closes` -- two threads, and the stream that stays behind deleted.
-/
import Mathlib.Data.List.Basic
import Mathlib.Logic.Function.Basic
import Mathlib.Tactic.Common
import Y210.Lib.Indexed
import Y210.Lib.Run

namespace Y210.Audio.CloseInput

open Y210.Lib

/-! ## 1. The machine -/

/-- Where the thread that closes a stream stands, with `index` and the stream it deletes. -/
inductive Pc where
  -- nobody closes this stream
  | idle
  | enter
  | look
  | drop (index : Nat)
  | fetch (index : Nat)
  | free (index : Nat) (in_ : Option Nat)
  | retake (index : Nat)
  | remove (index : Nat)
  | leave (found : Bool)
  | done (found : Bool)
  deriving DecidableEq

/-- The streams are named by their addresses, and a thread by the stream it closes. -/
structure State where
  mLock : Option Nat
  mInputs : List Nat
  closing : List Nat
  pc : Nat → Pc
  -- `none` is what stands behind the end of the vector
  deleted : List (Option Nat)

def State.at (s : State) (p : Nat) (pc : Pc) : State := { s with pc := Function.update s.pc p pc }

/-- **A step** of the thread that closes `p`. -/
def step (s : State) (p : Nat) : Option State :=
  match s.pc p with
  | .idle | .done _ => none
  | .enter => if s.mLock = none then some { s.at p .look with mLock := some p } else none
  | .look =>
    some (s.at p (match s.mInputs.findIdx? (· == p) with
      | some i => .drop i
      | none => .leave false))
  | .drop i => some { s.at p (.fetch i) with mLock := none }
  | .fetch i => some (s.at p (.free i s.mInputs[i]?))
  | .free i in_ => some { s.at p (.retake i) with deleted := s.deleted ++ [in_] }
  | .retake i => if s.mLock = none then some { s.at p (.remove i) with mLock := some p } else none
  | .remove i => some { s.at p (.leave true) with mInputs := s.mInputs.eraseIdx i }
  | .leave found => some { s.at p (.done found) with mLock := none }

def start (inputs closing : List Nat) : State where
  mLock := none
  mInputs := inputs
  closing := closing
  pc := fun p => if p ∈ closing then .enter else .idle
  deleted := []

/-- The position a thread goes by. -/
def Pc.index : Pc → Option Nat
  | .drop i | .fetch i | .free i _ | .retake i | .remove i => some i
  | _ => none

/-- **The condition on a step**: a position is removed only when every other thread that goes by a
    position goes by one in front of it. -/
def usual (s : State) (p : Nat) : Bool :=
  match s.pc p with
  | .remove i => s.closing.all fun q => q == p || ((s.pc q).index.all fun j => decide (j < i))
  | _ => true

/-! ## 2. Positions -/

/-- The stream has been deleted. -/
def Pc.hasDeleted : Pc → Bool
  | .retake _ | .remove _ => true
  | .leave found | .done found => found
  | _ => false

/-- The stream has been taken out of the vector. -/
def Pc.hasRemoved : Pc → Bool
  | .leave found | .done found => found
  | _ => false

/-- What a thread knows where it stands. -/
def Pc.Ok (inputs : List Nat) (p : Nat) : Pc → Prop
  | .drop i | .fetch i | .retake i | .remove i => inputs[i]? = some p
  | .free i in_ => inputs[i]? = some p ∧ in_ = some p
  | .leave found | .done found => found = true
  | _ => True

/-- **Every position is that of its stream.** -/
structure Inv (inputs closing : List Nat) (s : State) : Prop where
  closes : s.closing = closing
  idle : ∀ p, p ∉ closing → s.pc p = .idle
  left : s.mInputs = inputs.filter fun p => !(s.pc p).hasRemoved
  ok : ∀ p, (s.pc p).Ok s.mInputs p
  deleted : ∀ p, s.deleted.count (some p) = if (s.pc p).hasDeleted then 1 else 0
  known : none ∉ s.deleted

section Steps

variable {inputs closing : List Nat} {s s' : State} {p q : Nat} {pc : Pc}

/-- What a thread knows needs only the position it goes by. -/
theorem Pc.Ok.frame {inputs' : List Nat} (h : pc.Ok inputs p)
    (hat : ∀ i, pc.index = some i → inputs'[i]? = inputs[i]?) : pc.Ok inputs' p := by
  cases pc with
  | drop i | fetch i | retake i | remove i => exact (hat i rfl).trans h
  | free i in_ => exact ⟨(hat i rfl).trans h.1, h.2⟩
  | _ => exact h

theorem Inv.start (inputs closing : List Nat) : Inv inputs closing (start inputs closing) := by
  have hpc : ∀ p, (CloseInput.start inputs closing).pc p = .enter ∨
      (CloseInput.start inputs closing).pc p = .idle := fun p => by
    unfold CloseInput.start
    by_cases hp : p ∈ closing <;> simp [hp]
  exact {
    closes := rfl
    idle := fun p hp => if_neg hp
    left := by
      refine (List.filter_eq_self.mpr fun p _ => ?_).symm
      rcases hpc p with h | h <;> rw [h] <;> rfl
    ok := fun p => by rcases hpc p with h | h <;> rw [h] <;> trivial
    deleted := fun p => by rcases hpc p with h | h <;> rw [h] <;> rfl
    known := List.not_mem_nil }

theorem Inv.mem_closing (h : Inv inputs closing s) (hp : s.pc p ≠ .idle) : p ∈ closing := by
  by_cases hmem : p ∈ closing
  · exact hmem
  · exact absurd (h.idle p hmem) hp

theorem Inv.idle_set (h : Inv inputs closing s) (hp : s.pc p ≠ .idle) :
    ∀ q, q ∉ closing → Function.update s.pc p pc q = .idle := by
  intro q hq
  have hne : q ≠ p := fun he => hq (he ▸ h.mem_closing hp)
  rw [Function.update_of_ne hne]
  exact h.idle q hq

/-- A thread goes on: nothing is deleted and nothing removed. -/
theorem Inv.move (h : Inv inputs closing s) (hpc : s'.pc = Function.update s.pc p pc)
    (hclosing : s'.closing = s.closing) (hinputs : s'.mInputs = s.mInputs)
    (hdeleted : s'.deleted = s.deleted) (hp : s.pc p ≠ .idle)
    (hd : pc.hasDeleted = (s.pc p).hasDeleted) (hr : pc.hasRemoved = (s.pc p).hasRemoved)
    (hok : pc.Ok s.mInputs p) : Inv inputs closing s' where
  closes := hclosing.trans h.closes
  idle := hpc ▸ h.idle_set hp
  left := by
    rw [hinputs, hpc]
    refine h.left.trans (List.filter_congr fun q _ => ?_)
    by_cases hq : q = p
    · rw [hq, Function.update_self, hr]
    · rw [Function.update_of_ne hq]
  ok := fun q => by
    rw [hinputs, hpc]
    by_cases hq : q = p
    · rw [hq, Function.update_self]
      exact hok
    · rw [Function.update_of_ne hq]
      exact h.ok q
  deleted := fun q => by
    rw [hdeleted, hpc]
    by_cases hq : q = p
    · rw [hq, Function.update_self, hd]
      exact h.deleted p
    · rw [Function.update_of_ne hq]
      exact h.deleted q
  known := by
    rw [hdeleted]
    exact h.known

/-- `delete mInputs[index]`. -/
theorem Inv.free {i : Nat} {in_ : Option Nat} (h : Inv inputs closing s)
    (hp : s.pc p = .free i in_) (hpc : s'.pc = Function.update s.pc p (.retake i))
    (hclosing : s'.closing = s.closing) (hinputs : s'.mInputs = s.mInputs)
    (hdeleted : s'.deleted = s.deleted ++ [in_]) : Inv inputs closing s' := by
  have hok := h.ok p
  rw [hp] at hok
  obtain ⟨hi, rfl⟩ := hok
  have hne : s.pc p ≠ .idle := by
    rw [hp]
    exact nofun
  exact {
    closes := hclosing.trans h.closes
    idle := hpc ▸ h.idle_set hne
    left := by
      rw [hinputs, hpc]
      refine h.left.trans (List.filter_congr fun q _ => ?_)
      by_cases hq : q = p
      · rw [hq, hp, Function.update_self]
        rfl
      · rw [Function.update_of_ne hq]
    ok := fun q => by
      rw [hinputs, hpc]
      by_cases hq : q = p
      · rw [hq, Function.update_self]
        exact hi
      · rw [Function.update_of_ne hq]
        exact h.ok q
    deleted := fun q => by
      rw [hdeleted, List.count_append, h.deleted q, hpc]
      by_cases hq : q = p
      · rw [hq, hp, Function.update_self]
        simp [Pc.hasDeleted]
      · rw [Function.update_of_ne hq]
        simp [Ne.symm hq]
    known := by
      rw [hdeleted]
      simpa using h.known }

/-- `mInputs.removeAt(index)`, with no other thread behind. -/
theorem Inv.remove {i : Nat} (h : Inv inputs closing s) (hnodup : inputs.Nodup)
    (hu : usual s p = true) (hp : s.pc p = .remove i)
    (hpc : s'.pc = Function.update s.pc p (.leave true)) (hclosing : s'.closing = s.closing)
    (hinputs : s'.mInputs = s.mInputs.eraseIdx i) (hdeleted : s'.deleted = s.deleted) :
    Inv inputs closing s' := by
  have hi : s.mInputs[i]? = some p := by
    have hok := h.ok p
    rw [hp] at hok
    exact hok
  have hne : s.pc p ≠ .idle := by
    rw [hp]
    exact nofun
  have hin : s.mInputs.Nodup := h.left ▸ hnodup.filter _
  have herase : s.mInputs.eraseIdx i = s.mInputs.filter (· != p) := by
    obtain ⟨hlt, hget⟩ := List.getElem?_eq_some_iff.mp hi
    rw [← hin.erase_getElem i hlt, hget, hin.erase_eq_filter]
  have hfront : ∀ q j, q ≠ p → (s.pc q).index = some j → j < i := by
    intro q j hq hj
    have hmem : q ∈ s.closing := by
      rw [h.closes]
      refine h.mem_closing fun hidle => ?_
      rw [hidle] at hj
      cases hj
    simp only [usual, hp, List.all_eq_true] at hu
    simpa [hq, hj] using hu q hmem
  exact {
    closes := hclosing.trans h.closes
    idle := hpc ▸ h.idle_set hne
    left := by
      rw [hinputs, herase, h.left, List.filter_filter, hpc]
      refine List.filter_congr fun q _ => ?_
      by_cases hq : q = p
      · rw [hq, Function.update_self]
        simp [Pc.hasRemoved]
      · rw [Function.update_of_ne hq]
        simp [hq]
    ok := fun q => by
      rw [hinputs, hpc]
      by_cases hq : q = p
      · rw [hq, Function.update_self]
        rfl
      · rw [Function.update_of_ne hq]
        refine (h.ok q).frame fun j hj => ?_
        exact List.getElem?_eraseIdx_of_lt (hfront q j hq hj)
    deleted := fun q => by
      rw [hdeleted, h.deleted q, hpc]
      by_cases hq : q = p
      · rw [hq, hp, Function.update_self]
        rfl
      · rw [Function.update_of_ne hq]
    known := by
      rw [hdeleted]
      exact h.known }

theorem Inv.step (h : Inv inputs closing s) (hnodup : inputs.Nodup)
    (hsub : ∀ p ∈ closing, p ∈ inputs) (hu : usual s p = true) (hs : step s p = some s') :
    Inv inputs closing s' := by
  have hok := h.ok p
  cases hp : s.pc p <;> simp only [CloseInput.step, hp] at hs <;> rw [hp] at hok
  case idle | done => cases hs
  all_goals
    have hne : s.pc p ≠ .idle := by
      rw [hp]
      exact nofun
  case enter =>
    obtain ⟨-, hs⟩ := Option.ite_none_right_eq_some.mp hs
    cases hs
    exact h.move rfl rfl rfl rfl hne (by rw [hp]; rfl) (by rw [hp]; rfl) trivial
  case look =>
    cases hs
    -- the stream is there: it is open and nobody else removes it
    have hmem : p ∈ s.mInputs := by
      rw [h.left]
      refine List.mem_filter.mpr ⟨hsub p (h.mem_closing hne), ?_⟩
      rw [hp]
      rfl
    cases hfind : s.mInputs.findIdx? (· == p) with
    | none =>
      have hnot := List.findIdx?_eq_none_iff.mp hfind p hmem
      simp at hnot
    | some i =>
      have hi : s.mInputs[i]? = some p := by
        obtain ⟨hlt, hget, -⟩ := List.findIdx?_eq_some_iff_getElem.mp hfind
        rw [List.getElem?_eq_getElem hlt]
        simpa using hget
      exact h.move rfl rfl rfl rfl hne (by rw [hp]; rfl) (by rw [hp]; rfl) hi
  case drop i =>
    cases hs
    exact h.move rfl rfl rfl rfl hne (by rw [hp]; rfl) (by rw [hp]; rfl) hok
  case fetch i =>
    cases hs
    exact h.move rfl rfl rfl rfl hne (by rw [hp]; rfl) (by rw [hp]; rfl) ⟨hok, hok⟩
  case free i in_ =>
    cases hs
    exact h.free hp rfl rfl rfl rfl
  case retake i =>
    obtain ⟨-, hs⟩ := Option.ite_none_right_eq_some.mp hs
    cases hs
    exact h.move rfl rfl rfl rfl hne (by rw [hp]; rfl) (by rw [hp]; rfl) hok
  case remove i =>
    cases hs
    exact h.remove hnodup hu hp rfl rfl rfl rfl
  case leave found =>
    cases hs
    exact h.move rfl rfl rfl rfl hne (by rw [hp]; rfl) (by rw [hp]; rfl) hok

end Steps

/-! ## 3. The runs -/

/-- **Closing leaves the rest.** Any number of threads close open streams, each its own, in steps
    that meet the condition. In every state reached only streams that are being closed have been
    deleted, none twice; when the calls have returned each of them has been deleted once, and
    `mInputs` has the streams nobody closed. -/
theorem closes_leave_the_rest (inputs closing : List Nat) (hnodup : inputs.Nodup)
    (hsub : ∀ p ∈ closing, p ∈ inputs) {s : State}
    (h : Reach step (fun s p => usual s p = true) (start inputs closing) s) :
    (∀ x ∈ s.deleted, ∃ p ∈ closing, x = some p) ∧ (∀ p, s.deleted.count (some p) ≤ 1) ∧
    ((∀ p ∈ closing, ∃ found, s.pc p = .done found) →
      (∀ p ∈ closing, s.deleted.count (some p) = 1) ∧
      s.mInputs = inputs.filter fun p => p ∉ closing) := by
  have hinv : Inv inputs closing s := h.inv (I := Inv inputs closing) (Inv.start inputs closing)
    fun s p s' hi hu hs => hi.step hnodup hsub hu hs
  refine ⟨fun x hx => ?_, fun p => ?_, fun hdone => ?_⟩
  · cases x with
    | none => exact absurd hx hinv.known
    | some p =>
      refine ⟨p, hinv.mem_closing fun hidle => ?_, rfl⟩
      have hcount := hinv.deleted p
      rw [hidle] at hcount
      exact absurd hx (List.count_eq_zero.mp hcount)
  · rw [hinv.deleted p]
    split <;> decide
  · have hfound : ∀ p ∈ closing, s.pc p = .done true := fun p hp => by
      obtain ⟨found, hpc⟩ := hdone p hp
      have hok := hinv.ok p
      rw [hpc] at hok
      rw [hpc, show found = true from hok]
    refine ⟨fun p hp => ?_, ?_⟩
    · rw [hinv.deleted p, hfound p hp]
      rfl
    · rw [hinv.left]
      refine List.filter_congr fun p _ => ?_
      by_cases hp : p ∈ closing
      · rw [hfound p hp]
        simp [hp, Pc.hasRemoved]
      · rw [hinv.idle p hp]
        simp [hp, Pc.hasRemoved]

/-- Two streams of three are closed at the same time; the one behind is removed first. -/
theorem closes_leave_the_rest_two :
    ∃ s, Reach step (fun s p => usual s p = true) (start [10, 20, 30] [10, 20]) s ∧
      (∀ p ∈ [10, 20], s.deleted.count (some p) = 1) ∧ s.mInputs = [30] := by
  have htest : runTest step usual (start [10, 20, 30] [10, 20])
      [10, 10, 10, 20, 20, 20, 10, 20, 20, 20, 20, 20, 10, 10, 10, 10]
      (fun s => decide (s.pc 10 = .done true ∧ s.pc 20 = .done true)) = true := by decide
  obtain ⟨s, hs, hp⟩ := reach_of_runTest htest
  have hdone := of_decide_eq_true hp
  obtain ⟨-, -, hend⟩ := closes_leave_the_rest [10, 20, 30] [10, 20] (by decide) (by decide) hs
  have hall : ∀ p ∈ [10, 20], ∃ found, s.pc p = .done found := by
    intro p hmem
    rcases List.mem_cons.mp hmem with rfl | hmem
    · exact ⟨true, hdone.1⟩
    · rw [List.mem_singleton.mp hmem]
      exact ⟨true, hdone.2⟩
  exact ⟨s, hs, hend hall⟩

/-- The first thread removes its position while the second goes by the position behind: the second
    then removes nothing, and its stream, deleted, stays in `mInputs`. A position behind the end is
    what a third schedule deletes. -/
theorem overlapping_closes :
    (∃ s, Reach step Always (start [10, 20] [10, 20]) s ∧ s.pc 10 = .done true ∧
      s.pc 20 = .done true ∧ s.mInputs = [20] ∧ some 20 ∈ s.deleted) ∧
    ∃ s, Reach step Always (start [10, 20] [10, 20]) s ∧ s.pc 10 = .done true ∧
      s.pc 20 = .done true ∧ some 20 ∉ s.deleted := by
  have hstays : runTest step (fun _ _ => true) (start [10, 20] [10, 20])
      [10, 10, 10, 20, 20, 20, 20, 20, 10, 10, 10, 10, 10, 20, 20, 20]
      (fun s => decide (s.pc 10 = .done true ∧ s.pc 20 = .done true ∧ s.mInputs = [20] ∧
        some 20 ∈ s.deleted)) = true := by decide
  have hwild : runTest step (fun _ _ => true) (start [10, 20] [10, 20])
      [10, 10, 10, 20, 20, 20, 10, 10, 10, 10, 10, 20, 20, 20, 20, 20]
      (fun s => decide (s.pc 10 = .done true ∧ s.pc 20 = .done true ∧
        some 20 ∉ s.deleted)) = true := by decide
  constructor
  · obtain ⟨s, hs, hp⟩ := reach_of_runTest hstays
    exact ⟨s, hs.always, of_decide_eq_true hp⟩
  · obtain ⟨s, hs, hp⟩ := reach_of_runTest hwild
    exact ⟨s, hs.always, of_decide_eq_true hp⟩

end Y210.Audio.CloseInput

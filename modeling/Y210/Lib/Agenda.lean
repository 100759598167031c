/-
  File:      Y210/Lib/Agenda.lean
  Subject:   AN AGENDA: things to do at a time, kept in the order of those times, handed over when
             their time has passed, and done one after the other.

  * `Agenda`, `Agenda.Step` -- what is waiting, what is due and what was done; time passes, a
    thing is put down for a time not before now, what is due is handed over, the next is done;
  * `Agenda.Kept` -- the law of the agenda, `Agenda.Kept.step`: over a whole run things are done in
    the order of their times, none of them early, and each that was put down is in one place.
-/
import Mathlib.Data.List.Pairwise
import Mathlib.Data.List.TakeWhile

namespace Y210.Lib

variable {ι : Type}

/-- Something that was done: for when it was put down, and when it was done. -/
structure Done (ι : Type) where
  what : ι
  due : Nat
  time : Nat
  deriving DecidableEq

/-- What was put down, and for when. -/
def Done.entry (x : Done ι) : ι × Nat := (x.what, x.due)

structure Agenda (ι : Type) where
  now : Nat
  waiting : List (ι × Nat)
  due : List (ι × Nat)
  done : List (Done ι)
  added : List (ι × Nat)

namespace Agenda

/-- What waits for a time before `t`. -/
def before (t : Nat) (x : ι × Nat) : Bool := decide (x.2 < t)

/-- `i` is put down for `d` from now, where its time is. -/
def put (g : Agenda ι) (i : ι) (d : Nat) : Agenda ι :=
  { g with
    waiting := g.waiting.takeWhile (before (g.now + d)) ++
      (i, g.now + d) :: g.waiting.dropWhile (before (g.now + d))
    added := g.added ++ [(i, g.now + d)] }

/-- What waited for a time before now is due. -/
def expire (g : Agenda ι) : Agenda ι :=
  { g with
    waiting := g.waiting.dropWhile (before g.now)
    due := g.due ++ g.waiting.takeWhile (before g.now) }

inductive Step : Agenda ι → Agenda ι → Prop where
  | stay (g : Agenda ι) : Step g g
  | tick (g : Agenda ι) (d : Nat) : Step g { g with now := g.now + d }
  | add (g : Agenda ι) (i : ι) (d : Nat) : Step g (g.put i d)
  | expire (g : Agenda ι) : Step g g.expire
  | act (g : Agenda ι) (x : ι × Nat) (rest : List (ι × Nat)) (h : g.due = x :: rest) :
      Step g { g with due := rest, done := g.done ++ [⟨x.1, x.2, g.now⟩] }

/-- The times of everything, what was done first and what waits last. -/
def times (g : Agenda ι) : List Nat :=
  g.done.map Done.due ++ (g.due.map Prod.snd ++ g.waiting.map Prod.snd)

/-- Everything, wherever it is. -/
def things (g : Agenda ι) : List (ι × Nat) := g.done.map Done.entry ++ (g.due ++ g.waiting)

/-- What is still to be done. -/
def outstanding (g : Agenda ι) : List (ι × Nat) := g.due ++ g.waiting

/-- **The law of the agenda.** -/
structure Kept (g : Agenda ι) : Prop where
  sorted : g.times.Pairwise (· ≤ ·)
  due : ∀ x ∈ g.due, x.2 < g.now
  done : ∀ x ∈ g.done, x.due < x.time ∧ x.time ≤ g.now
  once : g.things.Perm g.added

section Laws

variable {g g' : Agenda ι}

theorem outstanding_put (g : Agenda ι) (i : ι) (d : Nat) :
    (g.put i d).outstanding.Perm ((i, g.now + d) :: g.outstanding) := by
  have hsplit : g.waiting.takeWhile (before (g.now + d)) ++
      g.waiting.dropWhile (before (g.now + d)) = g.waiting := List.takeWhile_append_dropWhile
  simp only [outstanding, Agenda.put]
  rw [← List.append_assoc]
  refine List.perm_middle.trans (List.Perm.cons _ (List.Perm.of_eq ?_))
  rw [List.append_assoc, hsplit]

theorem outstanding_expire (g : Agenda ι) : g.expire.outstanding = g.outstanding := by
  simp only [outstanding, Agenda.expire]
  rw [List.append_assoc, List.takeWhile_append_dropWhile]

theorem kept_empty (now : Nat) : Kept (⟨now, [], [], [], []⟩ : Agenda ι) where
  sorted := List.Pairwise.nil
  due := by simp
  done := by simp
  once := List.Perm.nil

/-- In order, what waits for a time before `t` is what comes first. -/
theorem dropWhile_before {l : List (ι × Nat)} (h : (l.map Prod.snd).Pairwise (· ≤ ·)) (t : Nat) :
    ∀ x ∈ l.dropWhile (before t), t ≤ x.2 := by
  induction l with
  | nil => simp
  | cons y l ih =>
      simp only [List.map_cons, List.pairwise_cons] at h
      intro x hx
      rw [List.dropWhile_cons] at hx
      split at hx
      · exact ih h.2 x hx
      · rename_i hy
        have hty : t ≤ y.2 := by simpa [before] using hy
        rcases List.mem_cons.mp hx with rfl | hx
        · exact hty
        · exact Nat.le_trans hty (h.1 x.2 (List.mem_map_of_mem hx))

theorem mem_takeWhile_before {l : List (ι × Nat)} {t : Nat} {x : ι × Nat}
    (h : x ∈ l.takeWhile (before t)) : x.2 < t := by
  have := List.mem_takeWhile_imp h
  simpa [before] using this

/-- Everything that was done or is due was due before now. -/
theorem Kept.past (h : Kept g) {t : Nat} (ht : t ∈ g.done.map Done.due ++ g.due.map Prod.snd) :
    t < g.now := by
  rcases List.mem_append.mp ht with ht | ht
  · obtain ⟨x, hx, rfl⟩ := List.mem_map.mp ht
    have := h.done x hx
    omega
  · obtain ⟨x, hx, rfl⟩ := List.mem_map.mp ht
    exact h.due x hx

theorem Kept.waiting_sorted (h : Kept g) : (g.waiting.map Prod.snd).Pairwise (· ≤ ·) := by
  have hs := h.sorted
  simp only [times, List.pairwise_append] at hs
  exact hs.2.1.2.1

/-- What is put down is not before anything done or due, and comes where its time is. -/
theorem Kept.put (h : Kept g) (i : ι) (d : Nat) : Kept (g.put i d) := by
  let p := before (ι := ι) (g.now + d)
  have hsplit : g.waiting.takeWhile p ++ g.waiting.dropWhile p = g.waiting :=
    List.takeWhile_append_dropWhile
  refine ⟨?_, h.due, h.done, ?_⟩
  · have hs : (g.done.map Done.due ++ (g.due.map Prod.snd ++
        (g.waiting.takeWhile p ++ g.waiting.dropWhile p).map Prod.snd)).Pairwise (· ≤ ·) := by
      rw [hsplit]
      exact h.sorted
    simp only [List.map_append, ← List.append_assoc] at hs
    have hs' := List.pairwise_append.mp hs
    simp only [times, Agenda.put, List.map_append, List.map_cons, ← List.append_assoc]
    refine List.pairwise_append.mpr ⟨hs'.1, List.pairwise_cons.mpr ⟨?_, hs'.2.1⟩, ?_⟩
    · intro t ht
      obtain ⟨x, hx, rfl⟩ := List.mem_map.mp ht
      exact dropWhile_before h.waiting_sorted _ x hx
    · intro a ha b hb
      rcases List.mem_cons.mp hb with rfl | hb
      · rcases List.mem_append.mp ha with ha | ha
        · exact Nat.le_of_lt (Nat.lt_of_lt_of_le (h.past ha) (Nat.le_add_right _ _))
        · obtain ⟨x, hx, rfl⟩ := List.mem_map.mp ha
          exact Nat.le_of_lt (mem_takeWhile_before hx)
      · exact hs'.2.2 a ha b hb
  · have ho : (g.done.map Done.entry ++ (g.due ++
        (g.waiting.takeWhile p ++ g.waiting.dropWhile p))).Perm g.added := by
      rw [hsplit]
      exact h.once
    simp only [← List.append_assoc] at ho
    simp only [things, Agenda.put, ← List.append_assoc]
    refine List.perm_middle.trans ?_
    exact (List.Perm.cons _ ho).trans (List.perm_append_singleton _ g.added).symm

theorem Kept.expire (h : Kept g) : Kept g.expire := by
  have hsplit : g.waiting.takeWhile (before g.now) ++ g.waiting.dropWhile (before g.now) =
      g.waiting := List.takeWhile_append_dropWhile
  refine ⟨?_, fun x hx => ?_, h.done, ?_⟩
  · have hs := h.sorted
    rw [times, ← hsplit] at hs
    simpa only [times, Agenda.expire, List.map_append, List.append_assoc] using hs
  · rcases List.mem_append.mp hx with hx | hx
    · exact h.due x hx
    · exact mem_takeWhile_before hx
  · have ho := h.once
    rw [things, ← hsplit] at ho
    simpa only [things, Agenda.expire, List.append_assoc] using ho

theorem Kept.act (h : Kept g) {x : ι × Nat} {rest : List (ι × Nat)} (hdue : g.due = x :: rest) :
    Kept { g with due := rest, done := g.done ++ [⟨x.1, x.2, g.now⟩] } := by
  refine ⟨?_, fun y hy => h.due y (by rw [hdue]; exact List.mem_cons_of_mem _ hy), ?_, ?_⟩
  · have hs := h.sorted
    simp only [times, hdue, List.map_cons] at hs
    simpa [times] using hs
  · intro y hy
    rcases List.mem_append.mp hy with hy | hy
    · exact h.done y hy
    · obtain rfl := List.mem_singleton.mp hy
      exact ⟨h.due x (by simp [hdue]), Nat.le_refl _⟩
  · have ho := h.once
    simp only [things, hdue] at ho
    simpa [things, Done.entry] using ho

/-- **The law is kept by every step.** -/
theorem Kept.step (h : Kept g) (hs : Step g g') : Kept g' := by
  cases hs with
  | stay => exact h
  | tick d =>
      refine ⟨h.sorted, fun x hx => ?_, fun x hx => ?_, h.once⟩
      · exact Nat.lt_of_lt_of_le (h.due x hx) (Nat.le_add_right _ _)
      · exact ⟨(h.done x hx).1, Nat.le_trans (h.done x hx).2 (Nat.le_add_right _ _)⟩
  | add i d => exact h.put i d
  | expire => exact h.expire
  | act x rest hdue => exact h.act hdue

end Laws

end Agenda

end Y210.Lib

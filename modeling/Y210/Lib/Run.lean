/-
  File:      Y210/Lib/Run.lean
  Subject:   RUNS of a step function and the rule that carries an invariant along them.

  A component is given by `step : σ → α → Option σ`: the action `a` can be taken in `s` when
  `step s a` is `some s'`. Threads, callbacks and time-outs are all actions, so a list of actions
  is one interleaving and "every interleaving" is "every list of actions".

  * `Reach step C s0 s` -- `s` is reached from `s0` by steps that each meet the condition `C` in
    the state they are taken in; with `C := Always` these are all runs;
  * `Reach.inv`, `Reach.invOn` -- what holds at the start and is kept by a step (that meets `C`)
    holds in every reached state; the second form lets the step use an invariant proved before;
  * `runIf`, `reach_of_runIf` -- the executable side: a list of actions evaluated with a Boolean
    condition gives a reached state, which is how a concrete run is exhibited.
-/
import Mathlib.Logic.Basic

namespace Y210.Lib

variable {σ α : Type}

/-- No condition on the steps of a run. -/
def Always : σ → α → Prop := fun _ _ => True

/-- **The states reached** from `s0` by steps that each meet `C`. -/
inductive Reach (step : σ → α → Option σ) (C : σ → α → Prop) (s0 : σ) : σ → Prop where
  | start : Reach step C s0 s0
  | next {s s' : σ} (a : α) (h : Reach step C s0 s) (hc : C s a) (hs : step s a = some s') :
      Reach step C s0 s'

section Rules

variable {step : σ → α → Option σ} {C C' : σ → α → Prop} {s0 s : σ}

/-- **The invariant rule.** -/
theorem Reach.inv {I : σ → Prop} (h0 : I s0)
    (hstep : ∀ s a s', I s → C s a → step s a = some s' → I s') (h : Reach step C s0 s) : I s := by
  induction h with
  | start => exact h0
  | next a _ hc hs ih => exact hstep _ a _ ih hc hs

/-- The invariant rule over an invariant `J` that is already known of every reached state. -/
theorem Reach.invOn {I J : σ → Prop} (hJ : ∀ s, Reach step C s0 s → J s) (h0 : I s0)
    (hstep : ∀ s a s', J s → I s → C s a → step s a = some s' → I s')
    (h : Reach step C s0 s) : I s := by
  induction h with
  | start => exact h0
  | next a hr hc hs ih => exact hstep _ a _ (hJ _ hr) ih hc hs

/-- A weaker condition admits more runs. -/
theorem Reach.weaken (hC : ∀ s a, C s a → C' s a) (h : Reach step C s0 s) :
    Reach step C' s0 s := by
  induction h with
  | start => exact .start
  | next a _ hc hs ih => exact .next a ih (hC _ a hc) hs

theorem Reach.always (h : Reach step C s0 s) : Reach step Always s0 s :=
  h.weaken fun _ _ _ => trivial

/-- Reached states compose. -/
theorem Reach.trans {s1 s2 : σ} (h1 : Reach step C s0 s1) (h2 : Reach step C s1 s2) :
    Reach step C s0 s2 := by
  induction h2 with
  | start => exact h1
  | next a _ hc hs ih => exact .next a ih hc hs

end Rules

/-! ## Evaluating a run -/

/-- The state a list of actions leads to, each taken only when `c` admits it; `none` when one of
    them is refused by `c` or not possible. -/
def runIf (step : σ → α → Option σ) (c : σ → α → Bool) : σ → List α → Option σ
  | s, [] => some s
  | s, a :: as => if c s a then (step s a).bind fun s' => runIf step c s' as else none

theorem reach_of_runIf {step : σ → α → Option σ} {c : σ → α → Bool} :
    ∀ (as : List α) {s s' : σ}, runIf step c s as = some s' →
      Reach step (fun s a => c s a = true) s s'
  | [], s, s', h => by
      simp only [runIf, Option.some.injEq] at h
      subst h
      exact .start
  | a :: as, s, s', h => by
      unfold runIf at h
      split at h
      · rename_i hc
        obtain ⟨s1, h1, h2⟩ := Option.bind_eq_some_iff.mp h
        exact (Reach.next a .start hc h1).trans (reach_of_runIf as h2)
      · cases h

/-- A property of the state a run leads to, as one evaluation: the run is possible and its last
    state passes `p`. -/
def runTest (step : σ → α → Option σ) (c : σ → α → Bool) (s : σ) (as : List α) (p : σ → Bool) :
    Bool :=
  match runIf step c s as with
  | some s' => p s'
  | none => false

theorem reach_of_runTest {step : σ → α → Option σ} {c : σ → α → Bool} {s : σ} {as : List α}
    {p : σ → Bool} (h : runTest step c s as p = true) :
    ∃ s', Reach step (fun s a => c s a = true) s s' ∧ p s' = true := by
  unfold runTest at h
  split at h
  · rename_i s' hs
    exact ⟨s', reach_of_runIf as hs, h⟩
  · cases h

end Y210.Lib

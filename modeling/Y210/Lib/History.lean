/-
  File:      Y210/Lib/History.lean
  Subject:   A HISTORY beside the state of a machine.

  What a property says about the past of a run (who asked for what, how often) is not in the
  machine's state. `tracked` carries it along; the machine's own steps stay as they are.

  * `tracked` -- the machine with its history: it has a step where the machine has one;
  * `Reach.untracked` -- a run with its history is a run of the machine.
-/
import Y210.Lib.Run

namespace Y210.Lib

variable {σ α γ : Type}

/-- The machine with a history: `track s a s'` is what the step from `s` to `s'` adds to it. -/
def tracked (step : σ → α → Option σ) (track : σ → α → σ → γ → γ) (x : σ × γ) (a : α) :
    Option (σ × γ) :=
  (step x.1 a).map fun s' => (s', track x.1 a s' x.2)

section Rules

variable {step : σ → α → Option σ} {track : σ → α → σ → γ → γ} {C : σ → α → Prop}

theorem tracked_eq_some {x x' : σ × γ} {a : α} (h : tracked step track x a = some x') :
    step x.1 a = some x'.1 ∧ x'.2 = track x.1 a x'.1 x.2 := by
  obtain ⟨s', hs, rfl⟩ := Option.map_eq_some_iff.mp h
  exact ⟨hs, rfl⟩

theorem Reach.untracked {s0 : σ} {g0 : γ} {x : σ × γ}
    (h : Reach (tracked step track) (fun x a => C x.1 a) (s0, g0) x) : Reach step C s0 x.1 := by
  induction h with
  | start => exact .start
  | next a _ hc hs ih => exact .next a ih hc (tracked_eq_some hs).1

end Rules

end Y210.Lib

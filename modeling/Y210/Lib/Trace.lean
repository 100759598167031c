/-
  File:      Y210/Lib/Trace.lean
  Subject:   ANSWERED TRACES: a trace in which every entry that asks is followed by one that
             answers.

  * `Answered ask answers l`; `Answered.append` -- entries that ask nothing change nothing;
    `answered_concat` -- one answer at the end answers everything.
-/
import Mathlib.Logic.Basic

namespace Y210.Lib

variable {α : Type} {ask answers : α → Bool} {l l' : List α}

/-- Whatever asks in `l` has something after it that answers. -/
def Answered (ask answers : α → Bool) (l : List α) : Prop :=
  ∀ before x after, l = before ++ x :: after → ask x = true → ∃ y ∈ after, answers y = true

theorem answered_nil : Answered ask answers [] := by
  intro before x after h _
  cases before <;> cases h

/-- Where an entry of two traces in a row stands. -/
theorem split_append {before after : List α} {x : α} (h : l ++ l' = before ++ x :: after) :
    (∃ rest, l = before ++ x :: rest ∧ after = rest ++ l') ∨ x ∈ l' := by
  rcases List.append_eq_append_iff.mp h with ⟨gap, _, hl'⟩ | ⟨rest, hl, hx⟩
  · refine Or.inr ?_
    rw [hl']
    exact List.mem_append_right _ List.mem_cons_self
  · cases rest with
    | nil =>
        refine Or.inr ?_
        rw [List.nil_append] at hx
        rw [← hx]
        exact List.mem_cons_self
    | cons y rest =>
        obtain ⟨rfl, hafter⟩ := List.cons.inj hx
        exact Or.inl ⟨rest, hl, hafter⟩

theorem Answered.append (h : Answered ask answers l) (hquiet : ∀ x ∈ l', ask x = false) :
    Answered ask answers (l ++ l') := by
  intro before x after heq hx
  rcases split_append heq with ⟨rest, hl, rfl⟩ | hmem
  · obtain ⟨y, hy, hans⟩ := h before x rest hl hx
    exact ⟨y, List.mem_append_left _ hy, hans⟩
  · rw [hquiet x hmem] at hx
    cases hx

theorem answered_concat {y : α} (l : List α) (hy : answers y = true) (hq : ask y = false) :
    Answered ask answers (l ++ [y]) := by
  intro before x after heq hx
  rcases split_append heq with ⟨rest, _, rfl⟩ | hmem
  · exact ⟨y, List.mem_append_right _ (List.mem_singleton_self y), hy⟩
  · obtain rfl := List.mem_singleton.mp hmem
    rw [hq] at hx
    cases hx

end Y210.Lib

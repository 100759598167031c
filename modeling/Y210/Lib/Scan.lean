/-
  File:      Y210/Lib/Scan.lean
  Subject:   SCANNERS: programs that take one token after the other and store what they read.

  A scanner has, for every list of tokens, the stores that it makes, in their order, and its end: a
  code that it stopped with, or a value and the tokens that it left. What was stored before the stop
  stays stored.

  * `Scan` -- the programs, as a monad, with `token`, `store` and `require`;
  * `Scan.Stores` -- all the stores of a scanner satisfy `Q` and its value `R`, with a rule for each
    way to build a scanner;
  * `Write`, `applyAll` -- stores to cells, and the cells that they leave alone.
-/
import Mathlib.Logic.Function.Basic
import Mathlib.Tactic.Common

namespace Y210.Lib

/-! ## 1. The programs -/

/-- A scanner over tokens `τ`, with stores `σ` and codes `ε`. -/
def Scan (τ σ ε α : Type) : Type := List τ → List σ × Except ε (α × List τ)

namespace Scan

variable {τ σ ε α β ι : Type}

instance : Monad (Scan τ σ ε) where
  pure a := fun ts => ([], .ok (a, ts))
  bind p f := fun ts =>
    match p ts with
    | (w, .error e) => (w, .error e)
    | (w, .ok (a, rest)) => (w ++ (f a rest).1, (f a rest).2)

/-- The next token; without one it stops with `e`. -/
def token (e : ε) : Scan τ σ ε τ
  | [] => ([], .error e)
  | t :: ts => ([], .ok (t, ts))

def store (w : σ) : Scan τ σ ε Unit := fun ts => ([w], .ok ((), ts))

def stop (e : ε) : Scan τ σ ε α := fun _ => ([], .error e)

/-- Stops with `e` unless `c` holds. -/
def require (c : Prop) [Decidable c] (e : ε) : Scan τ σ ε Unit := if c then pure () else stop e

/-- All the stores, and the code: `done` when it did not stop before its end. -/
def run (p : Scan τ σ ε α) (done : ε) (ts : List τ) : List σ × ε :=
  match p ts with
  | (w, .error e) => (w, e)
  | (w, .ok _) => (w, done)

theorem run_stores (p : Scan τ σ ε α) (done : ε) (ts : List τ) : (p.run done ts).1 = (p ts).1 := by
  unfold run
  split
  · next h => rw [h]
  · next h => rw [h]

/-! ## 2. What a scanner stores -/

/-- **Every store of `p` satisfies `Q`, and its value `R`.** -/
structure Stores (Q : σ → Prop) (p : Scan τ σ ε α) (R : α → Prop) : Prop where
  stores : ∀ ts, ∀ w ∈ (p ts).1, Q w
  value : ∀ ts a rest, (p ts).2 = .ok (a, rest) → R a

variable {Q : σ → Prop} {p : Scan τ σ ε α} {R : α → Prop}

theorem Stores.pure {a : α} (h : R a) : Stores (τ := τ) (ε := ε) Q (Pure.pure a) R where
  stores := fun _ _ hw => absurd hw List.not_mem_nil
  value := by
    intro _ _ _ hv
    cases hv
    exact h

theorem Stores.stop (e : ε) : Stores (τ := τ) Q (Scan.stop e) R where
  stores := fun _ _ hw => absurd hw List.not_mem_nil
  value := fun _ _ _ hv => by cases hv

theorem Stores.token (e : ε) : Stores (τ := τ) Q (Scan.token e) fun _ => True where
  stores := by
    intro ts w hw
    cases ts <;> exact absurd hw List.not_mem_nil
  value := fun _ _ _ _ => trivial

theorem Stores.store {w : σ} (h : Q w) :
    Stores (τ := τ) (ε := ε) Q (Scan.store w) fun _ => True where
  stores := by
    intro _ v hv
    rwa [List.mem_singleton.mp hv]
  value := fun _ _ _ _ => trivial

theorem Stores.bind {f : α → Scan τ σ ε β} {S : β → Prop} (hp : Stores Q p R)
    (hf : ∀ a, R a → Stores Q (f a) S) : Stores Q (p >>= f) S := by
  -- the two ends of `p`: after a stop there is nothing more, after a value `f` goes on
  have hcases : ∀ ts, (∃ e, (p >>= f) ts = ((p ts).1, .error e)) ∨ ∃ a rest, R a ∧
      (p >>= f) ts = ((p ts).1 ++ (f a rest).1, (f a rest).2) := by
    intro ts
    rcases hr : p ts with ⟨w, e | ⟨a, rest⟩⟩
    · exact .inl ⟨e, by simp only [Bind.bind, hr]⟩
    · exact .inr ⟨a, rest, hp.value ts a rest (by rw [hr]), by simp only [Bind.bind, hr]⟩
  constructor
  · intro ts w hw
    rcases hcases ts with ⟨e, heq⟩ | ⟨a, rest, ha, heq⟩
    · rw [heq] at hw
      exact hp.stores ts w hw
    · rw [heq] at hw
      rcases List.mem_append.mp hw with hw | hw
      · exact hp.stores ts w hw
      · exact (hf a ha).stores rest w hw
  · intro ts b out hv
    rcases hcases ts with ⟨e, heq⟩ | ⟨a, rest, ha, heq⟩
    · rw [heq] at hv
      cases hv
    · rw [heq] at hv
      exact (hf a ha).value rest b out hv

/-- A scanner whose value is not used, and what follows it. -/
theorem Stores.seq {q : Scan τ σ ε β} {S : β → Prop} (hp : Stores Q p R) (hq : Stores Q q S) :
    Stores Q (p >>= fun _ => q) S :=
  hp.bind fun _ _ => hq

theorem Stores.require {c : Prop} [Decidable c] (e : ε) :
    Stores (τ := τ) Q (Scan.require c e) fun _ => c := by
  unfold Scan.require
  split
  · next h => exact Stores.pure h
  · exact Stores.stop e

/-- The rule for loops. -/
theorem Stores.forM {f : ι → Scan τ σ ε Unit} {is : List ι}
    (h : ∀ i ∈ is, Stores Q (f i) fun _ => True) : Stores Q (forM is f) fun _ => True := by
  induction is with
  | nil => exact Stores.pure trivial
  | cons i is ih =>
    rw [List.forM_cons]
    exact (h i List.mem_cons_self).seq (ih fun k hk => h k (List.mem_cons_of_mem i hk))

end Scan

/-! ## 3. Stores to cells -/

/-- A store to a cell, as what it makes of the old value. -/
structure Write (κ ν : Type) where
  cell : κ
  change : ν → ν

variable {κ ν : Type}

/-- `cell = v`. -/
def Write.set (c : κ) (v : ν) : Write κ ν := ⟨c, fun _ => v⟩

variable [DecidableEq κ]

def Write.apply (m : κ → ν) (w : Write κ ν) : κ → ν :=
  Function.update m w.cell (w.change (m w.cell))

def applyAll (m : κ → ν) (ws : List (Write κ ν)) : κ → ν := ws.foldl Write.apply m

/-- A cell that no store is to keeps its value. -/
theorem applyAll_of_ne {c : κ} {ws : List (Write κ ν)} (m : κ → ν) (h : ∀ w ∈ ws, w.cell ≠ c) :
    applyAll m ws c = m c := by
  induction ws generalizing m with
  | nil => rfl
  | cons w ws ih =>
    have hrest := ih (w.apply m) fun v hv => h v (List.mem_cons_of_mem w hv)
    have hhead : w.apply m c = m c :=
      Function.update_of_ne (h w List.mem_cons_self).symm _ _
    exact hrest.trans hhead

end Y210.Lib

/-
  File:      Y210/Lib/Wire.lean
  Subject:   RECORDS WRITTEN FIELD AFTER FIELD and read back in the same order.

  A wire has two primitive items, numbers `ι` and strings `τ`, laid out as a list of units `β`.
  `Wire` carries the one law the rest needs: reading right behind a written item returns it and
  what follows. `readMany` is a reader's counted loop; `readMany_flatMap` is its round trip over
  records that are read back one by one, and `forall₂_of_mapM` relates the two lists position by
  position.
-/
import Mathlib.Data.List.Forall2

namespace Y210.Lib

/-- Writers and readers of the primitive items; reading undoes writing. -/
structure Wire (β ι τ : Type) where
  int : ι → List β
  str : τ → List β
  readInt : List β → Option (ι × List β)
  readStr : List β → Option (τ × List β)
  readInt_int : ∀ i r, readInt (int i ++ r) = some (i, r)
  readStr_str : ∀ s r, readStr (str s ++ r) = some (s, r)

attribute [simp] Wire.readInt_int Wire.readStr_str

/-- The wire whose units are the items themselves. -/
def Wire.items (ι τ : Type) : Wire (ι ⊕ τ) ι τ where
  int i := [.inl i]
  str s := [.inr s]
  readInt
    | .inl i :: r => some (i, r)
    | _ => none
  readStr
    | .inr s :: r => some (s, r)
    | _ => none
  readInt_int _ _ := rfl
  readStr_str _ _ := rfl

variable {β α γ : Type}

/-- `for (i = 0; i < n; i++) list.add(read())`: `n` records, the first failure ends the loop. -/
def readMany (read : List β → Option (α × List β)) : Nat → List β → Option (List α × List β)
  | 0, p => some ([], p)
  | n + 1, p =>
    match read p with
    | none => none
    | some (a, p) =>
      match readMany read n p with
      | none => none
      | some (as, p) => some (a :: as, p)

/-- **Round trip of the loop.** When one record written by `write` is read back as `conv` of it,
    `l.length` records are read back as `l.mapM conv`. -/
theorem readMany_flatMap {read : List β → Option (α × List β)} {write : γ → List β}
    {conv : γ → Option α}
    (h : ∀ g r, read (write g ++ r) = (conv g).map fun a => (a, r)) (l : List γ) (r : List β) :
    readMany read l.length (l.flatMap write ++ r) = (l.mapM conv).map fun as => (as, r) := by
  induction l with
  | nil => rfl
  | cons g gs ih =>
      have hp : (g :: gs).flatMap write ++ r = write g ++ (gs.flatMap write ++ r) := by
        simp [List.flatMap_cons]
      rw [hp, List.length_cons, readMany, h, List.mapM_cons]
      cases conv g with
      | none => rfl
      | some a =>
          simp only [Option.map_some, ih]
          cases gs.mapM conv <;> rfl

/-- A conversion of a whole list converts it position by position. -/
theorem forall₂_of_mapM {conv : γ → Option α} :
    ∀ {l : List γ} {as : List α}, l.mapM conv = some as →
      List.Forall₂ (fun g a => conv g = some a) l as
  | [], as, h => by
      have e : [] = as := by simpa using h
      subst e
      exact .nil
  | g :: gs, as, h => by
      rw [List.mapM_cons] at h
      obtain ⟨a, ha, h⟩ := Option.bind_eq_some_iff.mp h
      obtain ⟨as', has, h⟩ := Option.bind_eq_some_iff.mp h
      cases h
      exact .cons ha (forall₂_of_mapM has)

/-- It succeeds when every element converts. -/
theorem mapM_isSome_iff {conv : γ → Option α} (l : List γ) :
    (l.mapM conv).isSome = true ↔ ∀ g ∈ l, (conv g).isSome = true := by
  induction l with
  | nil => simp
  | cons g gs ih =>
      rw [List.mapM_cons]
      cases hg : conv g with
      | none => simp [hg]
      | some a =>
          cases hgs : gs.mapM conv with
          | none =>
              rw [hgs] at ih
              simpa [hg] using ih
          | some as =>
              rw [hgs] at ih
              simpa [hg] using ih

end Y210.Lib

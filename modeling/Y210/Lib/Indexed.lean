/-
  File:      Y210/Lib/Indexed.lean
  Subject:   ARRAYS AND LISTS BY INDEX.

  * `firstIdx` -- the loop `for (i = 0; i < n; i++) if (p(tab[i])) break;` as a function of the
    test, with what finding and not finding an index say;
  * `getElem?_set_cases`, `getElem?_modify_cases`, `getElem?_concat_cases` -- where an entry of a
    list comes from after one entry was replaced or changed, or one was appended;
  * `split_at` -- what is before and behind an entry;
  * `index_unique` -- an entry of a list without repetition has one index.
-/
import Mathlib.Data.List.FinRange

namespace Y210.Lib

/-! ## 1. The first match -/

section FirstMatch

variable {n : Nat} {p : Fin n → Bool}

/-- The first index that passes `p`; `none` when the loop runs to the end. -/
def firstIdx (p : Fin n → Bool) : Option (Fin n) := (List.finRange n).find? p

theorem firstIdx_some {j : Fin n} (h : firstIdx p = some j) : p j = true :=
  List.find?_some h

theorem firstIdx_none (h : firstIdx p = none) (j : Fin n) : p j = false := by
  have hj := List.find?_eq_none.mp h j (List.mem_finRange j)
  exact Bool.not_eq_true _ ▸ hj

end FirstMatch

/-! ## 2. Entries of a changed list -/

section Entries

variable {α : Type} {l : List α} {n m : Nat} {a b x : α}

theorem getElem?_set_cases (hn : l[n]? = some a) (h : (l.set n x)[m]? = some b) :
    (m = n ∧ b = x) ∨ (m ≠ n ∧ l[m]? = some b) := by
  have hlt : n < l.length := (List.getElem?_eq_some_iff.mp hn).1
  rw [List.getElem?_set] at h
  by_cases hnm : n = m
  · rw [if_pos hnm, if_pos hlt] at h
    exact Or.inl ⟨hnm.symm, (Option.some.inj h).symm⟩
  · rw [if_neg hnm] at h
    exact Or.inr ⟨fun e => hnm e.symm, h⟩

theorem getElem?_set_at (x : α) (hn : l[n]? = some a) : (l.set n x)[n]? = some x := by
  rw [List.getElem?_set_self (List.getElem?_eq_some_iff.mp hn).1]

theorem getElem?_set_off (x : α) (hmn : m ≠ n) : (l.set n x)[m]? = l[m]? :=
  List.getElem?_set_ne (Ne.symm hmn)

theorem getElem?_modify_cases {g : α → α} (h : (l.modify n g)[m]? = some b) :
    (m = n ∧ ∃ a, l[n]? = some a ∧ b = g a) ∨ (m ≠ n ∧ l[m]? = some b) := by
  rw [List.getElem?_modify, Option.map_eq_map, Option.map_eq_some_iff] at h
  obtain ⟨a, ha, hb⟩ := h
  by_cases hnm : n = m
  · rw [if_pos hnm] at hb
    exact Or.inl ⟨hnm.symm, a, hnm ▸ ha, hb.symm⟩
  · rw [if_neg hnm] at hb
    exact Or.inr ⟨fun e => hnm e.symm, hb ▸ ha⟩

theorem getElem?_concat_cases (h : (l ++ [x])[m]? = some b) :
    l[m]? = some b ∨ (m = l.length ∧ b = x) := by
  rcases Nat.lt_or_ge m l.length with hm | hm
  · rw [List.getElem?_append_left hm] at h
    exact Or.inl h
  · rw [List.getElem?_append_right hm] at h
    have hlt := (List.getElem?_eq_some_iff.mp h).1
    rw [List.length_singleton] at hlt
    have h0 : m - l.length = 0 := by omega
    rw [h0] at h
    exact Or.inr ⟨by omega, (Option.some.inj h).symm⟩

theorem getElem?_concat_old (x : α) (hn : l[n]? = some a) : (l ++ [x])[n]? = some a := by
  rw [List.getElem?_append_left (List.getElem?_eq_some_iff.mp hn).1, hn]

theorem split_at (hn : l[n]? = some a) : l = l.take n ++ a :: l.drop (n + 1) := by
  obtain ⟨hlt, rfl⟩ := List.getElem?_eq_some_iff.mp hn
  rw [List.getElem_cons_drop, List.take_append_drop]

theorem index_unique (h : l.Nodup) (hn : l[n]? = some a) (hm : l[m]? = some a) : n = m := by
  obtain ⟨hn', hna⟩ := List.getElem?_eq_some_iff.mp hn
  obtain ⟨hm', hma⟩ := List.getElem?_eq_some_iff.mp hm
  exact h.getElem_inj_iff.mp (hna.trans hma.symm)

end Entries

end Y210.Lib

/-
  File:      Y210/Lib/Circular.lean
  Subject:   A WINDOW OVER THE NUMBERS IN A CIRCULAR ARRAY: what has the number `n` stands at
             `n % size`.

  The window is the `size` numbers from `next` on; every slot belongs to one of them.

  * `slot` -- what stands at a number, `entries` -- the window's contents with their numbers;
  * `entries_release` -- the first number leaves the window and the slot becomes the next one's;
  * `entries_put` -- something is put at a number of the window;
  * `exchange_perm` -- and what that does to everything there ever was;
  * `entries_perm` -- with or without their numbers, it is the same things;
  * `Moved` -- the window moved on by some numbers and what had them left it, in their order.
-/
import Mathlib.Data.List.Range
import Mathlib.Data.List.Perm.Basic

namespace Y210.Lib

variable {α : Type}

/-- What stands at the number `n`. -/
def slot (q : List (Option α)) (n : Nat) : Option α := (q[n % q.length]?).join

/-- The window from `next` on. -/
def entries (q : List (Option α)) (next : Nat) : List (Nat × α) :=
  (List.range' next q.length).filterMap fun n => (slot q n).map (n, ·)

/-- The contents of the array. -/
def contents (q : List (Option α)) : List α := q.filterMap id

section Slots

variable {q : List (Option α)} {next n m : Nat} {v : Option α} {x : Nat × α}

theorem slot_congr (h : n % q.length = m % q.length) : slot q n = slot q m := by
  rw [slot, slot, h]

theorem slot_set (hq : q ≠ []) :
    slot (q.set (n % q.length) v) m = if m % q.length = n % q.length then v else slot q m := by
  have hlt : n % q.length < q.length := Nat.mod_lt _ (List.length_pos_iff.mpr hq)
  simp only [slot, List.length_set]
  by_cases h : m % q.length = n % q.length
  · rw [if_pos h, h, List.getElem?_set_self hlt]
    rfl
  · rw [if_neg h, List.getElem?_set_ne (Ne.symm h)]

theorem mem_entries :
    x ∈ entries q next ↔ next ≤ x.1 ∧ x.1 < next + q.length ∧ slot q x.1 = some x.2 := by
  simp only [entries, List.mem_filterMap, List.mem_range'_1, Option.map_eq_some_iff]
  constructor
  · rintro ⟨n, hn, a, ha, rfl⟩
    exact ⟨hn.1, hn.2, ha⟩
  · rintro ⟨h1, h2, h3⟩
    exact ⟨x.1, ⟨h1, h2⟩, x.2, h3, rfl⟩

/-- Two numbers of one window have different slots. -/
theorem mod_ne (next : Nat) {len : Nat} (hn : next ≤ n) (hm : next ≤ m) (hnw : n < next + len)
    (hmw : m < next + len) (hne : n ≠ m) : n % len ≠ m % len := by
  intro h
  rcases Nat.lt_or_gt_of_ne hne with hlt | hlt
  · have hz := Nat.sub_mod_eq_zero_of_mod_eq h.symm
    rw [Nat.mod_eq_of_lt (by omega)] at hz
    omega
  · have hz := Nat.sub_mod_eq_zero_of_mod_eq h
    rw [Nat.mod_eq_of_lt (by omega)] at hz
    omega

theorem contents_replicate (n : Nat) : contents (List.replicate n (none : Option α)) = [] := by
  induction n with
  | zero => rfl
  | succ n ih => exact ih

end Slots

section Windows

variable {q : List (Option α)} {next n : Nat} {a : α}

theorem range'_window (next : Nat) (hq : q ≠ []) :
    List.range' next q.length = next :: List.range' (next + 1) (q.length - 1) := by
  have hpos := List.length_pos_iff.mpr hq
  obtain ⟨k, hk⟩ : ∃ k, q.length = k + 1 := ⟨q.length - 1, by omega⟩
  rw [hk, List.range'_succ]
  rfl

theorem range'_moved (next : Nat) (hq : q ≠ []) :
    List.range' (next + 1) q.length =
      List.range' (next + 1) (q.length - 1) ++ [next + q.length] := by
  have hpos := List.length_pos_iff.mpr hq
  obtain ⟨k, hk⟩ : ∃ k, q.length = k + 1 := ⟨q.length - 1, by omega⟩
  rw [hk, List.range'_concat]
  simp only [Nat.add_sub_cancel, Nat.one_mul]
  congr 2
  omega

/-- **The window moves on by one**: what had its first number leaves it. -/
theorem entries_release (next : Nat) (hq : q ≠ []) :
    entries q next = ((slot q next).map (next, ·)).toList ++
      entries (q.set (next % q.length) none) (next + 1) := by
  have hlast : slot (q.set (next % q.length) none) (next + q.length) = none := by
    rw [slot_set hq, if_pos (Nat.add_mod_right next q.length)]
  have hmid : ∀ n ∈ List.range' (next + 1) (q.length - 1),
      (slot (q.set (next % q.length) none) n).map (n, ·) = (slot q n).map (n, ·) := by
    intro n hn
    have hn' := List.mem_range'_1.mp hn
    rw [slot_set hq, if_neg]
    exact mod_ne next (by omega) (Nat.le_refl _) (by omega)
      (Nat.lt_add_of_pos_right (List.length_pos_iff.mpr hq)) (by omega)
  have hrest : entries (q.set (next % q.length) none) (next + 1) =
      (List.range' (next + 1) (q.length - 1)).filterMap fun n => (slot q n).map (n, ·) := by
    rw [entries, List.length_set, range'_moved next hq, List.filterMap_append,
      List.filterMap_congr hmid]
    simp [hlast]
  rw [hrest, entries, range'_window next hq, List.filterMap_cons]
  cases slot q next <;> rfl

/-- **Something is put at a number of the window**, in the place of what stood there. -/
theorem entries_put (hq : q ≠ []) (hn : next ≤ n) (hnw : n < next + q.length) (a : α) :
    ∃ rest, (entries q next).Perm (((slot q n).map (n, ·)).toList ++ rest) ∧
      (entries (q.set (n % q.length) (some a)) next).Perm ((n, a) :: rest) := by
  have hsplit : List.range' next q.length =
      List.range' next (n - next) ++ n :: List.range' (n + 1) (next + q.length - n - 1) := by
    obtain ⟨i, rfl⟩ := Nat.exists_eq_add_of_le hn
    obtain ⟨k, hk⟩ : ∃ k, q.length = i + (k + 1) := ⟨q.length - i - 1, by omega⟩
    have hi : next + i - next = i := by omega
    have hk' : next + (i + (k + 1)) - (next + i) - 1 = k := by omega
    rw [hk, hi, hk', ← List.range'_append_1, List.range'_succ]
  have hother : ∀ m, next ≤ m → m < next + q.length → m ≠ n →
      (slot (q.set (n % q.length) (some a)) m).map (m, ·) = (slot q m).map (m, ·) := by
    intro m hm hmw hne
    rw [slot_set hq, if_neg (mod_ne next hm hn hmw hnw hne)]
  let side := fun l : List Nat => l.filterMap fun m => (slot q m).map (m, ·)
  refine ⟨side (List.range' next (n - next)) ++
    side (List.range' (n + 1) (next + q.length - n - 1)), ?_, ?_⟩
  · rw [entries, hsplit, List.filterMap_append, List.filterMap_cons]
    cases slot q n with
    | none => exact List.Perm.refl _
    | some b => exact List.perm_middle
  · rw [entries, List.length_set, hsplit, List.filterMap_append, List.filterMap_cons, slot_set hq,
      if_pos rfl]
    refine List.perm_middle.trans (List.Perm.of_eq (congrArg _ (congrArg₂ _ ?_ ?_)))
    · refine List.filterMap_congr fun m hm => ?_
      have hm' := List.mem_range'_1.mp hm
      exact hother m hm'.1 (by omega) (by omega)
    · refine List.filterMap_congr fun m hm => ?_
      have hm' := List.mem_range'_1.mp hm
      exact hother m (by omega) (by omega) (by omega)

/-- The numbers of a window are all there are, so the contents do not depend on where it is. -/
theorem entries_perm (q : List (Option α)) (next : Nat) :
    ((entries q next).map Prod.snd).Perm (contents q) := by
  have hmap : ∀ k, (entries q k).map Prod.snd = (List.range' k q.length).filterMap (slot q) := by
    intro k
    rw [entries, List.map_filterMap]
    refine List.filterMap_congr fun n _ => ?_
    cases slot q n <;> rfl
  rw [hmap]
  induction next with
  | zero =>
    refine List.Perm.of_eq ?_
    have hq : q = (List.range' 0 q.length).map fun n => (q[n]?).join := by
      refine List.ext_getElem (by simp) fun i hi _ => ?_
      simp [hi]
    conv_rhs => rw [contents, hq, List.filterMap_map]
    refine List.filterMap_congr fun n hn => ?_
    have hn' := (List.mem_range'_1.mp hn).2
    rw [Nat.zero_add] at hn'
    simp [slot, Nat.mod_eq_of_lt hn']
  | succ next ih =>
    by_cases hq : q = []
    · simp [hq, contents]
    · refine List.Perm.trans ?_ ih
      rw [range'_moved next hq, range'_window next hq, List.filterMap_append, List.filterMap_cons]
      have hsame : slot q (next + q.length) = slot q next :=
        slot_congr (Nat.add_mod_right next q.length)
      cases hs : slot q next with
      | none => simp [hsame, hs]
      | some a =>
        simp only [List.filterMap_cons, List.filterMap_nil, hsame, hs]
        exact List.perm_append_singleton _ _

theorem entries_sorted (q : List (Option α)) (next : Nat) :
    ((entries q next).map Prod.fst).Pairwise (· < ·) := by
  refine List.pairwise_map.mpr (List.pairwise_filterMap.mpr ?_)
  have hrange : (List.range' next q.length).Pairwise (· < ·) := List.pairwise_lt_range'
  refine hrange.imp fun {m n} hmn x hx y hy => ?_
  obtain ⟨a, -, rfl⟩ := Option.map_eq_some_iff.mp hx
  obtain ⟨b, -, rfl⟩ := Option.map_eq_some_iff.mp hy
  exact hmn

theorem entries_eq_nil (h : contents q = []) (next : Nat) : entries q next = [] := by
  have hperm := entries_perm q next
  rw [h] at hperm
  exact List.map_eq_nil_iff.mp hperm.eq_nil

/-- `old` leaves the middle for the end, and `x` comes into the middle. -/
theorem exchange_perm {front middle middle' back old rest all : List α} {x : α}
    (hm : middle.Perm (old ++ rest)) (hm' : middle'.Perm (x :: rest))
    (hall : (front ++ middle ++ back).Perm all) :
    (front ++ middle' ++ (back ++ old)).Perm (all ++ [x]) := by
  have hback : (rest ++ (back ++ old)).Perm (middle ++ back) := by
    rw [← List.append_assoc]
    refine List.perm_append_comm.trans ?_
    rw [← List.append_assoc]
    exact hm.symm.append_right back
  have hnew : (middle' ++ (back ++ old)).Perm (x :: (middle ++ back)) :=
    (hm'.append_right _).trans (hback.cons x)
  rw [List.append_assoc]
  refine (hnew.append_left front).trans (List.perm_middle.trans ?_)
  rw [← List.append_assoc]
  exact (hall.cons x).trans (List.perm_append_singleton x all).symm

/-- The window at `next` moved on by `k`; `gone` left it. -/
structure Moved (q : List (Option α)) (next : Nat) (q' : List (Option α)) (k : Nat)
    (gone : List (Nat × α)) : Prop where
  size : q'.length = q.length
  split : entries q next = gone ++ entries q' (next + k)
  below : ∀ x ∈ gone, x.1 < next + k

variable {q' q'' : List (Option α)} {k k' : Nat} {gone gone' : List (Nat × α)}

theorem Moved.refl (q : List (Option α)) (next : Nat) : Moved q next q 0 [] :=
  ⟨rfl, rfl, fun _ hx => nomatch hx⟩

theorem Moved.one (next : Nat) (hq : q ≠ []) :
    Moved q next (q.set (next % q.length) none) 1 ((slot q next).map (next, ·)).toList where
  size := List.length_set
  split := entries_release next hq
  below := fun x hx => by
    obtain ⟨a, -, rfl⟩ := Option.map_eq_some_iff.mp (Option.mem_toList.mp hx)
    exact Nat.lt_succ_self next

theorem Moved.trans (h : Moved q next q' k gone) (h' : Moved q' (next + k) q'' k' gone') :
    Moved q next q'' (k + k') (gone ++ gone') where
  size := h'.size.trans h.size
  split := by rw [h.split, h'.split, List.append_assoc, Nat.add_assoc]
  below := fun x hx => by
    rcases List.mem_append.mp hx with hx | hx
    · exact Nat.lt_of_lt_of_le (h.below x hx) (by omega)
    · have := h'.below x hx
      omega

theorem Moved.perm (h : Moved q next q' k gone) :
    (contents q).Perm (gone.map Prod.snd ++ contents q') := by
  have hperm := (entries_perm q next).symm
  rw [h.split, List.map_append] at hperm
  exact hperm.trans ((entries_perm q' (next + k)).append_left _)

/-- When the whole window moved, nothing is left. -/
theorem Moved.whole (h : Moved q next q' q.length gone) : contents q' = [] := by
  have hnil : entries q' (next + q.length) = [] := by
    refine List.eq_nil_iff_forall_not_mem.mpr fun x hx => ?_
    have hlow := (mem_entries.mp hx).1
    have hmem : x ∈ entries q next := by
      rw [h.split]
      exact List.mem_append_right _ hx
    have hhigh := (mem_entries.mp hmem).2.1
    omega
  have hperm := (entries_perm q' (next + q.length)).symm
  rw [hnil] at hperm
  exact hperm.eq_nil

end Windows

end Y210.Lib

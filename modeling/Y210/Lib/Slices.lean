/-
  File:      Y210/Lib/Slices.lean
  Subject:   A LIST IN SLICES of one width.

  * `slice l width k` -- the slice number `k`, shorter than the others at the end of the list;
  * `flatMap_slice` -- the first slices, one after another, are the beginning of the list;
  * `slices_eq_iff` -- other slices of the same width give the same list when and only when they
    are the same.
-/
import Mathlib.Data.List.Basic

namespace Y210.Lib

variable {α : Type} {l : List α} {width n : Nat}

/-- The slice number `k`. -/
def slice (l : List α) (width k : Nat) : List α := (l.drop (width * k)).take width

theorem length_slice (l : List α) (width k : Nat) :
    (slice l width k).length = min width (l.length - width * k) := by
  simp [slice]

theorem length_slice_le (l : List α) (width k : Nat) : (slice l width k).length ≤ width := by
  rw [length_slice]
  exact Nat.min_le_left _ _

/-- **The first `n` slices** are the first `width * n` elements. -/
theorem flatMap_slice (l : List α) (width n : Nat) :
    (List.range n).flatMap (slice l width) = l.take (width * n) := by
  induction n with
  | zero => simp
  | succ n ih =>
      rw [List.range_succ, List.flatMap_append, ih, Nat.mul_succ, List.take_add]
      simp [slice]

/-- Full slices have the length of all of them together. -/
theorem length_slices {f : Nat → Nat} (hfull : ∀ k < n, (slice l width (f k)).length = width) :
    ((List.range n).flatMap fun k => slice l width (f k)).length = width * n := by
  have hlengths : (List.range n).map (fun k => (slice l width (f k)).length) =
      (List.range n).map fun _ => width :=
    List.map_congr_left fun k hk => hfull k (List.mem_range.mp hk)
  rw [List.length_flatMap, hlengths, List.map_const', List.sum_replicate_nat, List.length_range,
    Nat.mul_comm]

/-- **Slices taken elsewhere**, all of them full, make up a list of full slices when and only when
    each is the slice at its place. -/
theorem slices_eq_iff {f : Nat → Nat} (hlength : l.length = width * n)
    (hfull : ∀ k < n, (slice l width (f k)).length = width) :
    (List.range n).flatMap (fun k => slice l width (f k)) = l ↔
      ∀ k < n, slice l width (f k) = slice l width k := by
  have hall : (List.range n).flatMap (slice l width) = l := by
    rw [flatMap_slice, ← hlength, List.take_length]
  have hplain : ∀ k < n, (slice l width k).length = width := by
    intro k hk
    have hle : width * (k + 1) ≤ width * n := Nat.mul_le_mul_left _ hk
    rw [Nat.mul_succ] at hle
    rw [length_slice]
    omega
  have hlengths : ((List.range n).map fun k => slice l width (f k)).map List.length =
      ((List.range n).map (slice l width)).map List.length := by
    rw [List.map_map, List.map_map]
    refine List.map_congr_left fun k hk => ?_
    rw [List.mem_range] at hk
    exact (hfull k hk).trans (hplain k hk).symm
  constructor
  · intro h k hk
    have hflat : ((List.range n).map fun k => slice l width (f k)).flatten =
        ((List.range n).map (slice l width)).flatten := by
      rw [← List.flatMap_def, ← List.flatMap_def, h, hall]
    have hmaps := List.eq_iff_flatten_eq.mpr ⟨hflat, hlengths⟩
    exact List.map_inj_left.mp hmaps k (List.mem_range.mpr hk)
  · intro h
    refine Eq.trans ?_ hall
    rw [List.flatMap_def, List.flatMap_def]
    refine congrArg List.flatten (List.map_congr_left fun k hk => ?_)
    exact h k (List.mem_range.mp hk)

end Y210.Lib

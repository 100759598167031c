/-
  File:      Y210/Lib/Records.lean
  Subject:   RECORDS ON A BYTE STREAM: each with its length before it.

  The header is any fixed-width code of a number. `Header.records` is the reader: it takes whole
  records off the front and leaves what is not whole yet.

  * `Header.frame` -- a record with its header, `Header.frames` -- several after one another;
  * `Header.records_frames` -- the reader gets the records back, and what is cut off stays behind;
  * `Header.Ends` -- a piece of such a stream that goes on with a given rest.
-/
import Mathlib.Logic.Basic

namespace Y210.Lib

variable {β : Type}

/-- A code of the numbers below `bound` in `width` cells. -/
structure Header (β : Type) where
  width : Nat
  bound : Nat
  write : Nat → List β
  read : List β → Nat
  length_write : ∀ n, (write n).length = width
  read_write : ∀ n < bound, read (write n) = n

namespace Header

variable (H : Header β)

def frame (p : List β) : List β := H.write p.length ++ p

def frames (ps : List (List β)) : List β := ps.flatMap H.frame

/-- The reader: `fuel` records at most. -/
def records : Nat → List β → List (List β) × List β
  | 0, bs => ([], bs)
  | fuel + 1, bs =>
    let n := H.read (bs.take H.width)
    if bs.length < H.width ∨ bs.length < H.width + n then ([], bs)
    else
      let later := records fuel (bs.drop (H.width + n))
      ((bs.drop H.width).take n :: later.1, later.2)

variable {H} {p part before bs rest more : List β} {ps : List (List β)}

theorem length_frame : (H.frame p).length = H.width + p.length := by
  rw [frame, List.length_append, H.length_write]

theorem frames_append (ps qs : List (List β)) : H.frames (ps ++ qs) = H.frames ps ++ H.frames qs :=
  List.flatMap_append

theorem frames_singleton (p : List β) : H.frames [p] = H.frame p := List.flatMap_singleton _ _

theorem take_frame_append : (H.frame p ++ bs).take H.width = H.write p.length := by
  rw [frame, List.append_assoc, List.take_left' (H.length_write _)]

theorem drop_frame_append : (H.frame p ++ bs).drop H.width = p ++ bs := by
  rw [frame, List.append_assoc, List.drop_left' (H.length_write _)]

theorem length_le_frames (ps : List (List β)) (hw : 0 < H.width) :
    ps.length ≤ (H.frames ps).length := by
  induction ps with
  | nil => exact Nat.zero_le _
  | cons p ps ih =>
    have hcons : H.frames (p :: ps) = H.frame p ++ H.frames ps := List.flatMap_cons
    rw [hcons, List.length_append, length_frame, List.length_cons]
    omega

/-- A record that is cut off is not read. -/
theorem records_cut (hp : p.length < H.bound) (hcut : more ≠ []) (hpart : part ++ more = H.frame p)
    (fuel : Nat) : H.records fuel part = ([], part) := by
  cases fuel with
  | zero => rfl
  | succ fuel =>
    refine if_pos ?_
    by_cases hlt : part.length < H.width
    · exact Or.inl hlt
    · right
      have htake : part.take H.width = H.write p.length := by
        have hwhole : (part ++ more).take H.width = H.write p.length := by
          rw [hpart, ← List.append_nil (H.frame p), take_frame_append]
        rwa [List.take_append_of_le_length (by omega)] at hwhole
      rw [htake, H.read_write _ hp]
      have hlen := congrArg List.length hpart
      rw [List.length_append, length_frame] at hlen
      have hpos := List.length_pos_iff.mpr hcut
      omega

/-- **The reader gets back what was framed**, and a frame that is cut off stays behind. -/
theorem records_frames (hps : ∀ p ∈ ps, p.length < H.bound)
    (hpart : part = [] ∨ ∃ p more, p.length < H.bound ∧ more ≠ [] ∧ part ++ more = H.frame p)
    (hw : 0 < H.width) :
    ∀ fuel, ps.length ≤ fuel → H.records fuel (H.frames ps ++ part) = (ps, part) := by
  induction ps with
  | nil =>
    intro fuel _
    rcases hpart with rfl | ⟨p, more, hp, hmore, hpart⟩
    · cases fuel with
      | zero => rfl
      | succ fuel => exact if_pos (Or.inl hw)
    · exact records_cut hp hmore hpart fuel
  | cons p ps ih =>
    intro fuel hfuel
    obtain ⟨fuel, rfl⟩ : ∃ k, fuel = k + 1 := ⟨fuel - 1, by simp at hfuel; omega⟩
    have hcons : H.frames (p :: ps) ++ part = H.frame p ++ (H.frames ps ++ part) := by
      rw [← List.append_assoc]
      rfl
    have hread : H.read ((H.frame p ++ (H.frames ps ++ part)).take H.width) = p.length := by
      rw [take_frame_append, H.read_write _ (hps p List.mem_cons_self)]
    have hlen : H.width + p.length ≤ (H.frame p ++ (H.frames ps ++ part)).length := by
      rw [List.length_append, length_frame]
      omega
    have hdrop : (H.frame p ++ (H.frames ps ++ part)).drop (H.width + p.length) =
        H.frames ps ++ part := List.drop_left' length_frame
    have hlater := ih (fun q hq => hps q (List.mem_cons_of_mem p hq)) fuel
      (by simp at hfuel; omega)
    rw [hcons, records]
    simp only [hread]
    rw [if_neg (by omega), hdrop, hlater, drop_frame_append, List.take_left]

/-- `bs` is what was written of the frames of `ps` since some point, and `rest` is still to come. -/
def Ends (H : Header β) (ps : List (List β)) (bs rest : List β) : Prop :=
  ∃ before, before ++ (bs ++ rest) = H.frames ps

theorem Ends.next (h : H.Ends ps bs []) (p : List β) : H.Ends (ps ++ [p]) bs (H.frame p) := by
  obtain ⟨before, hb⟩ := h
  rw [List.append_nil] at hb
  exact ⟨before, by rw [frames_append, frames_singleton, ← hb, List.append_assoc]⟩

/-- Some of the rest is written. -/
theorem Ends.take (h : H.Ends ps bs rest) (k : Nat) :
    H.Ends ps (bs ++ rest.take k) (rest.drop k) := by
  obtain ⟨before, hb⟩ := h
  exact ⟨before, by rw [List.append_assoc, List.take_append_drop, hb]⟩

/-- A stream that begins within a frame. -/
theorem ends_drop (p : List β) (k : Nat) : H.Ends [p] [] ((H.frame p).drop k) :=
  ⟨(H.frame p).take k, by rw [List.nil_append, List.take_append_drop, frames_singleton]⟩

theorem Ends.piece (h : H.Ends ps bs rest) : bs <:+: H.frames ps := by
  obtain ⟨before, hb⟩ := h
  exact ⟨before, rest, by rw [List.append_assoc, hb]⟩

end Header

end Y210.Lib

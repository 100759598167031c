/-
  File:      Y210/Lib/Bytes.lean
  Subject:   A BLOCK OF BYTES: stores that stay inside of it, words, and strings that end with NUL.

  * `store`, `store_between` -- a store replaces as many bytes as it writes, or has no result;
  * `wordBytes`, `readWord` -- a 32-bit word, the low byte first;
  * `nulTerminated`, `readNul` -- a string and its NUL.
-/
import Mathlib.Algebra.Group.Nat.Defs
import Mathlib.Data.List.Basic

namespace Y210.Lib

/-! ## 1. Stores -/

variable {cells before here behind bytes : List UInt8} {offset : Nat}

/-- Bytes written to a block; a store that reaches out of it has no result. -/
def store (cells : List UInt8) (offset : Nat) (bytes : List UInt8) : Option (List UInt8) :=
  if offset + bytes.length ≤ cells.length then
    some (cells.take offset ++ bytes ++ cells.drop (offset + bytes.length))
  else none

theorem store_between (hoffset : before.length = offset) (hlength : here.length = bytes.length) :
    store (before ++ here ++ behind) offset bytes = some (before ++ bytes ++ behind) := by
  subst hoffset
  have hroom : before.length + bytes.length ≤ (before ++ here ++ behind).length := by
    simp only [List.length_append]
    omega
  have hend : before.length + bytes.length = (before ++ here).length := by
    rw [List.length_append, hlength]
  rw [store, if_pos hroom, hend, List.drop_left, List.append_assoc before here, List.take_left]

theorem store_outside (h : cells.length < offset + bytes.length) :
    store cells offset bytes = none :=
  if_neg (by omega)

/-- A list with a beginning of a length. -/
theorem exists_append {l : List UInt8} {n : Nat} (h : n ≤ l.length) :
    ∃ l₁ l₂, l = l₁ ++ l₂ ∧ l₁.length = n :=
  ⟨l.take n, l.drop n, (List.take_append_drop n l).symm, List.length_take_of_le h⟩

/-! ## 2. Words -/

/-- The bytes of a word. -/
def wordBytes (w : BitVec 32) : List UInt8 :=
  [UInt8.ofNat w.toNat, UInt8.ofNat (w.toNat / 2 ^ 8), UInt8.ofNat (w.toNat / 2 ^ 16),
    UInt8.ofNat (w.toNat / 2 ^ 24)]

/-- The word of four bytes. -/
def ofWordBytes : List UInt8 → Option (BitVec 32)
  | [a, b, c, d] =>
    some (BitVec.ofNat 32
      (a.toNat + b.toNat * 2 ^ 8 + c.toNat * 2 ^ 16 + d.toNat * 2 ^ 24))
  | _ => none

/-- The word at an offset. -/
def readWord (cells : List UInt8) (offset : Nat) : Option (BitVec 32) :=
  ofWordBytes ((cells.drop offset).take 4)

theorem length_wordBytes (w : BitVec 32) : (wordBytes w).length = 4 := rfl

theorem ofWordBytes_wordBytes (w : BitVec 32) : ofWordBytes (wordBytes w) = some w := by
  have hlt := w.isLt
  refine congrArg some (BitVec.eq_of_toNat_eq ?_)
  simp only [UInt8.toNat_ofNat', BitVec.toNat_ofNat]
  omega

theorem readWord_between {w : BitVec 32} (hoffset : before.length = offset) :
    readWord (before ++ (wordBytes w ++ behind)) offset = some w := by
  subst hoffset
  rw [readWord, List.drop_left, List.take_left' (length_wordBytes w), ofWordBytes_wordBytes]

/-! ## 3. Strings -/

def nulTerminated (s : List UInt8) : List UInt8 := s ++ [0]

theorem length_nulTerminated (s : List UInt8) : (nulTerminated s).length = s.length + 1 :=
  List.length_append

/-- The string at the beginning of some bytes, if it ends there. -/
def readNul : List UInt8 → Option (List UInt8)
  | [] => none
  | c :: cs => if c = 0 then some [] else (readNul cs).map (c :: ·)

/-- **A string is read back**, whatever stands behind its NUL. -/
theorem readNul_nulTerminated {s : List UInt8} (hs : 0 ∉ s) (behind : List UInt8) :
    readNul (nulTerminated s ++ behind) = some s := by
  induction s with
  | nil => rfl
  | cons c s ih =>
      obtain ⟨hc, hs⟩ := not_or.mp (fun h => hs (List.mem_cons.mpr h))
      have htail := ih hs
      simp only [nulTerminated, List.cons_append, readNul, if_neg (Ne.symm hc)] at htail ⊢
      rw [htail]
      rfl

end Y210.Lib

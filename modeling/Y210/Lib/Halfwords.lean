/-
  File:      Y210/Lib/Halfwords.lean
  Subject:   16-BIT WORDS IN A BLOCK OF BYTES, the low byte first, and their XOR.

  * `byte`, `setByte` -- one byte of a block; a store out of it has no result;
  * `halfword`, `lowByte`, `highByte` -- a word and its bytes;
  * `xorLoop_eq` -- the loop that XORs the words of a part of the block;
  * `rechecksum_spec` -- a word of the part replaced by the complement of the XOR of the others:
    after it the XOR of all is `0xFFFF`, and no other byte has changed.
-/
import Mathlib.Algebra.Group.Nat.Defs
import Mathlib.Data.List.Basic

namespace Y210.Lib

variable {cells cells' : List UInt8} {i k : Nat} {b : UInt8}

/-! ## 1. Single bytes -/

def byte (cells : List UInt8) (i : Nat) : UInt8 := cells.getD i 0

def setByte (cells : List UInt8) (i : Nat) (b : UInt8) : Option (List UInt8) :=
  if i < cells.length then some (cells.set i b) else none

theorem setByte_eq (h : i < cells.length) : setByte cells i b = some (cells.set i b) :=
  if_pos h

theorem getElem?_eq_byte (h : i < cells.length) : cells[i]? = some (byte cells i) := by
  rw [byte, List.getD_eq_getElem?_getD, List.getElem?_eq_getElem h, Option.getD_some]

theorem byte_set_self (h : i < cells.length) : byte (cells.set i b) i = b := by
  rw [byte, List.getD_eq_getElem?_getD, List.getElem?_set_self h, Option.getD_some]

theorem byte_set_of_ne (h : i ≠ k) : byte (cells.set i b) k = byte cells k := by
  rw [byte, byte, List.getD_eq_getElem?_getD, List.getElem?_set_ne h,
    List.getD_eq_getElem?_getD]

/-! ## 2. Words -/

/-- `lo | (hi << 8)`. -/
def halfword (lo hi : UInt8) : BitVec 16 := BitVec.ofNat 16 (lo.toNat ||| hi.toNat <<< 8)

def lowByte (v : BitVec 16) : UInt8 := UInt8.ofNat v.toNat

def highByte (v : BitVec 16) : UInt8 := UInt8.ofNat (v.toNat / 2 ^ 8)

theorem toNat_halfword (lo hi : UInt8) :
    (halfword lo hi).toNat = lo.toNat + hi.toNat * 2 ^ 8 := by
  have hlo := lo.toNat_lt
  have hhi := hi.toNat_lt
  have hor : lo.toNat ||| hi.toNat <<< 8 = hi.toNat <<< 8 + lo.toNat := by
    rw [Nat.or_comm, Nat.shiftLeft_add_eq_or_of_lt hlo]
  rw [halfword, BitVec.toNat_ofNat, hor, Nat.shiftLeft_eq]
  omega

theorem halfword_lowByte_highByte (v : BitVec 16) : halfword (lowByte v) (highByte v) = v := by
  have hv := v.isLt
  apply BitVec.eq_of_toNat_eq
  rw [toNat_halfword, lowByte, highByte, UInt8.toNat_ofNat', UInt8.toNat_ofNat']
  omega

def halfwordBytes (v : BitVec 16) : List UInt8 := [lowByte v, highByte v]

/-- The words of a block, the last byte left out if it has no partner. -/
def halfwords : List UInt8 → List (BitVec 16)
  | lo :: hi :: rest => halfword lo hi :: halfwords rest
  | _ => []

theorem length_halfwords : ∀ cells : List UInt8, (halfwords cells).length = cells.length / 2
  | [] => rfl
  | [_] => by simp [halfwords]
  | _ :: _ :: rest => by
      simp only [halfwords, List.length_cons, length_halfwords rest]
      omega

/-- **A word stored** in the bytes of the `j`th replaces the `j`th. -/
theorem halfwords_set (lo hi : UInt8) : ∀ (cells : List UInt8) (j : Nat),
    halfwords ((cells.set (2 * j) lo).set (2 * j + 1) hi) =
      (if 2 * j + 1 < cells.length then (halfwords cells).set j (halfword lo hi)
        else halfwords cells)
  | [], _ => rfl
  | [_], 0 => rfl
  | [_], _ + 1 => rfl
  | _ :: _ :: _, 0 => by simp [halfwords]
  | a :: c :: rest, j + 1 => by
      have hrest := halfwords_set lo hi rest j
      have hcells : ((a :: c :: rest).set (2 * (j + 1)) lo).set (2 * (j + 1) + 1) hi =
          a :: c :: (rest.set (2 * j) lo).set (2 * j + 1) hi := rfl
      rw [hcells, halfwords, hrest, halfwords]
      have hlength : 2 * (j + 1) + 1 < (a :: c :: rest).length ↔ 2 * j + 1 < rest.length := by
        simp only [List.length_cons]
        omega
      simp only [hlength]
      split <;> rfl

/-! ## 3. Their XOR -/

def xorAll (words : List (BitVec 16)) : BitVec 16 := words.foldr (· ^^^ ·) 0#16

theorem xorAll_cons (w : BitVec 16) (words : List (BitVec 16)) :
    xorAll (w :: words) = w ^^^ xorAll words := rfl

theorem xorAll_set (w : BitVec 16) : ∀ {words : List (BitVec 16)} {j : Nat}, j < words.length →
    xorAll (words.set j w) = xorAll (words.set j 0#16) ^^^ w
  | _ :: words, 0, _ => by
      simp only [List.set_cons_zero, xorAll_cons, BitVec.zero_xor]
      exact BitVec.xor_comm _ _
  | v :: words, j + 1, h => by
      have hj : j < words.length := Nat.lt_of_succ_lt_succ h
      simp only [List.set_cons_succ, xorAll_cons]
      rw [xorAll_set w hj, BitVec.xor_assoc]

/-- `for (…; n words left; …) sum ^= lo | (hi << 8)`, with a read out of the block no result. -/
def xorLoop (cells : List UInt8) : Nat → Nat → BitVec 16 → Option (BitVec 16)
  | _, 0, sum => some sum
  | offset, n + 1, sum => do
    let lo ← cells[offset]?
    let hi ← cells[offset + 1]?
    xorLoop cells (offset + 2) n (sum ^^^ halfword lo hi)

/-- The words of a part of a block. -/
def part (cells : List UInt8) (offset n : Nat) : List (BitVec 16) :=
  halfwords ((cells.drop offset).take (2 * n))

theorem part_succ {offset n : Nat} (h : offset + 1 < cells.length) :
    part cells offset (n + 1) =
      halfword (byte cells offset) (byte cells (offset + 1)) :: part cells (offset + 2) n := by
  have hlo := getElem?_eq_byte (show offset < cells.length by omega)
  have hhi := getElem?_eq_byte h
  rw [part, List.drop_eq_getElem?_toList_append, hlo, List.drop_eq_getElem?_toList_append, hhi]
  rfl

/-- **The loop gives the XOR of the words**, with what it began with. -/
theorem xorLoop_eq : ∀ {n offset : Nat} {sum : BitVec 16}, offset + 2 * n ≤ cells.length →
    xorLoop cells offset n sum = some (sum ^^^ xorAll (part cells offset n))
  | 0, offset, sum, _ => by
      simp [xorLoop, part, halfwords, xorAll]
  | n + 1, offset, sum, h => by
      have hlo := getElem?_eq_byte (show offset < cells.length by omega)
      have hhi := getElem?_eq_byte (show offset + 1 < cells.length by omega)
      simp only [xorLoop, Option.bind_eq_bind]
      rw [hlo, Option.bind_some, hhi, Option.bind_some, xorLoop_eq (by omega),
        part_succ (by omega), xorAll_cons, BitVec.xor_assoc]

/-! ## 4. The checksum -/

variable {offset n j : Nat} {complement : BitVec 16 → BitVec 16}

def setHalfword (cells : List UInt8) (k : Nat) (v : BitVec 16) : List UInt8 :=
  (cells.set k (lowByte v)).set (k + 1) (highByte v)

/-- The two bytes of a word stored one after the other. -/
def putHalfword (cells : List UInt8) (k : Nat) (v : BitVec 16) : Option (List UInt8) := do
  let cells ← setByte cells k (lowByte v)
  setByte cells (k + 1) (highByte v)

theorem length_setHalfword (cells : List UInt8) (k : Nat) (v : BitVec 16) :
    (setHalfword cells k v).length = cells.length := by
  rw [setHalfword, List.length_set, List.length_set]

theorem putHalfword_eq {v : BitVec 16} (h : k + 1 < cells.length) :
    putHalfword cells k v = some (setHalfword cells k v) := by
  have hsecond : k + 1 < (cells.set k (lowByte v)).length := by rwa [List.length_set]
  rw [putHalfword, setByte_eq (by omega), Option.bind_eq_bind, Option.bind_some,
    setByte_eq hsecond, setHalfword]

theorem byte_setHalfword {v : BitVec 16} (h : i ≠ k) (h' : i ≠ k + 1) :
    byte (setHalfword cells k v) i = byte cells i := by
  rw [setHalfword, byte_set_of_ne (Ne.symm h'), byte_set_of_ne (Ne.symm h)]

theorem length_part (hn : offset + 2 * n ≤ cells.length) : (part cells offset n).length = n := by
  rw [part, length_halfwords, List.length_take, List.length_drop]
  omega

theorem part_setHalfword {v : BitVec 16} (hj : j < n) (hn : offset + 2 * n ≤ cells.length) :
    part (setHalfword cells (offset + 2 * j) v) offset n = (part cells offset n).set j v := by
  have hlow : ¬ offset + 2 * j < offset := by omega
  have hhigh : ¬ offset + 2 * j + 1 < offset := by omega
  have hroom : 2 * j + 1 < ((cells.drop offset).take (2 * n)).length := by
    rw [List.length_take, List.length_drop]
    omega
  rw [part, setHalfword, List.drop_set, if_neg hhigh, List.drop_set, if_neg hlow, List.take_set,
    List.take_set, show offset + 2 * j - offset = 2 * j by omega,
    show offset + 2 * j + 1 - offset = 2 * j + 1 by omega, halfwords_set, if_pos hroom, part,
    halfword_lowByte_highByte]

/-- The word at `k` is cleared, the words of the part are XORed, and what `complement` makes of
    the sum is stored at `k`. -/
def rechecksum (complement : BitVec 16 → BitVec 16) (cells : List UInt8) (offset n k : Nat) :
    Option (List UInt8) := do
  let cells ← putHalfword cells k 0#16
  let sum ← xorLoop cells offset n 0#16
  putHalfword cells k (complement sum)

/-- **After it the XOR of the part is what a sum and its complement give**, and the other bytes
    are as they were. -/
theorem rechecksum_spec {total : BitVec 16} (hcomplement : ∀ s, s ^^^ complement s = total)
    (hj : j < n) (hn : offset + 2 * n ≤ cells.length) :
    ∃ cells', rechecksum complement cells offset n (offset + 2 * j) = some cells' ∧
      cells'.length = cells.length ∧ xorAll (part cells' offset n) = total ∧
      ∀ i, i ≠ offset + 2 * j → i ≠ offset + 2 * j + 1 → byte cells' i = byte cells i := by
  obtain ⟨cleared, hcleared⟩ : ∃ c, setHalfword cells (offset + 2 * j) 0#16 = c := ⟨_, rfl⟩
  have hlength : cleared.length = cells.length := by rw [← hcleared, length_setHalfword]
  have hpart : part cleared offset n = (part cells offset n).set j 0#16 := by
    rw [← hcleared, part_setHalfword hj hn]
  refine ⟨setHalfword cleared (offset + 2 * j) (complement (xorAll (part cleared offset n))),
    ?_, ?_, ?_, ?_⟩
  · rw [rechecksum, putHalfword_eq (by omega), hcleared, Option.bind_eq_bind, Option.bind_some,
      xorLoop_eq (by omega), BitVec.zero_xor, Option.bind_eq_bind, Option.bind_some,
      putHalfword_eq (by omega)]
  · rw [length_setHalfword, hlength]
  · -- the words are those of before with the checksum in place of the `j`th
    have hlt : j < (part cells offset n).length := by rwa [length_part hn]
    rw [part_setHalfword hj (by omega), hpart, List.set_set, xorAll_set _ hlt]
    exact hcomplement _
  · intro i hi hi'
    rw [byte_setHalfword hi hi', ← hcleared, byte_setHalfword hi hi']

end Y210.Lib

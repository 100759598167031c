/-
  File:      Y210/Lib/Text.lean
  Subject:   C STRINGS: the numbers that `strtol` reads in them, and the pieces that `strtok` and
             `strchr` cut them into.

  A string is the list of its characters, without the NUL.
-/
import Mathlib.Algebra.Group.Int.Defs

namespace Y210.Lib

/-- `isspace` of the C locale. -/
def isSpace (c : Char) : Bool := c == ' ' || ('\t' ≤ c && c ≤ '\r')

/-- The value of a digit, in bases up to 36. -/
def digitValue (c : Char) : Option Nat :=
  if '0' ≤ c ∧ c ≤ '9' then some (c.toNat - '0'.toNat)
  else if 'a' ≤ c ∧ c ≤ 'z' then some (c.toNat - 'a'.toNat + 10)
  else if 'A' ≤ c ∧ c ≤ 'Z' then some (c.toNat - 'A'.toNat + 10)
  else none

def isDigitOf (base : Nat) (c : Char) : Bool := (digitValue c).any (· < base)

/-- The number of the leading digits, and what follows them. -/
def digits (base : Nat) : List Char → Nat → Nat × List Char
  | [], n => (n, [])
  | c :: cs, n =>
    match digitValue c with
    | some v => if v < base then digits base cs (base * n + v) else (n, c :: cs)
    | none => (n, c :: cs)

/-- The sign, and what follows it. -/
def sign : List Char → Bool × List Char
  | '-' :: cs => (true, cs)
  | '+' :: cs => (false, cs)
  | cs => (false, cs)

/-- In base 16 a `0x` before a digit is passed over. -/
def skipHex (base : Nat) : List Char → List Char
  | '0' :: x :: c :: cs =>
    if base = 16 ∧ (x = 'x' ∨ x = 'X') ∧ isDigitOf 16 c then c :: cs else '0' :: x :: c :: cs
  | cs => cs

/-- `strtol(s, &end, base)` with a `long` of 32 bits: the number and what `end` points to. -/
def strtol (base : Nat) (s : List Char) : Int × List Char :=
  let (negative, rest) := sign (s.dropWhile isSpace)
  let body := skipHex base rest
  match body with
  | c :: _ =>
    if isDigitOf base c then
      let (n, behind) := digits base body 0
      (if negative then max (-2 ^ 31) (-(n : Int)) else min (2 ^ 31 - 1) n, behind)
    else (0, s)
  | [] => (0, s)

example : strtol 10 "432x320".toList = (432, "x320".toList) := by decide
example : strtol 16 " -0x7fffffff1,".toList = (-2 ^ 31, [',']) := by decide

/-- The pieces between the separators. -/
def pieces (sep : Char) : List Char → List (List Char)
  | [] => [[]]
  | c :: cs =>
    if c = sep then [] :: pieces sep cs
    else
      match pieces sep cs with
      | w :: ws => (c :: w) :: ws
      | [] => [[c]]

/-- What `strtok(s, sep)` and then `strtok(NULL, sep)` give: `strtok` passes over empty pieces. -/
def tokens (sep : Char) (s : List Char) : List (List Char) := (pieces sep s).filter (· ≠ [])

example : tokens ',' ",A1,,x,".toList = ["A1".toList, ['x']] := by decide

end Y210.Lib

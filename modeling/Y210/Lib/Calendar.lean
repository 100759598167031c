/-
  File:      Y210/Lib/Calendar.lean
  Subject:   THE PROLEPTIC GREGORIAN CALENDAR, day after day.

  A date carries that it exists. There is no formula for day numbers here: the calendar is the rule
  which day comes after which, and the `n`th day is `n` such steps from 1 January 1970.

  * `Date` -- a day that exists;
  * `Date.next`, `Date.next_cases` -- the day after it, and the three ways it comes about;
  * `Date.after` -- the day a number of days after 1 January 1970;
  * `Date.Before` -- the order of the days.
-/
import Mathlib.Logic.Function.Iterate

namespace Y210.Lib.Calendar

/-- Every fourth year, but of the full centuries only every fourth. -/
abbrev IsLeap (year : Int) : Prop := year % 4 = 0 ∧ (year % 100 ≠ 0 ∨ year % 400 = 0)

def monthLength (year month : Int) : Int :=
  if month = 2 then if IsLeap year then 29 else 28
  else if month = 4 ∨ month = 6 ∨ month = 9 ∨ month = 11 then 30
  else 31

theorem monthLength_pos (year month : Int) : 1 ≤ monthLength year month := by
  unfold monthLength
  grind

theorem monthLength_le (year month : Int) : monthLength year month ≤ 31 := by
  unfold monthLength
  grind

/-- **A day of the calendar.** -/
@[ext] structure Date where
  year : Int
  month : Int
  day : Int
  month_mem : 1 ≤ month ∧ month ≤ 12
  day_mem : 1 ≤ day ∧ day ≤ monthLength year month
  deriving DecidableEq

namespace Date

/-- **The next day.** -/
def next (d : Date) : Date :=
  if hd : d.day < monthLength d.year d.month then
    ⟨d.year, d.month, d.day + 1, d.month_mem, by have := d.day_mem; omega⟩
  else if hm : d.month < 12 then
    ⟨d.year, d.month + 1, 1, by have := d.month_mem; omega, by simp, monthLength_pos _ _⟩
  else ⟨d.year + 1, 1, 1, by omega, by simp, monthLength_pos _ _⟩

/-- The next day is of the same month, the first of the next month, or the first of the year. -/
theorem next_cases (d : Date) :
    (d.next.year = d.year ∧ d.next.month = d.month ∧ d.next.day = d.day + 1) ∨
    (d.day = monthLength d.year d.month ∧ d.month < 12 ∧
      d.next.year = d.year ∧ d.next.month = d.month + 1 ∧ d.next.day = 1) ∨
    (d.day = monthLength d.year d.month ∧ d.month = 12 ∧
      d.next.year = d.year + 1 ∧ d.next.month = 1 ∧ d.next.day = 1) := by
  have hday := d.day_mem
  have hmonth := d.month_mem
  unfold next
  split
  · exact .inl ⟨rfl, rfl, rfl⟩
  · split
    · exact .inr (.inl ⟨by omega, by omega, rfl, rfl, rfl⟩)
    · exact .inr (.inr ⟨by omega, by omega, rfl, rfl, rfl⟩)

/-- 1 January 1970. -/
def epoch : Date := ⟨1970, 1, 1, by decide, by decide⟩

/-- **The day `n` days after 1 January 1970.** -/
def after (n : Nat) : Date := next^[n] epoch

theorem after_succ (n : Nat) : after (n + 1) = (after n).next :=
  Function.iterate_succ_apply' next n epoch

/-- **A day is before those that come after it.** -/
def Before (d e : Date) : Prop := ∃ n, next^[n + 1] d = e

end Date

end Y210.Lib.Calendar

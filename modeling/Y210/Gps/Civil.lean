/-
  File:      Y210/Gps/Civil.lean
  Subject:   DATES AND DAY NUMBERS as loc_eng.cpp computes them.

  `nmea_days_from_civil` and `nmea_civil_from_days` count in years that begin in March and in eras
  of 400 years; division is C's, which truncates. They are compared with the calendar, which knows
  neither March years nor eras.

  * `daysFromCivil_next` -- the next day has the next number;
  * `civilFromDays_daysFromCivil` -- a date comes back from its number;
  * `daysFromCivil_after`, `civilFromDays_after` -- the day `n` days after 1 January 1970 has the
    number `n`;
  * `exists_date` -- every number from 1 January of the year 0 on is that of a day;
  * `before_iff` -- days are in the order of their numbers.
-/
import Y210.Lib.Calendar
import Mathlib.Tactic.IntervalCases
import Mathlib.Tactic.Linarith

namespace Y210.Gps.Nmea

open Y210.Lib.Calendar

/-! ## 1. The two functions -/

/-- `nmea_days_from_civil`. -/
def nmeaDaysFromCivil (y m d : Int) : Int :=
  let y := y - (if m ≤ 2 then 1 else 0)
  let era := Int.tdiv (if y ≥ 0 then y else y - 399) 400
  let yoe := y - era * 400
  let doy := Int.tdiv (153 * (m + (if m > 2 then -3 else 9)) + 2) 5 + d - 1
  let doe := yoe * 365 + Int.tdiv yoe 4 - Int.tdiv yoe 100 + doy
  era * 146097 + doe - 719468

/-- `nmea_civil_from_days`: year, month and day. -/
def nmeaCivilFromDays (z : Int) : Int × Int × Int :=
  let z := z + 719468
  let era := Int.tdiv (if z ≥ 0 then z else z - 146096) 146097
  let doe := z - era * 146097
  let yoe := Int.tdiv (doe - Int.tdiv doe 1460 + Int.tdiv doe 36524 - Int.tdiv doe 146096) 365
  let doy := doe - (365 * yoe + Int.tdiv yoe 4 - Int.tdiv yoe 100)
  let mp := Int.tdiv (5 * doy + 2) 153
  let d := doy - Int.tdiv (153 * mp + 2) 5 + 1
  let m := mp + (if mp < 10 then 3 else -9)
  (yoe + era * 400 + (if m ≤ 2 then 1 else 0), m, d)

example : nmeaDaysFromCivil 2019 4 7 = 17993 := by decide
example : nmeaCivilFromDays 17993 = (2019, 4, 7) := by decide

/-! ## 2. Years that begin in March -/

/-- The way the two functions make C's division round down. -/
theorem tdiv_floor {k : Int} (hk : 0 < k) (z : Int) :
    Int.tdiv (if z ≥ 0 then z else z - (k - 1)) k = z / k := by
  split
  · exact Int.tdiv_eq_ediv_of_nonneg (by omega)
  · have hmod := Int.emod_nonneg z (by omega : k ≠ 0)
    have hlt := Int.emod_lt_of_pos z hk
    have hz := Int.emod_add_mul_ediv z k
    have hq : (k - 1 - z) / k = -(z / k) := by
      refine ((Int.ediv_emod_unique hk (r := k - 1 - z % k)).mpr ⟨?_, by omega, by omega⟩).1
      linarith
    rw [show z - (k - 1) = -(k - 1 - z) by omega, Int.neg_tdiv,
      Int.tdiv_eq_ediv_of_nonneg (by omega), hq]
    omega

/-- The days before the year `y`, both counted from March of the year 0. -/
def marchStart (y : Int) : Int := 365 * y + y / 4 - y / 100 + y / 400

/-- The days before the month `mp`, with March as month 0. -/
def monthStart (mp : Int) : Int := (153 * mp + 2) / 5

/-- A month is at its place in the year that begins in March. -/
def marchMonth (m : Int) : Int := m + (if m > 2 then -3 else 9)

def marchYear (y m : Int) : Int := y - (if m ≤ 2 then 1 else 0)

theorem daysFromCivil_eq {y m : Int} (hm : 1 ≤ m) (d : Int) :
    nmeaDaysFromCivil y m d =
      marchStart (marchYear y m) + monthStart (marchMonth m) + d - 1 - 719468 := by
  have hmonth : 0 ≤ 153 * marchMonth m + 2 := by
    unfold marchMonth
    split <;> omega
  have hera := tdiv_floor (k := 400) (by omega) (marchYear y m)
  unfold nmeaDaysFromCivil
  dsimp only
  rw [← marchYear, ← marchMonth, show (399 : Int) = 400 - 1 by rfl, hera,
    Int.tdiv_eq_ediv_of_nonneg hmonth, Int.tdiv_eq_ediv_of_nonneg (by omega),
    Int.tdiv_eq_ediv_of_nonneg (by omega)]
  unfold marchStart monthStart
  omega

/-! ## 3. The next day has the next number -/

theorem marchStart_succ (y : Int) :
    marchStart (y + 1) = marchStart y + (if IsLeap (y + 1) then 366 else 365) := by
  unfold marchStart
  split <;> omega

/-- Every month but February is as long as the formula says. -/
theorem monthStart_succ {m : Int} (h1 : 1 ≤ m) (h12 : m ≤ 12) (hfeb : m ≠ 2) (y : Int) :
    monthStart (marchMonth m + 1) = monthStart (marchMonth m) + monthLength y m := by
  interval_cases m <;> first | rfl | exact absurd rfl hfeb

/-- **The next day has the next number.** -/
theorem daysFromCivil_next (d : Date) :
    nmeaDaysFromCivil d.next.year d.next.month d.next.day =
      nmeaDaysFromCivil d.year d.month d.day + 1 := by
  obtain ⟨hm1, hm12⟩ := d.month_mem
  rw [daysFromCivil_eq hm1, daysFromCivil_eq d.next.month_mem.1]
  rcases d.next_cases with ⟨hy, hm, hd⟩ | ⟨hlast, hdec, hy, hm, hd⟩ | ⟨hlast, hdec, hy, hm, hd⟩
  · rw [hy, hm, hd]
    omega
  · rw [hy, hm, hd, hlast]
    by_cases hfeb : d.month = 2
    · -- from February to March: the year that begins in March goes on by one
      have hyear := marchStart_succ (d.year - 1)
      rw [Int.sub_add_cancel] at hyear
      simp only [hfeb, marchYear, marchMonth, monthStart, monthLength]
      split at hyear <;> simp_all <;> omega
    · have hnext := monthStart_succ hm1 hm12 hfeb d.year
      have hplace : marchMonth (d.month + 1) = marchMonth d.month + 1 := by
        unfold marchMonth
        split <;> split <;> omega
      have hyear : marchYear d.year (d.month + 1) = marchYear d.year d.month := by
        unfold marchYear
        split <;> split <;> omega
      rw [hplace, hyear, hnext]
      omega
  · rw [hy, hm, hd, hlast, hdec]
    have hyear : marchYear (d.year + 1) 1 = marchYear d.year 12 := by simp [marchYear]
    have hjan := monthStart_succ (m := 12) (by omega) (by omega) (by omega) d.year
    rw [hyear]
    change _ + monthStart (marchMonth 12 + 1) + _ - _ - _ = _
    omega

/-! ## 4. A date comes back from its number -/

theorem marchMonth_mem {m : Int} (h1 : 1 ≤ m) (h12 : m ≤ 12) :
    0 ≤ marchMonth m ∧ marchMonth m ≤ 11 := by
  unfold marchMonth
  split <;> omega

/-- A month ends before the next one begins, -/
theorem month_ends {m : Int} (h1 : 1 ≤ m) (h12 : m ≤ 12) (y : Int) :
    monthStart (marchMonth m) + monthLength y m ≤ monthStart (marchMonth m + 1) := by
  by_cases hfeb : m = 2
  · subst hfeb
    simp only [marchMonth, monthStart, monthLength]
    simp
    split <;> simp
  · exact (monthStart_succ h1 h12 hfeb y).ge

/-- and before the year that begins in March is over. -/
theorem year_ends {m : Int} (h1 : 1 ≤ m) (h12 : m ≤ 12) (y : Int) :
    monthStart (marchMonth m) + monthLength y m ≤
      if IsLeap (marchYear y m + 1) then 366 else 365 := by
  by_cases hfeb : m = 2
  · subst hfeb
    simp only [marchYear, marchMonth, monthStart, monthLength]
    simp
    split <;> simp
  · have hmonth := marchMonth_mem h1 h12
    have hplace : marchMonth m ≤ 10 := by
      unfold marchMonth at hmonth ⊢
      split <;> omega
    rw [← monthStart_succ h1 h12 hfeb y]
    unfold monthStart
    split <;> omega

/-- The number of whole years in a part of an era: what is subtracted and added makes up for the
    leap days. -/
theorem yearOfEra {yoe doy doe : Int} (h0 : 0 ≤ yoe) (h399 : yoe ≤ 399) (hdoy : 0 ≤ doy)
    (hends : doy < if IsLeap (yoe + 1) then 366 else 365)
    (hdoe : doe = yoe * 365 + yoe / 4 - yoe / 100 + doy) :
    (doe - doe / 1460 + doe / 36524 - doe / 146096) / 365 = yoe := by
  -- the century, the four years in it, and the year of these
  obtain ⟨a, ha⟩ : ∃ a, a = yoe / 100 := ⟨_, rfl⟩
  obtain ⟨b, hb⟩ : ∃ b, b = yoe % 100 / 4 := ⟨_, rfl⟩
  obtain ⟨c, hc⟩ : ∃ c, c = yoe % 4 := ⟨_, rfl⟩
  have hyoe : yoe = 100 * a + 4 * b + c := by omega
  have hsum : doe = 36524 * a + 1461 * b + 365 * c + doy := by omega
  have hlast : doy ≤ 364 ∨ doy = 365 ∧ c = 3 ∧ (b ≠ 24 ∨ a = 3) := by
    split at hends <;> omega
  have hmem : 0 ≤ a ∧ a ≤ 3 ∧ 0 ≤ b ∧ b ≤ 24 ∧ 0 ≤ c ∧ c ≤ 3 := by omega
  clear hends hdoe ha hb hc h0 h399
  have hcentury : doe / 36524 - doe / 146096 = a := by
    have hrest : 1461 * b + 365 * c + doy ≤ 36523 ∨
        a = 3 ∧ 1461 * b + 365 * c + doy = 36524 := by omega
    rcases hrest with hrest | ⟨ha, hrest⟩ <;> omega
  have hfour : doe / 1460 = 25 * a + b + (24 * a + b + 365 * c + doy) / 1460 := by omega
  have hover : (24 * a + b + 365 * c + doy) / 1460 ≤ doy ∧
      doy - 364 ≤ (24 * a + b + 365 * c + doy) / 1460 := by omega
  omega

theorem civilFromDays_march {y mp d : Int} (h0 : 0 ≤ mp) (h11 : mp ≤ 11) (hd : 1 ≤ d)
    (hmonth : monthStart mp + d ≤ monthStart (mp + 1))
    (hyear : monthStart mp + d ≤ if IsLeap (y + 1) then 366 else 365) :
    nmeaCivilFromDays (marchStart y + monthStart mp + d - 1 - 719468) =
      (y + (if mp + (if mp < 10 then 3 else -9) ≤ 2 then 1 else 0),
        mp + (if mp < 10 then 3 else -9), d) := by
  obtain ⟨doy, hdoy⟩ : ∃ doy, doy = monthStart mp + d - 1 := ⟨_, rfl⟩
  obtain ⟨doe, hdoe⟩ :
      ∃ doe, doe = y % 400 * 365 + y % 400 / 4 - y % 400 / 100 + doy := ⟨_, rfl⟩
  have hdoy0 : 0 ≤ doy := by
    unfold monthStart at hdoy
    omega
  have hends : doy < if IsLeap (y % 400 + 1) then 366 else 365 := by
    split at hyear <;> split <;> omega
  have hmem : 0 ≤ doe ∧ doe ≤ 146096 := by
    split at hends <;> omega
  have hz : marchStart y + monthStart mp + d - 1 - 719468 + 719468 = y / 400 * 146097 + doe := by
    unfold marchStart
    omega
  have hera : (y / 400 * 146097 + doe) / 146097 = y / 400 := by omega
  have hyoe := yearOfEra (by omega) (by omega) hdoy0 hends hdoe
  have hmp : (5 * doy + 2) / 153 = mp := by
    unfold monthStart at hmonth hdoy
    omega
  have hback : y / 400 * 146097 + doe - y / 400 * 146097 = doe := by omega
  have hleft : doe - (365 * (y % 400) + y % 400 / 4 - y % 400 / 100) = doy := by omega
  have hday : doy - monthStart mp + 1 = d := by omega
  unfold nmeaCivilFromDays
  dsimp only
  have hdoeDiv (k : Int) : Int.tdiv doe k = doe / k := Int.tdiv_eq_ediv_of_nonneg hmem.1
  have hyoeDiv (k : Int) : Int.tdiv (y % 400) k = y % 400 / k :=
    Int.tdiv_eq_ediv_of_nonneg (by omega)
  rw [hz, show (146096 : Int) = 146097 - 1 by rfl, tdiv_floor (by omega), hera, hback,
    show (146097 : Int) - 1 = 146096 by rfl]
  rw [hdoeDiv, hdoeDiv, hdoeDiv, Int.tdiv_eq_ediv_of_nonneg (by omega), hyoe, hyoeDiv, hyoeDiv,
    hleft, Int.tdiv_eq_ediv_of_nonneg (by omega), hmp, Int.tdiv_eq_ediv_of_nonneg (by omega),
    ← monthStart, hday]
  rw [show y % 400 + y / 400 * 400 = y by omega]

/-- **A date comes back from its number.** -/
theorem civilFromDays_daysFromCivil (d : Date) :
    nmeaCivilFromDays (nmeaDaysFromCivil d.year d.month d.day) = (d.year, d.month, d.day) := by
  obtain ⟨h1, h12⟩ := d.month_mem
  have hplace := marchMonth_mem h1 h12
  have hmonth := month_ends h1 h12 d.year
  have hyear := year_ends h1 h12 d.year
  have hday := d.day_mem
  have hback : marchMonth d.month + (if marchMonth d.month < 10 then 3 else -9) = d.month := by
    unfold marchMonth
    split <;> split <;> omega
  rw [daysFromCivil_eq h1, civilFromDays_march hplace.1 hplace.2 hday.1 (by omega) (by omega),
    hback]
  unfold marchYear
  rw [Int.sub_add_cancel]

/-- **The day `n` days after 1 January 1970 has the number `n`,** -/
theorem daysFromCivil_after (n : Nat) :
    nmeaDaysFromCivil (Date.after n).year (Date.after n).month (Date.after n).day = n := by
  induction n with
  | zero => rfl
  | succ n ih =>
      rw [Date.after_succ, daysFromCivil_next, ih]
      rfl

/-- **and is the day of that number.** -/
theorem civilFromDays_after (n : Nat) :
    nmeaCivilFromDays n = ((Date.after n).year, (Date.after n).month, (Date.after n).day) := by
  rw [← civilFromDays_daysFromCivil, daysFromCivil_after]

theorem after_eq {n : Nat} {d : Date} (h : nmeaCivilFromDays n = (d.year, d.month, d.day)) :
    Date.after n = d := by
  rw [civilFromDays_after] at h
  injection h with hyear h
  injection h with hmonth hday
  exact Date.ext hyear hmonth hday

/-- The next two thousand years have four figures. -/
theorem year_after {n : Nat} (hn : n < 730000) :
    0 ≤ (Date.after n).year ∧ (Date.after n).year ≤ 9999 := by
  have hnumber := daysFromCivil_after n
  have hmonth := (Date.after n).month_mem
  have hday := (Date.after n).day_mem
  have hplace := marchMonth_mem hmonth.1 hmonth.2
  have hlength := monthLength_le (Date.after n).year (Date.after n).month
  rw [daysFromCivil_eq hmonth.1] at hnumber
  unfold marchStart monthStart marchYear at hnumber
  split at hnumber <;> omega

/-! ## 5. Every day from the year 0 on -/

/-- The numbers count the days. -/
theorem daysFromCivil_iterate (d : Date) (k : Nat) :
    nmeaDaysFromCivil (Date.next^[k] d).year (Date.next^[k] d).month (Date.next^[k] d).day =
      nmeaDaysFromCivil d.year d.month d.day + k := by
  induction k with
  | zero => simp
  | succ k ih =>
      rw [Function.iterate_succ_apply', daysFromCivil_next, ih]
      push_cast
      omega

theorem year_iterate (d : Date) (k : Nat) : d.year ≤ (Date.next^[k] d).year := by
  induction k with
  | zero => simp
  | succ k ih =>
      rw [Function.iterate_succ_apply']
      have hcases := (Date.next^[k] d).next_cases
      omega

/-- A day of a year from 0 on, that need not exist, has a number from 1 January of the year 0 on. -/
theorem daysFromCivil_ge {y m d : Int} (hy : 0 ≤ y) (hm : 1 ≤ m ∧ m ≤ 12) (hd : 1 ≤ d) :
    -719528 ≤ nmeaDaysFromCivil y m d := by
  rw [daysFromCivil_eq hm.1]
  unfold marchStart monthStart marchYear marchMonth
  split <;> split <;> omega

/-- and one of this century a number from 1 January 2000 on. -/
theorem daysFromCivil_ge_2000 {y m d : Int} (hy : 2000 ≤ y) (hm : 1 ≤ m ∧ m ≤ 12) (hd : 1 ≤ d) :
    10957 ≤ nmeaDaysFromCivil y m d := by
  rw [daysFromCivil_eq hm.1]
  unfold marchStart monthStart marchYear marchMonth
  split <;> split <;> omega

/-- The days of this century. -/
theorem year_of_days (d : Date) (h : 10957 ≤ nmeaDaysFromCivil d.year d.month d.day) :
    2000 ≤ d.year := by
  have hmonth := d.month_mem
  have hday := d.day_mem
  have hlength := monthLength_le d.year d.month
  rw [daysFromCivil_eq hmonth.1] at h
  unfold marchStart monthStart marchYear marchMonth at h
  split at h <;> split at h <;> omega

theorem year_le_of_days (d : Date) (h : nmeaDaysFromCivil d.year d.month d.day < 47482) :
    d.year ≤ 2099 := by
  have hmonth := d.month_mem
  have hday := d.day_mem
  rw [daysFromCivil_eq hmonth.1] at h
  unfold marchStart monthStart marchYear marchMonth at h
  split at h <;> split at h <;> omega

/-- 1 January of the year 0. -/
def yearZero : Date := ⟨0, 1, 1, Date.epoch.month_mem, by decide⟩

/-- **Every such number is that of a day.** -/
theorem exists_date {z : Int} (hz : -719528 ≤ z) :
    ∃ d : Date, nmeaDaysFromCivil d.year d.month d.day = z ∧ 0 ≤ d.year := by
  have hfirst : nmeaDaysFromCivil yearZero.year yearZero.month yearZero.day = -719528 := by decide
  refine ⟨Date.next^[(z + 719528).toNat] yearZero, ?_, year_iterate yearZero _⟩
  rw [daysFromCivil_iterate, hfirst]
  omega

/-- A number is that of one day. -/
theorem date_unique {d e : Date}
    (h : nmeaDaysFromCivil d.year d.month d.day = nmeaDaysFromCivil e.year e.month e.day) :
    d = e := by
  have hback := civilFromDays_daysFromCivil d
  rw [h, civilFromDays_daysFromCivil e] at hback
  injection hback with hyear hback
  injection hback with hmonth hday
  exact Date.ext hyear.symm hmonth.symm hday.symm

/-- **Days are in the order of their numbers.** -/
theorem before_iff (d e : Date) :
    d.Before e ↔
      nmeaDaysFromCivil d.year d.month d.day < nmeaDaysFromCivil e.year e.month e.day := by
  constructor
  · rintro ⟨n, rfl⟩
    rw [daysFromCivil_iterate]
    push_cast
    omega
  · intro hlt
    refine ⟨(nmeaDaysFromCivil e.year e.month e.day -
      nmeaDaysFromCivil d.year d.month d.day - 1).toNat, date_unique ?_⟩
    rw [daysFromCivil_iterate]
    push_cast
    omega

end Y210.Gps.Nmea

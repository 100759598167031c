/-
  File:      Y210/Gps/CivilRange.lean
  Subject:   DATES AND DAY NUMBERS IN 32 BITS.

  On the phone an `int` and a `long` have 32 bits. Here every intermediate of the two functions is
  tested; one that does not fit is the end of it. What is left are the day numbers up to 719468 days
  below the largest `long`, and on these the functions are those of `Civil`.

  * `nmeaDaysFromCivilLong`, `nmeaCivilFromDaysLong` -- the functions, with their overflows;
  * `daysLong_eq_some`, `civilLong_eq_some` -- where there is none;
  * `days_civil_inverse` -- they invert each other there, day after day.
-/
import Y210.Gps.Civil

namespace Y210.Gps.Nmea

open Y210.Lib.Calendar

/-! ## 1. The two functions -/

/-- An `int` or a `long`. -/
def long (x : Int) : Option Int := if -2 ^ 31 ≤ x ∧ x < 2 ^ 31 then some x else none

/-- What the functions divide to round down. -/
def dividend (x k : Int) : Option Int := if x ≥ 0 then some x else long (x - k)

/-- `nmea_days_from_civil`; `none` is an overflow. -/
def nmeaDaysFromCivilLong (y m d : Int) : Option Int := do
  let y ← long y
  let m ← long m
  let d ← long d
  let y ← long (y - (if m ≤ 2 then 1 else 0))
  let a ← dividend y 399
  let era := Int.tdiv a 400
  let b ← long (era * 400)
  let yoe ← long (y - b)
  let c ← long (m + (if m > 2 then -3 else 9))
  let c ← long (153 * c)
  let c ← long (c + 2)
  let doy ← long (Int.tdiv c 5 + d)
  let doy ← long (doy - 1)
  let doe ← long (yoe * 365)
  let doe ← long (doe + Int.tdiv yoe 4)
  let doe ← long (doe - Int.tdiv yoe 100)
  let doe ← long (doe + doy)
  let n ← long (era * 146097)
  let n ← long (n + doe)
  long (n - 719468)

/-- `nmea_civil_from_days`; `none` is an overflow. -/
def nmeaCivilFromDaysLong (z : Int) : Option (Int × Int × Int) := do
  let z ← long z
  let z ← long (z + 719468)
  let a ← dividend z 146096
  let era := Int.tdiv a 146097
  let b ← long (era * 146097)
  let doe ← long (z - b)
  let c ← long (doe - Int.tdiv doe 1460)
  let c ← long (c + Int.tdiv doe 36524)
  let c ← long (c - Int.tdiv doe 146096)
  let yoe := Int.tdiv c 365
  let c ← long (365 * yoe)
  let c ← long (c + Int.tdiv yoe 4)
  let c ← long (c - Int.tdiv yoe 100)
  let doy ← long (doe - c)
  let c ← long (5 * doy)
  let c ← long (c + 2)
  let mp := Int.tdiv c 153
  let c ← long (153 * mp)
  let c ← long (c + 2)
  let d ← long (doy - Int.tdiv c 5)
  let d ← long (d + 1)
  let m ← long (mp + (if mp < 10 then 3 else -9))
  let c ← long (era * 400)
  let y ← long (yoe + c)
  let y ← long (y + (if m ≤ 2 then 1 else 0))
  return (y, m, d)

/-! ## 2. Where nothing overflows -/

/-- The day numbers that the functions can work with. -/
def InRange (n : Int) : Prop := -2 ^ 31 ≤ n ∧ n + 719468 < 2 ^ 31

theorem long_eq {x : Int} (hlow : -2147483648 ≤ x) (hhigh : x < 2147483648) : long x = some x :=
  if_pos ⟨hlow, hhigh⟩

theorem long_eq_some {x y : Int} : long x = some y ↔ x = y ∧ -2 ^ 31 ≤ x ∧ x < 2 ^ 31 := by
  unfold long
  split
  · rename_i hx
    exact ⟨fun h => ⟨Option.some.inj h, hx⟩, fun h => congrArg some h.1⟩
  · rename_i hx
    exact ⟨nofun, fun h => absurd h.2 hx⟩

theorem long_bind {α : Type} {x : Int} {f : Int → Option α} (hlow : -2147483648 ≤ x)
    (hhigh : x < 2147483648) : (long x >>= f) = f x := by
  rw [long_eq hlow hhigh]
  rfl

theorem dividend_bind {α : Type} {x k : Int} {f : Int → Option α} (hk : 0 ≤ k)
    (hlow : -2147483648 ≤ x - k) :
    (dividend x k >>= f) = f (if x ≥ 0 then x else x - k) := by
  unfold dividend
  split
  · rfl
  · exact long_bind hlow (by omega)

theorem of_long_bind {α : Type} {x : Int} {f : Int → Option α} {r : α}
    (h : (long x >>= f) = some r) : (-2 ^ 31 ≤ x ∧ x < 2 ^ 31) ∧ f x = some r := by
  obtain ⟨a, ha, h⟩ := Option.bind_eq_some_iff.mp h
  obtain ⟨rfl, hx⟩ := long_eq_some.mp ha
  exact ⟨hx, h⟩

theorem of_dividend_bind {α : Type} {x k : Int} {f : Int → Option α} {r : α}
    (h : (dividend x k >>= f) = some r) : f (if x ≥ 0 then x else x - k) = some r := by
  unfold dividend at h
  by_cases hx : x ≥ 0
  · rw [if_pos hx] at h ⊢
    exact h
  · rw [if_neg hx] at h ⊢
    exact (of_long_bind h).2

/-- C's division of a number between two multiples of the divisor. -/
theorem tdiv_mem {x k : Int} (b : Int) (hk : 0 < k) (hlow : -(b * k) ≤ x) (hhigh : x ≤ b * k) :
    -b ≤ Int.tdiv x k ∧ Int.tdiv x k ≤ b := by
  have hb := Int.mul_tdiv_cancel b (Int.ne_of_gt hk)
  have hneg := Int.neg_tdiv (b * k) k
  have hfirst := Int.tdiv_le_tdiv hk hlow
  have hlast := Int.tdiv_le_tdiv hk hhigh
  omega

theorem civilLong_of_inRange {n : Int} (hn : InRange n) :
    nmeaCivilFromDaysLong n = some (nmeaCivilFromDays n) := by
  obtain ⟨hlow, hhigh⟩ := hn
  have hfloor := tdiv_floor (k := 146097) (by omega) (n + 719468)
  rw [show (146097 : Int) - 1 = 146096 by rfl] at hfloor
  obtain ⟨era, hera⟩ : ∃ era, era = (n + 719468) / 146097 := ⟨_, rfl⟩
  obtain ⟨doe, hdoe⟩ : ∃ doe, doe = n + 719468 - era * 146097 := ⟨_, rfl⟩
  have hmem : 0 ≤ doe ∧ doe ≤ 146096 := by omega
  unfold nmeaCivilFromDaysLong nmeaCivilFromDays
  rw [long_bind (by omega) (by omega), long_bind (by omega) (by omega),
    dividend_bind (by omega) (by omega)]
  dsimp only
  rw [hfloor, ← hera, long_bind (by omega) (by omega), ← hdoe, long_bind (by omega) (by omega)]
  have h₁ := tdiv_mem (x := doe) (k := 1460) 101 (by omega) (by omega) (by omega)
  have h₂ := tdiv_mem (x := doe) (k := 36524) 5 (by omega) (by omega) (by omega)
  have h₃ := tdiv_mem (x := doe) (k := 146096) 1 (by omega) (by omega) (by omega)
  rw [long_bind (by omega) (by omega), long_bind (by omega) (by omega),
    long_bind (by omega) (by omega)]
  have hyoe := tdiv_mem (k := 365) 401 (by omega)
    (by omega : -(401 * 365) ≤ doe - doe.tdiv 1460 + doe.tdiv 36524 - doe.tdiv 146096) (by omega)
  generalize (doe - doe.tdiv 1460 + doe.tdiv 36524 - doe.tdiv 146096).tdiv 365 = yoe at hyoe ⊢
  have h₄ := tdiv_mem (x := yoe) (k := 4) 101 (by omega) (by omega) (by omega)
  have h₅ := tdiv_mem (x := yoe) (k := 100) 5 (by omega) (by omega) (by omega)
  rw [long_bind (by omega) (by omega), long_bind (by omega) (by omega),
    long_bind (by omega) (by omega), long_bind (by omega) (by omega)]
  have hdoy : -300000 ≤ doe - (365 * yoe + yoe.tdiv 4 - yoe.tdiv 100) ∧
      doe - (365 * yoe + yoe.tdiv 4 - yoe.tdiv 100) ≤ 300000 := by omega
  generalize doe - (365 * yoe + yoe.tdiv 4 - yoe.tdiv 100) = doy at hdoy ⊢
  rw [long_bind (by omega) (by omega), long_bind (by omega) (by omega)]
  have hmp := tdiv_mem (x := 5 * doy + 2) (k := 153) 10000 (by omega) (by omega) (by omega)
  generalize (5 * doy + 2).tdiv 153 = mp at hmp ⊢
  rw [long_bind (by omega) (by omega), long_bind (by omega) (by omega)]
  have h₆ := tdiv_mem (x := 153 * mp + 2) (k := 5) 400000 (by omega) (by omega) (by omega)
  rw [long_bind (by omega) (by omega), long_bind (by omega) (by omega),
    long_bind (by split <;> omega) (by split <;> omega), long_bind (by omega) (by omega),
    long_bind (by omega) (by omega), long_bind (by split <;> omega) (by split <;> omega)]
  rfl

/-- **The numbers `nmea_civil_from_days` can work with.** -/
theorem civilLong_eq_some {n : Int} {t : Int × Int × Int} :
    nmeaCivilFromDaysLong n = some t ↔ InRange n ∧ nmeaCivilFromDays n = t := by
  constructor
  · intro h
    have hn : InRange n := by
      obtain ⟨a, ha, h⟩ := Option.bind_eq_some_iff.mp h
      obtain ⟨b, hb, -⟩ := Option.bind_eq_some_iff.mp h
      obtain ⟨rfl, hlong⟩ := long_eq_some.mp ha
      exact ⟨hlong.1, (long_eq_some.mp hb).2.2⟩
    rw [civilLong_of_inRange hn] at h
    exact ⟨hn, Option.some.inj h⟩
  · rintro ⟨hn, rfl⟩
    exact civilLong_of_inRange hn

theorem daysLong_of_inRange (d : Date)
    (hn : InRange (nmeaDaysFromCivil d.year d.month d.day)) :
    nmeaDaysFromCivilLong d.year d.month d.day =
      some (nmeaDaysFromCivil d.year d.month d.day) := by
  obtain ⟨y, m, d, hm, hd⟩ := d
  have hlength := monthLength_le y m
  obtain ⟨hlow, hhigh⟩ := hn
  dsimp only at hd hlow hhigh ⊢
  have hyear : -6000000 ≤ y ∧ y ≤ 6000000 := by
    rw [daysFromCivil_eq hm.1] at hlow hhigh
    have hplace := marchMonth_mem hm.1 hm.2
    unfold marchStart monthStart marchYear at hlow hhigh
    split at hlow <;> omega
  have hfloor := tdiv_floor (k := 400) (by omega) (y - (if m ≤ 2 then 1 else 0))
  rw [show (400 : Int) - 1 = 399 by rfl] at hfloor
  unfold nmeaDaysFromCivilLong
  unfold nmeaDaysFromCivil at hlow hhigh ⊢
  dsimp only at hlow hhigh ⊢
  rw [hfloor] at hlow hhigh ⊢
  rw [long_bind (by omega) (by omega), long_bind (by omega) (by omega),
    long_bind (by omega) (by omega), long_bind (by split <;> omega) (by split <;> omega),
    dividend_bind (by omega) (by split <;> omega), hfloor]
  have hmarch : -6000001 ≤ y - (if m ≤ 2 then 1 else 0) ∧
      y - (if m ≤ 2 then 1 else 0) ≤ 6000000 := by
    split <;> omega
  generalize y - (if m ≤ 2 then 1 else 0) = march at *
  have hmonth : 0 ≤ m + (if m > 2 then -3 else 9) ∧ m + (if m > 2 then -3 else 9) ≤ 11 :=
    marchMonth_mem hm.1 hm.2
  generalize m + (if m > 2 then -3 else 9) = mp at *
  have hdays := tdiv_mem (x := 153 * mp + 2) (k := 5) 400 (by omega) (by omega) (by omega)
  have h₁ := tdiv_mem (x := march - march / 400 * 400) (k := 4) 100 (by omega) (by omega)
    (by omega)
  have h₂ := tdiv_mem (x := march - march / 400 * 400) (k := 100) 4 (by omega) (by omega)
    (by omega)
  rw [long_bind (by omega) (by omega), long_bind (by omega) (by omega),
    long_bind (by omega) (by omega), long_bind (by omega) (by omega),
    long_bind (by omega) (by omega), long_bind (by omega) (by omega),
    long_bind (by omega) (by omega), long_bind (by omega) (by omega),
    long_bind (by omega) (by omega), long_bind (by omega) (by omega),
    long_bind (by omega) (by omega), long_bind (by omega) (by omega),
    long_bind (by omega) (by omega)]
  exact long_eq hlow (by omega)

/-- What it returns is the number of the day, if anything. -/
theorem of_daysLong {y m d n : Int} (h : nmeaDaysFromCivilLong y m d = some n) :
    InRange n ∧ nmeaDaysFromCivil y m d = n := by
  unfold nmeaDaysFromCivilLong at h
  iterate 4 replace h := (of_long_bind h).2
  replace h := of_dividend_bind h
  iterate 12 replace h := (of_long_bind h).2
  obtain ⟨hsum, h⟩ := of_long_bind h
  obtain ⟨hdays, hn⟩ := long_eq_some.mp h
  exact ⟨⟨by omega, by omega⟩, hdays⟩

/-- **The days `nmea_days_from_civil` can work with.** -/
theorem daysLong_eq_some {d : Date} {n : Int} :
    nmeaDaysFromCivilLong d.year d.month d.day = some n ↔
      InRange n ∧ nmeaDaysFromCivil d.year d.month d.day = n := by
  refine ⟨of_daysLong, ?_⟩
  rintro ⟨hn, rfl⟩
  exact daysLong_of_inRange d hn

/-! ## 3. Every number is that of a day -/

theorem monthLength_era (y k m : Int) : monthLength (y + 400 * k) m = monthLength y m := by
  have hleap : IsLeap (y + 400 * k) ↔ IsLeap y := by
    unfold IsLeap
    omega
  simp only [monthLength, hleap]

/-- The same day, so many times 400 years later. -/
def later (d : Date) (k : Int) : Date where
  year := d.year + 400 * k
  month := d.month
  day := d.day
  month_mem := d.month_mem
  day_mem := by
    rw [monthLength_era]
    exact d.day_mem

theorem daysFromCivil_later (d : Date) (k : Int) :
    nmeaDaysFromCivil (later d k).year (later d k).month (later d k).day =
      nmeaDaysFromCivil d.year d.month d.day + 146097 * k := by
  rw [daysFromCivil_eq d.month_mem.1, daysFromCivil_eq (later d k).month_mem.1]
  simp only [later, marchStart, marchYear]
  split <;> omega

/-- **Every number is that of a day**, before the year 0 too. -/
theorem exists_day (z : Int) : ∃ d : Date, nmeaDaysFromCivil d.year d.month d.day = z := by
  obtain ⟨d, hd, -⟩ := exists_date (z := z % 146097) (by omega)
  refine ⟨later d (z / 146097), ?_⟩
  rw [daysFromCivil_later, hd]
  omega

/-- **The two functions invert each other** wherever none of their intermediates overflows: a date
    comes back from its number, and a number from its date, which exists. The next day has the next
    number, and 1 January 1970 the number 0. -/
theorem days_civil_inverse :
    (∀ (d : Date) n, nmeaDaysFromCivilLong d.year d.month d.day = some n →
      nmeaCivilFromDaysLong n = some (d.year, d.month, d.day)) ∧
    (∀ n y m d, nmeaCivilFromDaysLong n = some (y, m, d) →
      (∃ date : Date, date.year = y ∧ date.month = m ∧ date.day = d) ∧
        nmeaDaysFromCivilLong y m d = some n) ∧
    (∀ (d : Date) n n', nmeaDaysFromCivilLong d.year d.month d.day = some n →
      nmeaDaysFromCivilLong d.next.year d.next.month d.next.day = some n' → n' = n + 1) ∧
    nmeaDaysFromCivilLong 1970 1 1 = some 0 := by
  refine ⟨fun d n h => ?_, fun n y m day h => ?_, fun d n n' h h' => ?_, by decide⟩
  · obtain ⟨hn, rfl⟩ := daysLong_eq_some.mp h
    exact civilLong_eq_some.mpr ⟨hn, civilFromDays_daysFromCivil d⟩
  · obtain ⟨hn, hcivil⟩ := civilLong_eq_some.mp h
    obtain ⟨d, rfl⟩ := exists_day n
    rw [civilFromDays_daysFromCivil] at hcivil
    cases hcivil
    exact ⟨⟨d, rfl, rfl, rfl⟩, daysLong_eq_some.mpr ⟨hn, rfl⟩⟩
  · obtain ⟨-, rfl⟩ := daysLong_eq_some.mp h
    obtain ⟨-, rfl⟩ := daysLong_eq_some.mp h'
    exact daysFromCivil_next d

/-- 29 February of the year 4 before the year 0. -/
def leapDay : Date := ⟨-4, 2, 29, by decide, by decide⟩

theorem days_civil_inverse_leapDay :
    nmeaDaysFromCivilLong (-4) 2 29 = some (-720930) ∧
      nmeaCivilFromDaysLong (-720930) = some (-4, 2, 29) ∧
      nmeaDaysFromCivilLong (-4) 3 1 = some (-720929) :=
  ⟨by decide, days_civil_inverse.1 leapDay _ (by decide), by decide⟩

end Y210.Gps.Nmea

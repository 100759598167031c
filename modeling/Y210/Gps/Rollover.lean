/-
  File:      Y210/Gps/Rollover.lean
  Subject:   THE WEEK ROLLOVER, corrected in two places.

  A modem older than April 2019 dates its fixes 1024 weeks into the past. `loc_eng_report_position`
  adds 1024 weeks to the timestamp until it is not before 7 April 2019; `loc_eng_fix_nmea_dates`
  adds them to the date of a sentence once. One addition is enough from 22 August 1999 on, but not
  for the dates of a modem that has not heard of the time yet and begins at the GPS epoch in 1980.

  * `reportedTimestamp` -- the loop of `loc_eng_report_position`;
  * `CorrectionsAgree`, `corrections_agree_iff` -- when the two agree;
  * `gps_epoch_disagrees` -- 6 January 1980.
-/
import Y210.Gps.Nmea
import Mathlib.Tactic.Ring

namespace Y210.Gps.Nmea

open Y210.Lib.Calendar

/-! ## 1. The timestamp of a position -/

/-- 7 April 2019. -/
def kLastRolloverMs : Int := 1554595200000

/-- 1024 weeks. -/
def kGpsEpochMs : Int := 1024 * 7 * 24 * 3600 * 1000

/-- **The timestamp `loc_eng_report_position` reports** for a UTC time in milliseconds. -/
def reportedTimestamp (timestamp : Int) : Int :=
  if 0 < timestamp ∧ timestamp < kLastRolloverMs then reportedTimestamp (timestamp + kGpsEpochMs)
  else timestamp
termination_by (kLastRolloverMs - timestamp).toNat
decreasing_by
  unfold kGpsEpochMs kLastRolloverMs at *
  omega

theorem reportedTimestamp_late {t : Int} (h : kLastRolloverMs ≤ t) : reportedTimestamp t = t := by
  rw [reportedTimestamp, if_neg (by omega)]

theorem reportedTimestamp_early {t : Int} (h0 : 0 < t) (h : t < kLastRolloverMs) :
    reportedTimestamp t = reportedTimestamp (t + kGpsEpochMs) := by
  rw [reportedTimestamp, if_pos ⟨h0, h⟩]

/-- What is reported is not before the rollover, and whole rollovers later than what was
    measured. -/
theorem reportedTimestamp_spec {t : Int} (h0 : 0 < t) :
    kLastRolloverMs ≤ reportedTimestamp t ∧
      ∃ k : Nat, reportedTimestamp t = t + k * kGpsEpochMs := by
  fun_induction reportedTimestamp t with
  | case1 t h ih =>
      obtain ⟨hlate, k, hk⟩ := ih (by unfold kGpsEpochMs; omega)
      refine ⟨hlate, k + 1, ?_⟩
      rw [hk]
      push_cast
      ring
  | case2 t h => exact ⟨by omega, 0, by simp⟩

/-! ## 2. The two corrections -/

def msPerDay : Int := 24 * 3600 * 1000

/-- The UTC date of a time that is not before 1970. -/
def utcDate (t : Int) : Date := Date.after (t / msPerDay).toNat

/-- **The two corrections agree** on the time `t` and a ZDA sentence of its date: the sentence gets
    the date of the timestamp that is reported, and neither correction changes what it made. -/
structure CorrectionsAgree (t : Int) (z : Zda) : Prop where
  sentence : ∃ z' : Zda, z.Same z' ∧ locEngFixNmeaDates z.bytes = some z'.bytes ∧
    z'.date = utcDate (reportedTimestamp t) ∧ locEngFixNmeaDates z'.bytes = some z'.bytes
  late : kLastRolloverMs ≤ reportedTimestamp t
  rollovers : ∃ k : Nat, reportedTimestamp t = t + k * kGpsEpochMs
  stable : reportedTimestamp (reportedTimestamp t) = reportedTimestamp t

/-- The number of a time's day, and of the day 1024 weeks later. -/
theorem day_of_time {t : Int} (h0 : 0 < t) :
    ((t / msPerDay).toNat : Int) = t / 86400000 ∧
      ((t + kGpsEpochMs) / msPerDay).toNat = (t / msPerDay).toNat + 7168 := by
  unfold msPerDay kGpsEpochMs
  omega

theorem rollover_day (t : Int) : kLastRolloverDays ≤ t / 86400000 ↔ kLastRolloverMs ≤ t := by
  unfold kLastRolloverMs kLastRolloverDays
  omega

/-- From 22 August 1999 on one addition is enough. -/
theorem sentence_follows {t : Int} (h0 : 0 < t) (h : 935280000000 ≤ t) {z : Zda}
    (hz : z.date = utcDate t) :
    ∃ z' : Zda, z.Same z' ∧ locEngFixNmeaDates z.bytes = some z'.bytes ∧
      z'.date = utcDate (reportedTimestamp t) ∧ locEngFixNmeaDates z'.bytes = some z'.bytes := by
  obtain ⟨hday, hnext⟩ := day_of_time h0
  by_cases hlast : kLastRolloverMs ≤ t
  · have hfix := z.fix_late hz (by rw [hday]; exact (rollover_day t).mpr hlast)
    exact ⟨z, ⟨rfl, rfl, rfl⟩, hfix, by rw [reportedTimestamp_late hlast, hz], hfix⟩
  · have hearly : ((t / msPerDay).toNat : Int) < kLastRolloverDays := by
      rw [hday]
      exact Int.not_le.mp fun hle => hlast ((rollover_day t).mp hle)
    obtain ⟨z', hsame, hdate, hfix⟩ := z.fix_early hz hearly
    have henough : kLastRolloverMs ≤ t + kGpsEpochMs := by
      unfold kLastRolloverMs kGpsEpochMs
      omega
    have hreported : reportedTimestamp t = t + kGpsEpochMs := by
      rw [reportedTimestamp_early h0 (Int.not_le.mp hlast), reportedTimestamp_late henough]
    have hlate : kLastRolloverDays ≤ ((t / msPerDay).toNat + 7168 : Nat) := by
      push_cast
      rw [hday]
      unfold kLastRolloverDays
      omega
    refine ⟨z', hsame, hfix, ?_, z'.fix_late hdate hlate⟩
    rw [hdate, hreported, utcDate, hnext]

/-- Before that day the sentence stays before the rollover, which no timestamp does. -/
theorem sentence_stays_behind {t : Int} (h0 : 0 < t) (h : t < 935280000000) {z z' : Zda}
    (hz : z.date = utcDate t) (hfix : locEngFixNmeaDates z.bytes = some z'.bytes) :
    z'.date ≠ utcDate (reportedTimestamp t) := by
  obtain ⟨hday, -⟩ := day_of_time h0
  obtain ⟨hlate, -⟩ := reportedTimestamp_spec h0
  have hreported := (day_of_time (by unfold kLastRolloverMs at hlate; omega :
    0 < reportedTimestamp t)).1
  obtain ⟨z'', -, hdate, hfix'⟩ := z.fix_early hz (by unfold kLastRolloverDays; omega)
  intro heq
  have hunique := Zda.day_unique (Option.some.inj (hfix'.symm.trans hfix)) hdate heq
  have hbound := (rollover_day (reportedTimestamp t)).mpr hlate
  unfold kLastRolloverDays at hbound
  omega

/-- **The corrections agree exactly from 22 August 1999 on.** -/
theorem corrections_agree_iff {t : Int} (h0 : 0 < t) {z : Zda} (hz : z.date = utcDate t) :
    CorrectionsAgree t z ↔ 935280000000 ≤ t := by
  obtain ⟨hlate, hrollovers⟩ := reportedTimestamp_spec h0
  constructor
  · rintro ⟨⟨z', -, hfix, hdate, -⟩, -, -, -⟩
    exact Int.not_lt.mp fun h => sentence_stays_behind h0 h hz hfix hdate
  · intro h
    exact ⟨sentence_follows h0 h hz, hlate, hrollovers, reportedTimestamp_late hlate⟩

/-- A sentence at midnight, `$GPZDA,000000,dd,mm,yyyy,00,00` and the end of the line. -/
def midnight (date : Date) (hyear : 0 ≤ date.year ∧ date.year ≤ 9999) : Zda where
  talker := [ch 'G', ch 'P']
  time := [ch '0', ch '0', ch '0', ch '0', ch '0', ch '0']
  date := date
  tail := [ch '0', ch '0', ch ',', ch '0', ch '0', ch '\r', ch '\n']
  talker_length := rfl
  talker_plain := List.all_eq_true.mp (by decide)
  time_plain := List.all_eq_true.mp (by decide)
  year_mem := hyear
  tail_mem := no_dollar (by decide)

/-- 24 October 2007, as which a fix of 9 June 2027 arrives. -/
theorem corrections_agree_2027 :
    ∃ z : Zda, z.date = utcDate 1193184000000 ∧ CorrectionsAgree 1193184000000 z := by
  have hdate : utcDate 1193184000000 = ⟨2007, 10, 24, by decide, by decide⟩ := after_eq rfl
  exact ⟨midnight ⟨2007, 10, 24, by decide, by decide⟩ (by decide), hdate.symm,
    (corrections_agree_iff (by decide) hdate.symm).mpr (by decide)⟩

/-- **The GPS epoch.** For 6 January 1980 the position is reported with 7 April 2019, and the
    sentence with 22 August 1999. -/
theorem gps_epoch_disagrees :
    ∃ z z' : Zda, z.date = utcDate 315964800000 ∧ z.date = ⟨1980, 1, 6, by decide, by decide⟩ ∧
      locEngFixNmeaDates z.bytes = some z'.bytes ∧
      z'.date = ⟨1999, 8, 22, by decide, by decide⟩ ∧
      reportedTimestamp 315964800000 = 1554595200000 ∧
      utcDate 1554595200000 = ⟨2019, 4, 7, by decide, by decide⟩ := by
  have hepoch : Date.after 3657 = ⟨1980, 1, 6, by decide, by decide⟩ := after_eq rfl
  have hmoved : Date.after (3657 + 7168) = ⟨1999, 8, 22, by decide, by decide⟩ := after_eq rfl
  have hlast : utcDate 1554595200000 = ⟨2019, 4, 7, by decide, by decide⟩ := after_eq rfl
  have hday : (315964800000 / msPerDay).toNat = 3657 := by decide
  have hreported : reportedTimestamp 315964800000 = 1554595200000 := by
    rw [reportedTimestamp_early (by decide) (by decide),
      reportedTimestamp_early (by decide) (by decide), reportedTimestamp_late (by decide)]
    rfl
  obtain ⟨z', -, hdate, hfix⟩ :=
    (midnight ⟨1980, 1, 6, by decide, by decide⟩ (by decide)).fix_early hepoch.symm (by decide)
  refine ⟨_, z', ?_, rfl, hfix, hdate.trans hmoved, hreported, hlast⟩
  rw [utcDate, hday, hepoch]
  rfl

end Y210.Gps.Nmea

/-
  File:      Y210/Gps/NmeaDates.lean
  Subject:   THE DATES AFTER THE FUNCTION: which buffers `loc_eng_fix_nmea_dates` corrects.

  A correction moves the calendar dates of RMC and ZDA sentences before 7 April 2019 forward by 7168
  days and leaves everything else but the checksum digits. The function does that, and more: it also
  moves a day that the month does not have, and takes a sentence for RMC or ZDA by its fourth to
  seventh byte.

  * `Frame.Of` -- an RMC or ZDA sentence with a date of the calendar;
  * `Corrected`, `Sentence.Right` -- a correction; a checksum that is right;
  * `Sentence.Sound` -- what the function takes for an early date is one;
  * `dates_corrected_iff` -- a buffer is corrected exactly when its sentences are sound;
  * `moves_april_31` -- the 31st of April 2011 becomes the 15th of December 2030.
-/
import Y210.Gps.NmeaTurns
import Mathlib.Data.List.Forall2

namespace Y210.Gps.Nmea

open Y210.Lib.Calendar

/-! ## 1. A correction -/

/-- The last rollover. -/
def rollover : Date := ⟨2019, 4, 7, by decide, by decide⟩

/-- The address of an RMC or ZDA sentence: a talker of two letters before those of the kind. `P` is
    that of a sentence of the maker's own. -/
def Frame.Named (t : Frame) : Prop :=
  ∃ a b, t.address = a :: b :: t.kind.letters ∧ a ≠ ch 'P'

/-- **An RMC or ZDA sentence with this date.** -/
structure Frame.Of (t : Frame) (s : Sentence) (D : Date) : Prop where
  eq : s = t.sentence D.year D.month D.day
  named : t.Named
  year : t.kind.Years D.year

/-- The same sentence, with other digits of the checksum. -/
structure Frame.Same (t t' : Frame) : Prop where
  kind : t'.kind = t.kind
  address : t'.address = t.address
  before : t'.before = t.before
  behind : t'.behind = t.behind
  sum : t'.sum.isSome = t.sum.isSome

/-- The frame with this checksum. -/
def Frame.withSum (t : Frame) (sum : Option (HexDigit × HexDigit)) : Frame := { t with sum := sum }

/-- **A correction**: an early date goes forward by 7168 days, everything else stays. (A date behind
    which no field comes may stay as well: no complete RMC or ZDA sentence ends with it.) -/
inductive Corrected (s : Sentence) : Sentence → Prop where
  | kept (h : ¬ ∃ (t : Frame) (D : Date), t.Of s D ∧ D.Before rollover ∧ t.behind ≠ []) :
      Corrected s s
  | moved {s' : Sentence} {t t' : Frame} {D : Date} (h : t.Of s D) (hearly : D.Before rollover)
      (hsame : t.Same t') (h' : t'.Of s' (Date.next^[7168] D)) : Corrected s s'

/-- The value of a hexadecimal digit. -/
def hexValue (c : UInt8) : Nat :=
  if isdigit c then c.toNat - 48 else if c ≤ ch 'F' then c.toNat - 55 else c.toNat - 87

/-- **The sentence has a checksum, and it is right.** -/
def Sentence.Right (s : Sentence) : Prop :=
  ∃ d, s.sum = some d ∧ 16 * hexValue d.1 + hexValue d.2 = (checksum s.body).toNat

/-- **What the function takes for an early date is one.** -/
def Sentence.Sound (s : Sentence) : Prop :=
  ∀ t y m d, s.Caught t y m d → t.Named ∧ d ≤ monthLength y m

/-! ## 2. Sound sentences are corrected -/

section Sound

variable {s s' : Sentence} {t : Frame} {D : Date} {y m d : Int}

/-- The function takes an RMC or ZDA sentence for one. -/
theorem Frame.Of.taken (h : t.Of s D) : hasId s.bytes 0 t.kind.id = true := by
  obtain ⟨a, b, haddress, -⟩ := h.named
  obtain ⟨f, l, hbefore⟩ : ∃ f l, t.before = f :: l := by
    apply List.exists_cons_of_length_pos
    rw [t.before_length]
    cases t.kind <;> decide
  rw [h.eq, t.bytes_sentence, Frame.lead, haddress, hbefore]
  cases t.kind with
  | rmc => exact hasId_iff.mpr ⟨rfl, rfl, rfl, rfl⟩
  | zda => exact hasId_iff.mpr ⟨rfl, rfl, rfl, rfl⟩

theorem early_iff (D : Date) :
    D.Before rollover ↔ nmeaDaysFromCivil D.year D.month D.day < kLastRolloverDays := by
  rw [before_iff, show nmeaDaysFromCivil rollover.year rollover.month rollover.day =
    kLastRolloverDays by decide]

/-- An early date is caught. -/
theorem Frame.Of.caught (h : t.Of s D) (hearly : D.Before rollover) (hbehind : t.behind ≠ []) :
    s.Caught t D.year D.month D.day := by
  have hmonth := D.month_mem
  have hday := D.day_mem
  have hlength := monthLength_le D.year D.month
  exact ⟨⟨h.eq, h.taken, hbehind, h.year, by omega, by omega⟩, hmonth, hday.1,
    (early_iff D).mp hearly⟩

/-- The new date can be written. -/
theorem Sentence.Caught.years (h : s.Caught t y m d) (hyear : 0 ≤ D.year)
    (hD : nmeaDaysFromCivil D.year D.month D.day = nmeaDaysFromCivil y m d + 7168) :
    t.kind.Years D.year := by
  have hyears := h.year
  have hearly := h.early
  unfold kLastRolloverDays at hearly
  have hle := year_le_of_days D (by omega)
  cases hk : t.kind with
  | rmc =>
    rw [hk] at hyears
    have hge := daysFromCivil_ge_2000 hyears.1 h.month_mem h.day_mem
    exact ⟨year_of_days D (by omega), hle⟩
  | zda => exact ⟨hyear, by omega⟩

theorem hexValue_hex {i : Nat} (hi : i < 16) : hexValue (hex.getD i 0) = i := by
  interval_cases i <;> decide

/-- **A checksum that was computed is right.** -/
theorem Sentence.right_resum (h : s.sum.isSome) : s.resum.Right := by
  obtain ⟨old, hold⟩ := Option.isSome_iff_exists.mp h
  have hsum : s.resum.sum = some (sumDigits (checksum s.body)) := by
    simp [Sentence.resum, hold]
  refine ⟨_, hsum, ?_⟩
  obtain ⟨hhigh, hlow⟩ := nibbles_lt (checksum s.body)
  rw [show s.resum.body = s.body from rfl]
  unfold sumDigits
  dsimp only
  rw [hexValue_hex hhigh, hexValue_hex hlow]
  generalize checksum s.body = sum
  rw [UInt8.toNat_shiftRight, show (4 : UInt8).toNat % 8 = 4 from rfl, Nat.shiftRight_eq_div_pow,
    UInt8.toNat_and, show (0xf : UInt8).toNat = 2 ^ 4 - 1 from rfl, Nat.and_two_pow_sub_one_eq_mod]
  omega

/-- **What becomes of a sound sentence is a correction.** -/
theorem Turned.corrected (h : Turned s s') (hsound : s.Sound) : Corrected s s' := by
  cases h with
  | kept hnot =>
    refine .kept ?_
    rintro ⟨t, D, hof, hearly, hbehind⟩
    exact hnot ⟨t, _, _, _, hof.caught hearly hbehind⟩
  | @moved t y m d hcaught D hyear hD =>
    obtain ⟨hnamed, hday⟩ := hsound t y m d hcaught
    obtain ⟨E, rfl, rfl, rfl⟩ : ∃ E : Date, E.year = y ∧ E.month = m ∧ E.day = d :=
      ⟨⟨y, m, d, hcaught.month_mem, hcaught.day_mem, hday⟩, rfl, rfl, rfl⟩
    have hlater : D = Date.next^[7168] E := date_unique (by rw [hD, daysFromCivil_iterate]; rfl)
    have hsame : t.Same (t.withSum (t.sentence D.year D.month D.day).resum.sum) :=
      ⟨rfl, rfl, rfl, rfl, Option.isSome_map⟩
    have hof : (t.withSum (t.sentence D.year D.month D.day).resum.sum).Of
        (t.sentence D.year D.month D.day).resum D :=
      ⟨rfl, hnamed, hcaught.years hyear hD⟩
    exact .moved ⟨hcaught.eq, hnamed, hcaught.year⟩ ((early_iff E).mpr hcaught.early) hsame
      (hlater ▸ hof)

theorem forall₂_corrected {l out : List Sentence} (h : List.Forall₂ Turned l out)
    (hsound : ∀ s ∈ l, s.Sound) : List.Forall₂ Corrected l out := by
  induction h with
  | nil => exact .nil
  | cons hs hl ih =>
    obtain ⟨hfirst, hrest⟩ := List.forall_mem_cons.mp hsound
    exact .cons (hs.corrected hfirst) (ih hrest)

theorem Turned.right (h : Turned s s') (hright : s.Right) : s'.Right := by
  cases h with
  | kept _ => exact hright
  | moved hcaught _ _ =>
    obtain ⟨d, hd, -⟩ := hright
    apply Sentence.right_resum
    rw [hcaught.eq] at hd
    exact Option.isSome_iff_exists.mpr ⟨d, hd⟩

end Sound

/-! ## 3. Corrected sentences are sound -/

section Corrected

variable {s s' : Sentence} {t t' : Frame} {D : Date} {y m d y' m' d' : Int}

theorem Frame.Same.length (h : t.Same t') (y m d y' m' d' : Int) :
    (t'.sentence y' m' d').bytes.length = (t.sentence y m d).bytes.length := by
  have hclosing : (closing t'.sum).length = (closing t.sum).length := by
    have hsum := h.sum
    cases ht : t.sum <;> cases ht' : t'.sum <;> simp_all [closing]
  simp [Frame.bytes_sentence, Frame.lead, Frame.tail, Kind.length_date, h.kind, h.address, h.before,
    h.behind, hclosing]

theorem Corrected.length (h : Corrected s s') : s'.bytes.length = s.bytes.length := by
  cases h with
  | kept _ => rfl
  | moved h _ hsame h' =>
    rw [h.eq, h'.eq]
    exact hsame.length _ _ _ _ _ _

/-- Numbers of one width are told by their digits. -/
theorem digits_inj {n : Nat} {v w : Int} (h : digits n v = digits n w) (hv : 0 ≤ v ∧ v < 10 ^ n)
    (hw : 0 ≤ w ∧ w < 10 ^ n) : v = w := by
  rw [← value_digits hv.1 hv.2, h, value_digits hw.1 hw.2]

/-- **A date is told by its bytes.** -/
theorem Kind.date_inj {k : Kind} (h : k.date y m d = k.date y' m' d') (hy : k.Years y)
    (hm : 0 ≤ m ∧ m ≤ 99) (hd : 0 ≤ d ∧ d ≤ 99) (hy' : k.Years y') (hm' : 0 ≤ m' ∧ m' ≤ 99)
    (hd' : 0 ≤ d' ∧ d' ≤ 99) : y = y' ∧ m = m' ∧ d = d' := by
  unfold Kind.date Kind.stamp at h
  obtain ⟨hday, h⟩ := List.append_inj h (by rw [length_digits, length_digits])
  obtain ⟨hmonth, h⟩ := List.append_inj (List.append_cancel_left h)
    (by rw [length_digits, length_digits])
  have hyear := List.append_cancel_left h
  obtain ⟨hw0, hwlt, hwritten⟩ := Kind.written_spec hy
  obtain ⟨hw0', hwlt', hwritten'⟩ := Kind.written_spec hy'
  have hsame := digits_inj hyear ⟨hw0, hwlt⟩ ⟨hw0', hwlt'⟩
  refine ⟨?_, digits_inj hmonth (by omega) (by omega), digits_inj hday (by omega) (by omega)⟩
  rw [← hwritten, hsame, hwritten']

/-- A caught sentence does not stay as it is. -/
theorem Sentence.Caught.ne (h : s.Caught t y m d) (hyear : 0 ≤ D.year)
    (hD : nmeaDaysFromCivil D.year D.month D.day = nmeaDaysFromCivil y m d + 7168) :
    s.bytes ≠ (t.sentence D.year D.month D.day).resum.bytes := by
  intro hbytes
  have hmonth := D.month_mem
  have hday := D.day_mem
  have hlength := monthLength_le D.year D.month
  have hresum : (t.sentence D.year D.month D.day).resum =
      (t.withSum (t.sentence D.year D.month D.day).resum.sum).sentence D.year D.month D.day := rfl
  rw [hresum, h.eq, Frame.bytes_sentence, Frame.bytes_sentence] at hbytes
  have hdate := (List.append_inj (List.append_cancel_left hbytes)
    (by rw [Kind.length_date, Frame.withSum, Kind.length_date])).1
  obtain ⟨hy, hm, hd⟩ := Kind.date_inj hdate h.year h.month h.day (h.years hyear hD) (by omega)
    (by omega)
  rw [← hy, ← hm, ← hd] at hD
  omega

/-- **The numbers of a sentence are its date**, if it has one. -/
theorem Sentence.Caught.of_date (h : s.Caught t y m d) (hof : t'.Of s D) :
    t.Named ∧ y = D.year ∧ m = D.month ∧ d = D.day := by
  have hmonth := D.month_mem
  have hday := D.day_mem
  have hlength := monthLength_le D.year D.month
  have hkind : t.kind = t'.kind := kind_unique h.taken hof.taken
  have heq : t.sentence y m d = t'.sentence D.year D.month D.day := h.eq.symm.trans hof.eq
  have haddress : t.address = t'.address := congrArg Sentence.address heq
  have hfields : t.before ++ (t.kind.texts y m d ++ t.behind) =
      t'.before ++ (t'.kind.texts D.year D.month D.day ++ t'.behind) :=
    congrArg Sentence.fields heq
  rw [← hkind] at hfields
  have hbehind := (List.append_inj hfields (by rw [t.before_length, t'.before_length, hkind])).2
  have htexts := (List.append_inj hbehind (by cases t.kind <;> rfl)).1
  have hdate : t.kind.date y m d = t.kind.date D.year D.month D.day := by
    have hjoined := congrArg joined htexts
    rw [Kind.joined_texts, Kind.joined_texts] at hjoined
    exact List.tail_eq_of_cons_eq hjoined
  refine ⟨?_, Kind.date_inj hdate h.year h.month h.day (hkind ▸ hof.year) (by omega) (by omega)⟩
  obtain ⟨a, b, hab, hP⟩ := hof.named
  exact ⟨a, b, by rw [haddress, hab, hkind], hP⟩

/-- **A sentence whose bytes are corrected is sound.** -/
theorem Turned.sound {s₁ : Sentence} (h : Turned s s') (hcorrected : Corrected s s₁)
    (hbytes : s₁.bytes = s'.bytes) : s.Sound := by
  intro t y m d hcaught
  cases hcorrected with
  | kept _ =>
    -- what is caught does change
    cases h with
    | kept hnot => exact absurd ⟨t, y, m, d, hcaught⟩ hnot
    | moved hcaught' hyear hD => exact absurd hbytes (hcaught'.ne hyear hD)
  | @moved _ t' _ D hof _ _ _ =>
    obtain ⟨hnamed, rfl, rfl, rfl⟩ := hcaught.of_date hof
    exact ⟨hnamed, D.day_mem.2⟩

/-- Buffers are the same when their sentences are. -/
theorem forall₂_sound {l out out' : List Sentence} (h : List.Forall₂ Corrected l out)
    (h' : List.Forall₂ Turned l out') (hbytes : bytesAll out = bytesAll out') :
    ∀ s ∈ l, s.Sound := by
  induction h generalizing out' with
  | nil => exact nofun
  | cons hs hl ih =>
    cases h' with
    | cons hs' hl' =>
      obtain ⟨hfirst, hrest⟩ := List.append_inj hbytes (hs.length.trans hs'.length.symm)
      exact List.forall_mem_cons.mpr ⟨hs'.sound hs hfirst, ih hl' hrest⟩

end Corrected

theorem length_bytesAll {l out : List Sentence} (h : List.Forall₂ Turned l out) :
    (bytesAll out).length = (bytesAll l).length := by
  induction h with
  | nil => rfl
  | cons hs hl ih => rw [bytesAll_cons, bytesAll_cons, List.length_append, List.length_append,
      hs.length, ih]

/-- **A buffer of complete sentences is corrected exactly when they are sound**: its length stays,
    each sentence is corrected, and a right checksum is right afterwards. -/
theorem dates_corrected_iff (next : UInt8) (l : List Sentence) :
    (∃ out, locEngFixNmeaDatesNext next (bytesAll l) = some (bytesAll out) ∧
        (bytesAll out).length = (bytesAll l).length ∧ List.Forall₂ Corrected l out ∧
        List.Forall₂ (fun s s' => s.Right → s'.Right) l out) ↔
      ∀ s ∈ l, s.Sound := by
  obtain ⟨out', hturned⟩ := exists_turned_all l
  have hfix := fix_bytesAll hturned next
  constructor
  · rintro ⟨out, hout, -, hcorrected, -⟩
    exact forall₂_sound hcorrected hturned (Option.some.inj (hout.symm.trans hfix))
  · intro hsound
    exact ⟨out', hfix, length_bytesAll hturned, forall₂_corrected hturned hsound,
      hturned.imp fun s s' h => h.right⟩

example : locEngFixNmeaDates (bytesOf "$GPRMC,,,,,,,,,220811,*43\r\n") =
    some (bytesOf "$GPRMC,,,,,,,,,070431,*4A\r\n") := by
  decide

/-- A sentence of the 31st of April. -/
def april31 : Sentence where
  address := bytesOf "GPZDA"
  fields := [[], bytesOf "31", bytesOf "04", bytesOf "2011", [], []]
  sum := some (⟨ch '4', by decide⟩, ⟨ch 'C', by decide⟩)
  address_plain := List.all_eq_true.mp (by decide)
  fields_plain := fun f hf => List.all_eq_true.mp
    (List.all_eq_true.mp (by decide : [[], bytesOf "31", bytesOf "04", bytesOf "2011", [], []].all
      (·.all plain) = true) f hf)

/-- **A day that April does not have is moved**, as if it were the first of May. -/
theorem moves_april_31 :
    bytesAll [april31] = bytesOf "$GPZDA,,31,04,2011,,*4C\r\n" ∧
      locEngFixNmeaDates (bytesAll [april31]) = some (bytesOf "$GPZDA,,15,12,2030,,*4E\r\n") ∧
      monthLength 2011 4 = 30 := by
  decide

end Y210.Gps.Nmea

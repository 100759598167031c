/-
  File:      Y210/Gps/NmeaTurns.lean
  Subject:   THE TURNS OF THE LOOP over a buffer of complete sentences.

  A turn changes a sentence only where it begins, and only when its date was found; which sentences
  those are can be told from the sentence alone. The turns at its other bytes do nothing.

  * `Sentence.Dated`, `found`, `dateFieldsNext_dated` -- a date is found in exactly the sentences
    whose fields hold one;
  * `Sentence.Caught` -- the sentences the function changes;
  * `Turned`, `Turned.fixDateAtNext` -- what becomes of one sentence;
  * `fix_bytesAll` -- and of the whole buffer.
-/
import Y210.Gps.NmeaSentences
import Mathlib.Data.List.Induction

namespace Y210.Gps.Nmea

open Y210.Lib.Calendar

/-! ## 1. The sentences that have a date -/

/-- **The numbers of a sentence** where the function looks for a date: it is taken for one of the
    kind, the numbers have their full width, and a field comes behind them. -/
structure Sentence.Dated (s : Sentence) (t : Frame) (y m d : Int) : Prop where
  eq : s = t.sentence y m d
  taken : hasId s.bytes 0 t.kind.id = true
  behind : t.behind ≠ []
  year : t.kind.Years y
  month : 0 ≤ m ∧ m ≤ 99
  day : 0 ≤ d ∧ d ≤ 99

section Dated

variable {pre : List UInt8} {s : Sentence} {rest : List Sentence} {next : UInt8} {t : Frame}
  {y m d : Int}

theorem byte_toNat (c : UInt8) : byte (48 + ((c.toNat : Int) - 48)) = c := by
  have hlt := c.toNat_lt
  have hnat : ((48 + ((c.toNat : Int) - 48)) % 256).toNat = c.toNat := by omega
  rw [byte, hnat]
  exact UInt8.ofNat_toNat

theorem isdigit_toNat {c : UInt8} (h : isdigit c = true) : 48 ≤ c.toNat ∧ c.toNat ≤ 57 := by
  simp only [isdigit, Bool.and_eq_true, decide_eq_true_eq, UInt8.le_iff_toNat_le] at h
  exact h

/-- **Digits are the digits of their value.** -/
theorem digits_value {ds : List UInt8} (hds : ∀ c ∈ ds, isdigit c = true) :
    digits ds.length (value 0 ds) = ds ∧ value 0 ds < 10 ^ ds.length := by
  induction ds using List.reverseRecOn with
  | nil => exact ⟨rfl, by decide⟩
  | append_singleton ds c ih =>
    have hinit : ∀ x ∈ ds, isdigit x = true := fun x hx => hds x (List.mem_append_left _ hx)
    obtain ⟨hdigits, hlt⟩ := ih hinit
    have hc := isdigit_toNat (hds c (List.mem_append_right _ (List.mem_singleton_self c)))
    have hnonneg := value_nonneg hinit (Int.le_refl 0)
    have hvalue : value 0 (ds ++ [c]) = value 0 ds * 10 + (c.toNat - 48) := by simp [value]
    rw [hvalue, List.length_append, List.length_singleton]
    constructor
    · have hdiv : (value 0 ds * 10 + ((c.toNat : Int) - 48)) / 10 = value 0 ds := by omega
      have hmod : (value 0 ds * 10 + ((c.toNat : Int) - 48)) % 10 = (c.toNat : Int) - 48 := by omega
      rw [digits, hdiv, hmod, hdigits, byte_toNat]
    · rw [Int.pow_succ]
      omega

/-- A number of `n` digits. -/
theorem exists_digits (ds : List UInt8) (hds : ∀ c ∈ ds, isdigit c = true) {n : Nat}
    (hn : ds.length = n) : ∃ v : Int, ds = digits n v ∧ 0 ≤ v ∧ v < 10 ^ n := by
  subst hn
  obtain ⟨hdigits, hlt⟩ := digits_value hds
  exact ⟨value 0 ds, hdigits.symm, value_nonneg hds (Int.le_refl 0), hlt⟩

/-- **An RMC sentence** whose field 9 is six digits. -/
theorem dated_of_rmc {l r : List (List UInt8)} {f : List UInt8} (hfields : s.fields = l ++ f :: r)
    (hl : l.length = 8) (hid : hasId s.bytes 0 rmcId = true) (hlength : f.length = 6)
    (hdigits : ∀ c ∈ f, isdigit c = true) (hr : r ≠ []) : ∃ t y m d, s.Dated t y m d := by
  have hsplit : f = f.take 2 ++ ((f.drop 2).take 2 ++ f.drop 4) := by
    rw [show f.drop 4 = (f.drop 2).drop 2 by rw [List.drop_drop], List.take_append_drop,
      List.take_append_drop]
  obtain ⟨d, hd, hd0, hdlt⟩ := exists_digits (f.take 2) (n := 2)
    (fun c hc => hdigits c (List.mem_of_mem_take hc)) (by simp [hlength])
  obtain ⟨m, hm, hm0, hmlt⟩ := exists_digits ((f.drop 2).take 2) (n := 2)
    (fun c hc => hdigits c (List.mem_of_mem_drop (List.mem_of_mem_take hc))) (by simp [hlength])
  obtain ⟨y, hy, hy0, hylt⟩ := exists_digits (f.drop 4) (n := 2)
    (fun c hc => hdigits c (List.mem_of_mem_drop hc)) (by simp [hlength])
  have hwritten : (2000 + y) % 100 = y := by omega
  refine ⟨⟨.rmc, s.address, l, r, s.sum, s.address_plain, ?_, ?_, hl⟩, 2000 + y, m, d, ?_, hid, hr,
    by simp only [Kind.Years]; omega, by omega, by omega⟩
  · exact fun g hg => s.fields_plain g (by rw [hfields]; exact List.mem_append_left _ hg)
  · exact fun g hg => s.fields_plain g (by rw [hfields]; simp [hg])
  · obtain ⟨address, fields, sum, haddress, hplain⟩ := s
    simp only [Frame.sentence, Kind.texts, hwritten, ← hd, ← hm, ← hy, ← hsplit]
    congr 1

/-- **A ZDA sentence** whose fields 2, 3 and 4 are two, two and four digits. -/
theorem dated_of_zda {l r : List (List UInt8)} {f g h : List UInt8}
    (hfields : s.fields = l ++ f :: g :: h :: r) (hl : l.length = 1)
    (hid : hasId s.bytes 0 zdaId = true) (hf : f.length = 2 ∧ ∀ c ∈ f, isdigit c = true)
    (hg : g.length = 2 ∧ ∀ c ∈ g, isdigit c = true) (hh : h.length = 4 ∧ ∀ c ∈ h, isdigit c = true)
    (hr : r ≠ []) : ∃ t y m d, s.Dated t y m d := by
  obtain ⟨d, hd, hd0, hdlt⟩ := exists_digits f hf.2 hf.1
  obtain ⟨m, hm, hm0, hmlt⟩ := exists_digits g hg.2 hg.1
  obtain ⟨y, hy, hy0, hylt⟩ := exists_digits h hh.2 hh.1
  refine ⟨⟨.zda, s.address, l, r, s.sum, s.address_plain, ?_, ?_, hl⟩, y, m, d, ?_, hid, hr,
    by simp only [Kind.Years]; omega, by omega, by omega⟩
  · exact fun g' hg' => s.fields_plain g' (by rw [hfields]; exact List.mem_append_left _ hg')
  · exact fun g' hg' => s.fields_plain g' (by rw [hfields]; simp [hg'])
  · obtain ⟨address, fields, sum, haddress, hplain⟩ := s
    simp only [Frame.sentence, Kind.texts, ← hd, ← hm, ← hy]
    congr 1

theorem split_at {l : List (List UInt8)} {n : Nat} (hn : n < l.length) :
    ∃ a x b, l = a ++ x :: b ∧ a.length = n :=
  ⟨l.take n, l[n], l.drop (n + 1), by rw [← List.drop_eq_getElem_cons hn, List.take_append_drop],
    by simp; omega⟩

/-- The three numbers of a date at the end of one another are one field. -/
theorem field_append {buf : List UInt8} {p i j : Nat} (h1 : (field buf p i).all isdigit = true)
    (h2 : (field buf (p + i) j).all isdigit = true) :
    (field buf p (i + j)).all isdigit = true := by
  rw [List.all_eq_true] at h1 h2 ⊢
  intro c hc
  obtain ⟨k, hk, hlt, hbyte⟩ := mem_field.mp hc
  by_cases hfirst : k < p + i
  · exact h1 c (mem_field.mpr ⟨k, hk, hfirst, hbyte⟩)
  · exact h2 c (mem_field.mpr ⟨k, by omega, by omega, hbyte⟩)

theorem found_rmc (hid : hasId s.bytes 0 rmcId = true) {f : DateFields}
    (hf : dateFieldsNext next (around pre s rest) pre.length = some f)
    (hdigits : f.Digits (around pre s rest)) : ∃ t y m d, s.Dated t y m d := by
  have hrmc : hasId (around pre s rest) pre.length rmcId = true :=
    (hasId_around pre s rest .rmc).trans hid
  by_cases hlength : 8 < s.fields.length
  · obtain ⟨l, g, r, hfields, hl⟩ := split_at hlength
    have hpos := nmeaField_around pre rest hfields
    rw [hl] at hpos
    rw [dateFieldsNext_rmc hrmc hpos] at hf
    split at hf
    · cases hf
    · rename_i hcomma
      cases hf
      rw [not_or, not_not] at hcomma
      obtain ⟨hday, hmonth, hyear⟩ := hdigits
      have hall := field_append (field_append hday hmonth) hyear
      have hg : ∀ c ∈ g, plain c = true := s.fields_plain g (by rw [hfields]; simp)
      rw [around_field hfields] at hall hcomma
      obtain ⟨hwidth, hr, hgd⟩ := width hg hall hcomma.2
      exact dated_of_rmc hfields hl hid hwidth hgd hr
  · unfold dateFieldsNext at hf
    rw [if_pos hrmc, nmeaField_around_none (by omega)] at hf
    cases hf

theorem found_zda (hrmc : hasId s.bytes 0 rmcId = false) (hid : hasId s.bytes 0 zdaId = true)
    {f : DateFields} (hf : dateFieldsNext next (around pre s rest) pre.length = some f)
    (hdigits : f.Digits (around pre s rest)) : ∃ t y m d, s.Dated t y m d := by
  have hnot : hasId (around pre s rest) pre.length rmcId = false :=
    (hasId_around pre s rest .rmc).trans hrmc
  have hzda : hasId (around pre s rest) pre.length zdaId = true :=
    (hasId_around pre s rest .zda).trans hid
  by_cases hlength : 3 < s.fields.length
  · obtain ⟨l, y, r, hfields, hl⟩ := split_at hlength
    obtain ⟨time, d, m, rfl⟩ := List.length_eq_three.mp hl
    have hday : s.fields = [time] ++ d :: m :: y :: r := hfields
    have hmonth : s.fields = [time, d] ++ m :: y :: r := hfields
    rw [dateFieldsNext_zda hnot hzda (nmeaField_around pre rest hday)
      (nmeaField_around pre rest hmonth) (nmeaField_around pre rest hfields)] at hf
    split at hf
    · cases hf
    · rename_i hcomma
      cases hf
      simp only [not_or, not_not] at hcomma
      obtain ⟨-, hc1, hc2, hc3⟩ := hcomma
      obtain ⟨hall1, hall2, hall3⟩ := hdigits
      rw [around_field hday] at hall1 hc1
      rw [around_field hmonth] at hall2 hc2
      rw [around_field hfields] at hall3 hc3
      obtain ⟨hd, -, hdd⟩ := width (s.fields_plain d (by simp [hfields])) hall1 hc1
      obtain ⟨hm, -, hmd⟩ := width (s.fields_plain m (by simp [hfields])) hall2 hc2
      obtain ⟨hy, hr, hyd⟩ := width (s.fields_plain y (by simp [hfields])) hall3 hc3
      exact dated_of_zda hday rfl hid ⟨hd, hdd⟩ ⟨hm, hmd⟩ ⟨hy, hyd⟩ hr
  · rw [dateFieldsNext_zda_none hnot hzda (nmeaField_around_none (by omega))] at hf
    cases hf

/-- **The function finds a date only in a sentence that has one.** -/
theorem found {f : DateFields} (hf : dateFieldsNext next (around pre s rest) pre.length = some f)
    (hdigits : f.Digits (around pre s rest)) : ∃ t y m d, s.Dated t y m d := by
  cases hrmc : hasId s.bytes 0 rmcId with
  | true => exact found_rmc hrmc hf hdigits
  | false =>
    cases hzda : hasId s.bytes 0 zdaId with
    | true => exact found_zda hrmc hzda hf hdigits
    | false =>
      have hnot : hasId (around pre s rest) pre.length rmcId = false :=
        (hasId_around pre s rest .rmc).trans hrmc
      have hnot' : hasId (around pre s rest) pre.length zdaId = false :=
        (hasId_around pre s rest .zda).trans hzda
      unfold dateFieldsNext at hf
      rw [if_neg (by simp [hnot]), if_neg (by simp [hnot'])] at hf
      cases hf

/-- The buffer with the sentence's date in it. -/
theorem around_sentence (pre : List UInt8) (t : Frame) (y m d : Int) (rest : List Sentence) :
    around pre (t.sentence y m d) rest =
      (pre ++ t.lead) ++ (t.kind.date y m d ++ (t.tail ++ bytesAll rest)) := by
  simp [around, t.bytes_sentence]

theorem tail_comma (hbehind : t.behind ≠ []) (more : List UInt8) :
    ∃ tail, t.tail ++ more = ch ',' :: tail := by
  obtain ⟨f, r, hr⟩ := List.exists_cons_of_ne_nil hbehind
  exact ⟨f ++ (joined r ++ (closing t.sum ++ more)), by simp [Frame.tail, hr]⟩

theorem length_front (pre : List UInt8) (s : Sentence) (l : List (List UInt8)) (f : List UInt8) :
    (pre ++ s.front (l ++ [f])).length = (pre ++ s.front l).length + (f.length + 1) := by
  simp only [Sentence.front, joined_append, joined_cons, joined_nil, List.length_cons,
    List.length_append, List.length_nil]
  omega

theorem dateFieldsNext_dated_rmc (hk : t.kind = .rmc) (h : (t.sentence y m d).Dated t y m d) :
    dateFieldsNext next (around pre (t.sentence y m d) rest) pre.length =
      some (Kind.rmc.slots (pre ++ t.lead).length) := by
  have hid : hasId (around pre (t.sentence y m d) rest) pre.length rmcId = true :=
    (hasId_around pre (t.sentence y m d) rest .rmc).trans (hk ▸ h.taken)
  have hfields : (t.sentence y m d).fields =
      t.before ++ (digits 2 d ++ (digits 2 m ++ digits 2 (y % 100))) :: t.behind := by
    simp [Frame.sentence, hk, Kind.texts]
  have hpos := nmeaField_around pre rest hfields
  rw [t.before_length, hk] at hpos
  obtain ⟨tail, htail⟩ := tail_comma h.behind (bytesAll rest)
  have hbuf := around_sentence pre t y m d rest
  rw [hk, htail] at hbuf
  have hcomma : peek next (pre ++ t.lead ++ (Kind.rmc.date y m d ++ ch ',' :: tail))
      ((pre ++ t.lead).length + 6) = ch ',' :=
    peek_eq (getElem?_behind _ _ tail (Kind.rmc.length_date y m d) (ch ','))
  rw [dateFieldsNext_rmc hid hpos, hbuf]
  have hroom : ¬ ((pre ++ t.lead ++ (Kind.rmc.date y m d ++ ch ',' :: tail)).length -
      (pre ++ t.lead).length < 6) := by
    simp only [List.length_append, Kind.length_date, Kind.gap, Kind.ylen, List.length_nil]
    omega
  exact if_neg (not_or.mpr ⟨hroom, not_not.mpr hcomma⟩)

/-- The commas behind the numbers of a ZDA sentence. -/
theorem zda_commas (next : UInt8) (lead tail : List UInt8) (y m d : Int) :
    peek next (lead ++ (Kind.zda.date y m d ++ ch ',' :: tail)) (lead.length + 2) = ch ',' ∧
      peek next (lead ++ (Kind.zda.date y m d ++ ch ',' :: tail)) (lead.length + 3 + 2) = ch ',' ∧
      peek next (lead ++ (Kind.zda.date y m d ++ ch ',' :: tail)) (lead.length + 6 + 4) =
        ch ',' := by
  obtain ⟨hday, hmonth, hyear⟩ := dated_commas lead tail (length_digits 2 d) (length_digits 2 m)
    (length_digits 4 y)
  rw [dated_eq] at hday hmonth hyear
  exact ⟨peek_eq hday, peek_eq hmonth, peek_eq hyear⟩

theorem dateFieldsNext_dated_zda (hk : t.kind = .zda) (h : (t.sentence y m d).Dated t y m d) :
    dateFieldsNext next (around pre (t.sentence y m d) rest) pre.length =
      some (Kind.zda.slots (pre ++ t.lead).length) := by
  have hid : hasId (around pre (t.sentence y m d) rest) pre.length zdaId = true :=
    (hasId_around pre (t.sentence y m d) rest .zda).trans (hk ▸ h.taken)
  have hnot : hasId (around pre (t.sentence y m d) rest) pre.length rmcId = false := by
    cases hrmc : hasId (around pre (t.sentence y m d) rest) pre.length rmcId with
    | false => rfl
    | true =>
      have hsame : Kind.rmc = Kind.zda :=
        kind_unique ((hasId_around pre _ rest .rmc).symm.trans hrmc) (hk ▸ h.taken)
      cases hsame
  have hday : (t.sentence y m d).fields =
      t.before ++ digits 2 d :: digits 2 m :: digits 4 y :: t.behind := by
    simp [Frame.sentence, hk, Kind.texts]
  have hmonth : (t.sentence y m d).fields =
      (t.before ++ [digits 2 d]) ++ digits 2 m :: digits 4 y :: t.behind := by
    rw [hday, List.append_assoc]
    rfl
  have hyear : (t.sentence y m d).fields =
      ((t.before ++ [digits 2 d]) ++ [digits 2 m]) ++ digits 4 y :: t.behind := by
    rw [hday, List.append_assoc, List.append_assoc]
    rfl
  have hbefore : t.before.length = 1 := t.before_length.trans (by rw [hk]; rfl)
  -- the second field is at the date, the others behind two digits and a comma
  have hdp : nmeaField ((around pre (t.sentence y m d) rest).drop pre.length) pre.length 2 =
      some (pre ++ t.lead).length := by
    have hpos := nmeaField_around pre rest hday
    rwa [hbefore] at hpos
  have hmp : nmeaField ((around pre (t.sentence y m d) rest).drop pre.length) pre.length 3 =
      some ((pre ++ t.lead).length + 3) := by
    have hpos := nmeaField_around pre rest hmonth
    rwa [length_front, length_digits, List.length_append, hbefore] at hpos
  have hyp : nmeaField ((around pre (t.sentence y m d) rest).drop pre.length) pre.length 4 =
      some ((pre ++ t.lead).length + 6) := by
    have hpos := nmeaField_around pre rest hyear
    rwa [length_front, length_front, length_digits, length_digits, List.length_append,
      List.length_append, hbefore] at hpos
  obtain ⟨tail, htail⟩ := tail_comma h.behind (bytesAll rest)
  have hbuf := around_sentence pre t y m d rest
  rw [hk, htail] at hbuf
  rw [dateFieldsNext_zda hnot hid hdp hmp hyp, hbuf]
  obtain ⟨hc1, hc2, hc3⟩ := zda_commas next (pre ++ t.lead) tail y m d
  have hroom : ¬ ((pre ++ t.lead ++ (Kind.zda.date y m d ++ ch ',' :: tail)).length -
      ((pre ++ t.lead).length + 6) < 4) := by
    simp only [List.length_append, Kind.length_date, Kind.gap, Kind.ylen, List.length_cons]
    omega
  exact if_neg (by simp only [hroom, hc1, hc2, hc3, ne_eq, not_true, or_false, not_false_iff])

/-- **It finds the date of every one.** -/
theorem dateFieldsNext_dated (h : s.Dated t y m d) :
    dateFieldsNext next (around pre s rest) pre.length =
      some (t.kind.slots (pre ++ t.lead).length) := by
  have hs := h.eq
  subst hs
  cases hk : t.kind with
  | rmc => exact dateFieldsNext_dated_rmc hk h
  | zda => exact dateFieldsNext_dated_zda hk h

end Dated

/-! ## 2. What becomes of a sentence -/

/-- The two digits of a checksum. -/
def sumDigits (sum : UInt8) : HexDigit × HexDigit :=
  (⟨hex.getD (sum >>> 4).toNat 0, hex_isxdigit (nibbles_lt sum).1⟩,
    ⟨hex.getD (sum &&& 0xf).toNat 0, hex_isxdigit (nibbles_lt sum).2⟩)

/-- The sentence with its checksum computed, if it has one. -/
def Sentence.resum (s : Sentence) : Sentence :=
  { s with sum := s.sum.map fun _ => sumDigits (checksum s.body) }

/-- **A sentence whose date the function changes.** -/
structure Sentence.Caught (s : Sentence) (t : Frame) (y m d : Int) : Prop
    extends s.Dated t y m d where
  month_mem : 1 ≤ m ∧ m ≤ 12
  day_mem : 1 ≤ d
  early : nmeaDaysFromCivil y m d < kLastRolloverDays

/-- **What becomes of a sentence.** -/
inductive Turned (s : Sentence) : Sentence → Prop where
  | kept (h : ¬ ∃ t y m d, s.Caught t y m d) : Turned s s
  | moved {t : Frame} {y m d : Int} (h : s.Caught t y m d) {D : Date} (hyear : 0 ≤ D.year)
      (hD : nmeaDaysFromCivil D.year D.month D.day = nmeaDaysFromCivil y m d + 7168) :
      Turned s (t.sentence D.year D.month D.day).resum

section Turned

variable {s s' : Sentence} {t : Frame} {y m d : Int} {next : UInt8}

theorem length_closing_map (sum : Option (HexDigit × HexDigit))
    (f : HexDigit × HexDigit → HexDigit × HexDigit) :
    (closing (sum.map f)).length = (closing sum).length := by
  cases sum <;> rfl

@[simp] theorem Sentence.length_resum (s : Sentence) : s.resum.bytes.length = s.bytes.length := by
  simp [Sentence.bytes, Sentence.resum, Sentence.body, length_closing_map]

theorem Frame.length_sentence (t : Frame) (y m d y' m' d' : Int) :
    (t.sentence y m d).bytes.length = (t.sentence y' m' d').bytes.length := by
  simp [t.bytes_sentence, Kind.length_date]

theorem Turned.length (h : Turned s s') : s'.bytes.length = s.bytes.length := by
  cases h with
  | kept h => rfl
  | moved h hyear hD =>
    rw [Sentence.length_resum, h.eq]
    exact Frame.length_sentence _ _ _ _ _ _ _

theorem exists_turned (s : Sentence) : ∃ s', Turned s s' := by
  by_cases h : ∃ t y m d, s.Caught t y m d
  · obtain ⟨t, y, m, d, hcaught⟩ := h
    have hmonth := hcaught.month_mem
    have hyear : 0 ≤ y := by
      have hyears := hcaught.year
      cases hk : t.kind <;> rw [hk] at hyears <;> simp only [Kind.Years] at hyears <;> omega
    have hge := daysFromCivil_ge hyear hmonth hcaught.day_mem
    obtain ⟨D, hD, hD0⟩ := exists_date (z := nmeaDaysFromCivil y m d + 7168) (by omega)
    exact ⟨_, .moved hcaught hD0 hD⟩
  · exact ⟨s, .kept h⟩

theorem around_closing (pre : List UInt8) (s : Sentence) (rest : List Sentence) :
    around pre s rest = (pre ++ ch '$' :: s.body) ++ (closing s.sum ++ bytesAll rest) := by
  simp [around, Sentence.bytes]

theorem summed_around (pre : List UInt8) (s : Sentence) (rest : List Sentence) :
    summed (around pre s rest) pre.length = s.body := by
  obtain ⟨x, more, hclosing, hx⟩ := closing_cases s.sum
  have hbytes : (around pre s rest).drop (pre.length + 1) =
      s.body ++ x :: (more ++ bytesAll rest) := by
    rw [around, ← List.drop_drop, List.drop_left]
    simp [Sentence.bytes, hclosing]
  have hbody : ∀ c ∈ s.body, (!endsFields c) = true := fun c hc => by
    rw [(s.body_mem hc).2]
    rfl
  rw [summed, hbytes, List.takeWhile_append_of_pos hbody]
  simp [hx]

theorem getElem?_front (front l : List UInt8) (i : Nat) :
    (front ++ l)[front.length + i]? = l[i]? := by
  rw [List.getElem?_append_right (by omega), Nat.add_sub_cancel_left]

theorem set_front (front l : List UInt8) (i : Nat) (x : UInt8) :
    (front ++ l).set (front.length + i) x = front ++ l.set i x := by
  rw [List.set_append_right _ _ (by omega), Nat.add_sub_cancel_left]

/-- **The checksum of a sentence in the buffer.** -/
theorem fixChecksum_around (pre : List UInt8) (s : Sentence) (rest : List Sentence) :
    fixChecksum (around pre s rest) pre.length = around pre s.resum rest := by
  have hlength : pre.length + 1 + s.body.length = (pre ++ ch '$' :: s.body).length := by
    simp only [List.length_append, List.length_cons]
    omega
  have hresum : around pre s.resum rest = (pre ++ ch '$' :: s.body) ++
      (closing (s.sum.map fun _ => sumDigits (checksum s.body)) ++ bytesAll rest) :=
    around_closing pre s.resum rest
  unfold fixChecksum
  dsimp only
  rw [summed_around, hlength, hresum, around_closing]
  cases s.sum with
  | none =>
    rw [if_neg]
    · rfl
    · rintro ⟨-, hstar, -⟩
      rw [← Nat.add_zero (List.length _), getElem?_front] at hstar
      cases hstar
  | some digits =>
    obtain ⟨h, l⟩ := digits
    rw [if_pos]
    · rw [set_front, set_front]
      rfl
    · refine ⟨?_, ?_, ?_, ?_⟩
      · simp only [closing, List.length_append, List.length_cons]
        omega
      · rw [← Nat.add_zero (List.length _), getElem?_front]
        rfl
      · rw [getElem?_front]
        exact h.property
      · rw [getElem?_front]
        exact l.property

theorem fixDateAtNext_same {buf : List UInt8} {p : Nat} {c : UInt8} (hc : buf[p]? = some c)
    (hne : c ≠ ch '$') : fixDateAtNext next buf p = some buf := by
  unfold fixDateAtNext
  simp [hc, hne]

theorem getElem?_dollar (pre : List UInt8) (s : Sentence) (rest : List Sentence) :
    (around pre s rest)[pre.length]? = some (ch '$') := by
  rw [around, ← Nat.add_zero pre.length, getElem?_front]
  rfl

/-- **The turn of the loop at a sentence that stays,** -/
theorem fixDateAtNext_kept (h : ¬ ∃ t y m d, s.Caught t y m d) (pre : List UInt8)
    (rest : List Sentence) :
    fixDateAtNext next (around pre s rest) pre.length = some (around pre s rest) := by
  unfold fixDateAtNext
  simp only [getElem?_dollar, Option.bind_eq_bind, Option.bind_some, ne_eq, not_true, if_false]
  cases hf : dateFieldsNext next (around pre s rest) pre.length with
  | none => rfl
  | some f =>
    dsimp only
    rcases readDays_spec (dateFieldsNext_inside hf) with hread | ⟨days, hread, hdigits, -⟩
    · rw [hread]
      rfl
    · obtain ⟨t, y, m, d, hdated⟩ := found hf hdigits
      cases hf.symm.trans (dateFieldsNext_dated hdated)
      have hs := hdated.eq
      have hread' := t.kind.readDays_date (pre ++ t.lead) (t.tail ++ bytesAll rest) hdated.year
        hdated.month hdated.day
      rw [← around_sentence, ← hs, hread] at hread'
      rw [hread, Option.bind_some]
      dsimp only
      split at hread'
      · cases Option.some.inj hread'
      · rename_i hvalid
        cases hread'
        rw [if_pos]
        by_contra hearly
        exact h ⟨t, y, m, d, hdated, by omega, by omega, Int.not_le.mp hearly⟩

/-- **and at one that is caught.** -/
theorem fixDateAtNext_caught (h : s.Caught t y m d) {D : Date} (hyear : 0 ≤ D.year)
    (hD : nmeaDaysFromCivil D.year D.month D.day = nmeaDaysFromCivil y m d + 7168)
    (pre : List UInt8) (rest : List Sentence) :
    fixDateAtNext next (around pre s rest) pre.length =
      some (around pre (t.sentence D.year D.month D.day).resum rest) := by
  have hmonth := h.month_mem
  have hday := h.day_mem
  have hDmonth := D.month_mem
  have hDday := D.day_mem
  have hread := t.kind.readDays_date (pre ++ t.lead) (t.tail ++ bytesAll rest) h.year h.month h.day
  rw [if_neg (by omega), ← around_sentence, ← h.eq] at hread
  have hwrite := t.kind.writeDate_stamp (pre ++ t.lead) (t.tail ++ bytesAll rest)
    (length_digits 2 d) (length_digits 2 m) (length_digits _ (t.kind.written y)) hyear
    (show 0 ≤ D.month by omega) (show 0 ≤ D.day by omega)
  rw [← Kind.date, ← around_sentence, ← around_sentence, ← h.eq] at hwrite
  unfold fixDateAtNext
  simp only [getElem?_dollar, Option.bind_eq_bind, Option.bind_some, ne_eq, not_true, if_false,
    dateFieldsNext_dated h.toDated, hread]
  rw [if_neg (Int.not_le.mpr h.early), show nmeaDaysFromCivil y m d + 1024 * 7 = _ from hD.symm,
    civilFromDays_daysFromCivil, hwrite, Option.bind_some, fixChecksum_around]
  rfl

theorem Turned.fixDateAtNext (h : Turned s s') (next : UInt8) (pre : List UInt8)
    (rest : List Sentence) :
    fixDateAtNext next (around pre s rest) pre.length = some (around pre s' rest) := by
  cases h with
  | kept h => exact fixDateAtNext_kept h pre rest
  | moved h hyear hD => exact fixDateAtNext_caught h hyear hD pre rest

/-- The bytes behind the first begin no sentence. -/
theorem foldlM_tail (next : UInt8) (pre : List UInt8) (s : Sentence) (rest : List Sentence) :
    (List.range' (pre.length + 1) (s.bytes.length - 1)).foldlM (Nmea.fixDateAtNext next)
      (around pre s rest) = some (around pre s rest) := by
  apply Zda.foldlM_same
  intro p hp
  rw [List.mem_range'_1] at hp
  obtain ⟨i, rfl⟩ : ∃ i, p = pre.length + (i + 1) := ⟨p - pre.length - 1, by omega⟩
  have hlt : i + 1 < s.bytes.length := by omega
  obtain ⟨c, hc⟩ : ∃ c, s.bytes[i + 1]? = some c := ⟨_, List.getElem?_eq_getElem hlt⟩
  have hmem : c ∈ s.body ++ closing s.sum := by
    rw [Sentence.bytes, List.getElem?_cons_succ] at hc
    exact List.mem_of_getElem? hc
  exact fixDateAtNext_same ((getElem?_around hlt).trans hc) (s.bytes_tail_mem hmem)

/-- **The turns of the loop over one sentence.** -/
theorem Turned.foldlM (h : Turned s s') (next : UInt8) (pre : List UInt8) (rest : List Sentence) :
    (List.range' pre.length s.bytes.length).foldlM (Nmea.fixDateAtNext next) (around pre s rest) =
      some (around pre s' rest) := by
  obtain ⟨k, hk⟩ : ∃ k, s.bytes.length = k + 1 := ⟨(s.body ++ closing s.sum).length, rfl⟩
  have htail := foldlM_tail next pre s' rest
  rw [h.length, hk, Nat.add_sub_cancel] at htail
  rw [hk, List.range'_succ, List.foldlM_cons, h.fixDateAtNext, Option.bind_eq_bind,
    Option.bind_some, htail]

/-- **Over all of them**, behind what has been gone through. -/
theorem foldlM_bytesAll {l out : List Sentence} (h : List.Forall₂ Turned l out) (next : UInt8)
    (pre : List UInt8) :
    (List.range' pre.length (bytesAll l).length).foldlM (Nmea.fixDateAtNext next)
      (pre ++ bytesAll l) = some (pre ++ bytesAll out) := by
  induction h generalizing pre with
  | nil => rfl
  | @cons s s' l out hs hl ih =>
    have hfirst := hs.foldlM next pre l
    have hrest := ih (pre ++ s'.bytes)
    rw [List.length_append, hs.length, List.append_assoc, List.append_assoc] at hrest
    rw [bytesAll_cons, bytesAll_cons, List.length_append, ← List.range'_append_1,
      List.foldlM_append]
    unfold around at hfirst
    rw [hfirst, Option.bind_eq_bind, Option.bind_some, hrest]

/-- **The whole buffer.** -/
theorem fix_bytesAll {l out : List Sentence} (h : List.Forall₂ Turned l out) (next : UInt8) :
    locEngFixNmeaDatesNext next (bytesAll l) = some (bytesAll out) := by
  have hfold := foldlM_bytesAll h next []
  rwa [List.length_nil, List.nil_append, List.nil_append, ← List.range_eq_range'] at hfold

theorem exists_turned_all (l : List Sentence) : ∃ out, List.Forall₂ Turned l out := by
  induction l with
  | nil => exact ⟨[], .nil⟩
  | cons s l ih =>
    obtain ⟨out, hout⟩ := ih
    obtain ⟨s', hs'⟩ := exists_turned s
    exact ⟨s' :: out, .cons hs' hout⟩

end Turned

end Y210.Gps.Nmea

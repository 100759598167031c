/-
  File:      Y210/Gps/NmeaSentences.lean
  Subject:   COMPLETE SENTENCES, and where `loc_eng_fix_nmea_dates` looks for their dates.

  A complete sentence may still make the function look at the byte behind the buffer, when it is the
  last one and its date is too short. `locEngFixNmeaDatesNext` is the function with a byte there; it
  agrees with `locEngFixNmeaDates` wherever that one stays inside.

  * `Sentence`, `bytesAll` -- complete sentences, and a buffer of them;
  * `nmeaField_joined`, `nmeaField_closed` -- which fields of a sentence there are, and where;
  * `Frame`, `Frame.sentence` -- a sentence without its date, and with one;
  * `width` -- digits up to a comma are a whole field.
-/
import Y210.Gps.NmeaBounds

namespace Y210.Gps.Nmea

open Y210.Lib.Calendar

/-! ## 1. The byte behind the buffer -/

/-- A byte of the buffer, or the one behind it. -/
def peek (next : UInt8) (buf : List UInt8) (i : Nat) : UInt8 := buf.getD i next

/-- `dateFields` where `next` stands behind the buffer. -/
def dateFieldsNext (next : UInt8) (buf : List UInt8) (s : Nat) : Option DateFields :=
  if hasId buf s rmcId then
    match nmeaField (buf.drop s) s 9 with
    | none => none
    | some f =>
      if buf.length - f < 6 ∨ peek next buf (f + 6) ≠ ch ',' then none
      else some ⟨f, f + 2, f + 4, 2⟩
  else if hasId buf s zdaId then
    match nmeaField (buf.drop s) s 2, nmeaField (buf.drop s) s 3, nmeaField (buf.drop s) s 4 with
    | some dp, some mp, some yp =>
      if buf.length - yp < 4 ∨ peek next buf (dp + 2) ≠ ch ',' ∨ peek next buf (mp + 2) ≠ ch ',' ∨
          peek next buf (yp + 4) ≠ ch ',' then none
      else some ⟨dp, mp, yp, 4⟩
    | _, _, _ => none
  else none

/-- `fixDateAt` where `next` stands behind the buffer. -/
def fixDateAtNext (next : UInt8) (buf : List UInt8) (s : Nat) : Option (List UInt8) := do
  let c ← buf[s]?
  if c ≠ ch '$' then some buf else
    match dateFieldsNext next buf s with
    | none => some buf
    | some f =>
      match ← readDays buf f with
      | none => some buf
      | some days =>
        if days ≥ kLastRolloverDays then some buf
        else return fixChecksum (← writeDate buf f (nmeaCivilFromDays (days + 1024 * 7))) s

/-- **`loc_eng_fix_nmea_dates`** where `next` stands behind the buffer. -/
def locEngFixNmeaDatesNext (next : UInt8) (buf : List UInt8) : Option (List UInt8) :=
  (List.range buf.length).foldlM (fixDateAtNext next) buf

section Next

variable {next : UInt8} {buf : List UInt8} {s : Nat}

theorem peek_eq {c : UInt8} {i : Nat} (h : buf[i]? = some c) : peek next buf i = c := by
  rw [peek, List.getD_eq_getElem?_getD, h, Option.getD_some]

/-- The date of an RMC sentence, -/
theorem dateFieldsNext_rmc (hid : hasId buf s rmcId = true) {f : Nat}
    (hf : nmeaField (buf.drop s) s 9 = some f) :
    dateFieldsNext next buf s =
      if buf.length - f < 6 ∨ peek next buf (f + 6) ≠ ch ',' then none
      else some ⟨f, f + 2, f + 4, 2⟩ := by
  unfold dateFieldsNext
  rw [if_pos hid, hf]

/-- of a ZDA sentence, -/
theorem dateFieldsNext_zda (hrmc : hasId buf s rmcId = false) (hid : hasId buf s zdaId = true)
    {dp mp yp : Nat} (hdp : nmeaField (buf.drop s) s 2 = some dp)
    (hmp : nmeaField (buf.drop s) s 3 = some mp) (hyp : nmeaField (buf.drop s) s 4 = some yp) :
    dateFieldsNext next buf s =
      if buf.length - yp < 4 ∨ peek next buf (dp + 2) ≠ ch ',' ∨ peek next buf (mp + 2) ≠ ch ',' ∨
          peek next buf (yp + 4) ≠ ch ',' then none
      else some ⟨dp, mp, yp, 4⟩ := by
  unfold dateFieldsNext
  rw [if_neg (by simp [hrmc]), if_pos hid, hdp, hmp, hyp]

/-- and of one that ends before the year. -/
theorem dateFieldsNext_zda_none (hrmc : hasId buf s rmcId = false) (hid : hasId buf s zdaId = true)
    (hyp : nmeaField (buf.drop s) s 4 = none) : dateFieldsNext next buf s = none := by
  unfold dateFieldsNext
  rw [if_neg (by simp [hrmc]), if_pos hid, hyp]
  split <;> rename_i hnone
  · cases hnone
  · rfl

theorem zdaNext_of_inside {r : Option DateFields} (hrmc : hasId buf s rmcId = false)
    (hid : hasId buf s zdaId = true) (h : dateFields buf s = some r) :
    dateFieldsNext next buf s = r := by
  cases hyp : nmeaField (buf.drop s) s 4 with
  | none =>
    rw [dateFields_zda_none hrmc hid hyp] at h
    rw [dateFieldsNext_zda_none hrmc hid hyp]
    exact Option.some.inj h
  | some yp =>
    obtain ⟨mp, hmp, -⟩ := nmeaField_pred hyp
    obtain ⟨dp, hdp, -⟩ := nmeaField_pred hmp
    rw [dateFields_zda hrmc hid hdp hmp hyp] at h
    rw [dateFieldsNext_zda hrmc hid hdp hmp hyp]
    by_cases hshort : buf.length - yp < 4
    · rw [if_pos hshort] at h
      rw [if_pos (.inl hshort)]
      exact Option.some.inj h
    · rw [if_neg hshort] at h
      obtain ⟨c1, hc1, h⟩ := Option.bind_eq_some_iff.mp h
      rw [peek_eq hc1]
      by_cases hday : c1 ≠ ch ','
      · rw [if_pos hday] at h
        rw [if_pos (.inr (.inl hday))]
        exact Option.some.inj h
      · rw [if_neg hday] at h
        obtain ⟨c2, hc2, h⟩ := Option.bind_eq_some_iff.mp h
        rw [peek_eq hc2]
        by_cases hmonth : c2 ≠ ch ','
        · rw [if_pos hmonth] at h
          rw [if_pos (.inr (.inr (.inl hmonth)))]
          exact Option.some.inj h
        · rw [if_neg hmonth] at h
          obtain ⟨c3, hc3, h⟩ := Option.bind_eq_some_iff.mp h
          rw [peek_eq hc3, ← Option.some.inj h]
          simp only [hshort, hday, hmonth, false_or]

theorem dateFieldsNext_of_inside {r : Option DateFields} (h : dateFields buf s = some r) :
    dateFieldsNext next buf s = r := by
  cases hrmc : hasId buf s rmcId with
  | true =>
    cases hf : nmeaField (buf.drop s) s 9 with
    | none =>
      unfold dateFields at h
      unfold dateFieldsNext
      rw [if_pos hrmc, hf] at h ⊢
      exact Option.some.inj h
    | some f =>
      rw [dateFields_rmc hrmc hf] at h
      rw [dateFieldsNext_rmc hrmc hf]
      by_cases hshort : buf.length - f < 6
      · rw [if_pos hshort] at h
        rw [if_pos (.inl hshort)]
        exact Option.some.inj h
      · rw [if_neg hshort] at h
        obtain ⟨c, hc, hr⟩ := Option.bind_eq_some_iff.mp h
        rw [peek_eq hc, ← Option.some.inj hr]
        simp only [hshort, false_or]
  | false =>
    cases hzda : hasId buf s zdaId with
    | true => exact zdaNext_of_inside hrmc hzda h
    | false =>
      unfold dateFields at h
      unfold dateFieldsNext
      rw [if_neg (by simp [hrmc]), if_neg (by simp [hzda])] at h ⊢
      exact Option.some.inj h

theorem fixDateAtNext_of_inside {b : List UInt8} (h : fixDateAt buf s = some b) :
    fixDateAtNext next buf s = some b := by
  unfold fixDateAt at h
  unfold fixDateAtNext
  obtain ⟨c, hc, h⟩ := Option.bind_eq_some_iff.mp h
  rw [hc, Option.bind_eq_bind, Option.bind_some]
  by_cases hdollar : c ≠ ch '$'
  · rw [if_pos hdollar] at h ⊢
    exact h
  · rw [if_neg hdollar] at h ⊢
    obtain ⟨r, hr, h⟩ := Option.bind_eq_some_iff.mp h
    rw [dateFieldsNext_of_inside hr]
    exact h

/-- **The two functions agree** wherever the one stays inside of the buffer. -/
theorem next_of_inside {out : List UInt8} (h : locEngFixNmeaDates buf = some out) :
    locEngFixNmeaDatesNext next buf = some out := by
  unfold locEngFixNmeaDates at h
  unfold locEngFixNmeaDatesNext
  generalize List.range buf.length = l at h ⊢
  induction l generalizing buf with
  | nil => exact h
  | cons s l ih =>
    rw [List.foldlM_cons] at h ⊢
    obtain ⟨b, hb, h⟩ := Option.bind_eq_some_iff.mp h
    rw [fixDateAtNext_of_inside hb]
    exact ih h

/-- A date that is found is inside of the buffer. -/
theorem dateFieldsNext_inside {f : DateFields} (h : dateFieldsNext next buf s = some f) :
    f.Inside buf.length := by
  unfold dateFieldsNext at h
  unfold DateFields.Inside
  split at h
  · split at h
    · cases h
    · rename_i p hp
      split at h
      · cases h
      · cases h
        dsimp only
        omega
  · split at h
    · split at h
      · rename_i dp mp yp hdp hmp hyp
        obtain ⟨mp', hmp', hmy⟩ := nmeaField_pred hyp
        obtain ⟨dp', hdp', hdm⟩ := nmeaField_pred hmp
        cases hmp'.symm.trans hmp
        cases hdp'.symm.trans hdp
        split at h
        · cases h
        · cases h
          dsimp only
          omega
      · cases h
    · cases h

end Next

/-! ## 2. Sentences -/

/-- A hexadecimal digit. -/
abbrev HexDigit := { c : UInt8 // isxdigit c = true }

/-- Fields, each behind its comma. -/
def joined (fields : List (List UInt8)) : List UInt8 := fields.flatMap (ch ',' :: ·)

@[simp] theorem joined_nil : joined [] = [] := rfl

@[simp] theorem joined_cons (f : List UInt8) (l : List (List UInt8)) :
    joined (f :: l) = ch ',' :: (f ++ joined l) := rfl

@[simp] theorem joined_append (l l' : List (List UInt8)) :
    joined (l ++ l') = joined l ++ joined l' := List.flatMap_append

/-- **A complete sentence**: the address, the fields, and the checksum if there is one. -/
structure Sentence where
  address : List UInt8
  fields : List (List UInt8)
  sum : Option (HexDigit × HexDigit)
  address_plain : ∀ c ∈ address, plain c = true
  fields_plain : ∀ f ∈ fields, ∀ c ∈ f, plain c = true

/-- What ends a sentence. -/
def closing : Option (HexDigit × HexDigit) → List UInt8
  | none => [ch '\r', ch '\n']
  | some (h, l) => [ch '*', h.val, l.val, ch '\r', ch '\n']

namespace Sentence

/-- What the checksum is about. -/
def body (s : Sentence) : List UInt8 := s.address ++ joined s.fields

def bytes (s : Sentence) : List UInt8 := ch '$' :: (s.body ++ closing s.sum)

end Sentence

/-- **A buffer of sentences.** -/
def bytesAll (l : List Sentence) : List UInt8 := l.flatMap Sentence.bytes

@[simp] theorem bytesAll_cons (s : Sentence) (l : List Sentence) :
    bytesAll (s :: l) = s.bytes ++ bytesAll l := rfl

/-- The first byte of what ends a sentence ends its fields. -/
theorem closing_cases (sum : Option (HexDigit × HexDigit)) :
    ∃ x rest, closing sum = x :: rest ∧ endsFields x = true := by
  cases sum with
  | none => exact ⟨_, _, rfl, by decide⟩
  | some d => exact ⟨_, _, rfl, by decide⟩

theorem closing_mem {sum : Option (HexDigit × HexDigit)} {c : UInt8} (hc : c ∈ closing sum) :
    c ≠ ch '$' := by
  cases sum with
  | none =>
    simp only [closing, List.mem_cons, List.not_mem_nil, or_false] at hc
    rcases hc with rfl | rfl <;> decide
  | some d =>
    simp only [closing, List.mem_cons, List.not_mem_nil, or_false] at hc
    rcases hc with rfl | rfl | rfl | rfl | rfl
    · decide
    · exact isxdigit_ne d.1.property (by decide)
    · exact isxdigit_ne d.2.property (by decide)
    · decide
    · decide

/-- Bytes between which the fields of a sentence do not end. -/
theorem joined_mem {fields : List (List UInt8)} (h : ∀ f ∈ fields, ∀ c ∈ f, plain c = true)
    {c : UInt8} (hc : c ∈ joined fields) : c ≠ ch '$' ∧ endsFields c = false := by
  obtain ⟨f, hf, hc⟩ := List.mem_flatMap.mp hc
  rcases List.mem_cons.mp hc with rfl | hc
  · decide
  · exact ⟨(plain_spec (h f hf c hc)).1, (plain_spec (h f hf c hc)).2.1⟩

theorem Sentence.body_mem (s : Sentence) {c : UInt8} (hc : c ∈ s.body) :
    c ≠ ch '$' ∧ endsFields c = false := by
  rcases List.mem_append.mp hc with hc | hc
  · have hplain := plain_spec (s.address_plain c hc)
    exact ⟨hplain.1, hplain.2.1⟩
  · exact joined_mem s.fields_plain hc

/-- Only the first byte of a sentence begins one. -/
theorem Sentence.bytes_tail_mem (s : Sentence) {c : UInt8} (hc : c ∈ s.body ++ closing s.sum) :
    c ≠ ch '$' := by
  rcases List.mem_append.mp hc with hc | hc
  · exact (s.body_mem hc).1
  · exact closing_mem hc

/-! ## 3. Where the fields are -/

section Fields

/-- The bytes before the first comma. -/
def Uncut (g : List UInt8) : Prop := ∀ c ∈ g, endsFields c = false ∧ c ≠ ch ','

theorem uncut_plain {g : List UInt8} (h : ∀ c ∈ g, plain c = true) : Uncut g :=
  fun c hc => (plain_spec (h c hc)).2

/-- **The field behind `l`** begins behind its comma. -/
theorem nmeaField_joined {g : List UInt8} (hg : Uncut g) {l : List (List UInt8)}
    (hl : ∀ f ∈ l, ∀ c ∈ f, plain c = true) (rest : List UInt8) (s : Nat) :
    nmeaField (g ++ (joined l ++ ch ',' :: rest)) s (l.length + 1) =
      some (s + (g ++ (joined l ++ [ch ','])).length) := by
  induction l generalizing g s with
  | nil =>
    rw [joined_nil, List.nil_append, nmeaField_skip hg]
    simp [nmeaField, Nat.add_assoc]
  | cons f l ih =>
    have hrest := ih (uncut_plain (hl f List.mem_cons_self))
      (fun f' hf' => hl f' (List.mem_cons_of_mem f hf')) (s + g.length + 1)
    simp only [joined_cons, List.cons_append, List.append_assoc, List.length_cons]
    rw [nmeaField_skip hg, hrest]
    simp only [List.length_append, List.length_cons, List.length_nil]
    congr 1
    omega

/-- **There is no field behind the last.** -/
theorem nmeaField_closed {g : List UInt8} (hg : Uncut g) {l : List (List UInt8)}
    (hl : ∀ f ∈ l, ∀ c ∈ f, plain c = true) {x : UInt8} (hx : endsFields x = true)
    (rest : List UInt8) (s : Nat) {n : Nat} (hn : l.length < n) :
    nmeaField (g ++ (joined l ++ x :: rest)) s n = none := by
  induction l generalizing g s n with
  | nil =>
    obtain ⟨n, rfl⟩ : ∃ k, n = k + 1 := ⟨n - 1, by simp at hn; omega⟩
    rw [joined_nil, List.nil_append]
    induction g generalizing s with
    | nil => simp [nmeaField, hx]
    | cons c g ih =>
      obtain ⟨hend, hcomma⟩ := hg c List.mem_cons_self
      rw [List.cons_append, nmeaField, hend, if_neg Bool.false_ne_true, if_neg hcomma]
      exact ih (fun c' hc' => hg c' (List.mem_cons_of_mem c hc')) (s + 1)
  | cons f l ih =>
    obtain ⟨n, rfl⟩ : ∃ k, n = k + 1 := ⟨n - 1, by simp at hn; omega⟩
    simp only [joined_cons, List.cons_append, List.append_assoc]
    rw [nmeaField_skip hg]
    exact ih (uncut_plain (hl f List.mem_cons_self))
      (fun f' hf' => hl f' (List.mem_cons_of_mem f hf')) _ (by simpa using hn)

end Fields

/-! ## 4. Sentences that have a date -/

namespace Kind

def letters : Kind → List UInt8
  | rmc => [ch 'R', ch 'M', ch 'C']
  | zda => [ch 'Z', ch 'D', ch 'A']

/-- What the function compares. -/
def id : Kind → List UInt8
  | rmc => rmcId
  | zda => zdaId

/-- How many fields come before the date. -/
def before : Kind → Nat
  | rmc => 8
  | zda => 1

/-- The fields of a date. -/
def texts (k : Kind) (y m d : Int) : List (List UInt8) :=
  match k with
  | rmc => [digits 2 d ++ (digits 2 m ++ digits 2 (y % 100))]
  | zda => [digits 2 d, digits 2 m, digits 4 y]

theorem joined_texts (k : Kind) (y m d : Int) :
    joined (k.texts y m d) = ch ',' :: k.date y m d := by
  cases k <;> simp [texts, date, stamp, gap, written, ylen]

theorem texts_plain {k : Kind} {y m d : Int} {f : List UInt8} (hf : f ∈ k.texts y m d) {c : UInt8}
    (hc : c ∈ f) : plain c = true := by
  have hdate : c ∈ digits 2 d ∨ c ∈ digits 2 m ∨ c ∈ digits k.ylen (k.written y) := by
    cases k with
    | rmc =>
      cases List.mem_singleton.mp hf
      rwa [List.mem_append, List.mem_append] at hc
    | zda =>
      simp only [texts, List.mem_cons, List.not_mem_nil, or_false] at hf
      rcases hf with rfl | rfl | rfl
      · exact .inl hc
      · exact .inr (.inl hc)
      · exact .inr (.inr hc)
  rcases hdate with hc | hc | hc <;> exact (digits_spec hc).2

end Kind

/-- **A sentence without its date.** -/
structure Frame where
  kind : Kind
  address : List UInt8
  before : List (List UInt8)
  behind : List (List UInt8)
  sum : Option (HexDigit × HexDigit)
  address_plain : ∀ c ∈ address, plain c = true
  before_plain : ∀ f ∈ before, ∀ c ∈ f, plain c = true
  behind_plain : ∀ f ∈ behind, ∀ c ∈ f, plain c = true
  before_length : before.length = kind.before

namespace Frame

/-- The sentence with this date. -/
def sentence (t : Frame) (y m d : Int) : Sentence where
  address := t.address
  fields := t.before ++ (t.kind.texts y m d ++ t.behind)
  sum := t.sum
  address_plain := t.address_plain
  fields_plain := by
    intro f hf
    rcases List.mem_append.mp hf with hf | hf
    · exact t.before_plain f hf
    · rcases List.mem_append.mp hf with hf | hf
      · exact fun c hc => Kind.texts_plain hf hc
      · exact t.behind_plain f hf

/-- What comes before the date, and behind it. -/
def lead (t : Frame) : List UInt8 := ch '$' :: (t.address ++ (joined t.before ++ [ch ',']))

def tail (t : Frame) : List UInt8 := joined t.behind ++ closing t.sum

theorem bytes_sentence (t : Frame) (y m d : Int) :
    (t.sentence y m d).bytes = t.lead ++ (t.kind.date y m d ++ t.tail) := by
  simp [Sentence.bytes, Sentence.body, sentence, lead, tail, Kind.joined_texts]

end Frame

/-! ## 5. A sentence in the buffer -/

/-- A sentence behind `pre`, and before others. -/
def around (pre : List UInt8) (s : Sentence) (rest : List Sentence) : List UInt8 :=
  pre ++ (s.bytes ++ bytesAll rest)

section Around

variable {pre : List UInt8} {s : Sentence} {rest : List Sentence} {next : UInt8}

theorem getElem?_around {i : Nat} (hi : i < s.bytes.length) :
    (around pre s rest)[pre.length + i]? = s.bytes[i]? := by
  rw [around, List.getElem?_append_right (by omega), Nat.add_sub_cancel_left,
    List.getElem?_append_left hi]

theorem closing_last (sum : Option (HexDigit × HexDigit)) :
    ∃ init, closing sum = init ++ [ch '\n'] ∧ 1 ≤ init.length := by
  cases sum with
  | none => exact ⟨[ch '\r'], rfl, by decide⟩
  | some d => exact ⟨[ch '*', d.1.val, d.2.val, ch '\r'], rfl, by simp⟩

theorem Sentence.bytes_last (s : Sentence) :
    3 ≤ s.bytes.length ∧ s.bytes[s.bytes.length - 1]? = some (ch '\n') := by
  obtain ⟨init, hinit, hlength⟩ := closing_last s.sum
  have hbytes : s.bytes = (ch '$' :: (s.body ++ init)) ++ [ch '\n'] := by
    simp [Sentence.bytes, hinit]
  rw [hbytes]
  constructor
  · simp only [List.length_append, List.length_cons, List.length_nil]
    omega
  · rw [List.length_append, List.length_singleton, Nat.add_sub_cancel]
    exact List.getElem?_concat_length

/-- A sentence that is too short for the id has it not, whatever comes behind it. -/
theorem hasId_short {i0 i1 i2 i3 : UInt8} (hlf : ch '\n' ∉ [i0, i1, i2, i3]) (hdollar : ch '$' ≠ i0)
    (hshort : s.bytes.length ≤ 6) :
    hasId (around pre s rest) pre.length [i0, i1, i2, i3] = false := by
  obtain ⟨hthree, hlast⟩ := s.bytes_last
  by_cases heq : s.bytes.length = 3
  · -- the next sentence begins where the id would
    have hnext : (around pre s rest)[pre.length + 3]? = (bytesAll rest)[0]? := by
      rw [around, List.getElem?_append_right (by omega), List.getElem?_append_right (by omega)]
      congr 1
      omega
    cases rest with
    | nil =>
      apply Bool.eq_false_iff.mpr
      rw [ne_eq, hasId_iff, hnext]
      exact fun h => nomatch h.1
    | cons s' rest => exact hasId_first rfl hnext hdollar
  · exact hasId_false (by omega) ((getElem?_around (by omega)).trans hlast) hlf

theorem hasId_around (pre : List UInt8) (s : Sentence) (rest : List Sentence) (k : Kind) :
    hasId (around pre s rest) pre.length k.id = hasId s.bytes 0 k.id := by
  have hgeneral : ∀ {i0 i1 i2 i3 : UInt8}, ch '\n' ∉ [i0, i1, i2, i3] → ch '$' ≠ i0 →
      hasId (around pre s rest) pre.length [i0, i1, i2, i3] =
        hasId s.bytes 0 [i0, i1, i2, i3] := by
    intro i0 i1 i2 i3 hlf hdollar
    by_cases hlong : 6 < s.bytes.length
    · apply Bool.eq_iff_iff.mpr
      rw [hasId_iff, hasId_iff, getElem?_around (by omega), getElem?_around (by omega),
        getElem?_around (by omega), getElem?_around (by omega)]
    · rw [hasId_short hlf hdollar (by omega)]
      simp [hasId, hlong]
  cases k with
  | rmc => exact hgeneral (by decide) (by decide)
  | zda => exact hgeneral (by decide) (by decide)

/-- A sentence is of one kind. -/
theorem kind_unique {k k' : Kind} (h : hasId s.bytes 0 k.id = true)
    (h' : hasId s.bytes 0 k'.id = true) : k = k' := by
  have hid : k.id = k'.id := by
    unfold hasId at h h'
    rw [Bool.and_eq_true, beq_iff_eq] at h h'
    exact h.2.symm.trans h'.2
  revert hid
  cases k <;> cases k' <;> decide

/-- What comes before a field. -/
def Sentence.front (s : Sentence) (l : List (List UInt8)) : List UInt8 :=
  ch '$' :: (s.address ++ (joined l ++ [ch ',']))

variable {l r : List (List UInt8)} {f : List UInt8}

theorem around_field (h : s.fields = l ++ f :: r) :
    around pre s rest =
      (pre ++ s.front l) ++ (f ++ (joined r ++ (closing s.sum ++ bytesAll rest))) := by
  simp [around, Sentence.bytes, Sentence.body, Sentence.front, h]

theorem uncut_address (s : Sentence) : Uncut (ch '$' :: s.address) := by
  intro c hc
  rcases List.mem_cons.mp hc with rfl | hc
  · decide
  · exact uncut_plain s.address_plain c hc

/-- **A field of the sentence.** -/
theorem nmeaField_around (pre : List UInt8) (rest : List Sentence) (h : s.fields = l ++ f :: r) :
    nmeaField ((around pre s rest).drop pre.length) pre.length (l.length + 1) =
      some (pre ++ s.front l).length := by
  have hbytes : (around pre s rest).drop pre.length = (ch '$' :: s.address) ++
      (joined l ++ ch ',' :: (f ++ (joined r ++ (closing s.sum ++ bytesAll rest)))) := by
    rw [around, List.drop_left]
    simp [Sentence.bytes, Sentence.body, h]
  have hl : ∀ f' ∈ l, ∀ c ∈ f', plain c = true := fun f' hf' =>
    s.fields_plain f' (by rw [h]; exact List.mem_append_left _ hf')
  have hlength : (pre ++ s.front l).length = pre.length + (s.front l).length := List.length_append
  rw [hbytes, nmeaField_joined (uncut_address s) hl, hlength]
  rfl

/-- **There are no others.** -/
theorem nmeaField_around_none {n : Nat} (hn : s.fields.length < n) :
    nmeaField ((around pre s rest).drop pre.length) pre.length n = none := by
  obtain ⟨x, more, hclosing, hx⟩ := closing_cases s.sum
  have hbytes : (around pre s rest).drop pre.length =
      (ch '$' :: s.address) ++ (joined s.fields ++ x :: (more ++ bytesAll rest)) := by
    rw [around, List.drop_left]
    simp [Sentence.bytes, Sentence.body, hclosing]
  rw [hbytes, nmeaField_closed (uncut_address s) s.fields_plain hx _ _ hn]

/-- What comes behind a field. -/
theorem behind_cases (r : List (List UInt8)) (sum : Option (HexDigit × HexDigit))
    (more : List UInt8) :
    ∃ x tail, joined r ++ (closing sum ++ more) = x :: tail ∧ isdigit x = false ∧
      (x = ch ',' ↔ r ≠ []) := by
  cases r with
  | nil =>
    cases sum with
    | none => exact ⟨_, _, rfl, by decide, by decide⟩
    | some d => exact ⟨_, _, rfl, by decide, by decide⟩
  | cons f r => exact ⟨ch ',', _, rfl, by decide, by simp⟩

/-- **Digits up to a comma are a whole field.** -/
theorem width {front more : List UInt8} {n : Nat} (hf : ∀ c ∈ f, plain c = true)
    {sum : Option (HexDigit × HexDigit)}
    (hdigits : (field (front ++ (f ++ (joined r ++ (closing sum ++ more)))) front.length n).all
      isdigit = true)
    (hpeek : peek next (front ++ (f ++ (joined r ++ (closing sum ++ more)))) (front.length + n) =
      ch ',') :
    f.length = n ∧ r ≠ [] ∧ ∀ c ∈ f, isdigit c = true := by
  obtain ⟨x, tail, htail, hx, hcomma⟩ := behind_cases r sum more
  rw [htail] at hdigits hpeek
  rw [List.all_eq_true] at hdigits
  have hin : ∀ {i : Nat} {c : UInt8}, f[i]? = some c →
      (front ++ (f ++ x :: tail))[front.length + i]? = some c := by
    intro i c hc
    rw [List.getElem?_append_right (by omega), Nat.add_sub_cancel_left,
      List.getElem?_append_left (List.getElem?_eq_some_iff.mp hc).1, hc]
  have hle : n ≤ f.length := by
    by_contra hlt
    have hdigit := hdigits x (mem_field.mpr ⟨front.length + f.length, by omega, by omega,
      getElem?_behind front f tail rfl x⟩)
    exact absurd (hdigit.symm.trans hx) nofun
  have hge : f.length ≤ n := by
    by_contra hlt
    obtain ⟨c, hc⟩ : ∃ c, f[n]? = some c := ⟨_, List.getElem?_eq_getElem (by omega)⟩
    rw [peek_eq (hin hc)] at hpeek
    exact (plain_spec (hf c (List.mem_of_getElem? hc))).2.2 hpeek
  have hlength : f.length = n := by omega
  refine ⟨hlength, ?_, fun c hc => ?_⟩
  · rw [peek_eq (getElem?_behind front f tail hlength x)] at hpeek
    exact hcomma.mp hpeek
  · obtain ⟨i, hi⟩ := List.mem_iff_getElem?.mp hc
    have hlt := (List.getElem?_eq_some_iff.mp hi).1
    exact hdigits c (mem_field.mpr ⟨front.length + i, by omega, by omega, hin hi⟩)

end Around

end Y210.Gps.Nmea

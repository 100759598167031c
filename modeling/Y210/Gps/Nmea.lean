/-
  File:      Y210/Gps/Nmea.lean
  Subject:   DATES IN NMEA SENTENCES: `loc_eng_fix_nmea_dates` on the bytes of the buffer.

  The buffer is the list of its `len` bytes and a pointer an index. What lies beyond is not the
  function's: a read or a write there has no result (`none`). `continue` leaves the buffer as it is.

  * `locEngFixNmeaDates` -- the function, with `nmea_field`, `nmea_digits`, `nmea_put_digits`;
  * `digits`, `nmeaDigits_digits`, `nmeaPutDigits_eq` -- numbers of a fixed width, read and written;
  * `Kind.writeDate_stamp`, `Kind.readDays_date` -- a date of either kind of sentence;
  * `Zda`, `Zda.fix_late`, `Zda.fix_early` -- what becomes of a ZDA sentence.
-/
import Y210.Gps.Civil
import Mathlib.Data.List.Basic

namespace Y210.Gps.Nmea

open Y210.Lib.Calendar

/-! ## 1. The function -/

/-- The byte of a character. -/
def ch (c : Char) : UInt8 := c.toNat.toUInt8

def store (buf : List UInt8) (i : Nat) (c : UInt8) : Option (List UInt8) :=
  if i < buf.length then some (buf.set i c) else none

def isdigit (c : UInt8) : Bool := ch '0' ≤ c && c ≤ ch '9'

def isxdigit (c : UInt8) : Bool :=
  isdigit c || (ch 'A' ≤ c && c ≤ ch 'F') || (ch 'a' ≤ c && c ≤ ch 'f')

/-- Where the fields of a sentence end. -/
def endsFields (c : UInt8) : Bool := c == ch '*' || c == ch '\r' || c == ch '\n'

/-- `nmea_field`: the index of field `n` of the sentence that begins at `s`, of which `rest` is what
    is left of the buffer. -/
def nmeaField : List UInt8 → Nat → Nat → Option Nat
  | _, s, 0 => some s
  | [], _, _ + 1 => none
  | c :: rest, s, n + 1 =>
    if endsFields c then none else nmeaField rest (s + 1) (if c = ch ',' then n else n + 1)

/-- `nmea_digits`, with the value read so far: -1 when one of the `n` bytes is no digit. -/
def nmeaDigits (buf : List UInt8) (p : Nat) : Nat → Int → Option Int
  | 0, v => some v
  | n + 1, v => do
    let c ← buf[p]?
    if isdigit c then nmeaDigits buf (p + 1) n (v * 10 + (c.toNat - 48)) else some (-1)

/-- The byte an `int` is stored as. -/
def byte (v : Int) : UInt8 := (v % 256).toNat.toUInt8

/-- `nmea_put_digits`: from the last digit to the first. -/
def nmeaPutDigits (p : Nat) : Nat → Int → List UInt8 → Option (List UInt8)
  | 0, _, buf => some buf
  | n + 1, v, buf => do
    nmeaPutDigits p n (Int.tdiv v 10) (← store buf (p + n) (byte (48 + Int.tmod v 10)))

/-- Where a sentence has its date. -/
structure DateFields where
  dp : Nat
  mp : Nat
  yp : Nat
  ylen : Nat
  deriving DecidableEq

/-- The sentence at `s` has `id` after its two letters of the talker. -/
def hasId (buf : List UInt8) (s : Nat) (id : List UInt8) : Bool :=
  6 < buf.length - s && (buf.drop (s + 3)).take 4 == id

/-- The date of the sentence at `s`, if it is of a kind that has one and its fields are of the right
    width. -/
def dateFields (buf : List UInt8) (s : Nat) : Option (Option DateFields) :=
  if hasId buf s [ch 'R', ch 'M', ch 'C', ch ','] then
    match nmeaField (buf.drop s) s 9 with
    | none => some none
    | some f =>
      if buf.length - f < 6 then some none else do
        let c ← buf[f + 6]?
        some (if c ≠ ch ',' then none else some ⟨f, f + 2, f + 4, 2⟩)
  else if hasId buf s [ch 'Z', ch 'D', ch 'A', ch ','] then
    match nmeaField (buf.drop s) s 2, nmeaField (buf.drop s) s 3, nmeaField (buf.drop s) s 4 with
    | some dp, some mp, some yp =>
      if buf.length - yp < 4 then some none else do
        let c ← buf[dp + 2]?
        if c ≠ ch ',' then some none else do
          let c ← buf[mp + 2]?
          if c ≠ ch ',' then some none else do
            let c ← buf[yp + 4]?
            some (if c ≠ ch ',' then none else some ⟨dp, mp, yp, 4⟩)
    | _, _, _ => some none
  else some none

/-- The day number of the date in these fields, if they hold one. -/
def readDays (buf : List UInt8) (f : DateFields) : Option (Option Int) := do
  let d ← nmeaDigits buf f.dp 2 0
  let m ← nmeaDigits buf f.mp 2 0
  let y ← nmeaDigits buf f.yp f.ylen 0
  if d < 1 ∨ m < 1 ∨ m > 12 ∨ y < 0 then some none
  else some (some (nmeaDaysFromCivil (if f.ylen = 2 then y + 2000 else y) m d))

def writeDate (buf : List UInt8) (f : DateFields) (date : Int × Int × Int) :
    Option (List UInt8) := do
  let buf ← nmeaPutDigits f.dp 2 date.2.2 buf
  let buf ← nmeaPutDigits f.mp 2 date.2.1 buf
  nmeaPutDigits f.yp f.ylen (if f.ylen = 2 then Int.tmod date.1 100 else date.1) buf

def hex : List UInt8 :=
  [ch '0', ch '1', ch '2', ch '3', ch '4', ch '5', ch '6', ch '7', ch '8', ch '9', ch 'A', ch 'B',
    ch 'C', ch 'D', ch 'E', ch 'F']

/-- The bytes that are summed up: after the `$`, to the end of the fields. -/
def summed (buf : List UInt8) (s : Nat) : List UInt8 :=
  (buf.drop (s + 1)).takeWhile fun c => !endsFields c

def checksum (l : List UInt8) : UInt8 := l.foldl (· ^^^ ·) 0

/-- The checksum, where the sentence at `s` has one. -/
def fixChecksum (buf : List UInt8) (s : Nat) : List UInt8 :=
  let sum := checksum (summed buf s)
  let c := s + 1 + (summed buf s).length
  if c + 2 < buf.length ∧ buf[c]? = some (ch '*') ∧ (buf[c + 1]?).any isxdigit ∧
      (buf[c + 2]?).any isxdigit then
    (buf.set (c + 1) (hex.getD (sum >>> 4).toNat 0)).set (c + 2) (hex.getD (sum &&& 0xf).toNat 0)
  else buf

/-- 7 April 2019. -/
def kLastRolloverDays : Int := 17993

/-- The body of the loop. -/
def fixDateAt (buf : List UInt8) (s : Nat) : Option (List UInt8) := do
  let c ← buf[s]?
  if c ≠ ch '$' then some buf else
    match ← dateFields buf s with
    | none => some buf
    | some f =>
      match ← readDays buf f with
      | none => some buf
      | some days =>
        if days ≥ kLastRolloverDays then some buf
        else return fixChecksum (← writeDate buf f (nmeaCivilFromDays (days + 1024 * 7))) s

/-- **`loc_eng_fix_nmea_dates`.** -/
def locEngFixNmeaDates (buf : List UInt8) : Option (List UInt8) :=
  (List.range buf.length).foldlM fixDateAt buf

/-! ## 2. Numbers of a fixed width -/

/-- The last `n` decimal digits of `v`. -/
def digits : Nat → Int → List UInt8
  | 0, _ => []
  | n + 1, v => digits n (v / 10) ++ [byte (48 + v % 10)]

@[simp] theorem length_digits (n : Nat) (v : Int) : (digits n v).length = n := by
  induction n generalizing v with
  | zero => rfl
  | succ n ih => simp [digits, ih]

/-- A byte that neither ends a field nor begins a sentence. -/
def plain (c : UInt8) : Bool := c != ch '$' && c != ch ',' && !endsFields c

theorem byte_digit (v : Int) :
    isdigit (byte (48 + v % 10)) = true ∧ plain (byte (48 + v % 10)) = true ∧
      ((byte (48 + v % 10)).toNat : Int) = 48 + v % 10 := by
  have h0 : 0 ≤ v % 10 := by omega
  have h9 : v % 10 < 10 := by omega
  generalize v % 10 = r at h0 h9
  interval_cases r <;> decide

theorem digits_spec {n : Nat} {v : Int} {c : UInt8} (hc : c ∈ digits n v) :
    isdigit c = true ∧ plain c = true := by
  induction n generalizing v with
  | zero => cases hc
  | succ n ih =>
      rcases List.mem_append.mp hc with hc | hc
      · exact ih hc
      · cases List.mem_singleton.mp hc
        exact ⟨(byte_digit v).1, (byte_digit v).2.1⟩

/-- The value of digits read after `v`. -/
def value (v : Int) (ds : List UInt8) : Int := ds.foldl (fun v c => v * 10 + (c.toNat - 48)) v

theorem value_digits {n : Nat} {v : Int} (h0 : 0 ≤ v) (hn : v < 10 ^ n) :
    value 0 (digits n v) = v := by
  induction n generalizing v with
  | zero =>
      have hz : v = 0 := by omega
      rw [hz]
      rfl
  | succ n ih =>
      have hlast := (byte_digit v).2.2
      have hinit := ih (v := v / 10) (by omega) (by omega)
      simp only [value, digits, List.foldl_append, List.foldl_cons, List.foldl_nil] at hinit ⊢
      rw [hinit, hlast]
      omega

theorem nmeaDigits_value (lead ds rest : List UInt8) (hds : ∀ c ∈ ds, isdigit c = true) (v : Int) :
    nmeaDigits (lead ++ (ds ++ rest)) lead.length ds.length v = some (value v ds) := by
  induction ds generalizing lead v with
  | nil => rfl
  | cons c ds ih =>
      have htail := ih (lead ++ [c]) (fun x hx => hds x (List.mem_cons_of_mem c hx))
        (v * 10 + (c.toNat - 48))
      simp only [List.append_assoc, List.singleton_append, List.length_append, List.length_cons,
        List.length_nil, Nat.zero_add] at htail
      simp [nmeaDigits, hds c List.mem_cons_self, htail, value]

/-- **Reading.** -/
theorem nmeaDigits_digits (lead rest : List UInt8) {n : Nat} {v : Int} (h0 : 0 ≤ v)
    (hn : v < 10 ^ n) :
    nmeaDigits (lead ++ (digits n v ++ rest)) lead.length n 0 = some v := by
  have hread := nmeaDigits_value lead (digits n v) rest (fun c hc => (digits_spec hc).1) 0
  rwa [length_digits, value_digits h0 hn] at hread

/-- **Writing.** -/
theorem nmeaPutDigits_eq (lead : List UInt8) {old : List UInt8} (rest : List UInt8) {n : Nat}
    (hold : old.length = n) {v : Int} (h0 : 0 ≤ v) :
    nmeaPutDigits lead.length n v (lead ++ (old ++ rest)) =
      some (lead ++ (digits n v ++ rest)) := by
  induction n generalizing old rest v with
  | zero =>
      cases List.eq_nil_of_length_eq_zero hold
      rfl
  | succ n ih =>
      -- the last digit is written first
      obtain ⟨init, x, rfl⟩ : ∃ init x, old = init ++ [x] :=
        (List.eq_nil_or_concat' old).resolve_left (by rintro rfl; cases hold)
      have hinit : init.length = n := by simpa using hold
      have hstore : store (lead ++ (init ++ [x] ++ rest)) (lead.length + n)
          (byte (48 + Int.tmod v 10)) =
          some (lead ++ (init ++ byte (48 + v % 10) :: rest)) := by
        rw [store, if_pos (by simp; omega), Int.tmod_eq_emod_of_nonneg h0, ← hinit]
        simp
      rw [nmeaPutDigits, hstore]
      have hrest := ih (byte (48 + v % 10) :: rest) hinit (v := v / 10) (by omega)
      simp only [Option.bind_eq_bind, Option.bind_some, Int.tdiv_eq_ediv_of_nonneg h0, hrest]
      simp [digits]

/-! ## 3. Dates of either kind -/

/-- The sentences that have a date. -/
inductive Kind where
  | rmc
  | zda
  deriving DecidableEq

namespace Kind

/-- What stands between the numbers. -/
def gap : Kind → List UInt8
  | rmc => []
  | zda => [ch ',']

/-- How many digits the year has. -/
def ylen : Kind → Nat
  | rmc => 2
  | zda => 4

/-- The year as it is written. -/
def written : Kind → Int → Int
  | rmc, y => y % 100
  | zda, y => y

/-- The years that can be written: two digits are of this century. -/
def Years : Kind → Int → Prop
  | rmc, y => 2000 ≤ y ∧ y ≤ 2099
  | zda, y => 0 ≤ y ∧ y ≤ 9999

/-- The three numbers of a date. -/
def stamp (k : Kind) (dd mm yy : List UInt8) : List UInt8 :=
  dd ++ (k.gap ++ (mm ++ (k.gap ++ yy)))

/-- The bytes of a date. -/
def date (k : Kind) (y m d : Int) : List UInt8 :=
  k.stamp (digits 2 d) (digits 2 m) (digits k.ylen (k.written y))

/-- Where the numbers stand when the date begins at `p`. -/
def slots (k : Kind) (p : Nat) : DateFields :=
  ⟨p, p + (2 + k.gap.length), p + (4 + 2 * k.gap.length), k.ylen⟩

theorem length_date (k : Kind) (y m d : Int) :
    (k.date y m d).length = 4 + 2 * k.gap.length + k.ylen := by
  simp only [date, stamp, List.length_append, length_digits]
  omega

section Stamp

variable (k : Kind) (lead dd mm yy tail : List UInt8)

/-- The bytes from the day on, from the month on, and from the year on. -/
theorem stamp_day : lead ++ (k.stamp dd mm yy ++ tail) =
    lead ++ (dd ++ (k.gap ++ (mm ++ (k.gap ++ (yy ++ tail))))) := by
  simp [stamp]

theorem stamp_month : lead ++ (k.stamp dd mm yy ++ tail) =
    (lead ++ (dd ++ k.gap)) ++ (mm ++ (k.gap ++ (yy ++ tail))) := by
  simp [stamp]

theorem stamp_year : lead ++ (k.stamp dd mm yy ++ tail) =
    (lead ++ (dd ++ (k.gap ++ (mm ++ k.gap)))) ++ (yy ++ tail) := by
  simp [stamp]

variable {dd mm yy}

theorem length_toMonth (hd : dd.length = 2) :
    (lead ++ (dd ++ k.gap)).length = lead.length + (2 + k.gap.length) := by
  simp [hd]

theorem length_toYear (hd : dd.length = 2) (hm : mm.length = 2) :
    (lead ++ (dd ++ (k.gap ++ (mm ++ k.gap)))).length =
      lead.length + (4 + 2 * k.gap.length) := by
  simp only [List.length_append, hd, hm]
  omega

/-- **Writing a date replaces the numbers.** -/
theorem writeDate_stamp (hd : dd.length = 2) (hm : mm.length = 2) (hy : yy.length = k.ylen)
    {y m d : Int} (hy0 : 0 ≤ y) (hm0 : 0 ≤ m) (hd0 : 0 ≤ d) :
    writeDate (lead ++ (k.stamp dd mm yy ++ tail)) (k.slots lead.length) (y, m, d) =
      some (lead ++ (k.date y m d ++ tail)) := by
  have hwritten : (if k.ylen = 2 then Int.tmod y 100 else y) = k.written y := by
    cases k with
    | rmc => exact Int.tmod_eq_emod_of_nonneg hy0
    | zda => rfl
  have hwritten0 : 0 ≤ k.written y := by
    cases k with
    | rmc => exact Int.emod_nonneg y (by decide)
    | zda => exact hy0
  have hday : nmeaPutDigits lead.length 2 d (lead ++ (k.stamp dd mm yy ++ tail)) =
      some (lead ++ (k.stamp (digits 2 d) mm yy ++ tail)) := by
    rw [stamp_day, stamp_day]
    exact nmeaPutDigits_eq lead _ hd hd0
  have hmonth : nmeaPutDigits (lead.length + (2 + k.gap.length)) 2 m
      (lead ++ (k.stamp (digits 2 d) mm yy ++ tail)) =
      some (lead ++ (k.stamp (digits 2 d) (digits 2 m) yy ++ tail)) := by
    rw [stamp_month, stamp_month, ← length_toMonth k lead (length_digits 2 d)]
    exact nmeaPutDigits_eq _ _ hm hm0
  have hyear : nmeaPutDigits (lead.length + (4 + 2 * k.gap.length)) k.ylen (k.written y)
      (lead ++ (k.stamp (digits 2 d) (digits 2 m) yy ++ tail)) =
      some (lead ++ (k.date y m d ++ tail)) := by
    rw [date, stamp_year, stamp_year,
      ← length_toYear k lead (length_digits 2 d) (length_digits 2 m)]
    exact nmeaPutDigits_eq _ _ hy hwritten0
  unfold writeDate slots
  dsimp only
  rw [hwritten, hday, Option.bind_eq_bind, Option.bind_some, hmonth, Option.bind_some, hyear]

end Stamp

theorem written_spec {k : Kind} {y : Int} (hy : k.Years y) :
    0 ≤ k.written y ∧ k.written y < 10 ^ k.ylen ∧
      (if k.ylen = 2 then k.written y + 2000 else k.written y) = y := by
  cases k with
  | rmc =>
    simp only [Years] at hy
    simp only [written, ylen, if_true]
    omega
  | zda =>
    simp only [Years] at hy
    simp only [written, ylen]
    omega

/-- **Reading it gives the date that was written.** -/
theorem readDays_date (k : Kind) (lead tail : List UInt8) {y m d : Int} (hy : k.Years y)
    (hm : 0 ≤ m ∧ m ≤ 99) (hd : 0 ≤ d ∧ d ≤ 99) :
    readDays (lead ++ (k.date y m d ++ tail)) (k.slots lead.length) =
      some (if d < 1 ∨ m < 1 ∨ m > 12 then none else some (nmeaDaysFromCivil y m d)) := by
  obtain ⟨hy0, hylt, hyear⟩ := written_spec hy
  have hday : nmeaDigits (lead ++ (k.date y m d ++ tail)) lead.length 2 0 = some d := by
    rw [date, stamp_day]
    exact nmeaDigits_digits lead _ (by omega) (by omega)
  have hmonth : nmeaDigits (lead ++ (k.date y m d ++ tail)) (lead.length + (2 + k.gap.length)) 2 0 =
      some m := by
    rw [date, stamp_month, ← length_toMonth k lead (length_digits 2 d)]
    exact nmeaDigits_digits _ _ (by omega) (by omega)
  have hread : nmeaDigits (lead ++ (k.date y m d ++ tail)) (lead.length + (4 + 2 * k.gap.length))
      k.ylen 0 = some (k.written y) := by
    rw [date, stamp_year, ← length_toYear k lead (length_digits 2 d) (length_digits 2 m)]
    exact nmeaDigits_digits _ _ hy0 hylt
  unfold readDays slots
  dsimp only
  rw [hday, hmonth, hread]
  simp only [Option.bind_eq_bind, Option.bind_some, hyear, Int.not_lt.mpr hy0, or_false]
  split <;> rfl

end Kind

/-! ## 4. A ZDA sentence -/

/-- **A ZDA sentence**: two letters of the talker, the time, the date, and what comes after it. -/
structure Zda where
  talker : List UInt8
  time : List UInt8
  date : Date
  tail : List UInt8
  talker_length : talker.length = 2
  talker_plain : ∀ c ∈ talker, plain c = true
  time_plain : ∀ c ∈ time, plain c = true
  year_mem : 0 ≤ date.year ∧ date.year ≤ 9999
  tail_mem : ∀ c ∈ tail, c ≠ ch '$'

/-- A date of four figures between its commas, after `lead`. -/
def dated (lead dd mm yyyy tail : List UInt8) : List UInt8 :=
  lead ++ (dd ++ ch ',' :: (mm ++ ch ',' :: (yyyy ++ ch ',' :: tail)))

namespace Zda

/-- What comes before the date. -/
def lead (z : Zda) : List UInt8 :=
  (ch '$' :: (z.talker ++ [ch 'Z', ch 'D', ch 'A'])) ++ ch ',' :: (z.time ++ [ch ','])

def bytes (z : Zda) : List UInt8 :=
  dated z.lead (digits 2 z.date.day) (digits 2 z.date.month) (digits 4 z.date.year) z.tail

end Zda

theorem nmeaField_skip {l : List UInt8} (hl : ∀ c ∈ l, endsFields c = false ∧ c ≠ ch ',')
    (rest : List UInt8) (s n : Nat) :
    nmeaField (l ++ ch ',' :: rest) s (n + 1) = nmeaField rest (s + l.length + 1) n := by
  induction l generalizing s with
  | nil => rfl
  | cons c l ih =>
      obtain ⟨hend, hcomma⟩ := hl c List.mem_cons_self
      have htail := ih (fun x hx => hl x (List.mem_cons_of_mem c hx)) (s + 1)
      simp only [List.cons_append, nmeaField, hend, Bool.false_eq_true, if_false, if_neg hcomma,
        htail, List.length_cons]
      congr 1
      omega

theorem plain_spec {c : UInt8} (h : plain c = true) :
    c ≠ ch '$' ∧ endsFields c = false ∧ c ≠ ch ',' := by
  unfold plain at h
  simp only [Bool.and_eq_true, bne_iff_ne, Bool.not_eq_true'] at h
  exact ⟨h.1.1, h.2, h.1.2⟩

section Dated

variable (lead dd mm yyyy tail : List UInt8)

theorem dated_eq : dated lead dd mm yyyy tail =
    lead ++ (Kind.zda.stamp dd mm yyyy ++ ch ',' :: tail) := by
  simp [dated, Kind.stamp, Kind.gap]

variable {dd mm yyyy}

theorem getElem?_behind (lead l rest : List UInt8) {n : Nat} (hn : l.length = n) (c : UInt8) :
    (lead ++ (l ++ c :: rest))[lead.length + n]? = some c := by
  subst hn
  simp

/-- The commas behind the three numbers. -/
theorem dated_commas (hd : dd.length = 2) (hm : mm.length = 2) (hy : yyyy.length = 4) :
    (dated lead dd mm yyyy tail)[lead.length + 2]? = some (ch ',') ∧
      (dated lead dd mm yyyy tail)[lead.length + 3 + 2]? = some (ch ',') ∧
      (dated lead dd mm yyyy tail)[lead.length + 6 + 4]? = some (ch ',') := by
  refine ⟨getElem?_behind lead dd _ hd _, ?_, ?_⟩
  · rw [dated_eq, Kind.stamp_month, show lead.length + 3 = _ from
      (Kind.zda.length_toMonth lead hd).symm]
    exact getElem?_behind _ mm _ hm _
  · rw [dated_eq, Kind.stamp_year, show lead.length + 6 = _ from
      (Kind.zda.length_toYear lead hd hm).symm]
    exact getElem?_behind _ yyyy _ hy _

/-- Where the numbers stand. -/
def datedFields (lead : List UInt8) : DateFields :=
  ⟨lead.length, lead.length + 3, lead.length + 6, 4⟩

/-- A ZDA date that is written, -/
theorem writeDate_dated (hd : dd.length = 2) (hm : mm.length = 2) (hy : yyyy.length = 4)
    {y m d : Int} (hy0 : 0 ≤ y) (hm0 : 0 ≤ m) (hd0 : 0 ≤ d) :
    writeDate (dated lead dd mm yyyy tail) (datedFields lead) (y, m, d) =
      some (dated lead (digits 2 d) (digits 2 m) (digits 4 y) tail) := by
  rw [dated_eq, dated_eq]
  exact Kind.zda.writeDate_stamp lead _ hd hm hy hy0 hm0 hd0

/-- and one that is read. -/
theorem readDays_dated {y m d : Int} (hy : 0 ≤ y ∧ y ≤ 9999) (hm : 1 ≤ m ∧ m ≤ 12)
    (hd : 1 ≤ d ∧ d ≤ 99) :
    readDays (dated lead (digits 2 d) (digits 2 m) (digits 4 y) tail) (datedFields lead) =
      some (some (nmeaDaysFromCivil y m d)) := by
  have hread := Kind.zda.readDays_date lead (ch ',' :: tail) (m := m) (d := d) hy (by omega)
    (by omega)
  rw [if_neg (by omega)] at hread
  rw [dated_eq]
  exact hread

end Dated

/-! ## 5. The sentence, and its fields -/

theorem nmeaField_plain {l : List UInt8} (hl : ∀ c ∈ l, plain c = true) (rest : List UInt8)
    (s n : Nat) :
    nmeaField (l ++ ch ',' :: rest) s (n + 1) = nmeaField rest (s + l.length + 1) n :=
  nmeaField_skip (fun c hc => (plain_spec (hl c hc)).2) rest s n

theorem nmeaField_digits (k : Nat) (v : Int) (rest : List UInt8) (s n : Nat) :
    nmeaField (digits k v ++ ch ',' :: rest) s (n + 1) = nmeaField rest (s + k + 1) n := by
  rw [nmeaField_plain (fun c hc => (digits_spec hc).2), length_digits]

namespace Zda

variable (z : Zda)

theorem length_lead : z.lead.length = z.time.length + 8 := by
  simp [lead, z.talker_length]
  omega

/-- The first fields lead to the date. -/
theorem nmeaField_bytes (n : Nat) :
    nmeaField z.bytes 0 (n + 2) =
      nmeaField (digits 2 z.date.day ++ ch ',' :: (digits 2 z.date.month ++
        ch ',' :: (digits 4 z.date.year ++ ch ',' :: z.tail))) z.lead.length n := by
  have hsplit : z.bytes = (ch '$' :: (z.talker ++ [ch 'Z', ch 'D', ch 'A'])) ++ ch ',' ::
      (z.time ++ ch ',' :: (digits 2 z.date.day ++ ch ',' :: (digits 2 z.date.month ++
        ch ',' :: (digits 4 z.date.year ++ ch ',' :: z.tail)))) := by
    simp [bytes, dated, lead]
  have hhead : ∀ c ∈ ch '$' :: (z.talker ++ [ch 'Z', ch 'D', ch 'A']),
      endsFields c = false ∧ c ≠ ch ',' := by
    intro c hc
    rcases List.mem_cons.mp hc with rfl | hc
    · decide
    · rcases List.mem_append.mp hc with hc | hc
      · exact (plain_spec (z.talker_plain c hc)).2
      · simp only [List.mem_cons, List.not_mem_nil, or_false] at hc
        rcases hc with rfl | rfl | rfl <;> decide
  rw [hsplit, nmeaField_skip hhead, nmeaField_plain z.time_plain]
  congr 1
  simp [length_lead, z.talker_length]
  omega

/-- **The date is where the function looks for it.** -/
theorem dateFields_bytes : dateFields z.bytes 0 = some (some (datedFields z.lead)) := by
  obtain ⟨a, b, hab⟩ := List.length_eq_two.mp z.talker_length
  have hlength : 6 < z.bytes.length := by
    simp [bytes, dated, length_lead]
    omega
  have hid : (z.bytes.drop 3).take 4 = [ch 'Z', ch 'D', ch 'A', ch ','] := by
    simp [bytes, dated, lead, hab]
  have hrmc : hasId z.bytes 0 [ch 'R', ch 'M', ch 'C', ch ','] = false := by
    simp only [hasId, Nat.zero_add, hid]
    rw [show ([ch 'Z', ch 'D', ch 'A', ch ','] == [ch 'R', ch 'M', ch 'C', ch ',']) = false by
      decide, Bool.and_false]
  have hzda : hasId z.bytes 0 [ch 'Z', ch 'D', ch 'A', ch ','] = true := by
    simp [hasId, hid, hlength]
  obtain ⟨hday, hmonth, hyear⟩ := dated_commas z.lead z.tail (length_digits 2 z.date.day)
    (length_digits 2 z.date.month) (length_digits 4 z.date.year)
  rw [← bytes] at hday hmonth hyear
  have hroom : ¬ z.bytes.length - (z.lead.length + 6) < 4 := by
    simp [bytes, dated]
    omega
  have hdp : nmeaField z.bytes 0 2 = some z.lead.length := nmeaField_bytes z 0
  have hmp : nmeaField z.bytes 0 3 = some (z.lead.length + 3) := by
    rw [nmeaField_bytes z 1, nmeaField_digits]
    rfl
  have hyp : nmeaField z.bytes 0 4 = some (z.lead.length + 6) := by
    rw [nmeaField_bytes z 2, nmeaField_digits, nmeaField_digits]
    rfl
  unfold dateFields
  rw [hrmc, hzda, List.drop_zero, hdp, hmp, hyp]
  simp [hroom, hday, hmonth, hyear, datedFields]

end Zda

/-! ## 6. What becomes of the sentence -/

theorem no_dollar {l : List UInt8} (h : l.all (· != ch '$') = true) : ∀ c ∈ l, c ≠ ch '$' :=
  fun c hc => bne_iff_ne.mp (List.all_eq_true.mp h c hc)

theorem hex_ne_dollar (i : Nat) : hex.getD i 0 ≠ ch '$' := by
  rw [List.getD_eq_getElem?_getD]
  cases hi : hex[i]? with
  | none => decide
  | some c => exact no_dollar (l := hex) (by decide) c (List.mem_of_getElem? hi)

theorem set_mem {l : List UInt8} (hl : ∀ c ∈ l, c ≠ ch '$') {x : UInt8} (hx : x ≠ ch '$')
    (i : Nat) : ∀ c ∈ l.set i x, c ≠ ch '$' := by
  intro c hc
  rcases List.mem_or_eq_of_mem_set hc with hc | rfl
  · exact hl c hc
  · exact hx

/-- The checksum stands in what comes after the fields. -/
theorem fixChecksum_append (first : UInt8) {body tail : List UInt8}
    (hbody : ∀ c ∈ body, endsFields c = false) (htail : ∀ c ∈ tail, c ≠ ch '$') :
    ∃ tail', (∀ c ∈ tail', c ≠ ch '$') ∧ tail'.length = tail.length ∧
      fixChecksum (first :: (body ++ tail)) 0 = first :: (body ++ tail') := by
  have hsummed : summed (first :: (body ++ tail)) 0 =
      body ++ tail.takeWhile fun c => !endsFields c := by
    unfold summed
    rw [List.drop_succ_cons, List.drop_zero, List.takeWhile_append_of_pos]
    intro c hc
    rw [hbody c hc]
    rfl
  unfold fixChecksum
  dsimp only
  split
  · have hset (i : Nat) (x : UInt8) (l : List UInt8) :
        (first :: (body ++ l)).set (0 + 1 + (summed (first :: (body ++ tail)) 0).length + i) x =
          first :: (body ++ l.set ((tail.takeWhile fun c => !endsFields c).length + i) x) := by
      rw [hsummed, List.length_append, Nat.zero_add, Nat.add_assoc 1, Nat.add_comm 1,
        List.set_cons_succ, List.set_append_right _ _ (by omega)]
      congr 3
      omega
    exact ⟨_, set_mem (set_mem htail (hex_ne_dollar _) _) (hex_ne_dollar _) _, by simp,
      (congrArg (List.set · _ _) (hset 1 _ tail)).trans (hset 2 _ _)⟩
  · exact ⟨tail, htail, rfl, rfl⟩

namespace Zda

variable (z : Zda)

/-- From the talker to the comma behind the date. -/
def body : List UInt8 :=
  z.lead.tail ++ (digits 2 z.date.day ++ ch ',' :: (digits 2 z.date.month ++
    ch ',' :: (digits 4 z.date.year ++ [ch ','])))

theorem bytes_eq : z.bytes = ch '$' :: (z.body ++ z.tail) := by
  simp [bytes, dated, body, lead]

theorem body_mem : ∀ c ∈ z.body, c ≠ ch '$' ∧ endsFields c = false := by
  have hplain {c : UInt8} (h : plain c = true) : c ≠ ch '$' ∧ endsFields c = false :=
    ⟨(plain_spec h).1, (plain_spec h).2.1⟩
  have hdigits {n : Nat} {v : Int} {c : UInt8} (h : c ∈ digits n v) := hplain (digits_spec h).2
  intro c hc
  simp only [body, lead, List.cons_append, List.tail_cons, List.mem_append, List.mem_cons,
    List.not_mem_nil, or_false] at hc
  rcases hc with ((hc | rfl | rfl | rfl) | rfl | hc | rfl) | hc | rfl | hc | rfl | hc | rfl
  all_goals first
    | exact hplain (z.talker_plain c hc)
    | exact hplain (z.time_plain c hc)
    | exact hdigits hc
    | decide

/-- Another sentence of the same talker and time. -/
structure Same (z z' : Zda) : Prop where
  talker : z'.talker = z.talker
  time : z'.time = z.time
  length : z'.tail.length = z.tail.length

/-- The sentence with another date. -/
def redate (date : Date) (hyear : 0 ≤ date.year ∧ date.year ≤ 9999) : Zda :=
  { z with date := date, year_mem := hyear }

/-- The checksum of the sentence with its new date. -/
theorem fixChecksum_redate (date : Date) (hyear : 0 ≤ date.year ∧ date.year ≤ 9999) :
    ∃ z' : Zda, Same z z' ∧ z'.date = date ∧
      fixChecksum (z.redate date hyear).bytes 0 = z'.bytes := by
  obtain ⟨tail, htail, hlength, hfix⟩ := fixChecksum_append (ch '$')
    (fun c hc => ((z.redate date hyear).body_mem c hc).2) z.tail_mem
  refine ⟨{ z.redate date hyear with tail := tail, tail_mem := htail }, ⟨rfl, rfl, hlength⟩, rfl,
    ?_⟩
  rw [bytes_eq, bytes_eq]
  exact hfix

/-- Only the first byte begins a sentence. -/
theorem fixDateAt_bytes_succ {s : Nat} (hs : s + 1 < z.bytes.length) :
    fixDateAt z.bytes (s + 1) = some z.bytes := by
  obtain ⟨c, hc⟩ : ∃ c, z.bytes[s + 1]? = some c := ⟨_, List.getElem?_eq_getElem hs⟩
  have hmem : c ≠ ch '$' := by
    rw [bytes_eq, List.getElem?_cons_succ] at hc
    rcases List.mem_append.mp (List.mem_of_getElem? hc) with hbody | htail
    · exact (z.body_mem c hbody).1
    · exact z.tail_mem c htail
  unfold fixDateAt
  simp [hc, hmem]

theorem foldlM_same {f : List UInt8 → Nat → Option (List UInt8)} {buf : List UInt8} {l : List Nat}
    (h : ∀ s ∈ l, f buf s = some buf) : l.foldlM f buf = some buf := by
  induction l with
  | nil => rfl
  | cons s l ih =>
      rw [List.foldlM_cons, h s List.mem_cons_self, Option.bind_eq_bind, Option.bind_some]
      exact ih fun x hx => h x (List.mem_cons_of_mem s hx)

theorem locEngFixNmeaDates_bytes {z z' : Zda} (hlength : z'.bytes.length = z.bytes.length)
    (hfirst : fixDateAt z.bytes 0 = some z'.bytes) :
    locEngFixNmeaDates z.bytes = some z'.bytes := by
  obtain ⟨k, hk⟩ : ∃ k, z.bytes.length = k + 1 := ⟨(z.body ++ z.tail).length, by rw [bytes_eq]; rfl⟩
  unfold locEngFixNmeaDates
  rw [hk, List.range_succ_eq_map, List.foldlM_cons, hfirst, Option.bind_eq_bind, Option.bind_some]
  apply foldlM_same
  intro s hs
  obtain ⟨i, hi, rfl⟩ := List.mem_map.mp hs
  have hlt := List.mem_range.mp hi
  exact z'.fixDateAt_bytes_succ (by omega)

theorem readDays_bytes {n : Nat} (hz : z.date = Date.after n) :
    readDays z.bytes (datedFields z.lead) = some (some (n : Int)) := by
  have hday := z.date.day_mem
  have hlength := monthLength_le z.date.year z.date.month
  rw [bytes, readDays_dated z.lead z.tail z.year_mem z.date.month_mem ⟨hday.1, by omega⟩, hz,
    daysFromCivil_after]

theorem Same.length_bytes {z z' : Zda} (h : Same z z') : z'.bytes.length = z.bytes.length := by
  simp [bytes, dated, length_lead, h.time, h.length]

/-- **A date since the last rollover stays,** -/
theorem fix_late {n : Nat} (hz : z.date = Date.after n) (hn : kLastRolloverDays ≤ n) :
    locEngFixNmeaDates z.bytes = some z.bytes := by
  apply locEngFixNmeaDates_bytes rfl
  unfold fixDateAt
  rw [show z.bytes[0]? = some (ch '$') by rw [bytes_eq]; rfl]
  simp [dateFields_bytes, readDays_bytes z hz, hn]

theorem writeDate_bytes {n : Nat} (hyear : 0 ≤ (Date.after n).year ∧ (Date.after n).year ≤ 9999) :
    writeDate z.bytes (datedFields z.lead) (nmeaCivilFromDays n) =
      some (z.redate (Date.after n) hyear).bytes := by
  have hmonth := (Date.after n).month_mem
  have hday := (Date.after n).day_mem
  rw [civilFromDays_after]
  exact writeDate_dated z.lead z.tail (length_digits _ _) (length_digits _ _) (length_digits _ _)
    hyear.1 (by omega) (by omega)

/-- **and an earlier one goes forward by 1024 weeks**, once. -/
theorem fix_early {n : Nat} (hz : z.date = Date.after n) (hn : (n : Int) < kLastRolloverDays) :
    ∃ z' : Zda, Same z z' ∧ z'.date = Date.after (n + 7168) ∧
      locEngFixNmeaDates z.bytes = some z'.bytes := by
  have hyear := year_after (n := n + 7168) (by unfold kLastRolloverDays at hn; omega)
  have hwrite := z.writeDate_bytes hyear
  obtain ⟨z', hsame, hdate, hsum⟩ := z.fixChecksum_redate _ hyear
  refine ⟨z', hsame, hdate, locEngFixNmeaDates_bytes hsame.length_bytes ?_⟩
  unfold fixDateAt
  rw [show z.bytes[0]? = some (ch '$') by rw [bytes_eq]; rfl]
  push_cast at hwrite
  simp [dateFields_bytes, readDays_bytes z hz, Int.not_le.mpr hn, hwrite, hsum]

/-- The bytes of a sentence tell its date. -/
theorem day_unique {z z' : Zda} (h : z.bytes = z'.bytes) {n n' : Nat} (hz : z.date = Date.after n)
    (hz' : z'.date = Date.after n') : n = n' := by
  have hfields := z.dateFields_bytes
  rw [h, z'.dateFields_bytes] at hfields
  have hread := z.readDays_bytes hz
  rw [← Option.some.inj (Option.some.inj hfields), h, z'.readDays_bytes hz'] at hread
  exact (Int.ofNat.inj (Option.some.inj (Option.some.inj hread))).symm

end Zda

end Y210.Gps.Nmea

/-
  File:      Y210/Gps/NmeaBounds.lean
  Subject:   THE END OF THE BUFFER: which reads of `loc_eng_fix_nmea_dates` are inside.

  The function looks at the byte behind the date before it knows that there is one: `f[6]` when six
  bytes are left, `yp[4]` when four are. No other access is outside. What it writes are digits in
  place of digits and checksums in place of checksums, so that whether a sentence runs over the end
  can be told from the buffer as it was given.

  * `nmeaDigits_eq`, `nmeaPutDigits_splice` -- numbers that are inside of the buffer;
  * `Overruns` -- a sentence whose date stands at the very end;
  * `Kept` -- what no change of the function alters: the separators, and which sentence is which;
  * `stays_inside_iff` -- every access is inside exactly when no sentence overruns;
  * `reads_behind_rmc` -- an RMC sentence that is cut off behind its date.
-/
import Y210.Gps.Nmea

namespace Y210.Gps.Nmea

open Y210.Lib.Calendar

/-! ## 1. Numbers inside of the buffer -/

section Numbers

variable {buf : List UInt8} {p n : Nat}

/-- The bytes of a field of width `n`. -/
def field (buf : List UInt8) (p n : Nat) : List UInt8 := (buf.drop p).take n

theorem length_field (h : p + n ≤ buf.length) : (field buf p n).length = n := by
  simp only [field, List.length_take, List.length_drop]
  omega

theorem field_succ {c : UInt8} (hc : buf[p]? = some c) :
    field buf p (n + 1) = c :: field buf (p + 1) n := by
  obtain ⟨hlt, rfl⟩ := List.getElem?_eq_some_iff.mp hc
  unfold field
  rw [List.drop_eq_getElem_cons hlt, List.take_succ_cons]

theorem mem_field {c : UInt8} :
    c ∈ field buf p n ↔ ∃ j, p ≤ j ∧ j < p + n ∧ buf[j]? = some c := by
  rw [List.mem_iff_getElem?]
  constructor
  · rintro ⟨i, hi⟩
    have hlt : i < n := by
      have hlength := (List.getElem?_eq_some_iff.mp hi).1
      simp only [field, List.length_take] at hlength
      omega
    rw [field, List.getElem?_take_of_lt hlt, List.getElem?_drop] at hi
    exact ⟨p + i, by omega, by omega, hi⟩
  · rintro ⟨j, hj, hlt, hc⟩
    refine ⟨j - p, ?_⟩
    rw [field, List.getElem?_take_of_lt (by omega), List.getElem?_drop, Nat.add_sub_cancel' hj, hc]

theorem value_nonneg {ds : List UInt8} (hds : ∀ c ∈ ds, isdigit c = true) {v : Int} (hv : 0 ≤ v) :
    0 ≤ value v ds := by
  induction ds generalizing v with
  | nil => exact hv
  | cons c ds ih =>
      have hc : 48 ≤ c.toNat := by
        have hdigit := hds c List.mem_cons_self
        simp only [isdigit, Bool.and_eq_true, decide_eq_true_eq] at hdigit
        have hle := UInt8.le_iff_toNat_le.mp hdigit.1
        exact hle
      have hnext : 0 ≤ v * 10 + ((c.toNat : Int) - 48) := by omega
      exact ih (fun x hx => hds x (List.mem_cons_of_mem c hx)) hnext

/-- **Reading** a field that is inside of the buffer. -/
theorem nmeaDigits_eq (h : p + n ≤ buf.length) (v : Int) :
    nmeaDigits buf p n v =
      some (if (field buf p n).all isdigit then value v (field buf p n) else -1) := by
  induction n generalizing p v with
  | zero => simp [nmeaDigits, field, value]
  | succ n ih =>
      obtain ⟨c, hc⟩ : ∃ c, buf[p]? = some c := ⟨_, List.getElem?_eq_getElem (by omega)⟩
      rw [field_succ hc, nmeaDigits, hc, Option.bind_eq_bind, Option.bind_some]
      by_cases hdigit : isdigit c = true
      · have hall : (c :: field buf (p + 1) n).all isdigit = (field buf (p + 1) n).all isdigit := by
          rw [List.all_cons, hdigit, Bool.true_and]
        rw [if_pos hdigit, ih (by omega), hall]
        rfl
      · have hall : (c :: field buf (p + 1) n).all isdigit = false := by simp [hdigit]
        rw [if_neg hdigit, hall]
        rfl

/-- A number that is not -1 was read from digits. -/
theorem digits_of_read {v : Int} (h : p + n ≤ buf.length) (hread : nmeaDigits buf p n 0 = some v)
    (hv : 0 ≤ v) : (field buf p n).all isdigit = true ∧ v = value 0 (field buf p n) := by
  rw [nmeaDigits_eq h] at hread
  cases hall : (field buf p n).all isdigit with
  | true =>
      rw [hall, if_pos rfl] at hread
      exact ⟨rfl, (Option.some.inj hread).symm⟩
  | false =>
      rw [hall, if_neg Bool.false_ne_true] at hread
      have hneg := Option.some.inj hread
      omega

/-- The buffer with other bytes from `p` on. -/
def splice (buf : List UInt8) (p : Nat) (new : List UInt8) : List UInt8 :=
  buf.take p ++ (new ++ buf.drop (p + new.length))

theorem length_splice {new : List UInt8} (h : p + new.length ≤ buf.length) :
    (splice buf p new).length = buf.length := by
  simp only [splice, List.length_append, List.length_take, List.length_drop]
  omega

theorem getElem?_splice_off {new : List UInt8} {i : Nat} (h : p + new.length ≤ buf.length)
    (hi : i < p ∨ p + new.length ≤ i) : (splice buf p new)[i]? = buf[i]? := by
  unfold splice
  rcases hi with hi | hi
  · rw [List.getElem?_append_left (by simp; omega), List.getElem?_take_of_lt hi]
  · rw [List.getElem?_append_right (by simp; omega), List.getElem?_append_right (by simp; omega),
      List.getElem?_drop]
    congr 1
    simp
    omega

theorem getElem?_splice_at {new : List UInt8} {i : Nat} (h : p + new.length ≤ buf.length)
    (hi : p ≤ i ∧ i < p + new.length) : (splice buf p new)[i]? = new[i - p]? := by
  unfold splice
  rw [List.getElem?_append_right (by simp; omega), List.getElem?_append_left (by simp; omega)]
  congr 1
  simp
  omega

/-- **Writing** a field that is inside of the buffer. -/
theorem nmeaPutDigits_splice (h : p + n ≤ buf.length) {v : Int} (hv : 0 ≤ v) :
    nmeaPutDigits p n v buf = some (splice buf p (digits n v)) := by
  have hsplit : buf = buf.take p ++ (field buf p n ++ buf.drop (p + n)) := by
    rw [field, ← List.drop_drop, List.take_append_drop, List.take_append_drop]
  have hwrite := nmeaPutDigits_eq (buf.take p) (buf.drop (p + n)) (length_field h) hv
  rw [← hsplit, List.length_take, Nat.min_eq_left (by omega)] at hwrite
  rw [hwrite, splice, length_digits]

end Numbers

/-! ## 2. Fields -/

section Fields

variable {rest buf : List UInt8} {s n f g : Nat}

theorem nmeaField_le (h : nmeaField rest s n = some f) : s ≤ f ∧ f ≤ s + rest.length := by
  induction rest generalizing s n with
  | nil =>
      cases n with
      | zero =>
          cases h
          exact ⟨Nat.le_refl _, Nat.le_refl _⟩
      | succ n => cases h
  | cons c rest ih =>
      cases n with
      | zero =>
          cases h
          exact ⟨Nat.le_refl _, Nat.le_add_right _ _⟩
      | succ n =>
          unfold nmeaField at h
          split at h
          · cases h
          · have hle := ih h
            simp only [List.length_cons]
            omega

/-- A field comes behind the one before it. -/
theorem nmeaField_pred (h : nmeaField rest s (n + 1) = some g) :
    ∃ f, nmeaField rest s n = some f ∧ f < g := by
  induction rest generalizing s n with
  | nil => cases h
  | cons c rest ih =>
      unfold nmeaField at h
      split at h
      · cases h
      · rename_i hends
        cases n with
        | zero => exact ⟨s, rfl, (nmeaField_le h).1⟩
        | succ n =>
            by_cases hcomma : c = ch ','
            · rw [if_pos hcomma] at h
              obtain ⟨f, hf, hlt⟩ := ih h
              exact ⟨f, by rw [nmeaField, if_neg hends, if_pos hcomma]; exact hf, hlt⟩
            · rw [if_neg hcomma] at h
              obtain ⟨f, hf, hlt⟩ := ih h
              exact ⟨f, by rw [nmeaField, if_neg hends, if_neg hcomma]; exact hf, hlt⟩

abbrev rmcId : List UInt8 := [ch 'R', ch 'M', ch 'C', ch ',']

abbrev zdaId : List UInt8 := [ch 'Z', ch 'D', ch 'A', ch ',']

/-- The six bytes of an RMC date are the last of the buffer. -/
def RmcAtEnd (buf : List UInt8) (s : Nat) : Prop :=
  ∃ f, nmeaField (buf.drop s) s 9 = some f ∧ f + 6 = buf.length

/-- The four bytes of a ZDA year are the last of the buffer, behind a day and a month of two. -/
def ZdaAtEnd (buf : List UInt8) (s : Nat) : Prop :=
  ∃ dp mp yp, nmeaField (buf.drop s) s 2 = some dp ∧ nmeaField (buf.drop s) s 3 = some mp ∧
    nmeaField (buf.drop s) s 4 = some yp ∧ yp + 4 = buf.length ∧
    buf[dp + 2]? = some (ch ',') ∧ buf[mp + 2]? = some (ch ',')

/-- **A sentence whose date stands at the very end of the buffer**, where a comma should come
    behind it. -/
def Overruns (buf : List UInt8) (s : Nat) : Prop :=
  buf[s]? = some (ch '$') ∧
    ((hasId buf s rmcId = true ∧ RmcAtEnd buf s) ∨
      (hasId buf s rmcId = false ∧ hasId buf s zdaId = true ∧ ZdaAtEnd buf s))

/-- The fields of a date are inside of a buffer of that length. -/
def DateFields.Inside (f : DateFields) (len : Nat) : Prop :=
  f.dp + 2 ≤ len ∧ f.mp + 2 ≤ len ∧ f.yp + f.ylen ≤ len

/-- The date of an RMC sentence, -/
theorem dateFields_rmc (hid : hasId buf s rmcId = true)
    (hf : nmeaField (buf.drop s) s 9 = some f) :
    dateFields buf s =
      if buf.length - f < 6 then some none else (buf[f + 6]?).bind fun c =>
        some (if c ≠ ch ',' then none else some ⟨f, f + 2, f + 4, 2⟩) := by
  unfold dateFields
  rw [if_pos hid, hf]
  rfl

/-- of a ZDA sentence, -/
theorem dateFields_zda (hrmc : hasId buf s rmcId = false) (hid : hasId buf s zdaId = true)
    {dp mp yp : Nat} (hdp : nmeaField (buf.drop s) s 2 = some dp)
    (hmp : nmeaField (buf.drop s) s 3 = some mp) (hyp : nmeaField (buf.drop s) s 4 = some yp) :
    dateFields buf s =
      if buf.length - yp < 4 then some none else (buf[dp + 2]?).bind fun c =>
        if c ≠ ch ',' then some none else (buf[mp + 2]?).bind fun c =>
          if c ≠ ch ',' then some none else (buf[yp + 4]?).bind fun c =>
            some (if c ≠ ch ',' then none else some ⟨dp, mp, yp, 4⟩) := by
  unfold dateFields
  rw [if_neg (by simp [hrmc]), if_pos hid, hdp, hmp, hyp]
  rfl

/-- and of one that ends before the year. -/
theorem dateFields_zda_none (hrmc : hasId buf s rmcId = false) (hid : hasId buf s zdaId = true)
    (hyp : nmeaField (buf.drop s) s 4 = none) : dateFields buf s = some none := by
  unfold dateFields
  rw [if_neg (by simp [hrmc]), if_pos hid, hyp]
  split <;> rename_i hnone
  · cases hnone
  · rfl

theorem rmcFields_spec (hid : hasId buf s rmcId = true) :
    (RmcAtEnd buf s ∧ dateFields buf s = none) ∨
      (¬ RmcAtEnd buf s ∧ ∃ r, dateFields buf s = some r ∧
        ∀ f, r = some f → f.Inside buf.length) := by
  unfold RmcAtEnd
  cases hf : nmeaField (buf.drop s) s 9 with
  | none =>
    refine .inr ⟨by simp, none, ?_, nofun⟩
    unfold dateFields
    rw [if_pos hid, hf]
  | some f =>
    have hle := (nmeaField_le hf).2
    simp only [List.length_drop] at hle
    rw [dateFields_rmc hid hf]
    split
    · rename_i hshort
      exact .inr ⟨by rintro ⟨_, he, hend⟩; cases he; omega, none, rfl, nofun⟩
    · rename_i hroom
      cases hc : buf[f + 6]? with
      | none =>
        have hend := List.getElem?_eq_none_iff.mp hc
        exact .inl ⟨⟨f, rfl, by omega⟩, rfl⟩
      | some c =>
        have hlt := (List.getElem?_eq_some_iff.mp hc).1
        refine .inr ⟨by rintro ⟨_, he, hend⟩; cases he; omega, _, rfl, fun fields hfields => ?_⟩
        split at hfields
        · cases hfields
        · cases hfields
          unfold DateFields.Inside
          dsimp only
          omega

theorem zdaFields_spec (hrmc : hasId buf s rmcId = false) (hid : hasId buf s zdaId = true) :
    (ZdaAtEnd buf s ∧ dateFields buf s = none) ∨
      (¬ ZdaAtEnd buf s ∧ ∃ r, dateFields buf s = some r ∧
        ∀ f, r = some f → f.Inside buf.length) := by
  unfold ZdaAtEnd
  cases hyp : nmeaField (buf.drop s) s 4 with
  | none => exact .inr ⟨by simp, none, dateFields_zda_none hrmc hid hyp, nofun⟩
  | some yp =>
    obtain ⟨mp, hmp, hmy⟩ := nmeaField_pred hyp
    obtain ⟨dp, hdp, hdm⟩ := nmeaField_pred hmp
    have hle := (nmeaField_le hyp).2
    simp only [List.length_drop] at hle
    rw [hdp, hmp, dateFields_zda hrmc hid hdp hmp hyp]
    split
    · rename_i hshort
      refine .inr ⟨?_, none, rfl, nofun⟩
      rintro ⟨_, _, _, -, -, hy, hend, -⟩
      cases hy
      omega
    · rename_i hroom
      obtain ⟨c1, hc1⟩ : ∃ c, buf[dp + 2]? = some c := ⟨_, List.getElem?_eq_getElem (by omega)⟩
      obtain ⟨c2, hc2⟩ : ∃ c, buf[mp + 2]? = some c := ⟨_, List.getElem?_eq_getElem (by omega)⟩
      rw [hc1, Option.bind_some]
      by_cases h1 : c1 = ch ','
      · rw [if_neg (not_not.mpr h1), hc2, Option.bind_some]
        by_cases h2 : c2 = ch ','
        · rw [if_neg (not_not.mpr h2)]
          cases hc3 : buf[yp + 4]? with
          | none =>
            have hend := List.getElem?_eq_none_iff.mp hc3
            exact .inl ⟨⟨dp, mp, yp, rfl, rfl, rfl, by omega, hc1.trans (by rw [h1]),
              hc2.trans (by rw [h2])⟩, rfl⟩
          | some c =>
            have hlt := (List.getElem?_eq_some_iff.mp hc3).1
            refine .inr ⟨?_, _, rfl, fun fields hfields => ?_⟩
            · rintro ⟨_, _, _, -, -, hy, hend, -⟩
              cases hy
              omega
            · split at hfields
              · cases hfields
              · cases hfields
                unfold DateFields.Inside
                dsimp only
                omega
        · rw [if_pos h2]
          refine .inr ⟨?_, none, rfl, nofun⟩
          rintro ⟨_, _, _, -, hm, -, -, -, hcomma⟩
          cases hm
          exact h2 (Option.some.inj (hc2.symm.trans hcomma))
      · rw [if_pos h1]
        refine .inr ⟨?_, none, rfl, nofun⟩
        rintro ⟨_, _, _, hd, -, -, -, hcomma, -⟩
        cases hd
        exact h1 (Option.some.inj (hc1.symm.trans hcomma))

/-- **The date of a sentence** is read inside of the buffer, unless the sentence overruns. -/
theorem dateFields_spec (hdollar : buf[s]? = some (ch '$')) :
    (Overruns buf s ∧ dateFields buf s = none) ∨
      (¬ Overruns buf s ∧ ∃ r, dateFields buf s = some r ∧
        ∀ f, r = some f → f.Inside buf.length) := by
  unfold Overruns
  cases hrmc : hasId buf s rmcId with
  | true =>
    rcases rmcFields_spec hrmc with ⟨hend, hnone⟩ | ⟨hend, hsome⟩
    · exact .inl ⟨⟨hdollar, .inl ⟨rfl, hend⟩⟩, hnone⟩
    · exact .inr ⟨by simp [hend], hsome⟩
  | false =>
    cases hzda : hasId buf s zdaId with
    | true =>
      rcases zdaFields_spec hrmc hzda with ⟨hend, hnone⟩ | ⟨hend, hsome⟩
      · exact .inl ⟨⟨hdollar, .inr ⟨rfl, rfl, hend⟩⟩, hnone⟩
      · exact .inr ⟨by simp [hend], hsome⟩
    | false =>
      have hother : dateFields buf s = some none := by
        unfold dateFields
        rw [if_neg (by simp [hrmc]), if_neg (by simp [hzda])]
      exact .inr ⟨by simp, none, hother, nofun⟩

end Fields

/-! ## 3. What is kept -/

section Kept

variable {a b c : List UInt8} {s p : Nat}

theorem isxdigit_ne {x y : UInt8} (hx : isxdigit x = true) (hy : isxdigit y = false) : x ≠ y := by
  rintro rfl
  exact absurd (hx.symm.trans hy) nofun

theorem isxdigit_of_isdigit {x : UInt8} (h : isdigit x = true) : isxdigit x = true := by
  simp [isxdigit, h]

theorem not_endsFields {x : UInt8} (h : isxdigit x = true) : endsFields x = false := by
  have hstar : x ≠ ch '*' := isxdigit_ne h (by decide)
  have hcr : x ≠ ch '\r' := isxdigit_ne h (by decide)
  have hlf : x ≠ ch '\n' := isxdigit_ne h (by decide)
  simp [endsFields, hstar, hcr, hlf]

/-- **What no change of the function alters**: a byte stays, or is a hexadecimal digit before and
    behind it; and a sentence stays of its kind. -/
structure Kept (a b : List UInt8) : Prop where
  length : b.length = a.length
  bytes : ∀ i : Nat, b[i]? = a[i]? ∨
    ∃ x y, a[i]? = some x ∧ b[i]? = some y ∧ isxdigit x = true ∧ isxdigit y = true
  rmc : ∀ s, hasId b s rmcId = hasId a s rmcId
  zda : ∀ s, hasId b s zdaId = hasId a s zdaId

theorem Kept.refl (a : List UInt8) : Kept a a :=
  ⟨rfl, fun _ => .inl rfl, fun _ => rfl, fun _ => rfl⟩

theorem Kept.trans (h : Kept a b) (h' : Kept b c) : Kept a c where
  length := h'.length.trans h.length
  bytes := by
    intro i
    rcases h.bytes i with hab | ⟨x, y, hx, hy, hxd, hyd⟩
    · rw [← hab]
      exact h'.bytes i
    · rcases h'.bytes i with hbc | ⟨y', z, hy', hz, -, hzd⟩
      · exact .inr ⟨x, y, hx, hbc.trans hy, hxd, hyd⟩
      · exact .inr ⟨x, z, hx, hz, hxd, hzd⟩
  rmc := fun s => (h'.rmc s).trans (h.rmc s)
  zda := fun s => (h'.zda s).trans (h.zda s)

/-- A byte that is no hexadecimal digit stands where it stood. -/
theorem Kept.byte_iff (h : Kept a b) {x : UInt8} (hx : isxdigit x = false) (i : Nat) :
    b[i]? = some x ↔ a[i]? = some x := by
  rcases h.bytes i with hsame | ⟨y, z, hy, hz, hyd, hzd⟩
  · rw [hsame]
  · rw [hy, hz]
    simp [isxdigit_ne hyd hx, isxdigit_ne hzd hx]

/-- The fields begin where they began. -/
theorem nmeaField_kept {l m : List UInt8} (hlength : m.length = l.length)
    (h : ∀ i : Nat, m[i]? = l[i]? ∨
      ∃ x y, l[i]? = some x ∧ m[i]? = some y ∧ isxdigit x = true ∧ isxdigit y = true)
    (s n : Nat) : nmeaField m s n = nmeaField l s n := by
  induction l generalizing m s n with
  | nil => rw [List.eq_nil_of_length_eq_zero hlength]
  | cons x l ih =>
    cases m with
    | nil => cases hlength
    | cons y m =>
      have htail := ih (Nat.succ.inj hlength) fun i => by simpa using h (i + 1)
      cases n with
      | zero => rfl
      | succ n =>
        have hfirst : endsFields y = endsFields x ∧ (y = ch ',' ↔ x = ch ',') := by
          rcases h 0 with hsame | ⟨x', y', hx, hy, hxd, hyd⟩
          · cases hsame
            exact ⟨rfl, Iff.rfl⟩
          · cases hx
            cases hy
            have hcomma : isxdigit (ch ',') = false := by decide
            rw [not_endsFields hxd, not_endsFields hyd]
            simp [isxdigit_ne hxd hcomma, isxdigit_ne hyd hcomma]
        unfold nmeaField
        simp only [hfirst.1, hfirst.2, htail]

theorem Kept.nmeaField (h : Kept a b) (s n : Nat) :
    nmeaField (b.drop s) s n = nmeaField (a.drop s) s n := by
  refine nmeaField_kept (by simp [h.length]) (fun i => ?_) s n
  simpa using h.bytes (s + i)

/-- **Whether a sentence overruns is kept.** -/
theorem Kept.overruns (h : Kept a b) (s : Nat) : Overruns b s ↔ Overruns a s := by
  have hcomma : isxdigit (ch ',') = false := by decide
  unfold Overruns RmcAtEnd ZdaAtEnd
  simp only [h.byte_iff (by decide : isxdigit (ch '$') = false), h.rmc, h.zda, h.nmeaField,
    h.byte_iff hcomma, h.length]

theorem hasId_iff {i0 i1 i2 i3 : UInt8} :
    hasId a s [i0, i1, i2, i3] = true ↔
      a[s + 3]? = some i0 ∧ a[s + 4]? = some i1 ∧ a[s + 5]? = some i2 ∧ a[s + 6]? = some i3 := by
  have hdrop : ∀ k, a[s + 3 + k]? = (a.drop (s + 3))[k]? := fun k => by rw [List.getElem?_drop]
  have hlength : (a.drop (s + 3)).length = a.length - (s + 3) := List.length_drop
  have h0 := hdrop 0
  have h1 := hdrop 1
  have h2 := hdrop 2
  have h3 := hdrop 3
  simp only [Nat.add_zero, Nat.add_assoc, Nat.reduceAdd] at h0 h1 h2 h3
  rw [h0, h1, h2, h3]
  unfold hasId
  generalize a.drop (s + 3) = l at *
  match l, hlength with
  | [], _ => simp
  | [_], _ => simp
  | [_, _], _ => simp
  | [_, _, _], _ => simp
  | _ :: _ :: _ :: _ :: l, hlength =>
    simp only [List.length_cons] at hlength
    have hroom : 6 < a.length - s := by omega
    simp [hroom]

/-- A sentence has the id when the four bytes are the same. -/
theorem hasId_congr {i0 i1 i2 i3 : UInt8} (h : ∀ j, s + 3 ≤ j → j ≤ s + 6 → b[j]? = a[j]?) :
    hasId b s [i0, i1, i2, i3] = hasId a s [i0, i1, i2, i3] := by
  apply Bool.eq_iff_iff.mpr
  rw [hasId_iff, hasId_iff, h (s + 3) (by omega) (by omega), h (s + 4) (by omega) (by omega),
    h (s + 5) (by omega) (by omega), h (s + 6) (by omega) (by omega)]

/-- A byte that is not of the id. -/
theorem hasId_false {i0 i1 i2 i3 x : UInt8} {j : Nat} (hj : s + 3 ≤ j ∧ j ≤ s + 6)
    (hx : a[j]? = some x) (hid : x ∉ [i0, i1, i2, i3]) : hasId a s [i0, i1, i2, i3] = false := by
  apply Bool.eq_false_iff.mpr
  rw [ne_eq, hasId_iff]
  rintro ⟨h0, h1, h2, h3⟩
  apply hid
  obtain rfl | rfl | rfl | rfl : j = s + 3 ∨ j = s + 4 ∨ j = s + 5 ∨ j = s + 6 := by omega
  · simp [Option.some.inj (hx.symm.trans h0)]
  · simp [Option.some.inj (hx.symm.trans h1)]
  · simp [Option.some.inj (hx.symm.trans h2)]
  · simp [Option.some.inj (hx.symm.trans h3)]

/-- The first byte of the id is not the one there. -/
theorem hasId_first {i0 i1 i2 i3 x : UInt8} {j : Nat} (hj : j = s + 3) (hx : a[j]? = some x)
    (hne : x ≠ i0) : hasId a s [i0, i1, i2, i3] = false := by
  subst hj
  apply Bool.eq_false_iff.mpr
  rw [ne_eq, hasId_iff]
  exact fun h => hne (Option.some.inj (hx.symm.trans h.1))

/-- **Digits in place of digits.** -/
theorem splice_kept {new : List UInt8} (hlen : p + new.length ≤ a.length)
    (hold : ∀ c ∈ field a p new.length, isdigit c = true) (hnew : ∀ c ∈ new, isdigit c = true) :
    Kept a (splice a p new) := by
  have hinside : ∀ j, p ≤ j → j < p + new.length →
      ∃ x y, a[j]? = some x ∧ (splice a p new)[j]? = some y ∧ isdigit x = true ∧
        isdigit y = true := by
    intro j hj hlt
    obtain ⟨x, hx⟩ : ∃ x, a[j]? = some x := ⟨_, List.getElem?_eq_getElem (by omega)⟩
    obtain ⟨y, hy⟩ : ∃ y, new[j - p]? = some y := ⟨_, List.getElem?_eq_getElem (by omega)⟩
    exact ⟨x, y, hx, (getElem?_splice_at hlen ⟨hj, hlt⟩).trans hy,
      hold x (mem_field.mpr ⟨j, hj, hlt, hx⟩), hnew y (List.mem_of_getElem? hy)⟩
  have hid : ∀ {i0 i1 i2 i3 : UInt8}, (∀ c, isdigit c = true → c ∉ [i0, i1, i2, i3]) → ∀ s,
      hasId (splice a p new) s [i0, i1, i2, i3] = hasId a s [i0, i1, i2, i3] := by
    intro i0 i1 i2 i3 hdigits s
    by_cases hmeet : ∃ j, (p ≤ j ∧ j < p + new.length) ∧ s + 3 ≤ j ∧ j ≤ s + 6
    · obtain ⟨j, ⟨hj, hlt⟩, hwindow⟩ := hmeet
      obtain ⟨x, y, hx, hy, hxd, hyd⟩ := hinside j hj hlt
      rw [hasId_false hwindow hx (hdigits x hxd), hasId_false hwindow hy (hdigits y hyd)]
    · refine hasId_congr fun j hj hle => getElem?_splice_off hlen ?_
      by_contra hin
      exact hmeet ⟨j, by omega, hj, hle⟩
  refine ⟨length_splice hlen, fun i => ?_, hid ?_, hid ?_⟩
  · by_cases hi : p ≤ i ∧ i < p + new.length
    · obtain ⟨x, y, hx, hy, hxd, hyd⟩ := hinside i hi.1 hi.2
      exact .inr ⟨x, y, hx, hy, isxdigit_of_isdigit hxd, isxdigit_of_isdigit hyd⟩
    · exact .inl (getElem?_splice_off hlen (by omega))
  · intro c hc hmem
    simp only [List.mem_cons, List.not_mem_nil, or_false] at hmem
    rcases hmem with rfl | rfl | rfl | rfl <;> exact absurd hc (by decide)
  · intro c hc hmem
    simp only [List.mem_cons, List.not_mem_nil, or_false] at hmem
    rcases hmem with rfl | rfl | rfl | rfl <;> exact absurd hc (by decide)

/-- **A checksum in place of a checksum.** The two digits stand behind a star, which no id has, and
    an id does not begin with such a digit. -/
theorem checksum_kept {k : Nat} {x1 x2 y1 y2 : UInt8} (hstar : a[k]? = some (ch '*'))
    (h1 : a[k + 1]? = some x1) (h2 : a[k + 2]? = some x2) (hx1 : isxdigit x1 = true)
    (hx2 : isxdigit x2 = true) (hy1 : isxdigit y1 = true) (hy2 : isxdigit y2 = true) :
    Kept a ((a.set (k + 1) y1).set (k + 2) y2) := by
  have hlt := (List.getElem?_eq_some_iff.mp h2).1
  have hfirst : ((a.set (k + 1) y1).set (k + 2) y2)[k + 1]? = some y1 := by
    rw [List.getElem?_set_ne (by omega), List.getElem?_set_self (by omega)]
  have hsecond : ((a.set (k + 1) y1).set (k + 2) y2)[k + 2]? = some y2 :=
    List.getElem?_set_self (by simpa using hlt)
  have hoff : ∀ j, j ≠ k + 1 → j ≠ k + 2 → ((a.set (k + 1) y1).set (k + 2) y2)[j]? = a[j]? := by
    intro j hj1 hj2
    rw [List.getElem?_set_ne (by omega), List.getElem?_set_ne (by omega)]
  have hid : ∀ {i0 i1 i2 i3 : UInt8}, isxdigit i0 = false → ch '*' ∉ [i0, i1, i2, i3] → ∀ s,
      hasId ((a.set (k + 1) y1).set (k + 2) y2) s [i0, i1, i2, i3] =
        hasId a s [i0, i1, i2, i3] := by
    intro i0 i1 i2 i3 hi0 hstarId s
    by_cases hwindow : s + 3 ≤ k ∧ k ≤ s + 6
    · -- the star is in the window
      rw [hasId_false hwindow hstar hstarId,
        hasId_false hwindow ((hoff k (by omega) (by omega)).trans hstar) hstarId]
    · by_cases hone : k + 1 = s + 3
      · rw [hasId_first hone h1 (isxdigit_ne hx1 hi0),
          hasId_first hone hfirst (isxdigit_ne hy1 hi0)]
      · by_cases htwo : k + 2 = s + 3
        · rw [hasId_first htwo h2 (isxdigit_ne hx2 hi0),
            hasId_first htwo hsecond (isxdigit_ne hy2 hi0)]
        · exact hasId_congr fun j hj hle => hoff j (by omega) (by omega)
  refine ⟨by simp, fun i => ?_, hid (by decide) (by decide), hid (by decide) (by decide)⟩
  by_cases hone : i = k + 1
  · exact .inr ⟨x1, y1, hone ▸ h1, hone ▸ hfirst, hx1, hy1⟩
  · by_cases htwo : i = k + 2
    · exact .inr ⟨x2, y2, htwo ▸ h2, htwo ▸ hsecond, hx2, hy2⟩
    · exact .inl (hoff i hone htwo)

theorem hex_isxdigit {i : Nat} (hi : i < 16) : isxdigit (hex.getD i 0) = true := by
  interval_cases i <;> decide

theorem nibbles_lt (sum : UInt8) : (sum >>> 4).toNat < 16 ∧ (sum &&& 0xf).toNat < 16 := by
  have hlt := sum.toNat_lt
  constructor
  · rw [UInt8.toNat_shiftRight, show (4 : UInt8).toNat % 8 = 4 from rfl,
      Nat.shiftRight_eq_div_pow]
    omega
  · rw [UInt8.toNat_and]
    exact Nat.lt_of_le_of_lt Nat.and_le_right (by decide)

theorem any_isxdigit {o : Option UInt8} (h : o.any isxdigit = true) :
    ∃ x, o = some x ∧ isxdigit x = true := by
  cases o with
  | none => cases h
  | some x => exact ⟨x, rfl, h⟩

theorem fixChecksum_kept (a : List UInt8) (s : Nat) : Kept a (fixChecksum a s) := by
  unfold fixChecksum
  dsimp only
  split
  · rename_i h
    obtain ⟨-, hstar, hone, htwo⟩ := h
    obtain ⟨x1, h1, hx1⟩ := any_isxdigit hone
    obtain ⟨x2, h2, hx2⟩ := any_isxdigit htwo
    obtain ⟨hhigh, hlow⟩ := nibbles_lt (checksum (summed a s))
    exact checksum_kept hstar h1 h2 hx1 hx2 (hex_isxdigit hhigh) (hex_isxdigit hlow)
  · exact Kept.refl a

end Kept

/-! ## 4. The whole buffer -/

section Buffer

variable {buf : List UInt8} {s : Nat} {f : DateFields}

/-- The three numbers of a date are digits. -/
def DateFields.Digits (f : DateFields) (buf : List UInt8) : Prop :=
  (field buf f.dp 2).all isdigit = true ∧ (field buf f.mp 2).all isdigit = true ∧
    (field buf f.yp f.ylen).all isdigit = true

/-- **Reading the date** of fields that are inside: there is none, or it was read from digits and is
    of the year 0 or later. -/
theorem readDays_spec (hin : f.Inside buf.length) :
    readDays buf f = some none ∨
      ∃ days, readDays buf f = some (some days) ∧ f.Digits buf ∧ -719528 ≤ days := by
  obtain ⟨hd, hm, hy⟩ := hin
  obtain ⟨day, hday⟩ : ∃ v, nmeaDigits buf f.dp 2 0 = some v := ⟨_, nmeaDigits_eq hd 0⟩
  obtain ⟨month, hmonth⟩ : ∃ v, nmeaDigits buf f.mp 2 0 = some v := ⟨_, nmeaDigits_eq hm 0⟩
  obtain ⟨year, hyear⟩ : ∃ v, nmeaDigits buf f.yp f.ylen 0 = some v := ⟨_, nmeaDigits_eq hy 0⟩
  unfold readDays
  rw [hday, hmonth, hyear]
  simp only [Option.bind_eq_bind, Option.bind_some]
  split
  · exact .inl rfl
  · rename_i hvalid
    have hfull : 0 ≤ if f.ylen = 2 then year + 2000 else year := by
      split <;> omega
    exact .inr ⟨_, rfl, ⟨(digits_of_read hd hday (by omega)).1,
      (digits_of_read hm hmonth (by omega)).1, (digits_of_read hy hyear (by omega)).1⟩,
      daysFromCivil_ge hfull (by omega) (by omega)⟩

/-- **A number in place of digits**: what is kept, and the digits of every field. -/
theorem nmeaPutDigits_spec {p n : Nat} {v : Int} (hp : p + n ≤ buf.length) (hv : 0 ≤ v)
    (hold : (field buf p n).all isdigit = true) :
    ∃ b, nmeaPutDigits p n v buf = some b ∧ Kept buf b ∧
      ∀ q k, (field buf q k).all isdigit = true → (field b q k).all isdigit = true := by
  have hlen : p + (digits n v).length ≤ buf.length := by rwa [length_digits]
  have hnew : ∀ c ∈ digits n v, isdigit c = true := fun c hc => (digits_spec hc).1
  refine ⟨_, nmeaPutDigits_splice hp hv, splice_kept hlen ?_ hnew, fun q k hall => ?_⟩
  · rw [length_digits]
    exact List.all_eq_true.mp hold
  · rw [List.all_eq_true] at hall ⊢
    intro c hc
    obtain ⟨j, hj, hlt, hbyte⟩ := mem_field.mp hc
    by_cases hin : p ≤ j ∧ j < p + (digits n v).length
    · rw [getElem?_splice_at hlen hin] at hbyte
      exact hnew c (List.mem_of_getElem? hbyte)
    · rw [getElem?_splice_off hlen (by omega)] at hbyte
      exact hall c (mem_field.mpr ⟨j, hj, hlt, hbyte⟩)

/-- **A date in place of a date.** -/
theorem writeDate_spec (hin : f.Inside buf.length) (hdigits : f.Digits buf) {y m d : Int}
    (hy : 0 ≤ y) (hm : 0 ≤ m) (hd : 0 ≤ d) :
    ∃ b, writeDate buf f (y, m, d) = some b ∧ Kept buf b := by
  obtain ⟨hdp, hmp, hyp⟩ := hin
  obtain ⟨hday, hmonth, hyear⟩ := hdigits
  have hyear0 : 0 ≤ if f.ylen = 2 then Int.tmod y 100 else y := by
    split
    · exact Int.tmod_nonneg 100 hy
    · exact hy
  obtain ⟨b1, hput1, hkept1, hall1⟩ := nmeaPutDigits_spec hdp hd hday
  obtain ⟨b2, hput2, hkept2, hall2⟩ :=
    nmeaPutDigits_spec (hkept1.length ▸ hmp) hm (hall1 _ _ hmonth)
  obtain ⟨b3, hput3, hkept3, -⟩ :=
    nmeaPutDigits_spec ((hkept1.trans hkept2).length ▸ hyp) hyear0 (hall2 _ _ (hall1 _ _ hyear))
  refine ⟨b3, ?_, (hkept1.trans hkept2).trans hkept3⟩
  simp [writeDate, hput1, hput2, hput3]

/-- **One turn of the loop**: it leaves the buffer exactly when the sentence overruns. -/
theorem fixDateAt_spec (hs : s < buf.length) :
    (Overruns buf s ∧ fixDateAt buf s = none) ∨
      (¬ Overruns buf s ∧ ∃ b, fixDateAt buf s = some b ∧ Kept buf b) := by
  obtain ⟨c, hc⟩ : ∃ c, buf[s]? = some c := ⟨_, List.getElem?_eq_getElem hs⟩
  unfold fixDateAt
  simp only [hc, Option.bind_eq_bind, Option.bind_some]
  by_cases hdollar : c = ch '$'
  · subst hdollar
    rw [if_neg (not_not.mpr rfl)]
    rcases dateFields_spec hc with ⟨hover, hnone⟩ | ⟨hover, r, hr, hin⟩
    · exact .inl ⟨hover, by rw [hnone]; rfl⟩
    · refine .inr ⟨hover, ?_⟩
      rw [hr, Option.bind_some]
      cases r with
      | none => exact ⟨buf, rfl, Kept.refl buf⟩
      | some f =>
        dsimp only
        rcases readDays_spec (hin f rfl) with hread | ⟨days, hread, hdigits, hdays⟩
        · rw [hread]
          exact ⟨buf, rfl, Kept.refl buf⟩
        · rw [hread, Option.bind_some]
          dsimp only
          split
          · exact ⟨buf, rfl, Kept.refl buf⟩
          · obtain ⟨date, hnumber, hyear⟩ := exists_date (z := days + 1024 * 7) (by omega)
            have hmonth := date.month_mem
            have hday := date.day_mem
            rw [← hnumber, civilFromDays_daysFromCivil]
            obtain ⟨b, hwrite, hkept⟩ := writeDate_spec (hin f rfl) hdigits hyear
              (m := date.month) (d := date.day) (by omega) (by omega)
            exact ⟨fixChecksum b s, by rw [hwrite]; rfl, hkept.trans (fixChecksum_kept b s)⟩
  · rw [if_pos hdollar]
    refine .inr ⟨fun hover => ?_, buf, rfl, Kept.refl buf⟩
    exact hdollar (Option.some.inj (hc.symm.trans hover.1))

/-- **The turns from any list of positions.** -/
theorem foldlM_fixDateAt {l : List Nat} (hl : ∀ s ∈ l, s < buf.length) :
    (∃ out, l.foldlM fixDateAt buf = some out) ↔ ∀ s ∈ l, ¬ Overruns buf s := by
  induction l generalizing buf with
  | nil => simp
  | cons s l ih =>
    rw [List.foldlM_cons, Option.bind_eq_bind, List.forall_mem_cons]
    rcases fixDateAt_spec (hl s List.mem_cons_self) with ⟨hover, hnone⟩ | ⟨hover, b, hb, hkept⟩
    · rw [hnone]
      simp [hover]
    · have hrest : ∀ x ∈ l, x < b.length := fun x hx =>
        hkept.length ▸ hl x (List.mem_cons_of_mem s hx)
      rw [hb, Option.bind_some, ih hrest]
      simp only [hkept.overruns, hover, not_false_iff, true_and]

end Buffer

/-- **Every access is inside of the buffer exactly when no sentence overruns**, for every content
    and every length. -/
theorem stays_inside_iff (buf : List UInt8) :
    (∃ out, locEngFixNmeaDates buf = some out) ↔ ∀ s, ¬ Overruns buf s := by
  unfold locEngFixNmeaDates
  rw [foldlM_fixDateAt fun s hs => List.mem_range.mp hs]
  constructor
  · intro h s hover
    have hlt := (List.getElem?_eq_some_iff.mp hover.1).1
    exact h s (List.mem_range.mpr hlt) hover
  · exact fun h s _ => h s

def bytesOf (text : String) : List UInt8 := text.toList.map ch

/-- **A sentence that is cut off behind its date**: the byte behind the buffer is read, where the
    comma would be. -/
theorem reads_behind_rmc :
    (bytesOf "$GPRMC,,,,,,,,,220811").length ≤ 200 ∧
      locEngFixNmeaDates (bytesOf "$GPRMC,,,,,,,,,220811") = none ∧
      locEngFixNmeaDates (bytesOf "$GPZDA,,22,08,2011") = none := by
  decide

end Y210.Gps.Nmea

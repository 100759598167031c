/-
  File:      Y210/Audio/FilterFile.lean
  Subject:   A LINE OF THE AUDIO FILTER FILE (`AudioHardware.cpp`,
             `check_and_set_audpp_parameters`).

  A line is a record: a letter for the filter, a digit for the device or the sample rate, and the
  filter's words between commas. The words go into tables of fixed size; two of the counts that the
  MBADRC record stores by come from the line.

  * `Field`, `Cell` -- the tables, field by field, and the place of one word in them;
  * `iirRecord` .. `nsRecord` -- the seven records, as scanners of their tokens;
  * `Cell.Fits` -- a cell inside its table, of the filter and in the row of a record;
  * `record_keeps` -- a record stores to such cells only, whatever its tokens are.
-/
import Mathlib.Data.List.Basic
import Mathlib.Tactic.Common
import Y210.Lib.Scan
import Y210.Lib.Text

namespace Y210.Audio.Filter

open Y210.Lib

/-! ## 1. The tables -/

/-- What the parser stores to: the fields of the tables, and those of its own array `eq`. -/
inductive Field
  -- `iir_cfg`, `adrc_cfg`
  | iirNumBands | iirParams | adrcParams
  -- `mbadrc_cfg`
  | mbNumBands | mbDownSampLevel | mbAdrcDelay | mbExtBufSize | mbExtPartition | mbExtBufMsw
  | mbExtBufLsw | mbBandParams | mbExtBuf
  -- `equalizer`
  | eqBands | eqParams
  -- the flags
  | rxIirFlag | adrcFlag | eqFlag | mbadrcFlag | txiirFlag | agcFlag | nsFlag
  -- `tx_iir_cfg`
  | txIirCmdId | txIirActiveFlag | txIirNumBands | txIirParams
  -- `tx_agc_cfg`
  | agcCmdId | agcParamMask | agcEnableFlag | agcStaticGain | agcAdaptiveGainFlag | agcParams
  -- `ns_cfg`
  | nsCmdId | nsEcModeNew | nsDensGammaN | nsDensNfeBlockSize | nsDensLimitNs | nsDensLimitNsD
  | nsWbGammaE | nsWbGammaN
  | enablePreprocMask
  -- `eq`
  | eqGain | eqFreq | eqType | eqQf
  deriving DecidableEq, Repr

/-- The tables by what their rows stand for: a device, a device for the flags of the
    pre-processing (the parser knows none there), a sample rate, and a band of the local `eq`. -/
inductive Kind
  | device
  | preFlag
  | rate
  | band
  deriving DecidableEq, Repr

def Field.kind : Field → Kind
  | .txiirFlag | .agcFlag | .nsFlag => .preFlag
  | .txIirCmdId | .txIirActiveFlag | .txIirNumBands | .txIirParams
  | .agcCmdId | .agcParamMask | .agcEnableFlag | .agcStaticGain | .agcAdaptiveGainFlag | .agcParams
  | .nsCmdId | .nsEcModeNew | .nsDensGammaN | .nsDensNfeBlockSize | .nsDensLimitNs | .nsDensLimitNsD
  | .nsWbGammaE | .nsWbGammaN | .enablePreprocMask => .rate
  | .eqGain | .eqFreq | .eqType | .eqQf => .band
  | _ => .device

/-- The rows that a table has; `EQ_MAX_BAND_NUM` for `eq`. -/
def Kind.rows : Kind → Int
  | .device => 3
  | .preFlag => 3
  | .rate => 9
  | .band => 12

/-- The words that a row has in the field, and for `adrc_band` the words of each of them. -/
def Field.size : Field → Nat × Nat
  | .iirParams | .txIirParams => (48, 1)
  | .adrcParams => (8, 1)
  | .mbBandParams => (5, 10)
  | .mbExtBuf => (196, 1)
  | .eqParams => (132, 1)
  | .agcParams => (19, 1)
  | _ => (1, 1)

/-- The place of a word: `table[row].field[i]`, and `[j]` of it. -/
structure Cell where
  field : Field
  row : Int
  i : Nat
  j : Nat
  deriving DecidableEq, Repr

/-- A field that is one word. -/
def Field.word (f : Field) (row : Int) : Cell := ⟨f, row, 0, 0⟩

/-- A word of a field that is an array. -/
def Field.elem (f : Field) (row : Int) (i : Nat) : Cell := ⟨f, row, i, 0⟩

/-- `f[0]` .. `f[n - 1]` of a row. -/
def Field.elems (f : Field) (row : Int) (n : Nat) : List Cell := (List.range n).map (f.elem row)

/-- Some of a row's fields that are one word each. -/
def words (fs : List Field) (row : Int) : List Cell := fs.map fun f => f.word row

def Cell.Inside (c : Cell) : Prop :=
  0 ≤ c.row ∧ c.row < c.field.kind.rows ∧ c.i < c.field.size.1 ∧ c.j < c.field.size.2

instance (c : Cell) : Decidable c.Inside :=
  inferInstanceAs (Decidable (_ ∧ _ ∧ _ ∧ _))

/-- The tables' contents. The words are `uint16_t`, those of `buff` and `adaptive_gain_flag` the
    same bits as `int16_t`, and `enable_preproc_mask` is an `int`. -/
abbrev Tables := Cell → Nat

/-! ## 2. The records -/

def EINVAL : Int := 22

/-- The bits of `enable_preproc_mask`. -/
def AGC_ENABLE : Nat := 1
def NS_ENABLE : Nat := 2
def TX_IIR_ENABLE : Nat := 4

abbrev Scanner := Scan (List Char) (Write Cell Nat) Int

/-- `if (!(p = strtok(NULL, seps))) return -EINVAL`, for a token that is not used. -/
def skip : Scanner Unit := do
  let _ ← Scan.token (-EINVAL)

/-- `(uint16_t)strtol(p, &ps, 16)`. -/
def number (p : List Char) : Nat := ((strtol 16 p).1 % 2 ^ 16).toNat

/-- The next token, stored. -/
def scanWord (c : Cell) : Scanner Nat := do
  let p ← Scan.token (-EINVAL)
  Scan.store (.set c (number p))
  pure (number p)

/-- The next tokens, stored one after the other. -/
def scanWords (cs : List Cell) : Scanner Unit :=
  forM cs fun c => do
    let _ ← scanWord c

def iirRecord (deviceId : Int) : Scanner Unit := do
  skip
  skip
  scanWords (Field.elems .iirParams deviceId 48)
  scanWords (words [.rxIirFlag, .iirNumBands] deviceId)

def adrcRecord (deviceId : Int) : Scanner Unit := do
  skip
  skip
  scanWords (words [.adrcFlag] deviceId)
  scanWords (Field.elems .adrcParams deviceId 8)

/-- What a call of `audioeq_calccoefs` leaves in its outputs. -/
structure Coefs where
  numerator : Nat → UInt16
  denominator : Nat → UInt16
  shift : Nat → UInt16

/-- The equaliser library: whether `dlopen` and `dlsym` find it, and what its call for a band gives
    for gain, frequency, type and quality factor. -/
structure EqLib where
  opens : Bool
  hasSymbol : Bool
  eqCal : Nat → Nat → Nat → Nat → Nat → Coefs

/-- `equalizer[device_id].bands`. -/
def bands : Nat := 8

/-- `memset(&equalizer[device_id], 0, sizeof(eq_filter))`. -/
def clearEqualizer (deviceId : Int) : Scanner Unit :=
  forM (Field.word .eqBands deviceId :: Field.elems .eqParams deviceId 132) fun c =>
    Scan.store (.set c 0)

/-- The places of a band's coefficients in `params`. -/
def coefCells (deviceId : Int) (i : Nat) (c : Coefs) : List (Cell × UInt16) :=
  (List.range 6).map (fun j => (Field.elem .eqParams deviceId (i * 6 + j), c.numerator j)) ++
  (List.range 4).map (fun j => (Field.elem .eqParams deviceId (bands * 6 + i * 4 + j),
    c.denominator j)) ++
  [(Field.elem .eqParams deviceId (bands * 10 + i), c.shift 0)]

def storeCoefs (deviceId : Int) (i : Nat) (c : Coefs) : Scanner Unit :=
  forM (coefCells deviceId i c) fun x => Scan.store (.set x.1 x.2.toNat)

def eqBand (lib : EqLib) (deviceId : Int) (i : Nat) : Scanner Unit := do
  let gain ← scanWord (Field.word .eqGain i)
  let freq ← scanWord (Field.word .eqFreq i)
  let type ← scanWord (Field.word .eqType i)
  let qf ← scanWord (Field.word .eqQf i)
  storeCoefs deviceId i (lib.eqCal i gain freq type qf)

def eqRecord (lib : EqLib) (deviceId : Int) : Scanner Unit := do
  skip
  skip
  scanWords (words [.eqFlag] deviceId)
  Scan.require (lib.opens = true) (-1)
  Scan.require (lib.hasSymbol = true) (-1)
  clearEqualizer deviceId
  Scan.store (.set (Field.word .eqBands deviceId) bands)
  forM (List.range bands) (eqBand lib deviceId)

/-- `adrc_band[i].adrc_band_params[j]` for the bands below `n`. -/
def bandCells (deviceId : Int) (n : Nat) : List Cell :=
  (List.range n).flatMap fun i => (List.range 10).map fun j => ⟨.mbBandParams, deviceId, i, j⟩

/-- The counts are read again in every round of the loops, which do not store to them. -/
def mbadrcRecord (deviceId : Int) : Scanner Unit := do
  skip
  skip
  let numBands ← scanWord (Field.word .mbNumBands deviceId)
  Scan.require (numBands ≤ 5) (-EINVAL)
  scanWords (words [.mbDownSampLevel, .mbAdrcDelay] deviceId)
  let extBufSize ← scanWord (Field.word .mbExtBufSize deviceId)
  Scan.require (extBufSize ≤ 392) (-EINVAL)
  scanWords (words [.mbExtPartition, .mbExtBufMsw, .mbExtBufLsw] deviceId)
  scanWords (bandCells deviceId numBands)
  scanWords (Field.elems .mbExtBuf deviceId (extBufSize / 2))
  scanWords (words [.mbadrcFlag] deviceId)

/-- `if (flag != 0) enable_preproc_mask[samp_index] |= bit`. -/
def enableIf (flag : Nat) (sampIndex : Int) (bit : Nat) : Scanner Unit :=
  if flag ≠ 0 then Scan.store ⟨Field.word .enablePreprocMask sampIndex, (· ||| bit)⟩ else pure ()

/-- The words of a pair change places, up to the 40th. -/
def txIirPlace (i : Nat) : Nat := if 40 ≤ i then i else if i % 2 ≠ 0 then i - 1 else i + 1

/-- The three records of the pre-processing leave `device_id` at 0, so that their flags go to the
    first device; the command id of the TX_IIR record is read and not used. -/
def txIirRecord (sampIndex : Int) : Scanner Unit := do
  skip
  skip
  scanWords ((List.range 48).map fun i => Field.elem .txIirParams sampIndex (txIirPlace i))
  scanWords (words [.txIirActiveFlag] sampIndex)
  let flag ← scanWord (Field.word .txiirFlag 0)
  scanWords (words [.txIirNumBands] sampIndex)
  skip
  Scan.store (.set (Field.word .txIirCmdId sampIndex) 0)
  enableIf flag sampIndex TX_IIR_ENABLE

def agcRecord (sampIndex : Int) : Scanner Unit := do
  skip
  scanWords (words [.agcCmdId, .agcParamMask, .agcEnableFlag, .agcStaticGain,
    .agcAdaptiveGainFlag] sampIndex)
  scanWords (Field.elems .agcParams sampIndex 19)
  let flag ← scanWord (Field.word .agcFlag 0)
  enableIf flag sampIndex AGC_ENABLE

def nsRecord (sampIndex : Int) : Scanner Unit := do
  skip
  scanWords (words [.nsCmdId, .nsEcModeNew, .nsDensGammaN, .nsDensNfeBlockSize, .nsDensLimitNs,
    .nsDensLimitNsD, .nsWbGammaE, .nsWbGammaN] sampIndex)
  let flag ← scanWord (Field.word .nsFlag 0)
  enableIf flag sampIndex NS_ENABLE

/-! ## 3. A line -/

def getDeviceId : Char → Int
  | '1' => 0
  | '2' => 1
  | '3' => 2
  | _ => -EINVAL

def getSampleIndex : Char → Int
  | '1' => 0
  | '2' => 1
  | '3' => 2
  | '4' => 3
  | '5' => 4
  | '6' => 5
  | '7' => 6
  | '8' => 7
  | '9' => 8
  | _ => -EINVAL

def isDevice (c : Char) : Prop := c = '1' ∨ c = '2' ∨ c = '3'

instance (c : Char) : Decidable (isDevice c) := inferInstanceAs (Decidable (_ ∨ _ ∨ _))

/-- The record that a line's first two characters stand for. -/
def record (lib : EqLib) (c₀ c₁ : Char) : Scanner Unit :=
  if c₀ = 'A' ∧ isDevice c₁ then iirRecord (getDeviceId c₁)
  else if c₀ = 'B' ∧ isDevice c₁ then adrcRecord (getDeviceId c₁)
  else if c₀ = 'C' ∧ isDevice c₁ then eqRecord lib (getDeviceId c₁)
  else if c₀ = 'D' ∧ isDevice c₁ then mbadrcRecord (getDeviceId c₁)
  else if c₀ = 'E' ∨ c₀ = 'F' ∨ c₀ = 'G' then
    if getSampleIndex c₁ = -EINVAL then Scan.stop (-EINVAL)
    else if c₀ = 'E' then txIirRecord (getSampleIndex c₁)
    else if c₀ = 'F' then agcRecord (getSampleIndex c₁)
    else nsRecord (getSampleIndex c₁)
  else pure ()

/-- `buf[k]`; behind the string there is a NUL. -/
def charAt (buf : List Char) (k : Nat) : Char := buf.getD k '\x00'

/-- `check_and_set_audpp_parameters`: the stores to the tables, in their order, and the code. -/
def checkAndSetAudppParameters (lib : EqLib) (buf : List Char) : List (Write Cell Nat) × Int :=
  (record lib (charAt buf 0) (charAt buf 1)).run 0 (tokens ',' buf)

/-! ## 4. What a record stores to -/

/-- The letters of the records that have the field. -/
def Field.letters : Field → List Char
  | .iirNumBands | .iirParams | .rxIirFlag => ['A']
  | .adrcParams | .adrcFlag => ['B']
  | .eqBands | .eqParams | .eqFlag | .eqGain | .eqFreq | .eqType | .eqQf => ['C']
  | .mbNumBands | .mbDownSampLevel | .mbAdrcDelay | .mbExtBufSize | .mbExtPartition | .mbExtBufMsw
  | .mbExtBufLsw | .mbBandParams | .mbExtBuf | .mbadrcFlag => ['D']
  | .txIirCmdId | .txIirActiveFlag | .txIirNumBands | .txIirParams | .txiirFlag => ['E']
  | .agcCmdId | .agcParamMask | .agcEnableFlag | .agcStaticGain | .agcAdaptiveGainFlag
  | .agcParams | .agcFlag => ['F']
  | .nsCmdId | .nsEcModeNew | .nsDensGammaN | .nsDensNfeBlockSize | .nsDensLimitNs | .nsDensLimitNsD
  | .nsWbGammaE | .nsWbGammaN | .nsFlag => ['G']
  | .enablePreprocMask => ['E', 'F', 'G']

/-- The row that a record with the letter `c₀` and the digit `c₁` is for. -/
def recordRow (c₀ c₁ : Char) : Int :=
  if c₀ = 'E' ∨ c₀ = 'F' ∨ c₀ = 'G' then getSampleIndex c₁ else getDeviceId c₁

/-- The rows that a record for the row `row` stores to: that row, and row 0 of the pre-processing's
    flags. The rows of the parser's local array are all its own. -/
def Cell.InRow (row : Int) (c : Cell) : Prop :=
  match c.field.kind with
  | .device => c.row = row
  | .preFlag => c.row = 0
  | .rate => c.row = row
  | .band => True

/-- The cells that a line may change. -/
def MayChange (buf : List Char) (c : Cell) : Prop :=
  charAt buf 0 ∈ c.field.letters ∧ c.InRow (recordRow (charAt buf 0) (charAt buf 1))

/-- A cell inside its table, in a field of the letter and in the rows of `row`. -/
def Cell.Fits (c₀ : Char) (row : Int) (c : Cell) : Prop :=
  c.Inside ∧ c₀ ∈ c.field.letters ∧ c.InRow row

/-- All the stores of the scanner are to such cells. -/
abbrev Keeps {α : Type} (c₀ : Char) (row : Int) (p : Scanner α) : Prop :=
  p.Stores (fun w => w.cell.Fits c₀ row) fun _ => True

/-- A row of the devices' tables, or of the sample rates'. -/
structure IsRow (k : Kind) (row : Int) : Prop where
  kind : k = .device ∨ k = .rate
  nonneg : 0 ≤ row
  lt : row < k.rows

section Fits

variable {c₀ : Char} {row : Int} {k : Kind} {f : Field} {fs : List Field} {i n : Nat} {c : Cell}
  {cs : List Cell}

theorem Field.size_pos (f : Field) : 0 < f.size.1 ∧ 0 < f.size.2 := by
  cases f <;> decide

theorem IsRow.fits (h : IsRow k row) (hf : c₀ ∈ f.letters ∧ f.kind = k) {i j : Nat}
    (hi : i < f.size.1) (hj : j < f.size.2) : Cell.Fits c₀ row ⟨f, row, i, j⟩ := by
  obtain ⟨hletter, rfl⟩ := hf
  refine ⟨⟨h.nonneg, h.lt, hi, hj⟩, hletter, ?_⟩
  unfold Cell.InRow
  rcases h.kind with hk | hk <;> simp only [hk]

theorem IsRow.elem (h : IsRow k row) (hf : c₀ ∈ f.letters ∧ f.kind = k) (hi : i < f.size.1) :
    (f.elem row i).Fits c₀ row :=
  h.fits hf hi f.size_pos.2

theorem IsRow.word (h : IsRow k row) (hf : c₀ ∈ f.letters ∧ f.kind = k) :
    (f.word row).Fits c₀ row :=
  h.elem hf f.size_pos.1

theorem IsRow.elems (h : IsRow k row) (hf : c₀ ∈ f.letters ∧ f.kind = k) (hn : n ≤ f.size.1) :
    ∀ c ∈ f.elems row n, c.Fits c₀ row := by
  intro c hc
  obtain ⟨i, hi, rfl⟩ := List.mem_map.mp hc
  exact h.elem hf (Nat.lt_of_lt_of_le (List.mem_range.mp hi) hn)

theorem IsRow.words (h : IsRow k row) (hfs : ∀ f ∈ fs, c₀ ∈ f.letters ∧ f.kind = k) :
    ∀ c ∈ words fs row, c.Fits c₀ row := by
  intro c hc
  obtain ⟨f, hf, rfl⟩ := List.mem_map.mp hc
  exact h.word (hfs f hf)

/-- The flags of the pre-processing, in row 0. -/
theorem preFlag_fits (hf : c₀ ∈ f.letters ∧ f.kind = .preFlag) : (f.word 0).Fits c₀ row := by
  refine ⟨⟨Int.le_refl 0, ?_, f.size_pos.1, f.size_pos.2⟩, hf.1, ?_⟩
  · simp only [Field.word, hf.2, Kind.rows]
    decide
  · simp only [Cell.InRow, Field.word, hf.2]

/-- The local array, in the rows of its bands. -/
theorem band_fits (hf : c₀ ∈ f.letters ∧ f.kind = .band) (hi : i < bands) :
    (f.word i).Fits c₀ row := by
  have hlt : (i : Int) < 12 := by
    unfold bands at hi
    omega
  refine ⟨⟨Int.natCast_nonneg i, ?_, f.size_pos.1, f.size_pos.2⟩, hf.1, ?_⟩
  · simpa only [Field.word, hf.2, Kind.rows] using hlt
  · simp only [Cell.InRow, Field.word, hf.2]

/-! ## 5. The records, one after the other -/

theorem skip_keeps : Keeps c₀ row skip :=
  (Scan.Stores.token _).seq (.pure trivial)

theorem set_keeps (h : c.Fits c₀ row) (v : Nat) : Keeps c₀ row (Scan.store (.set c v)) :=
  .store h

theorem scanWord_keeps (h : c.Fits c₀ row) : Keeps c₀ row (scanWord c) :=
  (Scan.Stores.token _).bind fun p _ => (set_keeps h (number p)).seq (.pure trivial)

theorem scanWords_keeps (h : ∀ c ∈ cs, c.Fits c₀ row) : Keeps c₀ row (scanWords cs) :=
  .forM fun c hc => (scanWord_keeps (h c hc)).seq (.pure trivial)

theorem enableIf_keeps (h : IsRow .rate row) (hletter : c₀ ∈ Field.enablePreprocMask.letters)
    (flag bit : Nat) : Keeps c₀ row (enableIf flag row bit) := by
  unfold enableIf
  split
  · exact .store (h.word ⟨hletter, rfl⟩)
  · exact .pure trivial

theorem iirRecord_keeps (h : IsRow .device row) : Keeps 'A' row (iirRecord row) := by
  refine skip_keeps.seq (skip_keeps.seq (.seq (scanWords_keeps ?_) (scanWords_keeps ?_)))
  · exact h.elems (by decide) (by decide)
  · exact h.words (by decide)

theorem adrcRecord_keeps (h : IsRow .device row) : Keeps 'B' row (adrcRecord row) := by
  refine skip_keeps.seq (skip_keeps.seq (.seq (scanWords_keeps ?_) (scanWords_keeps ?_)))
  · exact h.words (by decide)
  · exact h.elems (by decide) (by decide)

/-- The coefficients of the eight bands fill 88 of the 132 words. -/
theorem coefCells_fits (h : IsRow .device row) (hi : i < bands) (co : Coefs) :
    ∀ x ∈ coefCells row i co, x.1.Fits 'C' row := by
  have hplace : ∀ m < 132, (Field.elem .eqParams row m).Fits 'C' row := fun m hm =>
    h.elem (by decide) hm
  unfold bands at hi
  intro x hx
  unfold coefCells bands at hx
  simp only [List.mem_append, List.mem_map, List.mem_range, List.mem_singleton] at hx
  rcases hx with (⟨j, hj, rfl⟩ | ⟨j, hj, rfl⟩) | rfl
  · exact hplace _ (by omega)
  · exact hplace _ (by omega)
  · exact hplace _ (by omega)

theorem eqBand_keeps (h : IsRow .device row) (lib : EqLib) (hi : i < bands) :
    Keeps 'C' row (eqBand lib row i) := by
  refine (scanWord_keeps (band_fits (by decide) hi)).bind fun gain _ => ?_
  refine (scanWord_keeps (band_fits (by decide) hi)).bind fun freq _ => ?_
  refine (scanWord_keeps (band_fits (by decide) hi)).bind fun type _ => ?_
  refine (scanWord_keeps (band_fits (by decide) hi)).bind fun qf _ => ?_
  exact .forM fun x hx => set_keeps (coefCells_fits h hi _ x hx) _

theorem clearEqualizer_keeps (h : IsRow .device row) : Keeps 'C' row (clearEqualizer row) := by
  refine .forM fun c hc => set_keeps ?_ 0
  rcases List.mem_cons.mp hc with rfl | hc
  · exact h.word (by decide)
  · exact h.elems (by decide) (Nat.le_refl 132) c hc

theorem eqRecord_keeps (h : IsRow .device row) (lib : EqLib) :
    Keeps 'C' row (eqRecord lib row) := by
  refine skip_keeps.seq (skip_keeps.seq ((scanWords_keeps (h.words (by decide))).seq ?_))
  refine (Scan.Stores.require _).seq ((Scan.Stores.require _).seq ?_)
  refine (clearEqualizer_keeps h).seq ((set_keeps (h.word (by decide)) bands).seq ?_)
  exact .forM fun i hi => eqBand_keeps h lib (List.mem_range.mp hi)

theorem bandCells_fits (h : IsRow .device row) (hn : n ≤ 5) :
    ∀ c ∈ bandCells row n, c.Fits 'D' row := by
  intro c hc
  obtain ⟨i, hi, hc⟩ := List.mem_flatMap.mp hc
  obtain ⟨j, hj, rfl⟩ := List.mem_map.mp hc
  exact h.fits (by decide) (Nat.lt_of_lt_of_le (List.mem_range.mp hi) hn) (List.mem_range.mp hj)

/-- The two counts of the line are checked before the loops that they bound. -/
theorem mbadrcRecord_keeps (h : IsRow .device row) : Keeps 'D' row (mbadrcRecord row) := by
  refine skip_keeps.seq (skip_keeps.seq ?_)
  refine (scanWord_keeps (h.word (by decide))).bind fun numBands _ => ?_
  refine (Scan.Stores.require _).bind fun _ hbands => ?_
  refine (scanWords_keeps (h.words (by decide))).seq ?_
  refine (scanWord_keeps (h.word (by decide))).bind fun extBufSize _ => ?_
  refine (Scan.Stores.require _).bind fun _ hsize => ?_
  refine (scanWords_keeps (h.words (by decide))).seq ?_
  refine (scanWords_keeps (bandCells_fits h hbands)).seq ?_
  have hhalf : extBufSize / 2 ≤ 196 := by omega
  exact (scanWords_keeps (h.elems (by decide) hhalf)).seq (scanWords_keeps (h.words (by decide)))

theorem txIirPlace_lt (hi : i < 48) : txIirPlace i < 48 := by
  unfold txIirPlace
  split_ifs <;> omega

theorem txIirRecord_keeps (h : IsRow .rate row) : Keeps 'E' row (txIirRecord row) := by
  have hparams : ∀ c ∈ (List.range 48).map fun i => Field.elem .txIirParams row (txIirPlace i),
      c.Fits 'E' row := by
    intro c hc
    obtain ⟨i, hi, rfl⟩ := List.mem_map.mp hc
    exact h.elem (by decide) (txIirPlace_lt (List.mem_range.mp hi))
  refine skip_keeps.seq (skip_keeps.seq ((scanWords_keeps hparams).seq ?_))
  refine (scanWords_keeps (h.words (by decide))).seq ?_
  refine (scanWord_keeps (preFlag_fits (by decide))).bind fun flag _ => ?_
  refine (scanWords_keeps (h.words (by decide))).seq (skip_keeps.seq ?_)
  exact (set_keeps (h.word (by decide)) 0).seq (enableIf_keeps h (by decide) flag _)

theorem agcRecord_keeps (h : IsRow .rate row) : Keeps 'F' row (agcRecord row) := by
  refine skip_keeps.seq ((scanWords_keeps (h.words (by decide))).seq ?_)
  refine (scanWords_keeps (h.elems (by decide) (by decide))).seq ?_
  refine (scanWord_keeps (preFlag_fits (by decide))).bind fun flag _ => ?_
  exact enableIf_keeps h (by decide) flag _

theorem nsRecord_keeps (h : IsRow .rate row) : Keeps 'G' row (nsRecord row) := by
  refine skip_keeps.seq ((scanWords_keeps (h.words (by decide))).seq ?_)
  refine (scanWord_keeps (preFlag_fits (by decide))).bind fun flag _ => ?_
  exact enableIf_keeps h (by decide) flag _

end Fits

/-! ## 6. Every line -/

theorem isRow_device {c₁ : Char} (h : isDevice c₁) : IsRow .device (getDeviceId c₁) := by
  rcases h with rfl | rfl | rfl <;> exact ⟨.inl rfl, by decide, by decide⟩

theorem isRow_rate {c₁ : Char} (h : getSampleIndex c₁ ≠ -EINVAL) :
    IsRow .rate (getSampleIndex c₁) := by
  refine ⟨.inr rfl, ?_, ?_⟩
  all_goals
    revert h
    unfold getSampleIndex
    split <;> decide

/-- **A record stores to the filter and the row that it is for only, inside the tables**, whatever
    its tokens are. -/
theorem record_keeps (lib : EqLib) (c₀ c₁ : Char) :
    Keeps c₀ (recordRow c₀ c₁) (record lib c₀ c₁) := by
  unfold record
  split_ifs with hA hB hC hD hpre hindex hE hF
  · obtain ⟨rfl, hdev⟩ := hA
    exact iirRecord_keeps (isRow_device hdev)
  · obtain ⟨rfl, hdev⟩ := hB
    exact adrcRecord_keeps (isRow_device hdev)
  · obtain ⟨rfl, hdev⟩ := hC
    exact eqRecord_keeps (isRow_device hdev) lib
  · obtain ⟨rfl, hdev⟩ := hD
    exact mbadrcRecord_keeps (isRow_device hdev)
  · exact .stop _
  · subst hE
    exact txIirRecord_keeps (isRow_rate hindex)
  · subst hF
    exact agcRecord_keeps (isRow_rate hindex)
  · obtain rfl : c₀ = 'G' := (hpre.resolve_left hE).resolve_left hF
    exact nsRecord_keeps (isRow_rate hindex)
  · exact .pure trivial

theorem line_stores (lib : EqLib) (buf : List Char) :
    ∀ w ∈ (checkAndSetAudppParameters lib buf).1, w.cell.Inside ∧ MayChange buf w.cell := by
  intro w hw
  unfold checkAndSetAudppParameters at hw
  rw [Scan.run_stores] at hw
  obtain ⟨hinside, hletter, hrow⟩ := (record_keeps lib _ _).stores _ w hw
  exact ⟨hinside, hletter, hrow⟩

/-- What a line does not store to it leaves as it was. -/
theorem line_frame (lib : EqLib) (buf : List Char) (tables : Tables) {c : Cell}
    (h : applyAll tables (checkAndSetAudppParameters lib buf).1 c ≠ tables c) :
    MayChange buf c := by
  by_contra hnot
  refine h (applyAll_of_ne tables fun w hw heq => hnot ?_)
  exact heq ▸ (line_stores lib buf w hw).2

end Y210.Audio.Filter

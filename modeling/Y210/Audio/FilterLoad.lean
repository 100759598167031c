/-
  File:      Y210/Audio/FilterLoad.lean
  Subject:   THE AUDIO FILTER FILE AND THE DRIVER (`AudioHardware.cpp`, the constructor,
             `get_audpp_filter`, `msm72xx_enable_preproc`, `msm72xx_enable_postproc`).

  The constructor reads the file line by line into the tables, and sets `audpp_filter_inited` when
  no line failed. A line that fails leaves the tables as far as they were filled; the flag is what
  keeps them from the driver.

  * `getAudppFilter`, `construct` -- the loader, up to the flag;
  * `enablePreproc`, `enablePostproc` -- the calls of the driver, with the words they hand over;
  * `inited_iff` -- the flag is set in just the runs in which the file was read and no line failed;
  * `filter_file_contained` -- the stores of every line stay in its tables and its row, and of a
    file with a failing line nothing is handed to the driver, in any sequence of calls.
-/
import Mathlib.Data.List.Basic
import Mathlib.Tactic.Common
import Y210.Audio.FilterFile

namespace Y210.Audio.Filter

open Y210.Lib

/-! ## 1. The loader -/

/-- The two files, with `none` for one that cannot be opened, and the calls on the one that was. -/
structure Files where
  deviceSpecific : Option (List Char)
  generic : Option (List Char)
  fstat : Bool
  mmap : Bool
  deriving DecidableEq, Repr

/-- The file that is read. -/
def Files.text (files : Files) : Option (List Char) := files.deviceSpecific.or files.generic

/-- The lines that `strchr` finds: it stops at a NUL, and what follows the last line end is no
    line. -/
def linesOf (text : List Char) : List (List Char) :=
  (pieces '\n' (text.takeWhile (· ≠ '\x00'))).dropLast

/-- The loop over the lines, with the equaliser library as it is at each of them: the stores, and
    the code. -/
def parseLines (lib : Nat → EqLib) : Nat → List (List Char) → List (Write Cell Nat) × Int
  | _, [] => ([], 0)
  | k, buf :: rest =>
    let r := checkAndSetAudppParameters (lib k) buf
    if r.2 ≠ 0 then (r.1, -1)
    else (r.1 ++ (parseLines lib (k + 1) rest).1, (parseLines lib (k + 1) rest).2)

def getAudppFilter (lib : Nat → EqLib) (files : Files) : List (Write Cell Nat) × Int :=
  match files.text with
  | none => ([], -1)
  | some text =>
    if !files.fstat then ([], -1)
    else if !files.mmap then ([], -1)
    else parseLines lib 0 (linesOf text)

/-- What the constructor leaves to the two functions below. -/
structure Hardware where
  tables : Tables
  audppFilterInited : Bool

/-- The constructor; `driver` is whether `/dev/msm_snd` opens, `endpoints` whether
    `get_sound_endpoints` succeeds. -/
def construct (driver endpoints : Bool) (lib : Nat → EqLib) (files : Files) : Hardware :=
  if driver && endpoints then
    { tables := applyAll (fun _ => 0) (getAudppFilter lib files).1,
      audppFilterInited := (getAudppFilter lib files).2 == 0 }
  else { tables := fun _ => 0, audppFilterInited := false }

/-! ## 2. The driver -/

def EPERM : Int := 1

/-- The bits of the post-processing mask. -/
def ADRC_ENABLE : Nat := 0x0001
def ADRC_DISABLE : Nat := 0xFFFE
def EQ_ENABLE : Nat := 0x0002
def EQ_DISABLE : Nat := 0xFFFD
def RX_IIR_ENABLE : Nat := 0x0004
def RX_IIR_DISABLE : Nat := 0xFFFB
def MBADRC_ENABLE : Nat := 0x0010
def MBADRC_DISABLE : Nat := 0xFFEF

/-- The `ioctl`s, with the words of the structure that they hand over. -/
inductive Message
  | setAgc (words : List Nat)
  | setNs (words : List Nat)
  | setTxIir (words : List Nat)
  | enableAudpre (mask : Nat)
  | setMbadrc (words : List Nat)
  | setAdrc (words : List Nat)
  | setEq (words : List Nat)
  | setRxIir (words : List Nat)
  | enableAudpp (mask : Nat)
  deriving DecidableEq, Repr

/-- The structures, as the cells that they are made of. -/
def agcCfg (i : Int) : List Cell :=
  words [.agcCmdId, .agcParamMask, .agcEnableFlag, .agcStaticGain, .agcAdaptiveGainFlag] i ++
  Field.elems .agcParams i 19

def nsCfg (i : Int) : List Cell :=
  words [.nsCmdId, .nsEcModeNew, .nsDensGammaN, .nsDensNfeBlockSize, .nsDensLimitNs,
    .nsDensLimitNsD, .nsWbGammaE, .nsWbGammaN] i

def txIirCfg (i : Int) : List Cell :=
  words [.txIirCmdId, .txIirActiveFlag, .txIirNumBands] i ++ Field.elems .txIirParams i 48

def mbadrcCfg (d : Int) : List Cell :=
  words [.mbNumBands, .mbDownSampLevel, .mbAdrcDelay, .mbExtBufSize, .mbExtPartition, .mbExtBufMsw,
    .mbExtBufLsw] d ++ bandCells d 5 ++ Field.elems .mbExtBuf d 196

def equalizer (d : Int) : List Cell := words [.eqBands] d ++ Field.elems .eqParams d 132

def iirCfg (d : Int) : List Cell := words [.iirNumBands] d ++ Field.elems .iirParams d 48

def adrcCfg (d : Int) : List Cell := Field.elems .adrcParams d 8

/-- A message that is sent if a bit of the mask is set. -/
def sendIf (mask bit : Nat) (m : Message) : List Message := if mask &&& bit ≠ 0 then [m] else []

/-- What `msm72xx_enable_preproc` sends; its errors are logged only. -/
def preprocMessages (tables : Tables) (i : Int) (state : Bool) : List Message :=
  let mask := tables (Field.word .enablePreprocMask i)
  sendIf mask AGC_ENABLE (.setAgc ((agcCfg i).map tables)) ++
  sendIf mask NS_ENABLE (.setNs ((nsCfg i).map tables)) ++
  sendIf mask TX_IIR_ENABLE (.setTxIir ((txIirCfg i).map tables)) ++
  [.enableAudpre (if state then mask else 0)]

/-- `msm72xx_enable_preproc`, with `audpre_index` and whether the device opens. -/
def enablePreproc (hw : Hardware) (audpreIndex : Int) (opens state : Bool) : List Message × Int :=
  if hw.audppFilterInited then
    if opens then (preprocMessages hw.tables audpreIndex state, 0) else ([], -EPERM)
  else ([], 0)

/-- `mCurSndDevice`, and the three endpoints that it is compared with. -/
structure SndDevices where
  current : Int
  speaker : Int
  handset : Int
  headset : Int

/-- The table's row for the current device. -/
def SndDevices.deviceId (snd : SndDevices) : Option Int :=
  if snd.current < 0 then none
  else if snd.current = snd.speaker then some 0
  else if snd.current = snd.handset then some 1
  else if snd.current = snd.headset then some 2
  else none

/-- `enable_mask`: a feature without its flag or without its bit in `post_proc_feature_mask` goes,
    and ADRC goes for MBADRC. -/
def enableMask (tables : Tables) (d : Int) (featureMask : Nat) : Nat :=
  let lacks := fun (flag : Field) (bit : Nat) =>
    tables (flag.word d) = 0 ∨ featureMask &&& bit = 0
  let m := featureMask &&&
    (if lacks .mbadrcFlag MBADRC_ENABLE then MBADRC_DISABLE else ADRC_DISABLE)
  let m := if lacks .adrcFlag ADRC_ENABLE then m &&& ADRC_DISABLE else m
  let m := if lacks .eqFlag EQ_ENABLE then m &&& EQ_DISABLE else m
  if lacks .rxIirFlag RX_IIR_ENABLE then m &&& RX_IIR_DISABLE else m

/-- What `msm72xx_enable_postproc` sends when nothing is refused. `disable_mask` starts at 0, so
    that clearing bits of it leaves it at 0. -/
def postprocMessages (tables : Tables) (d : Int) (featureMask : Nat) (state : Bool) :
    List Message :=
  if state then
    let mask := enableMask tables d featureMask
    sendIf mask MBADRC_ENABLE (.setMbadrc ((mbadrcCfg d).map tables)) ++
    sendIf mask ADRC_ENABLE (.setAdrc ((adrcCfg d).map tables)) ++
    sendIf mask EQ_ENABLE (.setEq ((equalizer d).map tables)) ++
    sendIf mask RX_IIR_ENABLE (.setRxIir ((iirCfg d).map tables)) ++
    [.enableAudpp mask]
  else [.enableAudpp 0]

/-- One `ioctl` after the other, up to the first that the driver refuses. -/
def sendAll (accepts : Message → Bool) : List Message → List Message × Int
  | [] => ([], 0)
  | m :: ms =>
    if accepts m then (m :: (sendAll accepts ms).1, (sendAll accepts ms).2) else ([m], -EPERM)

/-- `msm72xx_enable_postproc`, with `post_proc_feature_mask`, whether the device opens, and which
    messages the driver takes. -/
def enablePostproc (hw : Hardware) (snd : SndDevices) (featureMask : Nat) (opens : Bool)
    (accepts : Message → Bool) (state : Bool) : List Message × Int :=
  if !hw.audppFilterInited then ([], -EINVAL)
  else
    match snd.deviceId with
    | none => ([], -EINVAL)
    | some d =>
      if opens then sendAll accepts (postprocMessages hw.tables d featureMask state)
      else ([], -EPERM)

/-- A call of one of the two, with what it finds at that time. -/
inductive Call
  | preproc (audpreIndex : Int) (opens state : Bool)
  | postproc (snd : SndDevices) (featureMask : Nat) (opens : Bool) (accepts : Message → Bool)
      (state : Bool)

def Call.perform (hw : Hardware) : Call → List Message × Int
  | .preproc i opens state => enablePreproc hw i opens state
  | .postproc snd featureMask opens accepts state =>
    enablePostproc hw snd featureMask opens accepts state

/-- All that reaches the driver in a sequence of calls. The calls change neither the tables nor the
    flag, which only the constructor sets. -/
def sent (hw : Hardware) (calls : List Call) : List Message :=
  calls.flatMap fun c => (c.perform hw).1

/-! ## 3. The file as a whole -/

/-- Some line of the file fails. -/
def AnyLineFails (lib : Nat → EqLib) (files : Files) : Prop :=
  ∃ text k buf, files.text = some text ∧ (linesOf text)[k]? = some buf ∧
    (checkAndSetAudppParameters (lib k) buf).2 ≠ 0

section Load

variable {lib : Nat → EqLib} {files : Files} {driver endpoints : Bool} {hw : Hardware}

/-- The loop returns 0 in just the files without a failing line. -/
theorem parseLines_eq_zero_iff (k : Nat) (bufs : List (List Char)) :
    (parseLines lib k bufs).2 = 0 ↔
      ∀ i buf, bufs[i]? = some buf → (checkAndSetAudppParameters (lib (k + i)) buf).2 = 0 := by
  induction bufs generalizing k with
  | nil => simp [parseLines]
  | cons buf rest ih =>
    by_cases hcode : (checkAndSetAudppParameters (lib k) buf).2 = 0
    · simp only [parseLines, hcode, ne_eq, not_true_eq_false, if_false, ih]
      constructor
      · rintro hrest (_ | i) b hb
        · obtain rfl : buf = b := by simpa using hb
          exact hcode
        · have hcode := hrest i b (by simpa using hb)
          rwa [show k + 1 + i = k + (i + 1) by omega] at hcode
      · intro hall i b hb
        have hcode := hall (i + 1) b (by simpa using hb)
        rwa [show k + (i + 1) = k + 1 + i by omega] at hcode
    · simp only [parseLines, ne_eq, hcode, not_false_eq_true, if_true]
      refine iff_of_false (by decide) fun hall => hcode ?_
      exact hall 0 buf rfl

theorem not_anyLineFails_iff {text : List Char} (htext : files.text = some text) :
    ¬AnyLineFails lib files ↔ (parseLines lib 0 (linesOf text)).2 = 0 := by
  rw [parseLines_eq_zero_iff]
  constructor
  · intro hnone k buf hbuf
    by_contra hcode
    rw [Nat.zero_add] at hcode
    exact hnone ⟨text, k, buf, htext, hbuf, hcode⟩
  · rintro hall ⟨text', k, buf, htext', hbuf, hcode⟩
    obtain rfl : text = text' := Option.some.inj (htext.symm.trans htext')
    have hzero := hall k buf hbuf
    rw [Nat.zero_add] at hzero
    exact hcode hzero

theorem getAudppFilter_eq_zero_iff : (getAudppFilter lib files).2 = 0 ↔
    files.fstat = true ∧ files.mmap = true ∧ files.text ≠ none ∧ ¬AnyLineFails lib files := by
  unfold getAudppFilter
  split
  · next hnone => simp [hnone]
  · next text htext =>
    rw [not_anyLineFails_iff htext, htext]
    cases files.fstat <;> cases files.mmap <;> simp

/-- **`audpp_filter_inited` says that the whole file was read**, and that no line of it failed. -/
theorem inited_iff : (construct driver endpoints lib files).audppFilterInited = true ↔
    driver = true ∧ endpoints = true ∧ files.fstat = true ∧ files.mmap = true ∧
      files.text ≠ none ∧ ¬AnyLineFails lib files := by
  rw [← getAudppFilter_eq_zero_iff]
  unfold construct
  cases driver <;> cases endpoints <;> simp

/-- Without the flag, nothing is sent. -/
theorem perform_of_not_inited (h : hw.audppFilterInited = false) (c : Call) :
    (c.perform hw).1 = [] := by
  cases c with
  | preproc i opens state =>
    simp only [Call.perform, enablePreproc, h, Bool.false_eq_true, if_false]
  | postproc snd featureMask opens accepts state =>
    simp only [Call.perform, enablePostproc, h, Bool.not_false, if_true]

theorem sent_of_not_inited (h : hw.audppFilterInited = false) (calls : List Call) :
    sent hw calls = [] := by
  induction calls with
  | nil => rfl
  | cons c calls ih =>
    unfold sent at ih ⊢
    rw [List.flatMap_cons, perform_of_not_inited h c, ih, List.append_nil]

end Load

/-! ## 4. Lines, files and the driver -/

/-- **Every store of a line is inside its table, a line changes the cells of its own filter and row
    only, and of a file with a failing line nothing is handed to the driver**, whatever the
    equaliser library computes and in whatever sequence the two functions are called. -/
theorem filter_file_contained :
    (∀ (lib : EqLib) (buf : List Char),
      (∀ w ∈ (checkAndSetAudppParameters lib buf).1, w.cell.Inside) ∧
      ∀ (tables : Tables) (c : Cell),
        applyAll tables (checkAndSetAudppParameters lib buf).1 c ≠ tables c → MayChange buf c) ∧
    ∀ (driver endpoints : Bool) (lib : Nat → EqLib) (files : Files), AnyLineFails lib files →
      ∀ calls, sent (construct driver endpoints lib files) calls = [] := by
  refine ⟨fun lib buf => ⟨?_, ?_⟩, ?_⟩
  · intro w hw
    exact (line_stores lib buf w hw).1
  · intro tables c hc
    exact line_frame lib buf tables hc
  · intro driver endpoints lib files hfails calls
    have hnot : (construct driver endpoints lib files).audppFilterInited = false := by
      rw [← Bool.not_eq_true, inited_iff]
      exact fun h => h.2.2.2.2.2 hfails
    exact sent_of_not_inited hnot calls

/-- A library that is not found. -/
def noLib : EqLib where
  opens := false
  hasSymbol := false
  eqCal := fun _ _ _ _ _ => ⟨fun _ => 0, fun _ => 0, fun _ => 0⟩

/-- A generic file with the given text. -/
def fileOf (text : String) : Files where
  deviceSpecific := none
  generic := some text.toList
  fstat := true
  mmap := true

/-- The noise suppression's record for 8000 Hz is complete, and the one for 11025 Hz behind it lacks
    its flag: the words of the first are in the table, and not sent. -/
theorem filter_file_contained_ns :
    let hw := construct true true (fun _ => noLib)
      (fileOf "G1,1,2,3,4,5,6,7,8,1\nG2,1,2,3,4,5,6,7,8\n")
    (nsCfg 0).map hw.tables = [1, 2, 3, 4, 5, 6, 7, 8] ∧
      sent hw [.preproc 0 true true, .preproc 1 true false] = [] := by
  refine ⟨by decide +kernel, filter_file_contained.2 true true _ _ ?_ _⟩
  exact ⟨_, 1, "G2,1,2,3,4,5,6,7,8".toList, rfl, by decide +kernel, by decide +kernel⟩

/-- Without the second record they are. -/
example : sent (construct true true (fun _ => noLib) (fileOf "G1,1,2,3,4,5,6,7,8,1\n"))
    [.preproc 0 true true] = [.setNs [1, 2, 3, 4, 5, 6, 7, 8], .enableAudpre 2] := by
  decide +kernel

end Y210.Audio.Filter

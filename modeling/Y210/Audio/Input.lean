/-
  File:      Y210/Audio/Input.lean
  Subject:   THE INPUT STREAMS: `AudioStreamInMSM72xx::set`, `read` and `standby`, `openInputStream`
             and `closeInputStream`, and the index of the pre-processing tables.

  `audpre_index` of the hardware is one member for all input streams. `set` stores the index of the
  rate it configured; `read` and `standby` switch pre-processing by whatever stands there. What the
  driver answers, the rate it reports included, is arbitrary.

  `set` writes to its caller through pointers. `openInputStream` gives it pointers of its own
  caller, and a stream that fails is deleted; `read` gives it the members of the stream itself.
  `Outcome` is what happened, `Stream.own` what it makes of those members.

  * `set`, `read`, `standby`, `openInput`, `closeInput` -- the code;
  * `Inv` -- every stream that is not in standby has the rate of the index;
  * `usual` -- a stream is configured to a rate that has an index, and that of every other stream
    that is not in standby;
  * `preproc_index_fits` -- in every run of such steps pre-processing is switched with the index of
    the stream's own rate;
  * `preproc_index_foreign` -- the index of another stream, and the index -1.
-/
import Mathlib.Data.BitVec
import Mathlib.Data.List.Basic
import Mathlib.Tactic.Common
import Y210.Lib.Indexed
import Y210.Lib.Run

namespace Y210.Audio.Input

open Y210.Lib

/-! ## 1. Rates -/

def inputSamplingRates : List (BitVec 32) :=
  [8000, 11025, 12000, 16000, 22050, 24000, 32000, 44100, 48000]

/-- The loop of `getInputSampleRate`, with the rate before and its distance. -/
def nearest (sampleRate prev prevDelta : BitVec 32) : List (BitVec 32) → BitVec 32
  | [] => prev
  | rate :: rates =>
    -- `abs` of the difference as an `int`
    let delta := (sampleRate - rate).abs
    if prevDelta < delta then prev else nearest sampleRate rate delta rates

def getInputSampleRate (sampleRate : BitVec 32) : BitVec 32 :=
  nearest sampleRate 0 0xFFFFFFFF inputSamplingRates

/-- `calculate_audpre_table_index`, as the `int` it is stored in. -/
def calculateAudpreTableIndex (rate : BitVec 32) : Int :=
  if rate = 48000 then 8
  else if rate = 44100 then 7
  else if rate = 32000 then 6
  else if rate = 24000 then 5
  else if rate = 22050 then 4
  else if rate = 16000 then 3
  else if rate = 12000 then 2
  else if rate = 11025 then 1
  else if rate = 8000 then 0
  else -1

theorem audpreTableIndex_le (rate : BitVec 32) : calculateAudpreTableIndex rate ≤ 8 := by
  have hite : ∀ {c : Prop} [Decidable c] {a b : Int}, a ≤ 8 → b ≤ 8 → (if c then a else b) ≤ 8 := by
    intro c _ a b ha hb
    split <;> assumption
  unfold calculateAudpreTableIndex
  repeat' apply hite
  all_goals decide

/-! ## 2. A stream -/

inductive Format where
  | pcm16Bit
  | amrNb
  | aac
  | other (n : Nat)
  deriving DecidableEq

inductive InputState where
  | closed
  | opened
  | started
  deriving DecidableEq

/-- Channel masks of `AudioSystem`. -/
def channelInMono : BitVec 32 := 0x10

def channelInStereo : BitVec 32 := 0xC

/-- `AudioStreamInMSM72xx`; `mFd` is whether there is a descriptor. -/
structure Stream where
  mHardware : Bool
  mFd : Bool
  mState : InputState
  mFormat : Format
  mChannels : BitVec 32
  mSampleRate : BitVec 32
  mBufferSize : Nat
  mDevices : BitVec 32
  mFirstread : Bool
  deriving DecidableEq

/-- The constructor. -/
def Stream.new : Stream where
  mHardware := false
  mFd := false
  mState := .closed
  mFormat := .pcm16Bit
  mChannels := channelInMono
  mSampleRate := 8000
  mBufferSize := 2048
  mDevices := 0
  mFirstread := false

/-- `*pFormat`, `*pChannels` and `*pRate`. -/
structure Params where
  format : Format
  channels : BitVec 32
  rate : BitVec 32
  deriving DecidableEq

/-- `msm_audio_config`, as far as it is read. -/
structure Config where
  channelCount : Nat
  sampleRate : BitVec 32
  bufferSize : Nat
  deriving DecidableEq

/-- What the driver answers to the calls of one `set`: `none` and `false` are errors. `offered` is
    read behind a configuration that was refused. -/
structure Answers where
  opened : Bool
  getConfig : Option Config
  setConfig : Bool
  offered : Option Config
  confirmed : Option Config
  setVoiceMemo : Bool
  getVoiceMemo : Bool
  deriving DecidableEq

/-- How `set` ends, up to the index. -/
inductive Outcome where
  | badFormat
  | badRate (rate : BitVec 32)
  | badChannels
  -- a descriptor is there already
  | already
  -- a call of the driver failed; the stream as it is left
  | failed (st : Stream)
  -- the driver refused the configuration and offers another
  | refused (offered : Option Config)
  | configured (st : Stream)
  deriving DecidableEq

/-- The PCM branch of `set`. -/
def setPcm (st : Stream) (devices : BitVec 32) (p : Params) (answers : Answers) : Outcome :=
  if answers.opened = false ∨ answers.getConfig = none then .failed st
  else if answers.setConfig = false then .refused answers.offered
  else
    match answers.confirmed with
    | none => .failed st
    | some config =>
      .configured { st with
        mFd := true
        mDevices := devices
        mFormat := .pcm16Bit
        mChannels := p.channels
        mSampleRate := config.sampleRate
        mBufferSize := config.bufferSize }

/-- The AMR branch: the members are stored before the calls that can still fail. -/
def setAmr (st : Stream) (devices : BitVec 32) (p : Params) (answers : Answers) : Outcome :=
  if answers.opened = false then .failed st
  else
    match answers.getConfig with
    | none => .failed st
    | some config =>
      let st := { st with
        mDevices := devices
        mFormat := .amrNb
        mChannels := p.channels
        mSampleRate := config.sampleRate
        mBufferSize := 320 }
      if answers.setVoiceMemo = false ∨ answers.getVoiceMemo = false then .failed st
      else .configured { st with mFd := true }

/-- The AAC branch. -/
def setAac (st : Stream) (devices : BitVec 32) (p : Params) (answers : Answers) : Outcome :=
  if answers.opened = false ∨ answers.getConfig = none then .failed st
  else
    let st := { st with
      mDevices := devices
      mFormat := p.format
      mChannels := p.channels
      mSampleRate := p.rate
      mBufferSize := 2048 }
    if answers.setConfig = false then .failed st else .configured { st with mFd := true }

/-- **`AudioStreamInMSM72xx::set`** up to the index. -/
def set (st : Stream) (devices : BitVec 32) (p : Params) (answers : Answers) : Outcome :=
  if p.format ≠ .pcm16Bit ∧ p.format ≠ .amrNb ∧ p.format ≠ .aac then .badFormat
  else if getInputSampleRate p.rate ≠ p.rate then .badRate (getInputSampleRate p.rate)
  else if p.channels &&& (channelInMono ||| channelInStereo) = 0 then .badChannels
  else if st.mFd then .already
  else
    let st := { st with mHardware := true }
    match p.format with
    | .amrNb => setAmr st devices p answers
    | .aac => setAac st devices p answers
    | _ => setPcm st devices p answers

/-! ## 3. The hardware -/

/-- A call of `msm72xx_enable_preproc`: its argument, the index, and the rate of the stream it is
    made for. -/
structure Preproc where
  on : Bool
  index : Int
  rate : BitVec 32
  deriving DecidableEq

structure State where
  audpreIndex : Int
  mInputs : List Stream
  preproc : List Preproc
  deriving DecidableEq

def State.enablePreproc (s : State) (st : Stream) (on : Bool) : State :=
  { s with
    preproc := s.preproc ++ [{ on := on, index := s.audpreIndex, rate := st.mSampleRate }] }

/-- The end of `set`: the stream is open, and the index that of its rate. `false` is `-EINVAL`. -/
def finish (s : State) (st : Stream) : State × Stream × Bool :=
  let index := calculateAudpreTableIndex st.mSampleRate
  ({ s with audpreIndex := index },
    { st with mState := .opened, mFd := st.mFd && decide (0 ≤ index) }, decide (0 ≤ index))

/-- **`AudioStreamInMSM72xx::standby`**, without the routing. -/
def standby (s : State) (st : Stream) : State × Stream :=
  if st.mHardware = false ∨ st.mState = .closed then (s, st)
  else (s.enablePreproc st false, { st with mFd := false, mState := .closed })

/-- What `set` makes of a stream whose members it was given the addresses of. -/
def Stream.own (st : Stream) : Outcome → Stream
  | .badFormat => { st with mFormat := .pcm16Bit }
  | .badRate rate => { st with mSampleRate := rate }
  | .badChannels => { st with mChannels := channelInMono }
  | .already => st
  | .failed st' => st'
  | .refused none => st
  | .refused (some config) =>
    { st with
      mChannels := if config.channelCount = 1 then channelInMono else channelInStereo
      mSampleRate := config.sampleRate }
  | .configured st' => st'

/-- `read` of a stream that is open: it starts the driver, or goes into standby again. -/
def startRead (s : State) (st : Stream) (started : Bool) : State × Stream :=
  if st.mState = .started then (s, st)
  else
    let st := { st with mState := .started }
    -- there may be no descriptor
    if started && st.mFd then (s.enablePreproc st true, st) else standby s st

def Stream.params (st : Stream) : Params :=
  { format := st.mFormat, channels := st.mChannels, rate := st.mSampleRate }

/-- **`AudioStreamInMSM72xx::read`**, up to the data. -/
def read (s : State) (st : Stream) (answers : Answers) (started : Bool) : State × Stream :=
  if st.mState = .closed then
    let out := set st st.mDevices st.params answers
    match out with
    | .configured st' =>
      let r := finish s st'
      if r.2.2 then startRead r.1 { r.2.1 with mFirstread := false } started else (r.1, r.2.1)
    | _ => (s, st.own out)
  else startRead s st started

/-- `set` of a new stream, and what is deleted when it fails. -/
def openNew (s : State) (out : Outcome) : State :=
  match out with
  | .configured st =>
    let r := finish s st
    if r.2.2 then { r.1 with mInputs := r.1.mInputs ++ [r.2.1] } else (standby r.1 r.2.1).1
  | .failed st => (standby s st).1
  | .refused _ => (standby s { Stream.new with mHardware := true }).1
  | _ => (standby s .new).1

/-- **`AudioHardware::openInputStream`** of an input device; `inCall` is `mMode`. -/
def openInput (s : State) (devices : BitVec 32) (p : Params) (inCall : Bool) (answers : Answers) :
    State :=
  if inCall ∧ 8000 < getInputSampleRate p.rate ∧ p.format = .pcm16Bit then s
  else openNew s (set .new devices p answers)

/-- **`AudioHardware::closeInputStream`** of the `i`-th stream. -/
def closeInput (s : State) (i : Nat) (st : Stream) : State :=
  let s := (standby s st).1
  { s with mInputs := s.mInputs.eraseIdx i }

/-! ## 4. The machine -/

inductive Act where
  | openInputStream (devices : BitVec 32) (p : Params) (inCall : Bool) (answers : Answers)
  | read (i : Nat) (answers : Answers) (started : Bool)
  | standby (i : Nat)
  | closeInputStream (i : Nat)
  deriving DecidableEq

def State.put (i : Nat) (r : State × Stream) : State :=
  { r.1 with mInputs := r.1.mInputs.set i r.2 }

def step (s : State) : Act → Option State
  | .openInputStream devices p inCall answers => some (openInput s devices p inCall answers)
  | .read i answers started => s.mInputs[i]?.map fun st => State.put i (read s st answers started)
  | .standby i => s.mInputs[i]?.map fun st => State.put i (standby s st)
  | .closeInputStream i => s.mInputs[i]?.map fun st => closeInput s i st

/-- The constructor of AudioHardware. -/
def start : State := { audpreIndex := 0, mInputs := [], preproc := [] }

/-- The streams other than the `i`-th. -/
def State.others (s : State) (i : Nat) : List Stream := s.mInputs.eraseIdx i

/-- A stream is configured to a rate that has an index, which is that of the streams that are not in
    standby. -/
def Outcome.fits (others : List Stream) : Outcome → Bool
  | .configured st =>
    decide (0 ≤ calculateAudpreTableIndex st.mSampleRate) &&
      others.all fun o => o.mState == .closed ||
        calculateAudpreTableIndex o.mSampleRate == calculateAudpreTableIndex st.mSampleRate
  | _ => true

/-- **The condition on a step.** -/
def usual (s : State) : Act → Bool
  | .openInputStream devices p _ answers => (set .new devices p answers).fits s.mInputs
  | .read i answers _ =>
    s.mInputs[i]?.all fun st =>
      st.mState != .closed || (set st st.mDevices st.params answers).fits (s.others i)
  | _ => true

/-! ## 5. The index -/

/-- A call of `msm72xx_enable_preproc` has an index of the table, that of its stream's rate. -/
def Preproc.Fits (c : Preproc) : Prop :=
  0 ≤ c.index ∧ c.index ≤ 8 ∧ c.index = calculateAudpreTableIndex c.rate

/-- A stream that is not in standby has the rate of the index. -/
def Stream.Fits (index : Int) (st : Stream) : Prop :=
  st.mState ≠ .closed → 0 ≤ index ∧ index = calculateAudpreTableIndex st.mSampleRate

structure Inv (s : State) : Prop where
  streams : ∀ st ∈ s.mInputs, st.Fits s.audpreIndex
  calls : ∀ c ∈ s.preproc, c.Fits

section Steps

variable {s : State} {st : Stream} {i : Nat} {answers : Answers} {started : Bool}

theorem closed_fits (index : Int) (h : st.mState = .closed) : st.Fits index :=
  fun hopen => absurd h hopen

section Failed

variable {devices : BitVec 32} {p : Params} {st' : Stream}

theorem setPcm_mState (h : setPcm st devices p answers = .failed st') :
    st'.mState = st.mState := by
  unfold setPcm at h
  split at h
  · cases h
    rfl
  · split at h
    · cases h
    · split at h <;> cases h
      rfl

theorem setAmr_mState (h : setAmr st devices p answers = .failed st') :
    st'.mState = st.mState := by
  unfold setAmr at h
  split at h
  · cases h
    rfl
  · split at h
    · cases h
      rfl
    · dsimp only at h
      split at h <;> cases h
      rfl

theorem setAac_mState (h : setAac st devices p answers = .failed st') :
    st'.mState = st.mState := by
  unfold setAac at h
  split at h
  · cases h
    rfl
  · dsimp only at h
    split at h <;> cases h
    rfl

/-- A call of the driver that fails leaves the stream closed. -/
theorem set_mState (h : set st devices p answers = .failed st') : st'.mState = st.mState := by
  unfold set at h
  dsimp only at h
  split at h
  · cases h
  · split at h
    · cases h
    · split at h
      · cases h
      · split at h
        · cases h
        · split at h
          · have hkept := setAmr_mState h
            exact hkept
          · have hkept := setAac_mState h
            exact hkept
          · have hkept := setPcm_mState h
            exact hkept

end Failed

theorem own_mState {devices : BitVec 32} {p : Params} (out : Outcome)
    (hout : set st devices p answers = out) (hn : ∀ st', out ≠ .configured st') :
    (st.own out).mState = st.mState := by
  cases out with
  | failed st' => exact set_mState hout
  | refused offered => cases offered <;> rfl
  | configured st' => exact absurd rfl (hn st')
  | _ => rfl

/-- The calls of a stream that fits. -/
theorem calls_enablePreproc (h : ∀ c ∈ s.preproc, c.Fits) (hopen : st.mState ≠ .closed)
    (hst : st.Fits s.audpreIndex) (on : Bool) : ∀ c ∈ (s.enablePreproc st on).preproc, c.Fits := by
  intro c hc
  rcases List.mem_append.mp hc with hc | hc
  · exact h c hc
  · obtain ⟨h0, hidx⟩ := hst hopen
    rw [List.mem_singleton.mp hc]
    exact ⟨h0, hidx ▸ audpreTableIndex_le _, hidx⟩

/-- What a step of one stream leaves: the other streams and the index as they were, the calls and
    the stream as they should be. -/
structure Kept (s : State) (r : State × Stream) : Prop where
  inputs : r.1.mInputs = s.mInputs
  index : r.1.audpreIndex = s.audpreIndex
  calls : ∀ c ∈ r.1.preproc, c.Fits
  stream : r.2.Fits s.audpreIndex

theorem standby_kept (h : ∀ c ∈ s.preproc, c.Fits) (hst : st.Fits s.audpreIndex) :
    Kept s (standby s st) := by
  unfold standby
  split
  · exact ⟨rfl, rfl, h, hst⟩
  · rename_i hopen
    rw [not_or] at hopen
    exact ⟨rfl, rfl, calls_enablePreproc h hopen.2 hst false, closed_fits _ rfl⟩

theorem startRead_kept (h : ∀ c ∈ s.preproc, c.Fits) (hopen : st.mState ≠ .closed)
    (hst : st.Fits s.audpreIndex) : Kept s (startRead s st started) := by
  unfold startRead
  split
  · exact ⟨rfl, rfl, h, hst⟩
  · have hstarted : ({ st with mState := .started } : Stream).Fits s.audpreIndex :=
      fun _ => hst hopen
    dsimp only
    split
    · have hne : ({ st with mState := .started } : Stream).mState ≠ .closed := nofun
      exact ⟨rfl, rfl, calls_enablePreproc h hne hstarted true, hstarted⟩
    · exact standby_kept h hstarted

/-- The stream is configured: the index becomes that of its rate. -/
theorem finish_fits (s : State) (hfits : 0 ≤ calculateAudpreTableIndex st.mSampleRate) :
    (finish s st).2.2 = true ∧ (finish s st).2.1.Fits (finish s st).1.audpreIndex :=
  ⟨decide_eq_true hfits, fun _ => ⟨hfits, rfl⟩⟩

/-- The streams that are not in standby keep their index when another one is configured. -/
theorem others_fit {others : List Stream} (hu : (Outcome.configured st).fits others = true) :
    0 ≤ calculateAudpreTableIndex st.mSampleRate ∧
      ∀ o ∈ others, o.Fits (calculateAudpreTableIndex st.mSampleRate) := by
  simp only [Outcome.fits, Bool.and_eq_true, decide_eq_true_eq, List.all_eq_true, Bool.or_eq_true,
    beq_iff_eq] at hu
  refine ⟨hu.1, fun o ho hopen => ⟨hu.1, ?_⟩⟩
  exact ((hu.2 o ho).resolve_left hopen).symm

theorem Inv.put (s' : State) (h : ∀ o ∈ s.others i, o.Fits s'.audpreIndex)
    {r : State × Stream} (hi : s.mInputs[i]? = some st) (hs : s'.mInputs = s.mInputs)
    (hr : Kept s' r) : Inv (State.put i r) where
  streams := fun o ho => by
    rw [State.put, hr.index]
    obtain ⟨j, hj⟩ := List.mem_iff_getElem?.mp ho
    have hold : r.1.mInputs[i]? = some st := by rw [hr.inputs, hs, hi]
    rcases getElem?_set_cases hold hj with ⟨-, rfl⟩ | ⟨hne, hj⟩
    · exact hr.stream
    · rw [hr.inputs, hs] at hj
      exact h o (List.mem_eraseIdx_iff_getElem?.mpr ⟨j, hne, hj⟩)
  calls := hr.calls

theorem Inv.others (h : Inv s) : ∀ o ∈ s.others i, o.Fits s.audpreIndex :=
  fun o ho => h.streams o (List.mem_of_mem_eraseIdx ho)

theorem Inv.read (h : Inv s) (hi : s.mInputs[i]? = some st)
    (hu : usual s (.read i answers started) = true) :
    Inv (State.put i (read s st answers started)) := by
  have hst := h.streams st (List.mem_of_getElem? hi)
  unfold Input.read
  by_cases hclosed : st.mState = .closed
  · rw [if_pos hclosed]
    simp only [usual, hi, Option.all_some, Bool.or_eq_true, bne_iff_ne] at hu
    have hfits := hu.resolve_left fun hne => hne hclosed
    cases hout : set st st.mDevices st.params answers with
    | configured st' =>
      rw [hout] at hfits
      obtain ⟨hpos, hothers⟩ := others_fit hfits
      obtain ⟨hok, hnew⟩ := finish_fits s hpos
      dsimp only
      rw [if_pos hok]
      exact Inv.put (finish s st').1 hothers hi rfl (startRead_kept h.calls nofun hnew)
    | _ =>
      have hown := (own_mState _ hout fun _ => Outcome.noConfusion).trans hclosed
      exact Inv.put s h.others hi rfl ⟨rfl, rfl, h.calls, closed_fits _ hown⟩
  · rw [if_neg hclosed]
    exact Inv.put s h.others hi rfl (startRead_kept h.calls hclosed hst)

/-- A new stream that fails is in standby when it is deleted. -/
theorem standby_closed (h : st.mState = .closed) : (standby s st).1 = s := by
  unfold standby
  rw [if_pos (.inr h)]

theorem Inv.openNew (h : Inv s) {devices : BitVec 32} {p : Params}
    (hu : (set .new devices p answers).fits s.mInputs = true) :
    Inv (openNew s (set .new devices p answers)) := by
  cases hout : set .new devices p answers with
  | configured st =>
    rw [hout] at hu
    obtain ⟨hpos, hothers⟩ := others_fit hu
    obtain ⟨hok, hnew⟩ := finish_fits s hpos
    simp only [Input.openNew, hok, if_true]
    refine ⟨fun o ho => ?_, h.calls⟩
    rcases List.mem_append.mp ho with ho | ho
    · exact hothers o ho
    · rw [List.mem_singleton.mp ho]
      exact hnew
  | failed st =>
    simp only [Input.openNew, standby_closed (set_mState hout)]
    exact h
  | _ => exact h

theorem Inv.closeInput (h : Inv s) (hi : s.mInputs[i]? = some st) : Inv (closeInput s i st) := by
  have hkept := standby_kept h.calls (h.streams st (List.mem_of_getElem? hi))
  refine ⟨fun o ho => ?_, hkept.calls⟩
  have hmem := List.mem_of_mem_eraseIdx ho
  rw [hkept.inputs] at hmem
  rw [Input.closeInput, hkept.index]
  exact h.streams o hmem

theorem Inv.start : Inv start where
  streams := fun _ hmem => absurd hmem List.not_mem_nil
  calls := fun _ hmem => absurd hmem List.not_mem_nil

theorem Inv.step {s' : State} {a : Act} (h : Inv s) (hu : usual s a = true)
    (hs : step s a = some s') : Inv s' := by
  cases a with
  | openInputStream devices p inCall answers =>
    cases hs
    unfold openInput
    split
    · exact h
    · exact h.openNew hu
  | read i answers started =>
    obtain ⟨st, hi, rfl⟩ := Option.map_eq_some_iff.mp hs
    exact h.read hi hu
  | standby i =>
    obtain ⟨st, hi, rfl⟩ := Option.map_eq_some_iff.mp hs
    have hst := h.streams st (List.mem_of_getElem? hi)
    exact Inv.put s h.others hi rfl (standby_kept h.calls hst)
  | closeInputStream i =>
    obtain ⟨st, hi, rfl⟩ := Option.map_eq_some_iff.mp hs
    exact h.closeInput hi

end Steps

/-! ## 6. The runs -/

/-- **The index fits.** In every run of steps that meet the condition every call of
    `msm72xx_enable_preproc` is made with an index of the table, that of the rate of the stream it
    is made for. -/
theorem preproc_index_fits {s : State} (h : Reach step (fun s a => usual s a = true) start s) :
    ∀ c ∈ s.preproc, 0 ≤ c.index ∧ c.index ≤ 8 ∧ c.index = calculateAudpreTableIndex c.rate := by
  have hinv : Inv s := h.inv (I := Inv) Inv.start fun _ _ _ hi hu hs => hi.step hu hs
  exact hinv.calls

/-- A driver that does what it is asked, for a PCM stream of one channel. -/
def agrees (rate : BitVec 32) : Answers where
  opened := true
  getConfig := some { channelCount := 1, sampleRate := 8000, bufferSize := 2048 }
  setConfig := true
  offered := none
  confirmed := some { channelCount := 1, sampleRate := rate, bufferSize := 2048 }
  setVoiceMemo := true
  getVoiceMemo := true

def pcm (rate : BitVec 32) : Params :=
  { format := .pcm16Bit, channels := channelInMono, rate := rate }

/-- One stream is opened, read and closed. -/
theorem preproc_index_fits_one :
    ∃ s, Reach step (fun s a => usual s a = true) start s ∧ s.preproc.length = 2 ∧
      ∀ c ∈ s.preproc, 0 ≤ c.index ∧ c.index ≤ 8 ∧ c.index = calculateAudpreTableIndex c.rate := by
  have htest : runTest step usual start
      [.openInputStream 0 (pcm 16000) false (agrees 16000), .read 0 (agrees 16000) true,
        .closeInputStream 0]
      (fun s => s.preproc.length == 2) = true := by decide
  obtain ⟨s, hs, hp⟩ := reach_of_runTest htest
  exact ⟨s, hs, by simpa using hp, preproc_index_fits hs⟩

/-- Two streams are opened, and the first is read: pre-processing is switched with the index of the
    second. And where the driver reports a rate without an index, the stream that is deleted
    switches it with -1. -/
theorem preproc_index_foreign :
    (∃ s, Reach step Always start s ∧ { on := true, index := 7, rate := 8000 } ∈ s.preproc) ∧
    ∃ s, Reach step Always start s ∧ { on := false, index := -1, rate := 9600 } ∈ s.preproc := by
  have htwo : runTest step (fun _ _ => true) start
      [.openInputStream 0 (pcm 8000) false (agrees 8000),
        .openInputStream 0 (pcm 44100) false (agrees 44100), .read 0 (agrees 8000) true]
      (fun s => decide ({ on := true, index := 7, rate := 8000 } ∈ s.preproc)) = true := by decide
  have hrate : runTest step (fun _ _ => true) start
      [.openInputStream 0 (pcm 8000) false (agrees 9600)]
      (fun s => decide ({ on := false, index := -1, rate := 9600 } ∈ s.preproc)) = true := by
    decide
  constructor
  · obtain ⟨s, hs, hp⟩ := reach_of_runTest htwo
    exact ⟨s, hs.always, of_decide_eq_true hp⟩
  · obtain ⟨s, hs, hp⟩ := reach_of_runTest hrate
    exact ⟨s, hs.always, of_decide_eq_true hp⟩

end Y210.Audio.Input

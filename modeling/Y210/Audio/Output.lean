/-
  File:      Y210/Audio/Output.lean
  Subject:   THE OUTPUT STREAM: `AudioStreamOutMSM72xx::write`, `standby`, the destructor, and
             `openOutputStream` and `closeOutputStream` of AudioHardware.

  The stream opens the PCM driver with the first `write` behind a standby, starts it with the second
  one, and closes it in `standby`. `playback_in_progress` of the hardware says that it was started;
  routing switches post-processing by it. What each call of the driver answers is arbitrary.
  Descriptors are numbered in the order they are opened.

  * `write`, `standby`, `destroy` -- the code, with every early return;
  * `Sound` -- the descriptors that are open and `playback_in_progress`, against the stream's own
    descriptor;
  * `usual` -- the stream is not closed while it plays;
  * `descriptor_follows_standby` -- in every run of such steps the descriptor is open when the
    stream is not in standby, is closed once, and `playback_in_progress` is right;
  * `closed_while_playing` -- the flag that stays.
-/
import Mathlib.Data.BitVec
import Mathlib.Data.List.Basic
import Mathlib.Tactic.Common
import Y210.Lib.Run

namespace Y210.Audio.Output

open Y210.Lib

/-! ## 1. The stream -/

/-- What the operations do to the driver and to the hardware: the descriptors opened, closed, and
    started, `playback_in_progress`, the post-processing switched, and how often `write` found no
    descriptor. -/
structure Hw where
  opens : Nat
  closes : List Nat
  starts : List Nat
  playbackInProgress : Bool
  postproc : List Bool
  invalidFd : Nat
  deriving DecidableEq

/-- `AudioStreamOutMSM72xx`; `mFd` is `none` for -1. -/
structure Stream where
  mFd : Option Nat
  mStartCount : Nat
  mRetryCount : Nat
  mStandby : Bool
  deriving DecidableEq

/-- The constructor. -/
def Stream.new : Stream := { mFd := none, mStartCount := 0, mRetryCount := 0, mStandby := true }

/-- `AUDIO_HW_NUM_OUT_BUF`. -/
def audioHwNumOutBuf : Nat := 2

/-- `::close(fd)`. -/
def Hw.close (hw : Hw) (fd : Nat) : Hw := { hw with closes := hw.closes ++ [fd] }

/-- `playback_in_progress` and `msm72xx_enable_postproc`. -/
def Hw.play (hw : Hw) (on : Bool) : Hw :=
  { hw with playbackInProgress := on, postproc := hw.postproc ++ [on] }

/-- `close_stream`. -/
def closeStream (hw : Hw) (st : Stream) : Hw × Stream :=
  match st.mFd with
  | some fd => (hw.close fd, { st with mFd := none })
  | none => (hw, st)

/-- The destructor. -/
def destroy (hw : Hw) (st : Stream) : Hw :=
  match st.mFd with
  | some fd => hw.close fd
  | none => hw

/-- One `::write` of the driver. -/
inductive Written where
  | bytes (n : BitVec 32)
  | again
  | error
  deriving DecidableEq

/-- What the driver answers to the calls of one `write`. -/
structure Answers where
  opened : Bool
  getConfig : Bool
  setConfig : Bool
  written : List Written
  started : Bool
  deriving DecidableEq

/-- How the loop of `write` ends. -/
inductive Exit where
  | done
  | error
  | invalidFd
  deriving DecidableEq

/-- The loop of `write`: how often it tried again, and how it ends. With no answer left the call
    does not return. -/
def writeLoop (fd : Option Nat) (count : BitVec 32) : List Written → Option (Nat × Exit)
  | [] =>
    if count = 0 then some (0, .done) else if fd = none then some (0, .invalidFd) else none
  | w :: ws =>
    if count = 0 then some (0, .done)
    else if fd = none then some (0, .invalidFd)
    else
      match w with
      | .bytes n => writeLoop fd (count - n) ws
      | .again => (writeLoop fd count ws).map fun r => (r.1 + 1, r.2)
      | .error => some (0, .error)

/-- `write` in standby opens and configures the driver; `false` is an early return. -/
def wake (hw : Hw) (st : Stream) (answers : Answers) : (Hw × Stream) × Bool :=
  if answers.opened = false then (closeStream hw st, false)
  else
    let st := { st with mFd := some hw.opens }
    let hw := { hw with opens := hw.opens + 1 }
    if answers.getConfig = false ∨ answers.setConfig = false then (closeStream hw st, false)
    else ((hw, { st with mStartCount := audioHwNumOutBuf, mStandby := false }), true)

/-- `write` behind the loop: after the second buffer it starts the driver. -/
def startAudio (hw : Hw) (st : Stream) (started : Bool) : Hw × Stream :=
  if st.mStartCount = 0 then (hw, st)
  else
    let st := { st with mStartCount := st.mStartCount - 1 }
    if st.mStartCount ≠ 0 then (hw, st)
    else if started = false then
      let r := closeStream hw st
      (r.1.play false, { r.2 with mStandby := true, mStartCount := 0 })
    else ({ hw.play true with starts := hw.starts ++ st.mFd.toList }, st)

/-- `write` behind the opening. -/
def writeOpen (hw : Hw) (st : Stream) (bytes : BitVec 32) (answers : Answers) :
    Option (Hw × Stream) :=
  (writeLoop st.mFd bytes answers.written).map fun r =>
    let st := { st with mRetryCount := st.mRetryCount + r.1 }
    match r.2 with
    | .done => startAudio hw st answers.started
    | .error => (hw, st)
    | .invalidFd => closeStream { hw with invalidFd := hw.invalidFd + 1 } st

/-- **`AudioStreamOutMSM72xx::write`** of a stream that has its hardware. -/
def write (hw : Hw) (st : Stream) (bytes : BitVec 32) (answers : Answers) : Option (Hw × Stream) :=
  if st.mStandby then
    let r := wake hw st answers
    if r.2 then writeOpen r.1.1 r.1.2 bytes answers else some r.1
  else writeOpen hw st bytes answers

/-- **`AudioStreamOutMSM72xx::standby`.** -/
def standby (hw : Hw) (st : Stream) : Hw × Stream :=
  if st.mStandby then (hw, st)
  else
    match st.mFd with
    | some fd => ((hw.play false).close fd, { st with mFd := none, mStandby := true })
    | none => (hw, { st with mStandby := true })

/-! ## 2. The machine -/

structure State where
  hw : Hw
  mOutput : Option Stream
  deriving DecidableEq

def State.put (r : Hw × Stream) : State := { hw := r.1, mOutput := some r.2 }

inductive Act where
  -- `accepted`: what `set` says to the format, the channels and the rate
  | openOutputStream (accepted : Bool)
  | write (bytes : BitVec 32) (answers : Answers)
  | standby
  | closeOutputStream
  deriving DecidableEq

def step (s : State) : Act → Option State
  | .openOutputStream accepted =>
    match s.mOutput with
    | some _ => some s
    -- a stream that is not accepted is deleted, without a descriptor
    | none =>
      some (if accepted then { s with mOutput := some .new }
        else { s with hw := destroy s.hw .new })
  | .write bytes answers =>
    s.mOutput.bind fun st => (write s.hw st bytes answers).map State.put
  | .standby => s.mOutput.map fun st => State.put (standby s.hw st)
  | .closeOutputStream =>
    match s.mOutput with
    | some st => some { hw := destroy s.hw st, mOutput := none }
    | none => some s

def start : State where
  hw := { opens := 0, closes := [], starts := [], playbackInProgress := false, postproc := [],
          invalidFd := 0 }
  mOutput := none

/-- **The condition on a step**: the stream is not closed while it plays. -/
def usual (s : State) : Act → Bool
  | .closeOutputStream => s.mOutput == none || !s.hw.playbackInProgress
  | _ => true

/-! ## 3. The descriptors -/

/-- **The descriptors and the flag**, with `cur` the descriptor of the stream. -/
structure Sound (hw : Hw) (cur : Option Nat) : Prop where
  once : hw.closes.Nodup
  closed : ∀ fd ∈ hw.closes, fd < hw.opens
  started : ∀ fd ∈ hw.starts, fd < hw.opens
  current : ∀ fd, cur = some fd → fd < hw.opens ∧ fd ∉ hw.closes
  others : ∀ fd, fd < hw.opens → fd ∉ hw.closes → cur = some fd
  playback : hw.playbackInProgress = true ↔ ∃ fd, cur = some fd ∧ fd ∈ hw.starts
  valid : hw.invalidFd = 0

section Sound

variable {hw : Hw} {cur : Option Nat} {fd : Nat}

theorem Sound.silent (h : Sound hw none) : hw.playbackInProgress = false := by
  cases hp : hw.playbackInProgress with
  | false => rfl
  | true =>
    obtain ⟨fd, hfd, -⟩ := h.playback.mp hp
    cases hfd

theorem Sound.open (h : Sound hw none) :
    Sound { hw with opens := hw.opens + 1 } (some hw.opens) where
  once := h.once
  closed := fun fd hfd => Nat.lt_succ_of_lt (h.closed fd hfd)
  started := fun fd hfd => Nat.lt_succ_of_lt (h.started fd hfd)
  current := fun fd hfd => by
    cases hfd
    exact ⟨Nat.lt_succ_self _, fun hmem => Nat.lt_irrefl _ (h.closed _ hmem)⟩
  others := fun fd hlt hopen => by
    rcases Nat.lt_succ_iff_lt_or_eq.mp hlt with hlt | rfl
    · cases h.others fd hlt hopen
    · rfl
  playback := by
    have hsilent := h.silent
    refine ⟨fun hp => ?_, fun ⟨fd, hfd, hmem⟩ => ?_⟩
    · rw [hsilent] at hp
      cases hp
    · cases hfd
      exact absurd (h.started _ hmem) (Nat.lt_irrefl _)
  valid := h.valid

/-- A descriptor that does not play is closed. -/
theorem Sound.close (h : Sound hw (some fd)) (on : List Bool) :
    Sound { hw.close fd with playbackInProgress := false, postproc := on } none where
  once := by
    have hnew : fd ∉ hw.closes := (h.current fd rfl).2
    exact List.nodup_append.mpr ⟨h.once, List.nodup_singleton fd, fun a ha b hb hab => by
      rw [List.mem_singleton.mp hb] at hab
      exact hnew (hab ▸ ha)⟩
  closed := fun x hx => by
    rcases List.mem_append.mp hx with hx | hx
    · exact h.closed x hx
    · rw [List.mem_singleton.mp hx]
      exact (h.current fd rfl).1
  started := h.started
  current := nofun
  others := fun x hlt hopen => by
    have hold : x ∉ hw.closes := fun hmem => hopen (List.mem_append_left _ hmem)
    cases h.others x hlt hold
    exact absurd (List.mem_append_right _ (List.mem_singleton_self _)) hopen
  playback := ⟨nofun, fun ⟨x, hx, _⟩ => nomatch hx⟩
  valid := h.valid

theorem Sound.close_silent (h : Sound hw (some fd)) (hsilent : hw.playbackInProgress = false) :
    Sound (hw.close fd) none := by
  have hclosed := h.close hw.postproc
  rw [← hsilent] at hclosed
  exact hclosed

theorem Sound.start (h : Sound hw (some fd)) :
    Sound { hw.play true with starts := hw.starts ++ [fd] } (some fd) where
  once := h.once
  closed := h.closed
  started := fun x hx => by
    rcases List.mem_append.mp hx with hx | hx
    · exact h.started x hx
    · rw [List.mem_singleton.mp hx]
      exact (h.current fd rfl).1
  current := h.current
  others := h.others
  playback :=
    ⟨fun _ => ⟨fd, rfl, List.mem_append_right _ (List.mem_singleton_self _)⟩, fun _ => rfl⟩
  valid := h.valid

end Sound

/-! ## 4. The operations -/

/-- **The stream**: it has a descriptor when it is not in standby. -/
def StreamOk (hw : Hw) (st : Stream) : Prop :=
  Sound hw st.mFd ∧ (st.mFd = none ↔ st.mStandby = true)

section Operations

variable {hw : Hw} {st : Stream} {bytes : BitVec 32} {answers : Answers} {r : Hw × Stream}

theorem StreamOk.fd (h : StreamOk hw st) (hawake : st.mStandby = false) :
    ∃ fd, st.mFd = some fd := by
  cases hfd : st.mFd with
  | some fd => exact ⟨fd, rfl⟩
  | none =>
    rw [h.2.mp hfd] at hawake
    cases hawake

/-- The loop of `write` has its descriptor throughout. -/
theorem writeLoop_valid (fd : Nat) (ws : List Written) (count : BitVec 32) {r : Nat × Exit}
    (h : writeLoop (some fd) count ws = some r) : r.2 ≠ .invalidFd := by
  induction ws generalizing count r with
  | nil =>
    unfold writeLoop at h
    split at h
    · cases h
      exact nofun
    · cases h
  | cons w ws ih =>
    unfold writeLoop at h
    split at h
    · cases h
      exact nofun
    · rw [if_neg nofun] at h
      cases w with
      | bytes n => exact ih (count - n) h
      | again =>
        obtain ⟨rest, hrest, rfl⟩ := Option.map_eq_some_iff.mp h
        exact ih count (r := rest) hrest
      | error =>
        cases h
        exact nofun

theorem StreamOk.startAudio {fd : Nat} (h : Sound hw (some fd)) (hfd : st.mFd = some fd)
    (hawake : st.mStandby = false) (started : Bool) :
    StreamOk (startAudio hw st started).1 (startAudio hw st started).2 := by
  have hstays : ∀ n, StreamOk hw { st with mStartCount := n } := fun n =>
    ⟨by rw [hfd]; exact h, by simp [hfd, hawake]⟩
  unfold Output.startAudio
  split
  · exact hstays st.mStartCount
  · dsimp only
    split
    · exact hstays _
    · split
      · -- the start fails: the descriptor is closed and the stream is in standby again
        simp only [closeStream, hfd]
        exact ⟨h.close _, by simp⟩
      · refine ⟨?_, by simp [hfd, hawake]⟩
        simp only [hfd, Option.toList_some]
        exact h.start

theorem StreamOk.writeOpen (h : StreamOk hw st) (hawake : st.mStandby = false)
    (hr : writeOpen hw st bytes answers = some r) : StreamOk r.1 r.2 := by
  obtain ⟨fd, hfd⟩ := h.fd hawake
  have hsound : Sound hw (some fd) := hfd ▸ h.1
  obtain ⟨loop, hloop, rfl⟩ := Option.map_eq_some_iff.mp hr
  rw [hfd] at hloop
  have hvalid := writeLoop_valid fd _ _ hloop
  dsimp only
  split
  · apply StreamOk.startAudio hsound
    · exact hfd
    · exact hawake
  · exact ⟨h.1, h.2⟩
  · rename_i hexit
    exact absurd hexit hvalid

/-- The opening: the stream has its descriptor, or is in standby as before. -/
theorem StreamOk.wake (h : StreamOk hw st) (answers : Answers) (hstandby : st.mStandby = true) :
    StreamOk (wake hw st answers).1.1 (wake hw st answers).1.2 ∧
      ((wake hw st answers).2 = true → (wake hw st answers).1.2.mStandby = false) := by
  have hfd : st.mFd = none := h.2.mpr hstandby
  have hsound : Sound hw none := hfd ▸ h.1
  unfold Output.wake
  split
  · simp only [closeStream, hfd]
    exact ⟨h, nofun⟩
  · dsimp only
    split
    · -- the driver is open and cannot be configured
      exact ⟨⟨hsound.open.close_silent hsound.silent, by simp [closeStream, hstandby]⟩, nofun⟩
    · exact ⟨⟨hsound.open, by simp⟩, fun _ => rfl⟩

theorem StreamOk.write (h : StreamOk hw st) (hr : write hw st bytes answers = some r) :
    StreamOk r.1 r.2 := by
  unfold Output.write at hr
  split at hr
  · rename_i hstandby
    obtain ⟨hwake, hawake⟩ := StreamOk.wake h answers hstandby
    dsimp only at hr
    split at hr
    · rename_i hgoes
      exact hwake.writeOpen (hawake hgoes) hr
    · cases hr
      exact hwake
  · rename_i hstandby
    exact h.writeOpen (by simpa using hstandby) hr

theorem StreamOk.standby (h : StreamOk hw st) :
    StreamOk (standby hw st).1 (standby hw st).2 := by
  unfold Output.standby
  split
  · exact h
  · rename_i hawake
    obtain ⟨fd, hfd⟩ := h.fd (by simpa using hawake)
    have hsound : Sound hw (some fd) := hfd ▸ h.1
    simp only [hfd]
    exact ⟨hsound.close _, by simp⟩

end Operations

/-! ## 5. The runs -/

/-- The descriptor of the stream, if there is one. -/
def State.fd (s : State) : Option Nat := s.mOutput.bind Stream.mFd

structure Inv (s : State) : Prop where
  sound : Sound s.hw s.fd
  stream : ∀ st, s.mOutput = some st → (st.mFd = none ↔ st.mStandby = true)

theorem Inv.start : Inv start where
  sound := {
    once := List.nodup_nil
    closed := nofun
    started := nofun
    current := nofun
    others := fun _ h => absurd h (Nat.not_lt_zero _)
    playback := ⟨nofun, fun ⟨_, h, _⟩ => nomatch h⟩
    valid := rfl }
  stream := nofun

theorem StreamOk.inv {r : Hw × Stream} (h : StreamOk r.1 r.2) : Inv (State.put r) where
  sound := h.1
  stream := fun st hst => by
    cases hst
    exact h.2

theorem Inv.step {s s' : State} {a : Act} (h : Inv s) (hu : usual s a = true)
    (hs : step s a = some s') : Inv s' := by
  cases a with
  | openOutputStream accepted =>
    cases hout : s.mOutput with
    | some st =>
      simp only [Output.step, hout, Option.some.injEq] at hs
      exact hs ▸ h
    | none =>
      simp only [Output.step, hout, Option.some.injEq] at hs
      have hsound := h.sound
      rw [State.fd, hout] at hsound
      cases accepted with
      | true => exact hs ▸ ⟨hsound, fun st hst => by cases hst; simp [Stream.new]⟩
      | false => exact hs ▸ ⟨hsound, nofun⟩
  | write bytes answers =>
    obtain ⟨st, hst, hs⟩ := Option.bind_eq_some_iff.mp hs
    obtain ⟨r, hr, rfl⟩ := Option.map_eq_some_iff.mp hs
    have hsound := h.sound
    rw [State.fd, hst] at hsound
    exact (StreamOk.write ⟨hsound, h.stream st hst⟩ hr).inv
  | standby =>
    obtain ⟨st, hst, rfl⟩ := Option.map_eq_some_iff.mp hs
    have hsound := h.sound
    rw [State.fd, hst] at hsound
    exact (StreamOk.standby ⟨hsound, h.stream st hst⟩).inv
  | closeOutputStream =>
    cases hout : s.mOutput with
    | none =>
      simp only [Output.step, hout, Option.some.injEq] at hs
      exact hs ▸ h
    | some st =>
      simp only [Output.step, hout, Option.some.injEq] at hs
      have hsilent : s.hw.playbackInProgress = false := by simpa [usual, hout] using hu
      have hsound := h.sound
      rw [State.fd, hout] at hsound
      refine hs ▸ ⟨?_, nofun⟩
      unfold destroy
      cases hfd : st.mFd with
      | none =>
        have hnone : Sound s.hw none := hfd ▸ hsound
        exact hnone
      | some fd =>
        have hsome : Sound s.hw (some fd) := hfd ▸ hsound
        exact hsome.close_silent hsilent

/-- **The descriptor follows the standby.** In every run of steps that meet the condition, after
    every operation: the descriptor of the stream is open when the stream is not in standby, and no
    other descriptor is; no descriptor has been closed twice, and none that was not opened; `write`
    has never been without its descriptor; and `playback_in_progress` is set when the driver was
    started through the descriptor that is open. -/
theorem descriptor_follows_standby {s : State}
    (h : Reach step (fun s a => usual s a = true) start s) :
    (∀ st, s.mOutput = some st →
      ((∃ fd, st.mFd = some fd ∧ fd < s.hw.opens ∧ fd ∉ s.hw.closes) ↔ st.mStandby = false)) ∧
    (∀ fd, fd < s.hw.opens → fd ∉ s.hw.closes → s.fd = some fd) ∧
    s.hw.closes.Nodup ∧ (∀ fd ∈ s.hw.closes, fd < s.hw.opens) ∧
    s.hw.invalidFd = 0 ∧
    (s.hw.playbackInProgress = true ↔
      ∃ fd, s.fd = some fd ∧ fd < s.hw.opens ∧ fd ∉ s.hw.closes ∧ fd ∈ s.hw.starts) := by
  have hinv : Inv s := h.inv (I := Inv) Inv.start fun _ _ _ hi hu hs => hi.step hu hs
  have hsound := hinv.sound
  refine ⟨fun st hst => ?_, hsound.others, hsound.once, hsound.closed, hsound.valid, ?_⟩
  · have hiff := hinv.stream st hst
    constructor
    · intro ⟨fd, hfd, _⟩
      rw [hfd] at hiff
      simpa using hiff
    · intro hawake
      obtain ⟨fd, hfd⟩ : ∃ fd, st.mFd = some fd := by
        rw [hawake] at hiff
        simpa [Option.ne_none_iff_exists'] using hiff
      have hcur : s.fd = some fd := by rw [State.fd, hst]; exact hfd
      exact ⟨fd, hfd, hsound.current fd hcur⟩
  · rw [hsound.playback]
    constructor
    · intro ⟨fd, hcur, hmem⟩
      obtain ⟨hlt, hopen⟩ := hsound.current fd hcur
      exact ⟨fd, hcur, hlt, hopen, hmem⟩
    · intro ⟨fd, hcur, _, _, hmem⟩
      exact ⟨fd, hcur, hmem⟩

/-- The driver takes a buffer of 4800 bytes. -/
def takesAll : Answers :=
  { opened := true, getConfig := true, setConfig := true, written := [.bytes 4800],
    started := true }

/-- Two buffers start the driver; standby and closing end it. -/
theorem descriptor_follows_standby_played :
    ∃ s, Reach step (fun s a => usual s a = true) start s ∧ s.hw.starts = [0] ∧
      s.hw.closes.Nodup ∧ s.hw.invalidFd = 0 := by
  have htest : runTest step usual start
      [.openOutputStream true, .write 4800 takesAll, .write 4800 takesAll, .standby,
        .closeOutputStream]
      (fun s => decide (s.hw.starts = [0])) = true := by decide
  obtain ⟨s, hs, hp⟩ := reach_of_runTest htest
  obtain ⟨-, -, honce, -, hvalid, -⟩ := descriptor_follows_standby hs
  exact ⟨s, hs, of_decide_eq_true hp, honce, hvalid⟩

/-- The stream is closed without a standby: the destructor closes the descriptor and leaves
    `playback_in_progress`. -/
theorem closed_while_playing :
    ∃ s, Reach step Always start s ∧ s.hw.playbackInProgress = true ∧ s.mOutput = none ∧
      s.hw.opens = 1 ∧ s.hw.closes = [0] := by
  have htest : runTest step (fun _ _ => true) start
      [.openOutputStream true, .write 4800 takesAll, .write 4800 takesAll, .closeOutputStream]
      (fun s => decide (s.hw.playbackInProgress = true ∧ s.mOutput = none ∧ s.hw.opens = 1 ∧
        s.hw.closes = [0])) = true := by decide
  obtain ⟨s, hs, hp⟩ := reach_of_runTest htest
  exact ⟨s, hs.always, of_decide_eq_true hp⟩

end Y210.Audio.Output

/-
  File:      Y210/Lights/Speaker.lean
  Subject:   THE LIGHTS MODULE (`lights.c`) and the LED by the speaker, which battery and
             notifications share.

  * `setLight` -- the six calls of the framework, on the module's globals and the files of the
    LED driver;
  * `blink` -- the frequency and the duty cycle of a state that blinks, as the code rounds them;
  * `usual` -- the condition on a call: it shows no steady state after a blinking one, which the
    history `blinked` beside the state tells;
  * `speaker_files_agree` -- without the amber LED: the files show the last battery and
    notification states alone, in every run of such calls; `old_blinking_stays` is what happens in
    the others;
  * `amber_files_agree` -- with the amber LED they do so in every run.
-/
import Mathlib.Algebra.Group.Int.Defs
import Mathlib.Algebra.Group.Nat.Defs
import Mathlib.Logic.Function.Basic
import Y210.Lib.History

namespace Y210.Lights

open Y210.Lib

/-! ## 1. States and files -/

inductive FlashMode
  | none
  | timed
  | hardware
  | other
  deriving DecidableEq, Repr

/-- `light_state_t`. -/
structure LightState where
  color : BitVec 32
  flashMode : FlashMode
  flashOnMS : Int
  flashOffMS : Int
  deriving DecidableEq, Repr

inductive File
  | trackball
  | red
  | green
  | blue
  | amber
  | lcd
  | redFreq
  | redPwm
  | amberBlink
  | keyboard
  | button
  deriving DecidableEq, Repr

/-- The numbers last written to the files. -/
abbrev Files := File → Int

/-- What `init_globals` finds, and what a write to a file ends with (0, or the error number with
    which opening or writing it fails). -/
structure Device where
  haveTrackballLight : Bool
  haveAmberLed : Bool
  errno : File → Int

/-- The globals and the files. -/
structure State where
  notification : LightState
  battery : LightState
  backlight : Int
  buttons : Int
  attention : Int
  files : Files

variable {d : Device} {st : LightState} {files old : Files} {f : File}

/-- `write_int`. -/
def writeInt (d : Device) (path : File) (value : Int) (files : Files) : Files :=
  if d.errno path = 0 then Function.update files path value else files

/-- `is_lit`. -/
def isLit (st : LightState) : Bool := st.color &&& 0x00ffffff != 0

def redOf (st : LightState) : Int := ((st.color >>> 16) &&& 0xFF).toNat
def greenOf (st : LightState) : Int := ((st.color >>> 8) &&& 0xFF).toNat
def blueOf (st : LightState) : Int := (st.color &&& 0xFF).toNat

/-- `rgb_to_brightness`. -/
def rgbToBrightness (st : LightState) : Int :=
  (77 * redOf st + 150 * greenOf st + 29 * blueOf st) / 256

/-! ## 2. The LED by the speaker -/

/-- An `int`, wrapped as the processor does. -/
def int (n : Int) : Int := n.bmod (2 ^ 32)

/-- `onMS` and `offMS`. -/
def flash (st : LightState) : Int × Int :=
  match st.flashMode with
  | .timed => (st.flashOnMS, st.flashOffMS)
  | _ => (0, 0)

/-- `freq` and `pwm` of a state that blinks. -/
def blink (st : LightState) : Option (Int × Int) :=
  let (onMS, offMS) := flash st
  if onMS > 0 ∧ offMS > 0 then
    let totalMS := int (onMS + offMS)
    let freq := totalMS.tdiv 50
    let pwm := (int (onMS * 255)).tdiv totalMS
    -- the low 4 bits are ignored
    some (freq, if 0 < pwm ∧ pwm < 16 then 16 else pwm)
  else none

def writeColor (d : Device) (st : LightState) (files : Files) : Files :=
  if d.haveAmberLed then
    if redOf st ≠ 0 then writeInt d .green 0 (writeInt d .amber 1 files)
    else if greenOf st ≠ 0 then writeInt d .green 1 (writeInt d .amber 0 files)
    else writeInt d .amber 0 (writeInt d .green 0 files)
  else
    writeInt d .blue (blueOf st)
      (writeInt d .green (greenOf st) (writeInt d .red (redOf st) files))

def writeBlink (d : Device) (st : LightState) (files : Files) : Files :=
  if d.haveAmberLed then writeInt d .amberBlink (if (blink st).isSome then 1 else 0) files
  else match blink st with
    | some (freq, pwm) => writeInt d .redPwm pwm (writeInt d .redFreq freq files)
    | none => files

/-- `set_speaker_light_locked`. -/
def setSpeakerLight (d : Device) (st : LightState) (files : Files) : Files :=
  writeBlink d st (writeColor d st files)

/-- The state `handle_speaker_battery_locked` shows. -/
def shown (battery notification : LightState) : LightState :=
  if isLit battery then battery else notification

/-! ## 3. The calls -/

inductive Light
  | backlight
  | keyboard
  | buttons
  | battery
  | notifications
  | attention
  deriving DecidableEq, Repr

def trackballMode (s : State) : Int :=
  if s.attention = 7 ∧ s.backlight ≠ 0 then 0 else s.attention

/-- `handle_trackball_light_locked`; nothing changes `g_trackball`, which is -1. -/
def handleTrackballLight (d : Device) (s : State) : Files :=
  if trackballMode s = -1 then s.files else writeInt d .trackball (trackballMode s) s.files

def withTrackball (d : Device) (s : State) : State :=
  if d.haveTrackballLight then { s with files := handleTrackballLight d s } else s

/-- `handle_speaker_battery_locked`. -/
def handleSpeakerBattery (d : Device) (s : State) : State :=
  { s with files := setSpeakerLight d (shown s.battery s.notification) s.files }

/-- `set_light_battery`. -/
def setLightBattery (d : Device) (s : State) (st : LightState) : State :=
  let s := { s with battery := st }
  handleSpeakerBattery d
    (if d.haveTrackballLight then { s with files := setSpeakerLight d st s.files } else s)

/-- `set_light_notifications`. -/
def setLightNotifications (d : Device) (s : State) (st : LightState) : State :=
  handleSpeakerBattery d (withTrackball d { s with notification := st })

/-- The call of a light, and what it returns. -/
def setLight (d : Device) (s : State) (light : Light) (st : LightState) : State × Int :=
  match light with
  | .backlight =>
    let brightness := rgbToBrightness st
    let s := { s with backlight := brightness, files := writeInt d .lcd brightness s.files }
    (withTrackball d s, -d.errno .lcd)
  | .keyboard =>
    ({ s with files := writeInt d .keyboard (if isLit st then 255 else 0) s.files },
      -d.errno .keyboard)
  | .buttons =>
    ({ s with
        buttons := (st.color &&& 0x00ffffff).toNat,
        files := writeInt d .button (if isLit st then 255 else 0) s.files },
      -d.errno .button)
  | .battery => (setLightBattery d s st, 0)
  | .notifications => (setLightNotifications d s st, 0)
  | .attention =>
    let attention := match st.flashMode with
      | .hardware => st.flashOnMS
      | .none => 0
      | _ => s.attention
    (withTrackball d { s with attention := attention }, 0)

/-- A call of a light with a state. -/
structure Call where
  light : Light
  state : LightState
  deriving DecidableEq, Repr

/-- A call of the LED by the speaker. -/
def Call.speaker (c : Call) : Bool := c.light == .battery || c.light == .notifications

def step (d : Device) (s : State) (c : Call) : Option State := some (setLight d s c.light c.state).1

/-! ## 4. What a state leaves in the files -/

theorem writeInt_apply (path : File) (value : Int) :
    writeInt d path value files f = if f = path ∧ d.errno path = 0 then value else files f := by
  unfold writeInt
  by_cases herr : d.errno path = 0
  · rw [if_pos herr, Function.update_apply]
    simp [herr]
  · rw [if_neg herr, if_neg (fun h => herr h.2)]

/-- The files of the LED. -/
def File.led : File → Bool
  | .trackball | .lcd | .keyboard | .button => false
  | _ => true

/-- The files of the LED without the amber one. -/
def speakerFiles : List File := [.red, .green, .blue, .redFreq, .redPwm]

/-- The files of the LED with the amber one. -/
def amberFiles : List File := [.green, .amber, .amberBlink]

/-- What `st` leaves without the amber LED: the blinking of before, if it does not blink. -/
def plainValue (st : LightState) (old : Files) : Files
  | .red => redOf st
  | .green => greenOf st
  | .blue => blueOf st
  | .redFreq => (blink st).elim (old .redFreq) Prod.fst
  | .redPwm => (blink st).elim (old .redPwm) Prod.snd
  | f => old f

/-- What `st` leaves with the amber LED. -/
def amberValue (st : LightState) (old : Files) : Files
  | .amber => if redOf st ≠ 0 then 1 else 0
  | .green => if redOf st = 0 ∧ greenOf st ≠ 0 then 1 else 0
  | .amberBlink => if (blink st).isSome then 1 else 0
  | f => old f

theorem setSpeakerLight_plain (hamber : d.haveAmberLed = false) :
    setSpeakerLight d st files f = if d.errno f = 0 then plainValue st files f else files f := by
  cases hblink : blink st <;> cases f <;>
    simp [setSpeakerLight, writeBlink, writeColor, hamber, hblink, writeInt_apply, plainValue]

theorem setSpeakerLight_amber (hamber : d.haveAmberLed = true) :
    setSpeakerLight d st files f = if d.errno f = 0 then amberValue st files f else files f := by
  unfold setSpeakerLight writeBlink writeColor
  rw [if_pos hamber, if_pos hamber]
  by_cases hred : redOf st = 0
  · by_cases hgreen : greenOf st = 0 <;> cases f <;>
      simp [hred, hgreen, writeInt_apply, amberValue]
  · cases f <;> simp [hred, writeInt_apply, amberValue]

/-- A file that cannot be written keeps what it holds. -/
theorem setSpeakerLight_unwritable (herr : d.errno f ≠ 0) :
    setSpeakerLight d st files f = files f := by
  cases hamber : d.haveAmberLed
  · rw [setSpeakerLight_plain hamber, if_neg herr]
  · rw [setSpeakerLight_amber hamber, if_neg herr]

/-! ## 5. What a call leaves in the files -/

section Calls

variable {init s : State} {c : Call}

/-- The states of battery and notifications after a call. -/
def batteryAfter (s : State) (c : Call) : LightState :=
  if c.light = .battery then c.state else s.battery

def notificationAfter (s : State) (c : Call) : LightState :=
  if c.light = .notifications then c.state else s.notification

def shownAfter (s : State) (c : Call) : LightState :=
  shown (batteryAfter s c) (notificationAfter s c)

/-- The files as the last of a call's writes to the LED finds them. -/
def filesBefore (d : Device) (s : State) (c : Call) : Files :=
  match c.light with
  | .battery => if d.haveTrackballLight then setSpeakerLight d c.state s.files else s.files
  | .notifications =>
    if d.haveTrackballLight then handleTrackballLight d { s with notification := c.state }
    else s.files
  | _ => s.files

theorem step_speaker (hc : c.speaker = true) :
    (setLight d s c.light c.state).1.files =
      setSpeakerLight d (shownAfter s c) (filesBefore d s c) := by
  obtain ⟨light, st⟩ := c
  cases light with
  | battery =>
      cases ht : d.haveTrackballLight <;>
        simp [setLight, setLightBattery, handleSpeakerBattery, filesBefore, shownAfter,
          batteryAfter, notificationAfter, ht]
  | notifications =>
      cases ht : d.haveTrackballLight <;>
        simp [setLight, setLightNotifications, handleSpeakerBattery, withTrackball, filesBefore,
          shownAfter, batteryAfter, notificationAfter, ht]
  | backlight => cases hc
  | keyboard => cases hc
  | buttons => cases hc
  | attention => cases hc

theorem handleTrackballLight_led (hf : f.led = true) : handleTrackballLight d s f = s.files f := by
  have hne : f ≠ .trackball := fun h => by subst h; cases hf
  unfold handleTrackballLight
  split
  · rfl
  · rw [writeInt_apply, if_neg (fun h => hne h.1)]

theorem withTrackball_led (hf : f.led = true) : (withTrackball d s).files f = s.files f := by
  unfold withTrackball
  split
  · exact handleTrackballLight_led hf
  · rfl

theorem withTrackball_states :
    (withTrackball d s).battery = s.battery ∧
      (withTrackball d s).notification = s.notification := by
  unfold withTrackball
  split <;> exact ⟨rfl, rfl⟩

theorem step_states :
    (setLight d s c.light c.state).1.battery = batteryAfter s c ∧
      (setLight d s c.light c.state).1.notification = notificationAfter s c := by
  obtain ⟨light, st⟩ := c
  cases light with
  | backlight => exact withTrackball_states
  | keyboard => exact ⟨rfl, rfl⟩
  | buttons => exact ⟨rfl, rfl⟩
  | battery =>
      simp only [setLight, setLightBattery, handleSpeakerBattery]
      split <;> exact ⟨rfl, rfl⟩
  | notifications => exact withTrackball_states
  | attention => exact withTrackball_states

/-- The calls for the other lights leave the LED. -/
theorem step_other (hc : c.speaker = false) (hf : f.led = true) :
    (setLight d s c.light c.state).1.files f = s.files f := by
  have hwrite : ∀ path value, path.led = false → writeInt d path value s.files f = s.files f := by
    intro path value hpath
    have hne : f ≠ path := fun h => by rw [h, hpath] at hf; cases hf
    rw [writeInt_apply, if_neg (fun h => hne h.1)]
  obtain ⟨light, st⟩ := c
  cases light with
  | backlight =>
      refine (withTrackball_led hf).trans ?_
      exact hwrite .lcd _ rfl
  | keyboard => exact hwrite .keyboard _ rfl
  | buttons => exact hwrite .button _ rfl
  | battery => cases hc
  | notifications => cases hc
  | attention => exact withTrackball_led hf

theorem filesBefore_led (hf : f.led = true) :
    filesBefore d s c f = s.files f ∨ c.light = .battery ∧ d.haveTrackballLight = true ∧
      filesBefore d s c f = setSpeakerLight d c.state s.files f := by
  obtain ⟨light, st⟩ := c
  cases ht : d.haveTrackballLight
  · exact Or.inl (by cases light <;> simp [filesBefore, ht])
  · cases light with
    | battery => exact Or.inr ⟨rfl, rfl, by simp [filesBefore, ht]⟩
    | notifications =>
        refine Or.inl ?_
        simp only [filesBefore, ht, if_true]
        exact handleTrackballLight_led hf
    | backlight => exact Or.inl rfl
    | keyboard => exact Or.inl rfl
    | buttons => exact Or.inl rfl
    | attention => exact Or.inl rfl

/-- A file of the LED that cannot be written holds what it held at the start. -/
def Unwritten (d : Device) (init s : State) : Prop :=
  ∀ f : File, f.led = true → d.errno f ≠ 0 → s.files f = init.files f

theorem filesBefore_unwritable (hf : f.led = true) (herr : d.errno f ≠ 0) :
    filesBefore d s c f = s.files f := by
  rcases filesBefore_led hf with h | ⟨-, -, h⟩
  · exact h
  · rw [h, setSpeakerLight_unwritable herr]

theorem Unwritten.step (h : Unwritten d init s) :
    Unwritten d init (setLight d s c.light c.state).1 := by
  intro f hf herr
  cases hc : c.speaker
  · rw [step_other hc hf, h f hf herr]
  · rw [step_speaker hc, setSpeakerLight_unwritable herr, filesBefore_unwritable hf herr,
      h f hf herr]

end Calls

/-! ## 6. Runs -/

section Runs

variable {init s s' : State} {value : LightState → Files → Files} {led : List File}

/-- The files show the battery and notification states, and beside them only what they held at the
    start. -/
def Shows (value : LightState → Files → Files) (led : List File) (d : Device) (init s : State) :
    Prop :=
  ∀ f ∈ led, s.files f =
    if d.errno f = 0 then value (shown s.battery s.notification) init.files f else init.files f

theorem Shows.other {c : Call} (hled : ∀ f ∈ led, f.led = true) (h : Shows value led d init s)
    (hc : c.speaker = false) : Shows value led d init (setLight d s c.light c.state).1 := by
  intro f hf
  obtain ⟨hbattery, hnotification⟩ := step_states (d := d) (s := s) (c := c)
  have hne : c.light ≠ .battery ∧ c.light ≠ .notifications := by
    simpa [Call.speaker] using hc
  rw [step_other hc (hled f hf), h f hf, hbattery, hnotification, batteryAfter, if_neg hne.1,
    notificationAfter, if_neg hne.2]

/-- **A run shows the states** if each of its calls of the LED does, and there is one. The machine
    may have more than the state; `I` is what its steps keep. -/
theorem Shows.run {σ : Type} {machine : σ → Call → Option σ} (view : σ → State) {I : σ → Prop}
    {cond : σ → Call → Bool} (hled : ∀ f ∈ led, f.led = true)
    (hview : ∀ x c x', machine x c = some x' →
      view x' = (setLight d (view x) c.light c.state).1)
    (hinv : ∀ x c x', I x → cond x c = true → machine x c = some x' → I x')
    (hspeaker : ∀ x c, I x → cond x c = true → c.speaker = true →
      Shows value led d init (setLight d (view x) c.light c.state).1) :
    ∀ {calls : List Call} {x x' : σ}, I x → runIf machine cond x calls = some x' →
      Shows value led d init (view x) ∨ calls.any Call.speaker = true →
        Shows value led d init (view x')
  | [], x, x', _, hrun, hor => by
      cases hrun
      exact hor.resolve_right Bool.false_ne_true
  | c :: calls, x, x', hI, hrun, hor => by
      unfold runIf at hrun
      split at hrun
      · next hcond =>
          obtain ⟨y, hy, hrun⟩ := Option.bind_eq_some_iff.mp hrun
          refine Shows.run view hled hview hinv hspeaker (hinv x c y hI hcond hy) hrun ?_
          rw [hview x c y hy]
          cases hc : c.speaker
          · rw [List.any_cons, hc, Bool.false_or] at hor
            exact hor.imp_left (fun h => h.other hled hc)
          · exact Or.inl (hspeaker x c hI hcond hc)
      · cases hrun

/-- With a trackball a battery state is shown by itself first, and blinks. -/
def blinksFirst (d : Device) (c : Call) : Bool :=
  c.light == .battery && d.haveTrackballLight && (blink c.state).isSome

/-- The history: whether a state that blinks was shown. -/
def blinked (d : Device) (s : State) (c : Call) (_ : State) (before : Bool) : Bool :=
  before || c.speaker && (blinksFirst d c || (blink (shownAfter s c)).isSome)

/-- **The condition on a call**: it ends with a state that blinks, or no state that blinks was shown
    before it ends. The calls for the other lights are free. -/
def usual (d : Device) (x : State × Bool) (c : Call) : Bool :=
  !c.speaker || (blink (shownAfter x.1 c)).isSome || !(x.2 || blinksFirst d c)

/-- The files that cannot be written, and before the first blinking those of the blinking, hold what
    they held at the start. -/
structure Calm (d : Device) (init : State) (x : State × Bool) : Prop where
  unwritten : Unwritten d init x.1
  steady : x.2 = false → ∀ f, f = .redFreq ∨ f = .redPwm → x.1.files f = init.files f

theorem plainValue_steady (hblink : blink st = none) (hf : f = .redFreq ∨ f = .redPwm) :
    plainValue st old f = old f := by
  rcases hf with rfl | rfl <;> simp [plainValue, hblink]

theorem filesBefore_steady {c : Call} (hamber : d.haveAmberLed = false)
    (hfirst : blinksFirst d c = false) (hf : f = .redFreq ∨ f = .redPwm) :
    filesBefore d s c f = s.files f := by
  have hled : f.led = true := by rcases hf with rfl | rfl <;> rfl
  rcases filesBefore_led hled with h | ⟨hbattery, htrackball, h⟩
  · exact h
  · -- the trackball's device shows the battery state first, which does not blink either
    have hnone : blink c.state = none := by
      simpa [blinksFirst, hbattery, htrackball] using hfirst
    rw [h, setSpeakerLight_plain hamber, plainValue_steady hnone hf, ite_self]

/-- **A call keeps the files of the blinking** until a state that blinks is shown. -/
theorem Calm.step {x x' : State × Bool} {c : Call} (h : Calm d init x)
    (hamber : d.haveAmberLed = false) (hs : tracked (step d) (blinked d) x c = some x') :
    Calm d init x' := by
  obtain ⟨s', after⟩ := x'
  obtain ⟨hstep, hflag⟩ := tracked_eq_some hs
  obtain rfl : (setLight d x.1 c.light c.state).1 = s' := Option.some.inj hstep
  refine ⟨h.unwritten.step, fun hcalm f hf => ?_⟩
  have hled : f.led = true := by rcases hf with rfl | rfl <;> rfl
  rw [hflag, blinked, Bool.or_eq_false_iff] at hcalm
  rw [← h.steady hcalm.1 f hf]
  cases hc : c.speaker with
  | false => exact step_other hc hled
  | true =>
    rw [hc, Bool.true_and, Bool.or_eq_false_iff, Option.isSome_eq_false_iff,
      Option.isNone_iff_eq_none] at hcalm
    obtain ⟨-, hfirst, hnone⟩ := hcalm
    rw [step_speaker hc, setSpeakerLight_plain hamber, plainValue_steady hnone hf, ite_self]
    exact filesBefore_steady hamber hfirst hf

theorem plain_shows (hamber : d.haveAmberLed = false) (x : State × Bool) (c : Call)
    (h : Calm d init x) (husual : usual d x c = true) (hc : c.speaker = true) :
    Shows plainValue speakerFiles d init (setLight d x.1 c.light c.state).1 := by
  intro f hf
  have hled : f.led = true := by revert f; decide
  rw [step_speaker hc, setSpeakerLight_plain hamber, step_states.1, step_states.2, ← shownAfter]
  by_cases herr : d.errno f = 0
  · rw [if_pos herr, if_pos herr]
    cases hblink : blink (shownAfter x.1 c) with
    | some b =>
        simp only [speakerFiles, List.mem_cons, List.not_mem_nil, or_false] at hf
        rcases hf with rfl | rfl | rfl | rfl | rfl <;> simp [plainValue, hblink]
    | none =>
        -- nothing that blinks was shown before
        have hcalm : x.2 = false ∧ blinksFirst d c = false := by
          simpa [usual, hc, hblink] using husual
        have hkeep : ∀ f, f = .redFreq ∨ f = .redPwm → filesBefore d x.1 c f = init.files f :=
          fun f hf => (filesBefore_steady hamber hcalm.2 hf).trans (h.steady hcalm.1 f hf)
        simp only [speakerFiles, List.mem_cons, List.not_mem_nil, or_false] at hf
        rcases hf with rfl | rfl | rfl | rfl | rfl <;> simp [plainValue, hblink, hkeep]
  · rw [if_neg herr, if_neg herr, filesBefore_unwritable hled herr, h.unwritten f hled herr]

theorem amber_shows (hamber : d.haveAmberLed = true) (s : State) (c : Call)
    (hun : Unwritten d init s) (hc : c.speaker = true) :
    Shows amberValue amberFiles d init (setLight d s c.light c.state).1 := by
  intro f hf
  have hled : f.led = true := by revert f; decide
  rw [step_speaker hc, setSpeakerLight_amber hamber, step_states.1, step_states.2, ← shownAfter]
  by_cases herr : d.errno f = 0
  · rw [if_pos herr, if_pos herr]
    simp only [amberFiles, List.mem_cons, List.not_mem_nil, or_false] at hf
    rcases hf with rfl | rfl | rfl <;> rfl
  · rw [if_neg herr, if_neg herr, filesBefore_unwritable hled herr, hun f hled herr]

theorem Unwritten.start : Unwritten d init init := fun _ _ _ => rfl

/-- Two states that show their battery and notification states, which are the same. -/
theorem Shows.agree (h : Shows value led d init s) (h' : Shows value led d init s')
    (hbattery : s.battery = s'.battery) (hnotification : s.notification = s'.notification)
    (hf : f ∈ led) : s.files f = s'.files f := by
  rw [h f hf, h' f hf, hbattery, hnotification]

/-- **The files show the last states alone**, without the amber LED, in every two runs in which no
    call shows a steady state after a blinking one. -/
theorem speaker_files_agree (d : Device) (hamber : d.haveAmberLed = false) (init : State)
    (calls calls' : List Call) (x x' : State × Bool)
    (hcalls : calls.any Call.speaker = true) (hcalls' : calls'.any Call.speaker = true)
    (hrun : runIf (tracked (step d) (blinked d)) (usual d) (init, false) calls = some x)
    (hrun' : runIf (tracked (step d) (blinked d)) (usual d) (init, false) calls' = some x')
    (hbattery : x.1.battery = x'.1.battery) (hnotification : x.1.notification = x'.1.notification) :
    ∀ f ∈ speakerFiles, x.1.files f = x'.1.files f := by
  have hled : ∀ f ∈ speakerFiles, f.led = true := by decide
  have hview : ∀ x c x', tracked (step d) (blinked d) x c = some x' →
      x'.1 = (setLight d x.1 c.light c.state).1 :=
    fun x c x' hs => (Option.some.inj (tracked_eq_some hs).1).symm
  have hinv : ∀ x c x', Calm d init x → usual d x c = true →
      tracked (step d) (blinked d) x c = some x' → Calm d init x' :=
    fun x c x' h _ hs => h.step hamber hs
  have hstart : Calm d init (init, false) := ⟨Unwritten.start, fun _ _ _ => rfl⟩
  intro f hf
  have hshows := Shows.run Prod.fst hled hview hinv (plain_shows hamber) hstart hrun
    (Or.inr hcalls)
  have hshows' := Shows.run Prod.fst hled hview hinv (plain_shows hamber) hstart hrun'
    (Or.inr hcalls')
  exact hshows.agree hshows' hbattery hnotification hf

/-- A device with neither amber LED nor trackball, all of whose files can be written. -/
def phone : Device := ⟨false, false, fun _ => 0⟩

def dark : LightState := ⟨0, .none, 0, 0⟩

/-- Green. -/
def green : LightState := ⟨0xff00ff00, .none, 0, 0⟩

/-- Red, half a second on and half a second off. -/
def blinkingRed : LightState := ⟨0xffff0000, .timed, 500, 500⟩

def fresh : State := ⟨dark, dark, 255, 0, 0, fun _ => 0⟩

theorem speaker_files_agree_blinking :
    ∃ x x', runIf (tracked (step phone) (blinked phone)) (usual phone) (fresh, false)
        [⟨.notifications, blinkingRed⟩] = some x ∧
      runIf (tracked (step phone) (blinked phone)) (usual phone) (fresh, false)
        [⟨.notifications, green⟩, ⟨.battery, dark⟩, ⟨.notifications, blinkingRed⟩] = some x' ∧
      x.1.files .redFreq = 20 ∧ ∀ f ∈ speakerFiles, x.1.files f = x'.1.files f :=
  ⟨_, _, rfl, rfl, by decide,
    speaker_files_agree phone rfl fresh [⟨.notifications, blinkingRed⟩]
      [⟨.notifications, green⟩, ⟨.battery, dark⟩, ⟨.notifications, blinkingRed⟩] _ _
      (by decide) (by decide) rfl rfl rfl rfl⟩

/-- **The blinking of an old notification stays**: after a red one that blinks, a green one is
    shown with its frequency and duty cycle; alone it is shown without. -/
theorem old_blinking_stays :
    ∃ s s', runIf (step phone) (fun _ _ => true) fresh
        [⟨.notifications, blinkingRed⟩, ⟨.notifications, green⟩] = some s ∧
      runIf (step phone) (fun _ _ => true) fresh [⟨.notifications, green⟩] = some s' ∧
      s.battery = s'.battery ∧ s.notification = s'.notification ∧
      s.files .redFreq = 20 ∧ s.files .redPwm = 127 ∧
      s'.files .redFreq = 0 ∧ s'.files .redPwm = 0 :=
  ⟨_, _, rfl, rfl, rfl, rfl, by decide, by decide, by decide, by decide⟩

/-- **With the amber LED** the files show the last states alone in every two runs. -/
theorem amber_files_agree (hamber : d.haveAmberLed = true) {calls calls' : List Call}
    (hcalls : calls.any Call.speaker = true) (hcalls' : calls'.any Call.speaker = true)
    (hrun : runIf (step d) (fun _ _ => true) init calls = some s)
    (hrun' : runIf (step d) (fun _ _ => true) init calls' = some s')
    (hbattery : s.battery = s'.battery) (hnotification : s.notification = s'.notification) :
    ∀ f ∈ amberFiles, s.files f = s'.files f := by
  have hled : ∀ f ∈ amberFiles, f.led = true := by decide
  have hview : ∀ s c s', step d s c = some s' → s' = (setLight d s c.light c.state).1 :=
    fun s c s' hs => (Option.some.inj hs).symm
  have hinv : ∀ s c s', Unwritten d init s → true = true → step d s c = some s' →
      Unwritten d init s' := fun s c s' h _ hs => hview s c s' hs ▸ h.step
  have hspeaker := fun s c (hun : Unwritten d init s) (_ : true = true) =>
    amber_shows hamber s c hun
  intro f hf
  have hshows := Shows.run id hled hview hinv hspeaker Unwritten.start hrun
    (Or.inr hcalls)
  have hshows' := Shows.run id hled hview hinv hspeaker Unwritten.start hrun'
    (Or.inr hcalls')
  exact hshows.agree hshows' hbattery hnotification hf

end Runs

end Y210.Lights

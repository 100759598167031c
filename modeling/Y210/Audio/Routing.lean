/-
  File:      Y210/Audio/Routing.lean
  Subject:   THE ROUTE OF THE SOUND: `doRouting` and `doAudioRouteOrMute`, and the pins that
             Bluetooth and the FM radio share.

  The pins are switched in `doAudioRouteOrMute` only, and only when `mCurSndDevice` says that an FM
  device is entered or left. `mCurSndDevice` is cleared by `setMode` and by every start and standby
  of a recording, and overwritten by the route of a microphone, while the pins stay where they are.

  The bits of `AudioSystem`, the endpoints of the driver and `isInCall` are not in the sources: they
  are the parameters of `Hal`. Every call of the driver and of the I2C bus succeeds.

  * `newSndDevice`, `doAudioRouteOrMute`, `doRouting`, `setParameters` -- the code;
  * `Inv` -- the pins are in BT mode while FM is off, and in FM mode while the current device is an
    FM device;
  * `usual` -- FM is switched off while the current device is an FM device, and to an output that
    has a device;
  * `pins_follow_fm` -- in every run of such steps the pins follow FM and the device routed last;
  * `unusual_keeps_pins` -- any other way of switching FM off leaves the pins in FM mode;
  * `pins_kept_by_fm` -- a change of the mode, or a recording, before FM is switched off.
-/
import Mathlib.Data.BitVec
import Mathlib.Tactic.Common
import Y210.Lib.Run

namespace Y210.Audio.Routing

open Y210.Lib

/-! ## 1. Devices -/

/-- The `SND_DEVICE_` members that are routed to; -1 is an endpoint the driver does not have. -/
structure SndDevices where
  current : Int
  handset : Int
  speaker : Int
  bt : Int
  headset : Int
  inSSadcOutHandset : Int
  inSSadcOutSpeakerPhone : Int
  ttyHeadset : Int
  ttyHco : Int
  ttyVco : Int
  carkit : Int
  fmSpeaker : Int
  fmHeadset : Int
  fmAnalogHeadset : Int
  fmAnalogSpeaker : Int

/-- The bits of `AudioSystem`. -/
structure DeviceBits where
  outSpeaker : BitVec 32
  outWiredHeadset : BitVec 32
  outWiredHeadphone : BitVec 32
  outBluetoothSco : BitVec 32
  outBluetoothScoHeadset : BitVec 32
  outBluetoothScoCarkit : BitVec 32
  inBluetoothScoHeadset : BitVec 32
  inWiredHeadset : BitVec 32
  inBuiltinMic : BitVec 32
  inVoiceCall : BitVec 32

/-- What the constructor reads once, and what stands outside of the sources. -/
structure Hal where
  snd : SndDevices
  bits : DeviceBits
  mFmIsAnalog : Bool
  modeNormal : Int
  modeInCall : Int
  isInCall : Int → Bool

def isFmSndDevice (snd : SndDevices) (device : Int) : Bool :=
  device == snd.fmHeadset || device == snd.fmSpeaker || device == snd.fmAnalogHeadset ||
    device == snd.fmAnalogSpeaker

/-- The devices that are routed to while FM is off. -/
def SndDevices.ordinary (snd : SndDevices) : List Int :=
  [snd.handset, snd.speaker, snd.bt, snd.headset, snd.inSSadcOutHandset, snd.inSSadcOutSpeakerPhone,
    snd.ttyHeadset, snd.ttyHco, snd.ttyVco, snd.carkit]

/-- No endpoint is both an FM device and an ordinary one. -/
def SndDevices.Distinct (snd : SndDevices) : Prop :=
  ∀ d ∈ snd.ordinary, d ≠ -1 → isFmSndDevice snd d = false

instance (snd : SndDevices) : Decidable snd.Distinct :=
  inferInstanceAs (Decidable (∀ d ∈ snd.ordinary, d ≠ -1 → isFmSndDevice snd d = false))

/-! ## 2. The state -/

inductive TtyMode where
  | off
  | vco
  | hco
  | full
  deriving DecidableEq

/-- The argument of `run_btfm_pin_switch`. -/
inductive PinMode where
  | fm
  | btsco
  deriving DecidableEq

/-- The arguments of one `SND_SET_DEVICE`. -/
structure DeviceConfig where
  device : Int
  earMute : Bool
  micMute : Bool
  deriving DecidableEq

/-- `mOutput` is the devices of the output stream, while there is one. `pins` is the mode the pins
    were switched to last, `routed` the device the last `doRouting` selected. -/
structure State where
  mMode : Int
  mMicMute : Bool
  mBuiltinMicSelected : Bool
  mDualMicEnabled : Bool
  mTtyMode : TtyMode
  mFmRadioEnabled : Bool
  mFmPrev : Bool
  mCurSndDevice : Int
  mOutput : Option (BitVec 32)
  pins : PinMode
  configs : List DeviceConfig
  routed : Option Int
  deriving DecidableEq

def State.clearCurDevice (s : State) : State := { s with mCurSndDevice := -1 }

/-- `setFmOnOff`, as far as it is a state of the hardware class. -/
def State.setFmOnOff (s : State) (onoff : Bool) : State := { s with mFmRadioEnabled := onoff }

def State.runBtfmPinSwitch (s : State) (mode : PinMode) : State := { s with pins := mode }

def State.sndSetDevice (s : State) (device : Int) (earMute micMute : Bool) : State :=
  { s with configs := s.configs ++ [{ device := device, earMute := earMute, micMute := micMute }] }

/-! ## 3. The code -/

section Code

variable (hal : Hal)

def doRouteAudioRpc (s : State) (device : Int) (earMute micMute : Bool) : State :=
  if device = -1 then s
  else if device ≠ hal.snd.current ∧ micMute = false then
    -- the microphone is muted first, to release the resources of the DSP
    (s.sndSetDevice device earMute true).sndSetDevice device earMute micMute
  else s.sndSetDevice device earMute micMute

/-- Whether the earpiece is muted while FM is off. -/
def earMute (s : State) (device : Int) : Bool :=
  let mute := !hal.isInCall s.mMode
  if mute = true ∧ device = hal.snd.handset then !s.mBuiltinMicSelected else mute

/-- **`doAudioRouteOrMute`.** -/
def doAudioRouteOrMute (s : State) (device : Int) : State :=
  let mute := earMute hal s device
  let s := { s with mFmPrev := s.mFmRadioEnabled }
  if s.mFmRadioEnabled then
    -- nothing is muted for the radio
    let s := doRouteAudioRpc hal s device false false
    -- `mCurSndDevice` is the device before: the caller updates it
    if isFmSndDevice hal.snd device = true ∧ device ≠ s.mCurSndDevice then s.runBtfmPinSwitch .fm
    else s
  else
    let s :=
      if isFmSndDevice hal.snd s.mCurSndDevice = true ∧ isFmSndDevice hal.snd device = false then
        s.runBtfmPinSwitch .btsco
      else s
    doRouteAudioRpc hal s device mute s.mMicMute

def has (devices bits : BitVec 32) : Bool := devices &&& bits != 0

/-- The device of an input; -1 is the route of the output. -/
def inputSndDevice (outputDevices inputDevice : BitVec 32) : Int :=
  if inputDevice = 0 then -1
  else if has inputDevice hal.bits.inBluetoothScoHeadset then hal.snd.bt
  else if has inputDevice hal.bits.inWiredHeadset then hal.snd.headset
  else if has outputDevices hal.bits.outSpeaker then hal.snd.speaker
  else hal.snd.handset

def fmSndDevice (outputDevices : BitVec 32) : Int :=
  if has outputDevices (hal.bits.outWiredHeadset ||| hal.bits.outWiredHeadphone) then
    if hal.mFmIsAnalog then hal.snd.fmAnalogHeadset else hal.snd.fmHeadset
  else if hal.mFmIsAnalog then hal.snd.fmAnalogSpeaker else hal.snd.fmSpeaker

def ttySndDevice : TtyMode → Int
  | .full => hal.snd.ttyHeadset
  | .vco => hal.snd.ttyVco
  | .hco => hal.snd.ttyHco
  | .off => -1

/-- The device of the output while FM is off; `COMBO_DEVICE_SUPPORTED` is not defined. -/
def outputSndDevice (s : State) (outputDevices : BitVec 32) : Int :=
  if s.mTtyMode ≠ .off ∧ s.mMode = hal.modeInCall ∧ has outputDevices hal.bits.outWiredHeadset then
    ttySndDevice hal s.mTtyMode
  else if has outputDevices (hal.bits.outBluetoothSco ||| hal.bits.outBluetoothScoHeadset) then
    hal.snd.bt
  else if has outputDevices hal.bits.outBluetoothScoCarkit then hal.snd.carkit
  else if has outputDevices hal.bits.outWiredHeadset then hal.snd.headset
  else if has outputDevices hal.bits.outWiredHeadphone then hal.snd.headset
  else if has outputDevices hal.bits.outSpeaker then hal.snd.speaker
  else hal.snd.handset

def dualMic (s : State) (device : Int) : Int :=
  if s.mDualMicEnabled = true ∧ s.mMode = hal.modeInCall then
    if device = hal.snd.handset then hal.snd.inSSadcOutHandset
    else if device = hal.snd.speaker then hal.snd.inSSadcOutSpeakerPhone
    else device
  else device

/-- The device before the second microphone is looked at; `input` is the devices of the input. -/
def baseSndDevice (s : State) (input : Option (BitVec 32)) : Int :=
  let outputDevices := s.mOutput.getD 0
  let device := (input.map (inputSndDevice hal outputDevices)).getD (-1)
  if device ≠ -1 then device
  else if s.mFmRadioEnabled then fmSndDevice hal outputDevices
  else outputSndDevice hal s outputDevices

/-- `new_snd_device`. -/
def newSndDevice (s : State) (input : Option (BitVec 32)) : Int :=
  dualMic hal s (baseSndDevice hal s input)

/-- The end of `doRouting`, with the device that was selected. -/
def routeTo (s : State) (device : Int) : State :=
  if device = -1 then { s with routed := none }
  else if device ≠ s.mCurSndDevice ∨ s.mFmRadioEnabled ≠ s.mFmPrev then
    { doAudioRouteOrMute hal s device with mCurSndDevice := device, routed := some device }
  else { s with routed := some device }

def State.selectMic (s : State) : Option (BitVec 32) → State
  | none => s
  | some inputDevice =>
    { s with mBuiltinMicSelected := decide (inputDevice = hal.bits.inBuiltinMic) }

/-- **`doRouting`**, with the devices of the input stream that is given. -/
def doRouting (s : State) (input : Option (BitVec 32)) : State :=
  let s := s.selectMic hal input
  -- a recording of a voice call takes the device that is there
  if input = some hal.bits.inVoiceCall then s else routeTo hal s (newSndDevice hal s input)

def setMicMute (s : State) (state : Bool) : State :=
  if s.mMicMute ≠ state then doAudioRouteOrMute hal { s with mMicMute := state } hal.snd.current
  else s

def checkMicMute (s : State) : State :=
  if s.mMode ≠ hal.modeInCall then setMicMute hal s true else s

/-- The keys of `setParameters` that are looked at. `btHeadsetName` is the id of the endpoint of
    that name, 0 without one; `fmOn` and `fmOff` are whether the key has a number. -/
structure Params where
  btHeadsetName : Option Nat
  dualMic : Option Bool
  ttyMode : Option TtyMode
  fmOn : Bool
  fmOff : Bool
  deriving DecidableEq

def btNameKey (s : State) : Option Nat → State
  | some 0 => doRouting hal s none
  | _ => s

def dualMicKey (s : State) : Option Bool → State
  | some on => doRouting hal { s with mDualMicEnabled := on } none
  | none => s

/-- `setParameters` up to the keys of FM; `false` is the return before them. -/
def beforeFm (s : State) (p : Params) : State × Bool :=
  let s := dualMicKey hal (btNameKey hal s p.btHeadsetName) p.dualMic
  match p.ttyMode with
  | some mode => ({ s with mTtyMode := mode }, decide (s.mMode = hal.modeInCall))
  | none => (s, true)

/-- The keys of FM. -/
def fmKeys (s : State) (p : Params) : State :=
  let s := if p.fmOn then s.setFmOnOff true else s
  if p.fmOff then s.setFmOnOff false else s

/-- **`AudioHardware::setParameters`**; `none` is the empty text. -/
def setParameters (s : State) : Option Params → State
  | none => s
  | some p =>
    let r := beforeFm hal s p
    if r.2 then doRouting hal (fmKeys r.1 p) none else r.1

/-! ## 4. The machine -/

/-- `setMode` has the answer of `AudioHardwareBase::setMode`; `startInput` is the start in `read` of
    an input stream, with its devices. -/
inductive Act where
  | setParameters (p : Option Params)
  | setMode (mode : Int) (accepted : Bool)
  | setMicMute (state : Bool)
  | checkMicMute
  | openOutputStream (devices : BitVec 32)
  | closeOutputStream
  | outSetParameters (routing : BitVec 32) (p : Params)
  | startInput (inputDevice : BitVec 32)
  | inSetParameters (routing : BitVec 32)
  | standbyInput
  deriving DecidableEq

def step (s : State) : Act → Option State
  | .setParameters p => some (setParameters hal s p)
  | .setMode mode accepted =>
    some (if accepted then State.clearCurDevice { s with mMode := mode } else s)
  | .setMicMute state => some (setMicMute hal s state)
  | .checkMicMute => some (checkMicMute hal s)
  -- only one output stream is allowed
  | .openOutputStream devices =>
    if s.mOutput = none then some { s with mOutput := some devices } else none
  | .closeOutputStream => some { s with mOutput := none }
  | .outSetParameters routing p =>
    if s.mOutput = none then none
    else
      some (doRouting hal (setParameters hal { s with mOutput := some routing } (some p)) none)
  | .startInput inputDevice => some (doRouting hal s.clearCurDevice (some inputDevice))
  | .inSetParameters routing =>
    some (if routing &&& (routing - 1) = 0 then doRouting hal s (some routing) else s)
  | .standbyInput => some (doRouting hal s.clearCurDevice none)

/-- The constructor, with the pins in BT mode. -/
def start : State where
  mMode := hal.modeNormal
  mMicMute := true
  mBuiltinMicSelected := false
  mDualMicEnabled := false
  mTtyMode := .off
  mFmRadioEnabled := false
  mFmPrev := false
  mCurSndDevice := -1
  mOutput := none
  pins := .btsco
  configs := []
  routed := none

/-- The route from `s` gives the pins back when FM is off: they are back already, or an FM device is
    left for a device that there is. -/
def givesBack (s : State) : Bool :=
  s.mFmRadioEnabled || s.pins == .btsco ||
    (isFmSndDevice hal.snd s.mCurSndDevice && newSndDevice hal s none != -1)

/-- The keys of `setParameters` do not switch FM off, or the route behind them gives the pins
    back. -/
def usualParams (s : State) (p : Params) : Bool :=
  let r := beforeFm hal s p
  !(r.2 && r.1.mFmRadioEnabled) || givesBack hal (fmKeys r.1 p)

/-- **The condition on a step**: FM is switched off while an FM device is the current one. -/
def usual (s : State) : Act → Bool
  | .setParameters (some p) => usualParams hal s p
  | .outSetParameters routing p => usualParams hal { s with mOutput := some routing } p
  | _ => true

end Code

/-! ## 5. What the route changes -/

section Route

variable (hal : Hal)

/-- The mode of the pins behind `doAudioRouteOrMute`. -/
def switchedPins (s : State) (device : Int) : PinMode :=
  if s.mFmRadioEnabled then
    if isFmSndDevice hal.snd device = true ∧ device ≠ s.mCurSndDevice then .fm else s.pins
  else if isFmSndDevice hal.snd s.mCurSndDevice = true ∧ isFmSndDevice hal.snd device = false then
    .btsco
  else s.pins

theorem doRouteAudioRpc_eq (s : State) (device : Int) (earMute micMute : Bool) :
    ∃ c, doRouteAudioRpc hal s device earMute micMute = { s with configs := c } := by
  unfold doRouteAudioRpc
  split
  · exact ⟨s.configs, rfl⟩
  · split
    · exact ⟨_, rfl⟩
    · exact ⟨_, rfl⟩

theorem doAudioRouteOrMute_eq (s : State) (device : Int) :
    ∃ c, doAudioRouteOrMute hal s device =
      { s with mFmPrev := s.mFmRadioEnabled, pins := switchedPins hal s device, configs := c } := by
  unfold doAudioRouteOrMute switchedPins
  dsimp only
  split
  · obtain ⟨c, hc⟩ := doRouteAudioRpc_eq hal
      { s with mFmPrev := s.mFmRadioEnabled } device false false
    refine ⟨c, ?_⟩
    rw [hc]
    split <;> rfl
  · split
    · obtain ⟨c, hc⟩ := doRouteAudioRpc_eq hal
        (State.runBtfmPinSwitch { s with mFmPrev := s.mFmRadioEnabled } .btsco) device
        (earMute hal s device) s.mMicMute
      exact ⟨c, hc⟩
    · obtain ⟨c, hc⟩ := doRouteAudioRpc_eq hal
        { s with mFmPrev := s.mFmRadioEnabled } device (earMute hal s device) s.mMicMute
      exact ⟨c, hc⟩

end Route

/-! ## 6. The device that is selected -/

section Selected

variable (hal : Hal) (s : State)

/-- A device that is routed to while FM is off, or none. -/
def Ordinary (device : Int) : Prop := device = -1 ∨ device ∈ hal.snd.ordinary

theorem inputSndDevice_ordinary (outputDevices inputDevice : BitVec 32) :
    Ordinary hal (inputSndDevice hal outputDevices inputDevice) := by
  unfold inputSndDevice Ordinary SndDevices.ordinary
  repeat' split
  all_goals simp

theorem outputSndDevice_ordinary (outputDevices : BitVec 32) :
    Ordinary hal (outputSndDevice hal s outputDevices) := by
  unfold outputSndDevice ttySndDevice Ordinary SndDevices.ordinary
  repeat' split
  all_goals simp

theorem dualMic_ordinary {device : Int} (h : Ordinary hal device) :
    Ordinary hal (dualMic hal s device) := by
  unfold dualMic
  repeat' split
  · exact .inr (by simp [SndDevices.ordinary])
  · exact .inr (by simp [SndDevices.ordinary])
  · exact h
  · exact h

variable {s}

theorem baseSndDevice_ordinary (hfm : s.mFmRadioEnabled = false) (input : Option (BitVec 32)) :
    Ordinary hal (baseSndDevice hal s input) := by
  unfold baseSndDevice
  dsimp only
  split
  · cases input with
    | none => exact .inl rfl
    | some inputDevice => exact inputSndDevice_ordinary hal _ inputDevice
  · rw [if_neg (by simp [hfm])]
    exact outputSndDevice_ordinary hal s _

variable {hal}

/-- **With FM off no FM device is selected.** -/
theorem newSndDevice_not_fm (hdistinct : hal.snd.Distinct) (hfm : s.mFmRadioEnabled = false)
    {input : Option (BitVec 32)} (hdevice : newSndDevice hal s input ≠ -1) :
    isFmSndDevice hal.snd (newSndDevice hal s input) = false := by
  have hordinary := dualMic_ordinary hal s (baseSndDevice_ordinary hal hfm input)
  rcases hordinary with hnone | hmem
  · exact absurd hnone hdevice
  · exact hdistinct _ hmem hdevice

end Selected

/-! ## 7. The pins -/

structure Inv (hal : Hal) (s : State) : Prop where
  current : isFmSndDevice hal.snd s.mCurSndDevice = true → s.mCurSndDevice ≠ -1 → s.pins = .fm
  off : s.mFmRadioEnabled = false → s.pins = .btsco
  routed : ∀ d, s.routed = some d → isFmSndDevice hal.snd d = true → s.pins = .fm

section Steps

variable {hal : Hal} {s s' : State} {device : Int} {input : Option (BitVec 32)}

theorem givesBack_cases (hback : givesBack hal s = true) (hfm : s.mFmRadioEnabled = false) :
    s.pins = .btsco ∨
      isFmSndDevice hal.snd s.mCurSndDevice = true ∧ newSndDevice hal s none ≠ -1 := by
  simpa [givesBack, hfm] using hback

theorem switchedPins_on (hfm : s.mFmRadioEnabled = true)
    (hcurrent : isFmSndDevice hal.snd s.mCurSndDevice = true → s.mCurSndDevice ≠ -1 → s.pins = .fm)
    (hdevice : isFmSndDevice hal.snd device = true) (hne : device ≠ -1) :
    switchedPins hal s device = .fm := by
  rw [switchedPins, if_pos hfm]
  split
  · rfl
  · rename_i hsame
    -- the device is the current one, and the pins are with it
    have heq : device = s.mCurSndDevice := by
      by_contra hother
      exact hsame ⟨hdevice, hother⟩
    subst heq
    exact hcurrent hdevice hne

theorem switchedPins_off (hfm : s.mFmRadioEnabled = false)
    (hdevice : isFmSndDevice hal.snd device = false)
    (hback : s.pins = .btsco ∨ isFmSndDevice hal.snd s.mCurSndDevice = true) :
    switchedPins hal s device = .btsco := by
  rw [switchedPins, if_neg (by simp [hfm])]
  split
  · rfl
  · rename_i hkept
    exact hback.resolve_right fun hcurrent => hkept ⟨hcurrent, hdevice⟩

/-- **One route.** It needs the pins to be with the current device, and a route that gives them
    back when FM is off. -/
theorem routeTo_inv
    (hcurrent : isFmSndDevice hal.snd s.mCurSndDevice = true → s.mCurSndDevice ≠ -1 → s.pins = .fm)
    (hback : s.mFmRadioEnabled = false →
      s.pins = .btsco ∨ isFmSndDevice hal.snd s.mCurSndDevice = true ∧ device ≠ -1)
    (hfm : s.mFmRadioEnabled = false → device ≠ -1 → isFmSndDevice hal.snd device = false) :
    Inv hal (routeTo hal s device) := by
  unfold routeTo
  split
  · rename_i hnone
    exact ⟨hcurrent, fun hoff => (hback hoff).resolve_right fun h => h.2 hnone, nofun⟩
  · rename_i hne
    split
    · obtain ⟨c, hroute⟩ := doAudioRouteOrMute_eq hal s device
      rw [hroute]
      have hpins : isFmSndDevice hal.snd device = true → switchedPins hal s device = .fm := by
        intro hdevice
        have hon : s.mFmRadioEnabled = true := by
          by_contra hoff
          simp [hfm (by simpa using hoff) hne] at hdevice
        exact switchedPins_on hon hcurrent hdevice hne
      refine ⟨fun hdevice _ => hpins hdevice, fun hoff => ?_, fun d hd hdevice => ?_⟩
      · exact switchedPins_off hoff (hfm hoff hne) ((hback hoff).imp_right And.left)
      · cases hd
        exact hpins hdevice
    · rename_i hsame
      -- the device is there already
      have heq : device = s.mCurSndDevice := by
        by_contra hother
        exact hsame (.inl hother)
      refine ⟨hcurrent, fun hoff => (hback hoff).resolve_right fun h => ?_, fun d hd hdevice => ?_⟩
      · rw [← heq, hfm hoff hne] at h
        exact absurd h.1 nofun
      · cases hd
        subst heq
        exact hcurrent hdevice hne

theorem Inv.selectMic (h : Inv hal s) (input : Option (BitVec 32)) :
    Inv hal (s.selectMic hal input) := by
  cases input with
  | none => exact h
  | some inputDevice => exact ⟨h.current, h.off, h.routed⟩

theorem Inv.clearCurDevice (h : Inv hal s) : Inv hal s.clearCurDevice :=
  ⟨fun _ hne => absurd rfl hne, h.off, h.routed⟩

theorem Inv.doRouting (hdistinct : hal.snd.Distinct) (h : Inv hal s) (input : Option (BitVec 32)) :
    Inv hal (doRouting hal s input) := by
  have hmic := h.selectMic input
  unfold Routing.doRouting
  dsimp only
  split
  · exact hmic
  · exact routeTo_inv hmic.current (fun hoff => .inl (hmic.off hoff))
      fun hoff hne => newSndDevice_not_fm hdistinct hoff hne

/-- The route of the output behind a change of FM. -/
theorem doRouting_inv (hdistinct : hal.snd.Distinct)
    (hcurrent : isFmSndDevice hal.snd s.mCurSndDevice = true → s.mCurSndDevice ≠ -1 → s.pins = .fm)
    (hback : givesBack hal s = true) : Inv hal (doRouting hal s none) :=
  routeTo_inv hcurrent (givesBack_cases hback)
    fun hoff hne => newSndDevice_not_fm hdistinct hoff hne

/-- A route that leaves `mCurSndDevice`, as `setMicMute` makes it. -/
theorem Inv.doAudioRouteOrMute (h : Inv hal s) (device : Int) :
    Inv hal (doAudioRouteOrMute hal s device) := by
  obtain ⟨c, hroute⟩ := doAudioRouteOrMute_eq hal s device
  have hpins : switchedPins hal s device = s.pins ∨
      s.mFmRadioEnabled = true ∧ switchedPins hal s device = .fm := by
    unfold switchedPins
    split
    · rename_i hon
      split
      · exact .inr ⟨hon, rfl⟩
      · exact .inl rfl
    · rename_i hoff
      split
      · exact .inl (h.off (by simpa using hoff)).symm
      · exact .inl rfl
  rw [hroute]
  rcases hpins with hkept | ⟨hon, hfm⟩
  · rw [hkept]
    exact ⟨h.current, h.off, h.routed⟩
  · rw [hfm]
    exact ⟨fun _ _ => rfl, fun hoff => absurd (hon.symm.trans hoff) nofun, fun _ _ _ => rfl⟩

theorem Inv.setMicMute (h : Inv hal s) (state : Bool) : Inv hal (setMicMute hal s state) := by
  unfold Routing.setMicMute
  split
  · have hmute : Inv hal { s with mMicMute := state } := ⟨h.current, h.off, h.routed⟩
    exact hmute.doAudioRouteOrMute hal.snd.current
  · exact h

theorem Inv.btNameKey (hdistinct : hal.snd.Distinct) (h : Inv hal s) (name : Option Nat) :
    Inv hal (btNameKey hal s name) := by
  unfold Routing.btNameKey
  split
  · exact h.doRouting hdistinct none
  · exact h

theorem Inv.dualMicKey (hdistinct : hal.snd.Distinct) (h : Inv hal s) (dual : Option Bool) :
    Inv hal (dualMicKey hal s dual) := by
  cases dual with
  | none => exact h
  | some on =>
    have hon : Inv hal { s with mDualMicEnabled := on } := ⟨h.current, h.off, h.routed⟩
    exact hon.doRouting hdistinct none

theorem Inv.beforeFm (hdistinct : hal.snd.Distinct) (h : Inv hal s) (p : Params) :
    Inv hal (beforeFm hal s p).1 := by
  have hkeys := (h.btNameKey hdistinct p.btHeadsetName).dualMicKey hdistinct p.dualMic
  unfold Routing.beforeFm
  dsimp only
  split
  · exact ⟨hkeys.current, hkeys.off, hkeys.routed⟩
  · exact hkeys

theorem fmKeys_eq (s : State) (p : Params) :
    ∃ on, fmKeys s p = { s with mFmRadioEnabled := on } := by
  unfold fmKeys
  dsimp only
  split
  · exact ⟨false, by split <;> rfl⟩
  · split
    · exact ⟨true, rfl⟩
    · exact ⟨s.mFmRadioEnabled, rfl⟩

/-- FM was off before the keys, so that the pins are back already. -/
theorem givesBack_fmKeys (hpins : s.pins = .btsco) (p : Params) :
    givesBack hal (fmKeys s p) = true := by
  obtain ⟨on, hkeys⟩ := fmKeys_eq s p
  rw [hkeys]
  simp [givesBack, hpins]

theorem Inv.setParameters (hdistinct : hal.snd.Distinct) (h : Inv hal s) {p : Params}
    (husual : usualParams hal s p = true) : Inv hal (setParameters hal s (some p)) := by
  have hbefore := h.beforeFm hdistinct p
  unfold Routing.setParameters
  dsimp only
  split
  · rename_i hgoes
    have hback : givesBack hal (fmKeys (Routing.beforeFm hal s p).1 p) = true := by
      cases hfm : (Routing.beforeFm hal s p).1.mFmRadioEnabled with
      | true => simpa [usualParams, hgoes, hfm] using husual
      | false => exact givesBack_fmKeys (hbefore.off hfm) p
    refine doRouting_inv hdistinct ?_ hback
    obtain ⟨on, hkeys⟩ := fmKeys_eq (Routing.beforeFm hal s p).1 p
    rw [hkeys]
    exact hbefore.current
  · exact hbefore

theorem step_inv (hdistinct : hal.snd.Distinct) {a : Act} (h : Inv hal s)
    (husual : usual hal s a = true) (hs : step hal s a = some s') : Inv hal s' := by
  cases a with
  | setParameters p =>
    cases hs
    cases p with
    | none => exact h
    | some p => exact h.setParameters hdistinct husual
  | setMode mode accepted =>
    cases hs
    split
    · have hmode : Inv hal { s with mMode := mode } := ⟨h.current, h.off, h.routed⟩
      exact hmode.clearCurDevice
    · exact h
  | setMicMute state =>
    cases hs
    exact h.setMicMute state
  | checkMicMute =>
    cases hs
    unfold checkMicMute
    split
    · exact h.setMicMute true
    · exact h
  | openOutputStream devices =>
    obtain ⟨-, hs⟩ := Option.ite_none_right_eq_some.mp hs
    cases hs
    exact ⟨h.current, h.off, h.routed⟩
  | closeOutputStream =>
    cases hs
    exact ⟨h.current, h.off, h.routed⟩
  | outSetParameters routing p =>
    obtain ⟨-, hs⟩ := Option.ite_none_left_eq_some.mp hs
    cases hs
    have hdevices : Inv hal { s with mOutput := some routing } := ⟨h.current, h.off, h.routed⟩
    exact (hdevices.setParameters hdistinct husual).doRouting hdistinct none
  | startInput inputDevice =>
    cases hs
    exact h.clearCurDevice.doRouting hdistinct (some inputDevice)
  | inSetParameters routing =>
    cases hs
    split
    · exact h.doRouting hdistinct (some routing)
    · exact h
  | standbyInput =>
    cases hs
    exact h.clearCurDevice.doRouting hdistinct none

theorem start_inv (hal : Hal) : Inv hal (start hal) :=
  ⟨fun _ hne => absurd rfl hne, fun _ => rfl, nofun⟩

end Steps

/-- **The pins follow FM.** In every run in which FM is switched off only while an FM device is the
    current one, they are in BT mode while FM is off, and in FM mode while the device that was
    routed last is an FM device. -/
theorem pins_follow_fm {hal : Hal} (hdistinct : hal.snd.Distinct) {s : State}
    (h : Reach (step hal) (fun s a => usual hal s a = true) (start hal) s) :
    (s.mFmRadioEnabled = false → s.pins = .btsco) ∧
      ∀ d, s.routed = some d → isFmSndDevice hal.snd d = true → s.pins = .fm := by
  have hinv : Inv hal s :=
    h.inv (start_inv hal) fun _ _ _ hs husual hstep => step_inv hdistinct hs husual hstep
  exact ⟨hinv.off, hinv.routed⟩

/-- Endpoints with the FM devices of the Y210, and the bits of `AudioSystem`. -/
def y210 : Hal where
  snd :=
    { current := 256, handset := 0, speaker := 1, bt := 3, headset := 2, inSSadcOutHandset := 14
      inSSadcOutSpeakerPhone := 15, ttyHeadset := 8, ttyHco := 9, ttyVco := 10, carkit := -1
      fmSpeaker := 27, fmHeadset := 26, fmAnalogHeadset := 35, fmAnalogSpeaker := 30 }
  bits :=
    { outSpeaker := 0x2, outWiredHeadset := 0x4, outWiredHeadphone := 0x8, outBluetoothSco := 0x10
      outBluetoothScoHeadset := 0x20, outBluetoothScoCarkit := 0x40
      inBluetoothScoHeadset := 0x80000, inWiredHeadset := 0x100000, inBuiltinMic := 0x40000
      inVoiceCall := 0x400000 }
  mFmIsAnalog := false
  modeNormal := 0
  modeInCall := 2
  isInCall mode := mode == 2

def noKeys : Params :=
  { btHeadsetName := none, dualMic := none, ttyMode := none, fmOn := false, fmOff := false }

def fmOn : Act := .setParameters (some { noKeys with fmOn := true })

def fmOff : Act := .setParameters (some { noKeys with fmOff := true })

/-- FM in the headset, a recording in between, and the same without FM. -/
theorem pins_follow_fm_recording :
    ∃ s1 s2, Reach (step y210) Always (start y210) s1 ∧ Reach (step y210) Always (start y210) s2 ∧
      (s1.routed = some 26 ∧ s1.pins = .fm) ∧ s2.routed = some 2 ∧ s2.pins = .btsco := by
  have hdistinct : y210.snd.Distinct := by decide
  have hon : runTest (step y210) (usual y210) (start y210)
      [.openOutputStream 0x4, fmOn, .startInput 0x40000, .standbyInput]
      (fun s => s.routed == some 26) = true := by decide
  have hoff : runTest (step y210) (usual y210) (start y210)
      [.openOutputStream 0x4, fmOn, .startInput 0x40000, .standbyInput, fmOff]
      (fun s => s.routed == some 2 && !s.mFmRadioEnabled) = true := by decide
  obtain ⟨s1, hs1, hp1⟩ := reach_of_runTest hon
  obtain ⟨s2, hs2, hp2⟩ := reach_of_runTest hoff
  have hr1 : s1.routed = some 26 := by simpa using hp1
  have hr2 : s2.routed = some 2 ∧ s2.mFmRadioEnabled = false := by simpa using hp2
  exact ⟨s1, s2, hs1.always, hs2.always,
    ⟨hr1, (pins_follow_fm hdistinct hs1).2 26 hr1 (by decide)⟩,
    hr2.1, (pins_follow_fm hdistinct hs2).1 hr2.2⟩

/-! ## 8. FM switched off from elsewhere -/

section Unusual

variable {hal : Hal} {s s' : State}

theorem not_givesBack (hback : givesBack hal s = false) :
    s.mFmRadioEnabled = false ∧ s.pins = .fm := by
  cases hpins : s.pins <;> simp_all [givesBack]

/-- A route that does not give the pins back gives them back at no later route either. -/
theorem doRouting_keeps (hdistinct : hal.snd.Distinct) (hback : givesBack hal s = false) :
    givesBack hal (doRouting hal s none) = false := by
  obtain ⟨hoff, hpins⟩ := not_givesBack hback
  show givesBack hal (routeTo hal s (newSndDevice hal s none)) = false
  by_cases hnone : newSndDevice hal s none = -1
  · rw [routeTo, if_pos hnone]
    exact hback
  · have hcurrent : isFmSndDevice hal.snd s.mCurSndDevice = false := by
      simpa [givesBack, hoff, hpins, hnone] using hback
    have hdevice := newSndDevice_not_fm hdistinct hoff hnone
    rw [routeTo, if_neg hnone]
    split
    · obtain ⟨c, hroute⟩ := doAudioRouteOrMute_eq hal s (newSndDevice hal s none)
      have hkept : switchedPins hal s (newSndDevice hal s none) = .fm := by
        simp [switchedPins, hoff, hcurrent, hpins]
      rw [hroute, hkept]
      simp [givesBack, hoff, hdevice]
    · exact hback

/-- **Every other way of switching FM off** leaves the pins in FM mode. -/
theorem unusual_keeps_pins (hdistinct : hal.snd.Distinct) {a : Act}
    (hunusual : usual hal s a = false) (hs : step hal s a = some s') :
    s'.mFmRadioEnabled = false ∧ s'.pins = .fm := by
  have hparams : ∀ s p, usualParams hal s p = false →
      givesBack hal (setParameters hal s (some p)) = false := by
    intro s p h
    obtain ⟨⟨hgoes, -⟩, hback⟩ : ((beforeFm hal s p).2 = true ∧
        (beforeFm hal s p).1.mFmRadioEnabled = true) ∧
        givesBack hal (fmKeys (beforeFm hal s p).1 p) = false := by
      simpa [usualParams] using h
    rw [setParameters, if_pos hgoes]
    exact doRouting_keeps hdistinct hback
  cases a with
  | setParameters p =>
    cases hs
    cases p with
    | none => exact absurd hunusual nofun
    | some p => exact not_givesBack (hparams s p hunusual)
  | outSetParameters routing p =>
    obtain ⟨-, hs⟩ := Option.ite_none_left_eq_some.mp hs
    cases hs
    exact not_givesBack (doRouting_keeps hdistinct (hparams _ p hunusual))
  | _ => exact absurd hunusual nofun

end Unusual

/-- FM is off, the headset is routed, and the pins are in FM mode. -/
def State.kept (s : State) : Bool :=
  !s.mFmRadioEnabled && s.routed == some y210.snd.headset && s.pins == .fm

/-- **FM off, and the pins in FM mode**: behind a change of the mode, and in a recording. -/
theorem pins_kept_by_fm :
    y210.snd.Distinct ∧
    (∃ s, Reach (step y210) Always (start y210) s ∧ s.mMode = 1 ∧ s.kept = true) ∧
    ∃ s, Reach (step y210) Always (start y210) s ∧ s.mMode = 0 ∧ s.kept = true := by
  have hmode : runTest (step y210) (fun _ _ => true) (start y210)
      [.openOutputStream 0x4, fmOn, .setMode 1 true, fmOff]
      (fun s => decide (s.mMode = 1 ∧ s.kept = true)) = true := by decide
  have hinput : runTest (step y210) (fun _ _ => true) (start y210)
      [.openOutputStream 0x4, fmOn, .startInput 0x40000, fmOff]
      (fun s => decide (s.mMode = 0 ∧ s.kept = true)) = true := by decide
  obtain ⟨s1, hs1, hp1⟩ := reach_of_runTest hmode
  obtain ⟨s2, hs2, hp2⟩ := reach_of_runTest hinput
  exact ⟨by decide, ⟨s1, hs1.always, of_decide_eq_true hp1⟩, s2, hs2.always, of_decide_eq_true hp2⟩

end Y210.Audio.Routing

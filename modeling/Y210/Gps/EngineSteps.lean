/-
  File:      Y210/Gps/EngineSteps.lean
  Subject:   THE STEPS OF THE ENGINE, ONE BY ONE.

  What a step can do is said once: `Work` for the worker, by the place it stands at, and `Step` for
  anybody. Each constructor has the state it leads to in full, so that an invariant is a case
  analysis and nothing is unfolded again.

  * `Work`, `work_cases` -- the worker;
  * `Step`, `step_cases` -- the machine.
-/
import Y210.Gps.Engine

namespace Y210.Gps.Engine

open Y210.Gps.SyncCall (EventMask)

/-! ## 1. Signals -/

/-- What a signal does to the worker. -/
def WorkerPc.signalled (pc : WorkerPc) : WorkerPc := if pc = .waiting then .woken else pc

theorem signal_eq (s : State) : s.signal = s.at s.pc.signalled := by
  unfold State.signal WorkerPc.signalled
  split <;> rfl

theorem post_eq (s : State) (flag : Flags) :
    s.post flag = (s.raise flag).at s.pc.signalled := signal_eq _

/-! ## 2. Fields -/

section Fields

variable (s : State) (pc : WorkerPc) (flag : Flags)

@[simp] theorem at_pc : (s.at pc).pc = pc := rfl
@[simp] theorem at_data : (s.at pc).data = s.data := rfl
@[simp] theorem at_locals : (s.at pc).locals = s.locals := rfl

@[simp] theorem raise_data : (s.raise flag).data =
    { s.data with deferredActionFlags := s.data.deferredActionFlags ||| flag } := rfl

@[simp] theorem post_data : (s.post flag).data = (s.raise flag).data := by rw [post_eq]; rfl
@[simp] theorem post_pc : (s.post flag).pc = s.pc.signalled := by rw [post_eq]; rfl
@[simp] theorem post_log : (s.post flag).log = s.log := by rw [post_eq]; rfl
@[simp] theorem post_locals : (s.post flag).locals = s.locals := by rw [post_eq]; rfl
@[simp] theorem post_calls : (s.post flag).calls = s.calls := by rw [post_eq]; rfl

variable (passes : Bool) (c : Call) (k : Nat) (next : Option Call)

@[simp] theorem call_data : (s.call passes c).data = s.data := by cases passes <;> rfl
@[simp] theorem call_pc : (s.call passes c).pc = s.pc := by cases passes <;> rfl
@[simp] theorem call_log : (s.call passes c).log = s.log := by cases passes <;> rfl
@[simp] theorem call_locals : (s.call passes c).locals = s.locals := by cases passes <;> rfl
@[simp] theorem call_wakeLock : (s.call passes c).wakeLock = s.wakeLock := by cases passes <;> rfl
@[simp] theorem call_calls :
    (s.call passes c).calls = if passes then s.calls ++ [c] else s.calls := by
  cases passes <;> rfl

@[simp] theorem resume_data : (s.resume k next).data = s.data := by cases next <;> rfl
@[simp] theorem resume_pc : (s.resume k next).pc = s.pc := by cases next <;> rfl
@[simp] theorem resume_log : (s.resume k next).log = s.log := by cases next <;> rfl
@[simp] theorem resume_locals : (s.resume k next).locals = s.locals := by cases next <;> rfl
@[simp] theorem resume_wakeLock : (s.resume k next).wakeLock = s.wakeLock := by cases next <;> rfl

end Fields

/-! ## 3. The worker -/

/-- The worker comes to its critical section behind the wait, with or without having waited. -/
inductive Comes (s : State) : State → Prop where
  | again (hpc : s.pc = .top) (hflags : s.data.deferredActionFlags ≠ 0) : Comes s s
  | woken (hpc : s.pc = .woken) : Comes s { s with wakeLock := true }

/-- **A step of the worker**, by where it stands. -/
inductive Work (s : State) : State → Prop where
  | sleeps (hpc : s.pc = .top) (hflags : s.data.deferredActionFlags = 0) :
      Work s { s with wakeLock := false, pc := .waiting }
  | quits {s1 : State} (hcomes : Comes s s1)
      (hquit : Flags.has s.data.deferredActionFlags actionQuit = true) : Work s (s1.at .exiting)
  | takes {s1 : State} (hcomes : Comes s s1)
      (hquit : Flags.has s.data.deferredActionFlags actionQuit = false) : Work s (copyOut s1)
  | processes (e : Event) (hpc : s.pc = .event) (he : s.locals.event = some e) :
      Work s ((s.say (.processed e :: reportFix s.data e)).at (.status e))
  | noEvent (hpc : s.pc = .event) (he : s.locals.event = none) : Work s (s.at .aiding)
  | status (e : Event) (hpc : s.pc = .status e) (he : has e.mask statusReport = true) :
      Work s (((s.put (reportStatus s.data e.payload.status).1).say
        (reportStatus s.data e.payload.status).2).at (.mute e))
  | noStatus (e : Event) (hpc : s.pc = .status e) (he : has e.mask statusReport = false) :
      Work s (s.at (.nmea e))
  | mute (e : Event) (hpc : s.pc = .mute e) :
      Work s ((s.put (muteSession s.data)).at (.statusSignal e))
  | posts (e : Event) (hpc : s.pc = .statusSignal e) (hidle : s.data.idleWork = true) :
      Work s ((s.raise actionDeleteAiding).at (.nmea e))
  | noPost (e : Event) (hpc : s.pc = .statusSignal e) (hidle : s.data.idleWork = false) :
      Work s (s.at (.nmea e))
  | nmea (e : Event) (hpc : s.pc = .nmea e) :
      Work s (((s.put (reportNmea s.data e).1).say (reportNmea s.data e).2).at (.conn e))
  | conn (e : Event) (hpc : s.pc = .conn e) (he : has e.mask locationServerRequest = true) :
      Work s (((s.put (processConnRequest s.data e.payload.server)).raise actionAgpsStatus).at
        (.ni e))
  | noConn (e : Event) (hpc : s.pc = .conn e) (he : has e.mask locationServerRequest = false) :
      Work s (s.at (.ni e))
  | ni (e : Event) (hpc : s.pc = .ni e) : Work s ((s.say [.niCallback e]).at .aiding)
  | aiding (hpc : s.pc = .aiding) (hoff : s.locals.engineStatus ≠ .engineOn)
      (hasks : s.locals.aidingData ≠ 0) :
      Work s (s.at (.aidingClear (assistType s.data.aidingDataForDeletion)))
  | noAiding (hpc : s.pc = .aiding)
      (hnot : ¬ (s.locals.engineStatus ≠ .engineOn ∧ s.locals.aidingData ≠ 0)) :
      Work s (s.at .xtra)
  | clears (type : AssistType) (hpc : s.pc = .aidingClear type) :
      Work s ((s.put { s.data with aidingDataForDeletion := 0 }).at (.aidingIoctl type))
  | deletes (type : AssistType) (hpc : s.pc = .aidingIoctl type) :
      Work s ((s.say [.deleteAssistData type]).at .aidingDone)
  | clearsAgain (hpc : s.pc = .aidingDone) :
      Work s ((s.put { s.data with aidingDataForDeletion := 0 }).at .xtra)
  | xtra (hpc : s.pc = .xtra) (hoff : s.data.engineStatus ≠ .engineOn)
      (hbuf : s.data.xtraDataForInjection.isSome = true) : Work s (s.at .xtraTake)
  | noXtra (hpc : s.pc = .xtra)
      (hnot : ¬ (s.data.engineStatus ≠ .engineOn ∧ s.data.xtraDataForInjection.isSome = true)) :
      Work s (s.at .dataConn)
  | xtraTake (hpc : s.pc = .xtraTake) :
      Work s ((s.put { s.data with xtraDataForInjection := none }).at
        (.xtraInject s.data.xtraDataForInjection))
  | xtraInject (data : Option (List UInt8)) (hpc : s.pc = .xtraInject data) :
      Work s ((s.say (data.toList.map .injectXtra)).at .dataConn)
  | opened (hpc : s.pc = .dataConn)
      (hflag : Flags.has s.locals.flags actionAgpsDataSuccess = true) :
      Work s ((s.say [.serverOpenStatus s.data.connHandle true s.data.apnName]).at (.dataSet true))
  | closed (hpc : s.pc = .dataConn)
      (hnot : Flags.has s.locals.flags actionAgpsDataSuccess = false)
      (hflag : Flags.has s.locals.flags actionAgpsDataClosed = true) :
      Work s ((s.say [.serverCloseStatus s.data.connHandle true]).at .stop)
  | openFailed (hpc : s.pc = .dataConn)
      (hnot : Flags.has s.locals.flags actionAgpsDataSuccess = false)
      (hnot' : Flags.has s.locals.flags actionAgpsDataClosed = false)
      (hflag : Flags.has s.locals.flags actionAgpsDataFailed = true)
      (hon : s.data.dataConnectionIsOn = true) :
      Work s ((s.say [.serverOpenStatus s.data.connHandle false s.data.apnName]).at
        (.dataSet false))
  | closeFailed (hpc : s.pc = .dataConn)
      (hnot : Flags.has s.locals.flags actionAgpsDataSuccess = false)
      (hnot' : Flags.has s.locals.flags actionAgpsDataClosed = false)
      (hflag : Flags.has s.locals.flags actionAgpsDataFailed = true)
      (hon : s.data.dataConnectionIsOn = false) :
      Work s ((s.say [.serverCloseStatus s.data.connHandle false]).at .dataOff)
  | noReply (hpc : s.pc = .dataConn)
      (hnot : Flags.has s.locals.flags actionAgpsDataSuccess = false)
      (hnot' : Flags.has s.locals.flags actionAgpsDataClosed = false)
      (hnot'' : Flags.has s.locals.flags actionAgpsDataFailed = false) : Work s (s.at .atl)
  | dataSet (success : Bool) (hpc : s.pc = .dataSet success) :
      Work s ((s.put { s.data with dataConnectionIsOn := success }).at
        (if success then .stop else .dataOff))
  | dataOff (hpc : s.pc = .dataOff) :
      Work s ((s.put { s.data with dataConnectionIsOn := false }).at .stop)
  | stop (hpc : s.pc = .stop) :
      Work s (((s.put { s.data with agpsRequestPending := false }).say
        (if s.data.stopRequestPending then [.stopFix] else [])).at .atl)
  | atl (hpc : s.pc = .atl) :
      Work s
        ((s.say (if s.data.agpsStatusCb then s.locals.status.toList.map .agpsStatus else [])).at
          .top)
  | exits (hpc : s.pc = .exiting) :
      Work s { s with wakeLock := false, thread := false, pc := .done }

section Cases

variable {s s' : State}

theorem comes_take {s1 : State} (h : Comes s s1) : Work s (take s1) := by
  have hdata : s1.data = s.data := by cases h <;> rfl
  unfold take
  rw [hdata]
  cases hq : Flags.has s.data.deferredActionFlags actionQuit with
  | true => exact .quits h hq
  | false => exact .takes h hq

theorem dataConn_cases (hpc : s.pc = .dataConn) : Work s (dataConn s) := by
  unfold dataConn
  dsimp only
  cases ho : Flags.has s.locals.flags actionAgpsDataSuccess with
  | true => exact .opened hpc ho
  | false =>
      cases hc : Flags.has s.locals.flags actionAgpsDataClosed with
      | true => exact .closed hpc ho hc
      | false =>
          cases hf : Flags.has s.locals.flags actionAgpsDataFailed with
          | true =>
              cases hon : s.data.dataConnectionIsOn with
              | true => exact .openFailed hpc ho hc hf hon
              | false => exact .closeFailed hpc ho hc hf hon
          | false => exact .noReply hpc ho hc hf

/-- **What the worker can do.** -/
theorem work_cases (hs : work s = some s') : Work s s' := by
  unfold work at hs
  cases hpc : s.pc with
  | waiting | done => rw [hpc] at hs; cases hs
  | top =>
      rw [hpc] at hs
      dsimp only at hs
      split at hs <;> cases hs
      · rename_i hflags
        exact .sleeps hpc hflags
      · rename_i hflags
        exact comes_take (.again hpc hflags)
  | woken =>
      have htake := comes_take (.woken hpc)
      rw [hpc] at hs htake
      cases hs
      exact htake
  | event =>
      rw [hpc] at hs
      dsimp only at hs
      split at hs <;> cases hs
      · rename_i e he
        exact .processes e hpc he
      · rename_i he
        exact .noEvent hpc he
  | status e =>
      rw [hpc] at hs
      dsimp only at hs
      split at hs <;> cases hs
      · rename_i he
        exact .status e hpc he
      · rename_i he
        exact .noStatus e hpc (Bool.not_eq_true _ ▸ he)
  | mute e => rw [hpc] at hs; cases hs; exact .mute e hpc
  | statusSignal e =>
      rw [hpc] at hs
      cases hs
      split
      · rename_i hidle
        rw [post_eq]
        exact .posts e hpc hidle
      · rename_i hidle
        exact .noPost e hpc (Bool.not_eq_true _ ▸ hidle)
  | nmea e => rw [hpc] at hs; cases hs; exact .nmea e hpc
  | conn e =>
      rw [hpc] at hs
      dsimp only at hs
      split at hs <;> cases hs
      · rename_i he
        rw [post_eq]
        exact .conn e hpc he
      · rename_i he
        exact .noConn e hpc (Bool.not_eq_true _ ▸ he)
  | ni e => rw [hpc] at hs; cases hs; exact .ni e hpc
  | aiding =>
      rw [hpc] at hs
      dsimp only at hs
      split at hs <;> cases hs
      · rename_i hasks
        exact .aiding hpc hasks.1 hasks.2
      · rename_i hnot
        exact .noAiding hpc hnot
  | aidingClear type => rw [hpc] at hs; cases hs; exact .clears type hpc
  | aidingIoctl type => rw [hpc] at hs; cases hs; exact .deletes type hpc
  | aidingDone => rw [hpc] at hs; cases hs; exact .clearsAgain hpc
  | xtra =>
      rw [hpc] at hs
      dsimp only at hs
      split at hs <;> cases hs
      · rename_i hbuf
        exact .xtra hpc hbuf.1 hbuf.2
      · rename_i hnot
        exact .noXtra hpc hnot
  | xtraTake => rw [hpc] at hs; cases hs; exact .xtraTake hpc
  | xtraInject data => rw [hpc] at hs; cases hs; exact .xtraInject data hpc
  | dataConn => rw [hpc] at hs; cases hs; exact dataConn_cases hpc
  | dataSet success => rw [hpc] at hs; cases hs; exact .dataSet success hpc
  | dataOff => rw [hpc] at hs; cases hs; exact .dataOff hpc
  | stop => rw [hpc] at hs; cases hs; exact .stop hpc
  | atl => rw [hpc] at hs; cases hs; exact .atl hpc
  | exiting => rw [hpc] at hs; cases hs; exact .exits hpc

end Cases

/-! ## 4. Anybody -/

/-- The call an action begins, and whether it passes the checks at its head. -/
def Act.opens (d : Data) : Act → Option (Bool × Call)
  | .event h mask payload => some (d.accepts h mask, .event ⟨mask, payload⟩)
  | .deleteAidingData f => some (d.inited, .deleteAidingData f)
  | .start => some (d.inited, .start)
  | .stop => some (d.inited, .stop false)
  | .muteOneSession => some (d.inited, .muteOneSession)
  | .dataConnOpen apn => some (d.inited, .dataConnOpen apn)
  | .dataConnClosed => some (d.inited, .dataConnClosed)
  | .dataConnFailed => some (d.inited, .dataConnFailed)
  | .cleanup => some (true, .deinit)
  | _ => none

/-- **A step of the machine.** -/
inductive Step (s : State) : Act → State → Prop where
  | opens (a : Act) (passes : Bool) (c : Call) (h : a.opens s.data = some (passes, c)) :
      Step s a (s.call passes c)
  | agpsInit : Step s .agpsInit (s.put { s.data with agpsStatusCb := true })
  | xtraInit : Step s .xtraInit (s.put { s.data with downloadRequestCb := true })
  | noData (malloc : Bool) : Step s (.injectXtraData [] malloc) s
  | buffers (data : List UInt8) (hne : data ≠ []) : Step s (.injectXtraData data true)
      ((s.put { s.data with xtraDataForInjection := some data }).call true .xtraTest)
  | noMemory (data : List UInt8) (hne : data ≠ []) : Step s (.injectXtraData data false)
      (s.call true .xtraTest)
  | proceeds (k : Nat) (ok : Bool) (c : Call) (hk : s.calls[k]? = some c) :
      Step s (.proceed k ok) ((proceed s ok c).1.resume k (proceed s ok c).2)
  | spurious (hpc : s.pc = .waiting) : Step s .spurious (s.at .woken)
  | works {s' : State} (h : Work s s') : Step s .work s'

/-- **What a step can do.** -/
theorem step_cases {s s' : State} {a : Act} (hs : step s a = some s') : Step s a s' := by
  cases a with
  | event h mask payload => cases hs; exact .opens _ _ _ rfl
  | deleteAidingData f => cases hs; exact .opens _ _ _ rfl
  | dataConnOpen apn => cases hs; exact .opens _ _ _ rfl
  | start | stop | muteOneSession | dataConnClosed | dataConnFailed | cleanup =>
      cases hs
      exact .opens _ _ _ rfl
  | agpsInit => cases hs; exact .agpsInit
  | xtraInit => cases hs; exact .xtraInit
  | injectXtraData data malloc =>
      simp only [step] at hs
      split at hs
      · rename_i hnil
        subst hnil
        cases hs
        exact .noData malloc
      · rename_i hne
        cases malloc with
        | true => cases hs; exact .buffers data hne
        | false => cases hs; exact .noMemory data hne
  | proceed k ok =>
      simp only [step] at hs
      split at hs <;> cases hs
      rename_i c hk
      exact .proceeds k ok c hk
  | spurious =>
      simp only [step] at hs
      split at hs <;> cases hs
      rename_i hpc
      exact .spurious hpc
  | work => exact .works (work_cases hs)

end Y210.Gps.Engine

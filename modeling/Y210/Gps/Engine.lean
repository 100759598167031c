/-
  File:      Y210/Gps/Engine.lean
  Subject:   THE LOCATION ENGINE (loc_eng.cpp, loc_eng_xtra.cpp): `loc_eng_data`, the calls and
             modem events that change it, and the deferred-action thread that works off what they
             leave for it.

  The machine starts when `loc_eng_init` has returned and follows one life of the worker, up to its
  final release of the wake lock. A step is one critical section of `deferred_action_mutex` or of
  another lock, or one access of a shared field made without one; the head of
  `loc_eng_report_status` and the tail of `loc_eng_stop`, which take no lock, are one step each. The
  worker is the only thread that waits on `deferred_action_cond`, so a signal wakes it or is lost.

  Any number of calls may be under way beside the worker. A call that has passed the checks at its
  head (`INIT_CHECK`, made without a lock) is a `Call` in `calls` and goes on step by step.

  An ioctl and a call into the framework are entries of the `log`, in the order they are made; what
  they return does not come back into the engine's state. `loc_stop_fix` and `loc_start_fix` take
  their result from the action.

  * `reportStatus`, `inform` -- engine and session status as the framework is told them;
  * `work` -- one step of the worker;
  * `proceed` -- one step of a call;
  * `step` -- one step of anybody.
-/
import Y210.Gps.SyncCall

namespace Y210.Gps.Engine

open Y210.Gps.SyncCall (EventMask ioctlReport)

/-! ## 1. Events -/

/-- The `RPC_LOC_EVENT_` bits. -/
def parsedPositionReport : EventMask := 0x1
def satelliteReport : EventMask := 0x2
def nmea1HzReport : EventMask := 0x4
def assistanceDataRequest : EventMask := 0x20
def locationServerRequest : EventMask := 0x40
def statusReport : EventMask := 0x100

def has (mask bit : EventMask) : Bool := decide (mask &&& bit ≠ 0)

/-- `rpc_loc_status_event_s_type`. -/
inductive StatusReport where
  | engineState (on : Bool)
  | fixSessionState (begins : Bool)
  | other
  deriving DecidableEq, Repr

/-- `rpc_loc_assist_data_request_s_type`, by its `event`. -/
inductive AssistRequest where
  | predictedOrbits
  | time
  | other
  deriving DecidableEq, Repr

/-- `rpc_loc_server_request_s_type`: what is not an open request is read as a close request. -/
inductive ServerRequest where
  | openReq (connHandle : Int)
  | closeReq (connHandle : Int)
  deriving DecidableEq, Repr

/-- `rpc_loc_event_payload_u_type`: what each member of the union reads. `bytes` stands for the
    members that are only passed on. -/
structure Payload where
  bytes : Nat
  status : StatusReport
  assist : AssistRequest
  server : ServerRequest
  deriving DecidableEq, Repr

structure Event where
  mask : EventMask
  payload : Payload
  deriving DecidableEq, Repr

/-! ## 2. `loc_eng_data` -/

/-- `GpsStatusValue`. -/
inductive GpsStatus where
  | none
  | sessionBegin
  | sessionEnd
  | engineOn
  | engineOff
  deriving DecidableEq, Repr

/-- `AGpsStatusValue`, as far as the engine sets it. -/
inductive AgpsStatus where
  | requestDataConn
  | releaseDataConn
  deriving DecidableEq, Repr

/-- `loc_mute_session_e_type`. -/
inductive MuteSession where
  | none
  | wait
  | inSession
  deriving DecidableEq, Repr

/-- The bits of `deferred_action_flags`. -/
abbrev Flags := BitVec 32

def actionEvent : Flags := 0x01
def actionDeleteAiding : Flags := 0x02
def actionAgpsStatus : Flags := 0x04
def actionAgpsDataSuccess : Flags := 0x08
def actionAgpsDataClosed : Flags := 0x10
def actionAgpsDataFailed : Flags := 0x20
def actionQuit : Flags := 0x40

def Flags.has (flags bit : Flags) : Bool := decide (flags &&& bit ≠ 0)

/-- `GpsAidingData`. -/
abbrev AidingData := BitVec 16

/-- `GPS_DELETE_ALL`. -/
def deleteAll : AidingData := 0xFFFF

/-- The type in a `DELETE_ASSIST_DATA` ioctl. -/
inductive AssistType where
  | all
  | mask (f : AidingData)
  deriving DecidableEq, Repr

/-- `loc_eng_data`, with `loc_eng_inited` and the static variable of `loc_inform_gps_status`. A
    callback is there or not; `agpsStatus` is `none` when it is 0. -/
structure Data where
  inited : Bool
  clientHandle : Int
  clientOpened : Bool
  statusCb : Bool
  agpsStatusCb : Bool
  downloadRequestCb : Bool
  agpsStatus : Option AgpsStatus
  agpsRequestPending : Bool
  stopRequestPending : Bool
  requestPending : Bool
  xtraDataForInjection : Option (List UInt8)
  locEvent : EventMask
  locEventPayload : Payload
  navigating : Bool
  dataConnectionIsOn : Bool
  apnName : List Char
  connHandle : Int
  engineStatus : GpsStatus
  fixSessionStatus : GpsStatus
  aidingDataForDeletion : AidingData
  deferredActionFlags : Flags
  muteSessionState : MuteSession
  lastStatus : GpsStatus
  deriving DecidableEq

/-- What happens, as seen from outside: a modem event that is accepted, a deletion that is asked
    for, an event that is processed, a call into the framework, an ioctl or a call to the modem. -/
inductive Obs where
  | accepted (e : Event)
  | deletionAsked (f : AidingData)
  | processed (e : Event)
  | position (e : Event)
  | satellites (e : Event)
  | nmea (e : Event)
  | niCallback (e : Event)
  | gpsStatus (st : GpsStatus)
  | agpsStatus (st : AgpsStatus)
  | xtraDownload
  | deleteAssistData (type : AssistType)
  | injectXtra (data : List UInt8)
  | serverOpenStatus (connHandle : Int) (success : Bool) (apn : List Char)
  | serverCloseStatus (connHandle : Int) (success : Bool)
  | startFix
  | stopFix
  | close
  deriving DecidableEq

/-! ## 3. The functions of the engine -/

/-- `loc_inform_gps_status`: a session that was on is begun again after an "engine on". -/
def inform (d : Data) (st : GpsStatus) : Data × List Obs :=
  ({ d with lastStatus := st },
    if d.statusCb then
      .gpsStatus st ::
        (if st = .engineOn ∧ d.lastStatus = .sessionBegin then [.gpsStatus .sessionBegin] else [])
    else [])

/-- The status fields as `loc_eng_report_status` sets them. -/
def setStatus (d : Data) : StatusReport → Data
  | .engineState true => { d with engineStatus := .engineOn }
  | .engineState false => { d with engineStatus := .engineOff, fixSessionStatus := .sessionEnd }
  | .fixSessionState true =>
    { d with engineStatus := .engineOn, fixSessionStatus := .sessionBegin }
  | .fixSessionState false => d
  | .other => d

/-- `loc_eng_report_status` up to its first lock. -/
def reportStatus (d : Data) (report : StatusReport) : Data × List Obs :=
  let d1 := setStatus d report
  let engine :=
    if d1.fixSessionStatus ≠ .sessionBegin ∧ d.engineStatus ≠ d1.engineStatus then
      inform d1 d1.engineStatus
    else (d1, [])
  let session :=
    if d1.engineStatus ≠ .engineOff ∧ d.fixSessionStatus ≠ d1.fixSessionStatus then
      inform engine.1 d1.fixSessionStatus
    else (engine.1, [])
  (session.1, engine.2 ++ session.2)

/-- The section of `mute_session_lock` in `loc_eng_report_status`. -/
def muteSession (d : Data) : Data :=
  match d.engineStatus, d.muteSessionState with
  | .engineOn, .wait => { d with muteSessionState := .inSession }
  | .engineOff, .inSession => { d with muteSessionState := .none }
  | _, _ => d

/-- The position and satellite reports at the head of `loc_eng_process_loc_event`. -/
def reportFix (d : Data) (e : Event) : List Obs :=
  let muted := decide (d.muteSessionState = .inSession)
  (if has e.mask parsedPositionReport && !muted then [.position e] else []) ++
    if has e.mask satelliteReport && !muted then [.satellites e] else []

/-- The NMEA report and the XTRA request of `loc_eng_process_loc_event`. -/
def reportNmea (d : Data) (e : Event) : Data × List Obs :=
  let nmea := if has e.mask nmea1HzReport then [.nmea e] else []
  let pending := d.requestPending ||
    (has e.mask assistanceDataRequest && decide (e.payload.assist = .predictedOrbits))
  if pending && d.downloadRequestCb then
    ({ d with requestPending := false }, nmea ++ [.xtraDownload])
  else ({ d with requestPending := pending }, nmea)

/-- What `loc_eng_process_conn_request` writes. -/
def processConnRequest (d : Data) : ServerRequest → Data
  | .openReq h =>
    { d with agpsStatus := some .requestDataConn, connHandle := h, agpsRequestPending := true }
  | .closeReq h =>
    { d with agpsStatus := some .releaseDataConn, connHandle := h, agpsRequestPending := false }

/-- `loc_eng_set_apn`, which checks once more that the engine is up. -/
def setApn (d : Data) : Option (List Char) → Data
  | some apn =>
    if d.inited then { d with dataConnectionIsOn := true, apnName := apn.take 99 } else d
  | none => d

/-- The type `loc_eng_delete_aiding_data_action` puts in its ioctl. -/
def assistType (f : AidingData) : AssistType := if f = deleteAll then .all else .mask f

/-- What `loc_eng_stop` does once `loc_stop_fix` has returned. -/
def endSession (d : Data) : Data × List Obs :=
  let ended :=
    if d.fixSessionStatus ≠ .sessionEnd then
      let d1 := { d with fixSessionStatus := .sessionEnd }
      if d.engineStatus ≠ .engineOff then inform d1 .sessionEnd else (d1, [])
    else (d, [])
  ({ ended.1 with navigating := false }, ended.2)

/-! ## 4. The worker -/

/-- Where `loc_eng_deferred_action_thread` stands; a deletion or a buffer it has taken goes with the
    place, and so does the event it processes. -/
inductive WorkerPc where
  | top
  | waiting
  | woken
  | event
  | status (e : Event)
  | mute (e : Event)
  | statusSignal (e : Event)
  | nmea (e : Event)
  | conn (e : Event)
  | ni (e : Event)
  | aiding
  | aidingClear (type : AssistType)
  | aidingIoctl (type : AssistType)
  | aidingDone
  | xtra
  | xtraTake
  | xtraInject (data : Option (List UInt8))
  | dataConn
  | dataSet (success : Bool)
  | dataOff
  | stop
  | atl
  | exiting
  | done
  deriving DecidableEq

/-- What the worker copies before it releases the mutex; `event` is `none` when `loc_event` is 0. -/
structure Locals where
  event : Option Event
  flags : Flags
  engineStatus : GpsStatus
  aidingData : AidingData
  status : Option AgpsStatus
  deriving DecidableEq

/-- Where a call stands that is past the checks at its head. `stop`, `stopFix` and `stopped` are in
    `loc_eng_stop`, called by the framework or by `loc_eng_deinit` (`closing`); `deinit` to `quit`
    are in `loc_eng_cleanup`. -/
inductive Call where
  | event (e : Event)
  | deleteAidingData (f : AidingData)
  | start
  | started
  | stop (closing : Bool)
  | stopFix (closing : Bool)
  | stopped (closing : Bool)
  | muteOneSession
  | dataConnOpen (apn : Option (List Char))
  | dataConnClosed
  | dataConnFailed
  | xtraTest
  | xtraSignal
  | deinit
  | unset
  | close
  | down
  | quit
  deriving DecidableEq

/-- The engine, the wake lock, the worker, the calls under way, and the log. -/
structure State where
  data : Data
  wakeLock : Bool
  thread : Bool
  pc : WorkerPc
  locals : Locals
  calls : List Call
  log : List Obs
  deriving DecidableEq

/-- What `loc_eng_init` leaves, with the handle `loc_open` gave. -/
def init (clientHandle : Int) (statusCb : Bool) : State where
  data :=
    { inited := true, clientHandle := clientHandle, clientOpened := decide (0 ≤ clientHandle),
      statusCb := statusCb, agpsStatusCb := false, downloadRequestCb := false, agpsStatus := none,
      agpsRequestPending := false, stopRequestPending := false, requestPending := false,
      xtraDataForInjection := none, locEvent := 0,
      locEventPayload := ⟨0, .other, .other, .closeReq 0⟩, navigating := false,
      dataConnectionIsOn := false, apnName := [], connHandle := 0, engineStatus := .none,
      fixSessionStatus := .none, aidingDataForDeletion := 0, deferredActionFlags := 0,
      muteSessionState := .none, lastStatus := .none }
  wakeLock := false
  thread := true
  pc := .top
  locals := ⟨none, 0, .none, 0, none⟩
  calls := []
  log := []

def State.at (s : State) (pc : WorkerPc) : State := { s with pc := pc }

def State.say (s : State) (obs : List Obs) : State := { s with log := s.log ++ obs }

def State.put (s : State) (d : Data) : State := { s with data := d }

/-- `pthread_cond_signal` on `deferred_action_cond`. -/
def State.signal (s : State) : State := if s.pc = .waiting then s.at .woken else s

/-- The wake lock is taken and a flag set for the worker. -/
def State.raise (s : State) (flag : Flags) : State :=
  { s with
    wakeLock := true
    data := { s.data with deferredActionFlags := s.data.deferredActionFlags ||| flag } }

/-- A flag is set for the worker, and the worker signalled. -/
def State.post (s : State) (flag : Flags) : State := (s.raise flag).signal

/-- What the worker needs is copied, and taken, before it releases the mutex. -/
def copyOut (s : State) : State :=
  let d := s.data
  { s with
    locals :=
      ⟨if d.locEvent = 0 then none else some ⟨d.locEvent, d.locEventPayload⟩,
        d.deferredActionFlags, d.engineStatus, d.aidingDataForDeletion, d.agpsStatus⟩
    data := { d with locEvent := 0, deferredActionFlags := 0, agpsStatus := none }
    pc := .event }

/-- The worker's critical section behind the wait. -/
def take (s : State) : State :=
  if Flags.has s.data.deferredActionFlags actionQuit then s.at .exiting else copyOut s

/-- Something is left for the worker when the engine is off. -/
def Data.idleWork (d : Data) : Bool :=
  decide (d.engineStatus ≠ .engineOn) &&
    (decide (d.aidingDataForDeletion ≠ 0) || d.xtraDataForInjection.isSome)

/-- The replies of the connectivity manager, as the worker passes them on. -/
def dataConn (s : State) : State :=
  let d := s.data
  let flags := s.locals.flags
  if Flags.has flags actionAgpsDataSuccess then
    (s.say [.serverOpenStatus d.connHandle true d.apnName]).at (.dataSet true)
  else if Flags.has flags actionAgpsDataClosed then
    (s.say [.serverCloseStatus d.connHandle true]).at .stop
  else if Flags.has flags actionAgpsDataFailed then
    if d.dataConnectionIsOn then
      (s.say [.serverOpenStatus d.connHandle false d.apnName]).at (.dataSet false)
    else (s.say [.serverCloseStatus d.connHandle false]).at .dataOff
  else s.at .atl

/-- **One step of the worker.** -/
def work (s : State) : Option State :=
  let d := s.data
  match s.pc with
  | .top =>
    if d.deferredActionFlags = 0 then some { s with wakeLock := false, pc := .waiting }
    else some (take s)
  | .waiting => none
  | .woken => some (take { s with wakeLock := true })
  -- `loc_eng_process_loc_event`
  | .event =>
    match s.locals.event with
    | some e => some ((s.say (.processed e :: reportFix d e)).at (.status e))
    | none => some (s.at .aiding)
  | .status e =>
    if has e.mask statusReport then
      let r := reportStatus d e.payload.status
      some (((s.put r.1).say r.2).at (.mute e))
    else some (s.at (.nmea e))
  | .mute e => some ((s.put (muteSession d)).at (.statusSignal e))
  | .statusSignal e =>
    some ((if d.idleWork then s.post actionDeleteAiding else s).at (.nmea e))
  | .nmea e =>
    let r := reportNmea d e
    some (((s.put r.1).say r.2).at (.conn e))
  | .conn e =>
    if has e.mask locationServerRequest then
      some (((s.put (processConnRequest d e.payload.server)).post actionAgpsStatus).at (.ni e))
    else some (s.at (.ni e))
  | .ni e => some ((s.say [.niCallback e]).at .aiding)
  -- the deletion, decided by what was copied
  | .aiding =>
    if s.locals.engineStatus ≠ .engineOn ∧ s.locals.aidingData ≠ 0 then
      some (s.at (.aidingClear (assistType d.aidingDataForDeletion)))
    else some (s.at .xtra)
  | .aidingClear type =>
    some ((s.put { d with aidingDataForDeletion := 0 }).at (.aidingIoctl type))
  | .aidingIoctl type => some ((s.say [.deleteAssistData type]).at .aidingDone)
  | .aidingDone => some ((s.put { d with aidingDataForDeletion := 0 }).at .xtra)
  -- the XTRA buffer, decided by what is there now
  | .xtra =>
    if d.engineStatus ≠ .engineOn ∧ d.xtraDataForInjection.isSome then some (s.at .xtraTake)
    else some (s.at .dataConn)
  | .xtraTake =>
    some ((s.put { d with xtraDataForInjection := none }).at (.xtraInject d.xtraDataForInjection))
  | .xtraInject data => some ((s.say (data.toList.map .injectXtra)).at .dataConn)
  | .dataConn => some (dataConn s)
  | .dataSet success =>
    some ((s.put { d with dataConnectionIsOn := success }).at (if success then .stop else .dataOff))
  | .dataOff => some ((s.put { d with dataConnectionIsOn := false }).at .stop)
  | .stop =>
    some (((s.put { d with agpsRequestPending := false }).say
      (if d.stopRequestPending then [.stopFix] else [])).at .atl)
  | .atl =>
    some ((s.say (if d.agpsStatusCb then s.locals.status.toList.map .agpsStatus else [])).at .top)
  | .exiting => some { s with wakeLock := false, thread := false, pc := .done }
  | .done => none

/-! ## 5. Calls -/

/-- The checks at the head of `loc_event_cb`. -/
def Data.accepts (d : Data) (clientHandle : Int) (mask : EventMask) : Bool :=
  decide (mask ≠ ioctlReport) && d.inited && decide (clientHandle = d.clientHandle)

/-- What `loc_event_cb` does with an event that passed its checks. -/
def locEventCb (s : State) (e : Event) : State :=
  ((s.put { s.data with locEvent := e.mask, locEventPayload := e.payload }).say
    [.accepted e]).post actionEvent

/-- All aiding data is to be deleted, whatever was asked for. -/
def recordDeletion (s : State) (f : AidingData) : State :=
  if f ≠ 0 then
    (s.put { s.data with aidingDataForDeletion := deleteAll }).say [.deletionAsked f]
  else s

/-- `loc_eng_delete_aiding_data`. -/
def deleteAidingData (s : State) (f : AidingData) : State :=
  let s1 := recordDeletion s f
  if s1.data.engineStatus ≠ .engineOn ∧ s1.data.aidingDataForDeletion ≠ 0 then
    s1.post actionDeleteAiding
  else s1

/-- Where `loc_eng_stop` returns to. -/
def returns (closing : Bool) : Option Call := if closing then some .unset else none

/-- **One step of a call**, and where it stands then; `ok` is the result of an RPC it makes. -/
def proceed (s : State) (ok : Bool) : Call → State × Option Call
  | .event e => (locEventCb s e, none)
  | .deleteAidingData f => (deleteAidingData s f, none)
  | .start => (s.say [.startFix], if ok then some .started else none)
  | .started => (s.put { s.data with navigating := true }, none)
  | .stop closing =>
    if s.data.agpsRequestPending then
      (s.put { s.data with stopRequestPending := true }, returns closing)
    else (s, some (.stopFix closing))
  | .stopFix closing => (s.say [.stopFix], if ok then some (.stopped closing) else returns closing)
  | .stopped closing =>
    let r := endSession s.data
    ((s.put r.1).say r.2, returns closing)
  | .muteOneSession => (s.put { s.data with muteSessionState := .wait }, none)
  | .dataConnOpen apn => ((s.put (setApn s.data apn)).post actionAgpsDataSuccess, none)
  | .dataConnClosed => (s.post actionAgpsDataClosed, none)
  | .dataConnFailed => (s.post actionAgpsDataFailed, none)
  -- the tail of `qct_loc_eng_inject_xtra_data_proxy`, outside of any lock
  | .xtraTest => (s, if s.data.engineStatus ≠ .engineOn then some .xtraSignal else none)
  | .xtraSignal => (s.signal, none)
  -- `loc_eng_deinit`
  | .deinit =>
    (s, some (if s.data.inited then if s.data.navigating then .stop true else .close else .quit))
  | .unset => (s.put { s.data with navigating := false }, some .close)
  | .close =>
    (if s.data.clientOpened then (s.put { s.data with clientOpened := false }).say [.close] else s,
      some .down)
  | .down => (s.put { s.data with inited := false }, some .quit)
  -- what `loc_eng_cleanup` does about the worker
  | .quit => (if s.thread then s.post actionQuit else s, none)

/-! ## 6. Steps -/

inductive Act where
  | event (clientHandle : Int) (mask : EventMask) (payload : Payload)
  | deleteAidingData (f : AidingData)
  | start
  | stop
  | muteOneSession
  | dataConnOpen (apn : Option (List Char))
  | dataConnClosed
  | dataConnFailed
  | agpsInit
  | xtraInit
  | injectXtraData (data : List UInt8) (malloc : Bool)
  | cleanup
  | proceed (k : Nat) (ok : Bool)
  | spurious
  | work

/-- A call that passes its checks is under way. -/
def State.call (s : State) (passes : Bool) (c : Call) : State :=
  if passes then { s with calls := s.calls ++ [c] } else s

/-- The call `k` stands elsewhere, or has returned. -/
def State.resume (s : State) (k : Nat) : Option Call → State
  | some c => { s with calls := s.calls.set k c }
  | none => { s with calls := s.calls.eraseIdx k }

/-- **One step.** -/
def step (s : State) : Act → Option State
  | .event h mask payload => some (s.call (s.data.accepts h mask) (.event ⟨mask, payload⟩))
  | .deleteAidingData f => some (s.call s.data.inited (.deleteAidingData f))
  | .start => some (s.call s.data.inited .start)
  | .stop => some (s.call s.data.inited (.stop false))
  | .muteOneSession => some (s.call s.data.inited .muteOneSession)
  | .dataConnOpen apn => some (s.call s.data.inited (.dataConnOpen apn))
  | .dataConnClosed => some (s.call s.data.inited .dataConnClosed)
  | .dataConnFailed => some (s.call s.data.inited .dataConnFailed)
  | .agpsInit => some (s.put { s.data with agpsStatusCb := true })
  | .xtraInit => some (s.put { s.data with downloadRequestCb := true })
  | .injectXtraData data malloc =>
    if data = [] then some s
    else if malloc then
      some ((s.put { s.data with xtraDataForInjection := some data }).call true .xtraTest)
    else some (s.call true .xtraTest)
  | .cleanup => some (s.call true .deinit)
  | .proceed k ok =>
    match s.calls[k]? with
    | some c =>
      let r := proceed s ok c
      some (r.1.resume k r.2)
    | none => none
  | .spurious => if s.pc = .waiting then some (s.at .woken) else none
  | .work => work s

end Y210.Gps.Engine

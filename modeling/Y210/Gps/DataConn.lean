/-
  File:      Y210/Gps/DataConn.lean
  Subject:   THE SERVER CONNECTION: the modem asks for a data connection to be opened or closed, the
             connectivity manager answers, the worker tells the modem how it went.

  The answer is a flag and nothing more: which request it answers, and with which handle, the worker
  reads from `conn_handle` when it gets to it, and whether a failure concerns an open or a close
  request it reads from `data_connection_is_on`, which says how the last connection was left. So a
  first open request that fails is reported as a failed close.

  The history keeps the request that waits for its answer and the exchanges that were answered.

  * `Exchanges`, `Exchanges.after` -- the history, and what a step adds to it;
  * `inTurn` -- requests and answers take turns;
  * `apart` -- a request finds no answer waiting for the worker, and a failure finds
    `data_connection_is_on` as the worker is going to read it;
  * `ConnInv`, `conn_settles`, `answers_reach_the_modem`; `failed_open_reported_as_close` for what
    happens otherwise.
-/
import Y210.Gps.Mailbox
import Y210.Gps.Worker
import Y210.Lib.History

namespace Y210.Gps.Engine

open Y210.Lib

/-! ## 1. Requests, answers and statuses -/

def ServerRequest.handle : ServerRequest → Int
  | .openReq h => h
  | .closeReq h => h

def ServerRequest.isOpen : ServerRequest → Bool
  | .openReq _ => true
  | .closeReq _ => false

/-- `data_conn_open`, `data_conn_closed`, `data_conn_failed`. -/
inductive Answer where
  | opened
  | closed
  | failed
  deriving DecidableEq

def Answer.flag : Answer → Flags
  | .opened => actionAgpsDataSuccess
  | .closed => actionAgpsDataClosed
  | .failed => actionAgpsDataFailed

/-- The answer a call brings. -/
def Call.answer : Call → Option Answer
  | .dataConnOpen _ => some .opened
  | .dataConnClosed => some .closed
  | .dataConnFailed => some .failed
  | _ => none

/-- What can be answered to a request. -/
def ServerRequest.admits : ServerRequest → Answer → Bool
  | .openReq _, .opened | .openReq _, .failed | .closeReq _, .closed | .closeReq _, .failed => true
  | _, _ => false

/-- INFORM_SERVER_OPEN_STATUS (`isOpen`) or INFORM_SERVER_CLOSE_STATUS. -/
structure Status where
  isOpen : Bool
  handle : Int
  success : Bool
  deriving DecidableEq

def Obs.status : Obs → Option Status
  | .serverOpenStatus h ok _ => some ⟨true, h, ok⟩
  | .serverCloseStatus h ok => some ⟨false, h, ok⟩
  | _ => none

/-- The statuses the modem has been sent. -/
def State.statuses (s : State) : List Status := s.log.filterMap Obs.status

/-- The status that is due for a request and its answer. -/
def due (x : ServerRequest × Answer) : Status :=
  ⟨x.1.isOpen, x.1.handle, decide (x.2 ≠ .failed)⟩

/-! ## 2. The history -/

/-- `waiting` is the request that is not answered, and whether the worker has read it. -/
structure Exchanges where
  waiting : Option (ServerRequest × Bool)
  answered : List (ServerRequest × Answer)
  deriving DecidableEq

def Exchanges.init : Exchanges := ⟨none, []⟩

/-- A server request arrives. -/
def Exchanges.arrives (g : Exchanges) (e : Event) : Exchanges :=
  if has e.mask locationServerRequest then { g with waiting := some (e.payload.server, false) }
  else g

/-- The request that waits is answered. -/
def Exchanges.answers (g : Exchanges) (a : Answer) : Exchanges :=
  match g.waiting with
  | some (r, _) => ⟨none, g.answered ++ [(r, a)]⟩
  | none => g

/-- The worker reads a request. -/
def Exchanges.reads (g : Exchanges) (s : State) : Exchanges :=
  match s.pc with
  | .conn e =>
    if has e.mask locationServerRequest then { g with waiting := some (e.payload.server, true) }
    else g
  | _ => g

def Exchanges.goesOn (g : Exchanges) : Call → Exchanges
  | .event e => g.arrives e
  | c => c.answer.elim g g.answers

/-- **What a step adds to the history.** -/
def Exchanges.after (s : State) (a : Act) (_ : State) (g : Exchanges) : Exchanges :=
  match a with
  | .work => g.reads s
  | .proceed k _ => (s.calls[k]?).elim g g.goesOn
  | _ => g

/-- The worker has read the request that waits, and it admits the answer. -/
def Exchanges.admits (g : Exchanges) (a : Answer) : Bool :=
  match g.waiting with
  | some (r, read) => read && r.admits a
  | none => false

/-- **Requests and answers take turns**: a request arrives when none waits for its answer, and an
    answer is one that the request admits which the worker has read. -/
def inTurn (x : State × Exchanges) : Act → Bool
  | .proceed k _ =>
    match x.1.calls[k]? with
    | some (.event e) => decide (has e.mask locationServerRequest = true → x.2.waiting = none)
    | some c => c.answer.all x.2.admits
    | none => true
  | _ => true

/-! ## 3. Where an answer is -/

/-- The flags that are answers. -/
def replyMask : Flags := actionAgpsDataSuccess ||| actionAgpsDataClosed ||| actionAgpsDataFailed

def Flags.replies (flags : Flags) : Flags := flags &&& replyMask

/-- The worker is between its copy of the flags and its look at the answers. -/
def WorkerPc.beforeReply : WorkerPc → Bool
  | .event | .status _ | .mute _ | .statusSignal _ | .nmea _ | .conn _ | .ni _ | .aiding
  | .aidingClear _ | .aidingIoctl _ | .aidingDone | .xtra | .xtraTake | .xtraInject _
  | .dataConn => true
  | _ => false

/-- The worker is about to write `data_connection_is_on`. -/
def WorkerPc.writesConn : WorkerPc → Bool
  | .dataSet _ | .dataOff => true
  | _ => false

/-- The event in the worker's hand, up to where its server request is read. -/
def WorkerPc.unread (l : Locals) : WorkerPc → Option Event
  | .event => l.event
  | .status e | .mute e | .statusSignal e | .nmea e | .conn e => some e
  | _ => none

def State.unread (s : State) : Option Event := s.pc.unread s.locals

/-- No answer waits for the worker. -/
def State.noReply (s : State) : Bool :=
  decide (Flags.replies s.data.deferredActionFlags = 0) &&
    (!s.pc.beforeReply || decide (Flags.replies s.locals.flags = 0))

/-- **Exchanges apart**: a request arrives when the answer to the one before is not waiting to be
    taken; an answer finds a worker that was not told to end and, if it is a failure,
    `data_connection_is_on` set for an open request and not set for a close request; and the worker
    is told to end only when no answer waits for it. -/
def apart (x : State × Exchanges) : Act → Bool
  | .proceed k _ =>
    match x.1.calls[k]? with
    | some (.event e) => decide (has e.mask locationServerRequest = true →
        Flags.replies x.1.data.deferredActionFlags = 0)
    | some .quit => x.1.noReply
    | some c => c.answer.all fun a => decide (¬ x.1.ending) &&
        (decide (a ≠ .failed) ||
          x.2.waiting.all fun y => decide (x.1.data.dataConnectionIsOn = y.1.isOpen))
    | none => true
  | _ => true

/-! ## 4. The invariant -/

/-- Every answer has its status. -/
structure Told (s : State) (g : Exchanges) : Prop where
  statuses : s.statuses = g.answered.map due
  none : s.noReply = true

/-- **The last answer waits for the worker**, as a flag or in what the worker copied. -/
structure Owing (s : State) (g : Exchanges) (before : List (ServerRequest × Answer))
    (r : ServerRequest) (a : Answer) : Prop where
  answered : g.answered = before ++ [(r, a)]
  admits : r.admits a = true
  statuses : s.statuses = before.map due
  handle : s.data.connHandle = r.handle
  isOn : a = .failed → s.data.dataConnectionIsOn = r.isOpen
  pc : s.pc.writesConn = false
  goes : ¬ s.ending
  place : (Flags.replies s.data.deferredActionFlags = a.flag ∧
      (s.pc.beforeReply = true → Flags.replies s.locals.flags = 0)) ∨
    (Flags.replies s.data.deferredActionFlags = 0 ∧ s.pc.beforeReply = true ∧
      Flags.replies s.locals.flags = a.flag)

/-- **The invariant.** A request on its way is the one that waits; once it is read its handle is
    the one the worker is going to use. -/
structure ConnInv (s : State) (g : Exchanges) : Prop where
  stored : has s.data.locEvent locationServerRequest = true →
    g.waiting = some (s.data.locEventPayload.server, false) ∧
      Flags.replies s.data.deferredActionFlags = 0
  unread : ∀ e, s.unread = some e → has e.mask locationServerRequest = true →
    g.waiting = some (e.payload.server, false) ∧ Told s g ∧
      has s.data.locEvent locationServerRequest = false
  read : ∀ r, g.waiting = some (r, true) →
    s.data.connHandle = r.handle ∧ Told s g ∧ s.pc.writesConn = false
  replies : Told s g ∨ ∃ before r a, Owing s g before r a

/-- A step that brings neither a request nor an answer and handles none. -/
structure ConnFrame (s s' : State) : Prop where
  event : s'.data.locEvent = s.data.locEvent
  payload : s'.data.locEventPayload = s.data.locEventPayload
  handle : s'.data.connHandle = s.data.connHandle
  isOn : s.pc.writesConn = false → s'.data.dataConnectionIsOn = s.data.dataConnectionIsOn
  locals : s'.locals = s.locals
  flags : Flags.replies s'.data.deferredActionFlags = Flags.replies s.data.deferredActionFlags
  statuses : s'.statuses = s.statuses
  unread : s'.unread = s.unread ∨ s'.unread = none
  before : s'.pc.beforeReply = s.pc.beforeReply ∨
    s'.pc.beforeReply = false ∧ Flags.replies s.locals.flags = 0
  writes : s'.pc.writesConn = true → s.pc.writesConn = true
  goes : s.noReply = false → ¬ s.ending → ¬ s'.ending

section Frame

variable {s s' : State} {g : Exchanges}

theorem noReply_iff : s.noReply = true ↔ Flags.replies s.data.deferredActionFlags = 0 ∧
    (s.pc.beforeReply = true → Flags.replies s.locals.flags = 0) := by
  unfold State.noReply
  cases hb : s.pc.beforeReply <;> simp

theorem flag_ne_zero (a : Answer) : a.flag ≠ 0 := by
  cases a <;> decide

theorem Told.keep {g' : Exchanges} (h : Told s g) (hstatuses : s'.statuses = s.statuses)
    (hanswered : g'.answered = g.answered)
    (hflags : Flags.replies s'.data.deferredActionFlags = Flags.replies s.data.deferredActionFlags)
    (hlocals : s'.locals = s.locals)
    (hbefore : s'.pc.beforeReply = s.pc.beforeReply ∨
      s'.pc.beforeReply = false ∧ Flags.replies s.locals.flags = 0) : Told s' g' := by
  obtain ⟨hnone, hcopied⟩ := noReply_iff.mp h.none
  refine ⟨?_, noReply_iff.mpr ⟨hflags.trans hnone, fun hb => ?_⟩⟩
  · rw [hstatuses, hanswered, h.statuses]
  · rw [hlocals]
    rcases hbefore with hbefore | ⟨_, hzero⟩
    · exact hcopied (hbefore.symm.trans hb)
    · exact hzero

theorem Told.frame (h : Told s g) (hf : ConnFrame s s') : Told s' g :=
  h.keep hf.statuses rfl hf.flags hf.locals hf.before

theorem Owing.noReply {before : List (ServerRequest × Answer)} {r : ServerRequest} {a : Answer}
    (h : Owing s g before r a) : s.noReply = false := by
  rw [Bool.eq_false_iff, Ne, noReply_iff]
  rintro ⟨hflags, hlocals⟩
  rcases h.place with ⟨hflag, _⟩ | ⟨_, hb, hflag⟩
  · exact flag_ne_zero a (hflag.symm.trans hflags)
  · exact flag_ne_zero a (hflag.symm.trans (hlocals hb))

theorem Owing.keep {g' : Exchanges} {before : List (ServerRequest × Answer)} {r : ServerRequest}
    {a : Answer} (h : Owing s g before r a) (hstatuses : s'.statuses = s.statuses)
    (hanswered : g'.answered = g.answered)
    (hflags : Flags.replies s'.data.deferredActionFlags = Flags.replies s.data.deferredActionFlags)
    (hlocals : s'.locals = s.locals)
    (hbefore : s'.pc.beforeReply = s.pc.beforeReply ∨
      s'.pc.beforeReply = false ∧ Flags.replies s.locals.flags = 0)
    (hhandle : s'.data.connHandle = s.data.connHandle)
    (hon : s'.data.dataConnectionIsOn = s.data.dataConnectionIsOn)
    (hwrites : s'.pc.writesConn = true → s.pc.writesConn = true) (hgoes : ¬ s'.ending) :
    Owing s' g' before r a := by
  refine ⟨hanswered.trans h.answered, h.admits, hstatuses.trans h.statuses, hhandle.trans h.handle,
    fun hfailed => hon.trans (h.isOn hfailed), ?_, hgoes, ?_⟩
  · cases hw : s'.pc.writesConn with
    | false => rfl
    | true => exact absurd (hwrites hw) (by rw [h.pc]; exact Bool.false_ne_true)
  · rw [hflags, hlocals]
    rcases h.place with ⟨hflag, hcopied⟩ | ⟨hzero, hb, hflag⟩
    · refine Or.inl ⟨hflag, fun hb => ?_⟩
      rcases hbefore with hbefore | ⟨_, hnone⟩
      · exact hcopied (hbefore.symm.trans hb)
      · exact hnone
    · refine Or.inr ⟨hzero, ?_, hflag⟩
      rcases hbefore with hbefore | ⟨_, hnone⟩
      · exact hbefore.trans hb
      · exact absurd (hflag.symm.trans hnone) (flag_ne_zero a)

theorem Owing.frame {before : List (ServerRequest × Answer)} {r : ServerRequest} {a : Answer}
    (h : Owing s g before r a) (hf : ConnFrame s s') : Owing s' g before r a :=
  h.keep hf.statuses rfl hf.flags hf.locals hf.before hf.handle (hf.isOn h.pc) hf.writes
    (hf.goes h.noReply h.goes)

theorem ConnInv.frame (h : ConnInv s g) (hf : ConnFrame s s') : ConnInv s' g := by
  refine ⟨?_, fun e he hmask => ?_, fun r hr => ?_, ?_⟩
  · rw [hf.event, hf.payload, hf.flags]
    exact h.stored
  · rcases hf.unread with heq | hnone
    · obtain ⟨hwaits, htold, hnone⟩ := h.unread e (heq.symm.trans he) hmask
      exact ⟨hwaits, htold.frame hf, by rw [hf.event]; exact hnone⟩
    · rw [hnone] at he
      cases he
  · obtain ⟨hhandle, htold, hpc⟩ := h.read r hr
    refine ⟨hf.handle.trans hhandle, htold.frame hf, ?_⟩
    cases hw : s'.pc.writesConn with
    | false => rfl
    | true => exact absurd (hf.writes hw) (by rw [hpc]; exact Bool.false_ne_true)
  · rcases h.replies with htold | ⟨before, r, a, howing⟩
    · exact Or.inl (htold.frame hf)
    · exact Or.inr ⟨before, r, a, howing.frame hf⟩

end Frame

/-! ## 5. The worker -/

section Worker

variable {s s' : State} {g : Exchanges}

theorem statuses_of_sent (s : State) : s.sent.filterMap Obs.status = s.statuses := by
  unfold State.sent State.statuses
  rw [List.filterMap_filter]
  congr 1
  funext o
  cases o <;> rfl

theorem statuses_step {a : Act} (hs : Step s a s') :
    s'.statuses = s.statuses ++ (s.sends a).filterMap Obs.status := by
  rw [← statuses_of_sent, step_sends hs, List.filterMap_append, statuses_of_sent]

theorem workSends_status (hpc : s.pc ≠ .dataConn) : s.workSends.filterMap Obs.status = [] := by
  unfold State.workSends
  split
  · rfl
  · rename_i data _
    cases data <;> rfl
  · rename_i hconn
    exact absurd hconn hpc
  · split <;> rfl
  · rfl

theorem work_goes (hs : work s = some s') (h : ¬ s.ending) : ¬ s'.ending := by
  cases work_mail hs with
  | goesOn _ _ _ hraised _ hpc =>
      rintro (hq | hx | hx)
      · exact h (Or.inl (hraised.quit.symm.trans hq))
      · rw [hx] at hpc
        cases hpc
      · rw [hx] at hpc
        cases hpc
  | sleeps _ _ heq =>
      subst heq
      rintro (hq | hx | hx)
      · exact h (Or.inl hq)
      · cases hx
      · cases hx
  | takes _ _ _ _ _ hflags hpc' =>
      rintro (hq | hx | hx)
      · rw [hflags] at hq
        exact absurd hq (by decide)
      · rw [hpc'] at hx
        cases hx
      · rw [hpc'] at hx
        cases hx
  | ends _ hending _ _ => exact absurd hending h

/-- What the data connection depends on is as it was. -/
structure Data.SameConn (d d' : Data) : Prop where
  event : d'.locEvent = d.locEvent
  payload : d'.locEventPayload = d.locEventPayload
  handle : d'.connHandle = d.connHandle
  isOn : d'.dataConnectionIsOn = d.dataConnectionIsOn
  flags : Flags.replies d'.deferredActionFlags = Flags.replies d.deferredActionFlags

theorem reportStatus_conn (d : Data) (report : StatusReport) :
    d.SameConn (reportStatus d report).1 := by
  obtain ⟨st, hdata⟩ := reportStatus_data d report
  rw [hdata]
  cases report with
  | engineState on => cases on <;> exact ⟨rfl, rfl, rfl, rfl, rfl⟩
  | fixSessionState begins => cases begins <;> exact ⟨rfl, rfl, rfl, rfl, rfl⟩
  | other => exact ⟨rfl, rfl, rfl, rfl, rfl⟩

theorem muteSession_conn (d : Data) : d.SameConn (muteSession d) := by
  unfold muteSession
  split <;> exact ⟨rfl, rfl, rfl, rfl, rfl⟩

theorem reportNmea_conn (d : Data) (e : Event) : d.SameConn (reportNmea d e).1 := by
  unfold reportNmea
  dsimp only
  split <;> exact ⟨rfl, rfl, rfl, rfl, rfl⟩

/-- **A step of the worker** as it concerns the data connection: it goes on, comes to rest, takes
    flags and event, reads a request, or handles an answer. -/
inductive ConnMove (s s' : State) : Prop where
  | goesOn (h : ConnFrame s s') (hrank : s'.pc.rank < s.pc.rank)
  | rests (h : ConnFrame s s')
      (hwhy : s.pc = .top ∧ s.data.deferredActionFlags = 0 ∨ s.ending)
  | takes (s1 : State) (hcomes : Comes s s1) (heq : s' = copyOut s1)
  | reads (e : Event) (hpc : s.pc = .conn e) (he : has e.mask locationServerRequest = true)
      (heq : s' = ((s.put (processConnRequest s.data e.payload.server)).raise
        actionAgpsStatus).at (.ni e))
  | replies (hpc : s.pc = .dataConn) (hreply : Flags.replies s.locals.flags ≠ 0)
      (hdata : s'.data = s.data) (hlocals : s'.locals = s.locals) (hunread : s'.unread = none)
      (hbefore : s'.pc.beforeReply = false) (hrank : s'.pc.rank < s.pc.rank)
      (hstatuses : s'.statuses = s.statuses ++ s.serverStatus.filterMap Obs.status)

/-- The worker goes on to another place. -/
theorem goesOn_conn {s1 : State} {pc pc' : WorkerPc} (hpc : s.pc = pc)
    (hdata : s.data.SameConn s1.data) (hlocals : s1.locals = s.locals)
    (hstatuses : (s1.at pc').statuses = s.statuses)
    (hunread : (s1.at pc').unread = s.unread ∨ (s1.at pc').unread = none)
    (hpc' : pc'.beforeReply = pc.beforeReply ∧ pc'.writesConn = false)
    (hrank : pc'.rank < pc.rank)
    (hgoes : s.noReply = false → ¬ s.ending → ¬ (s1.at pc').ending) :
    ConnMove s (s1.at pc') := by
  subst hpc
  refine .goesOn ⟨hdata.event, hdata.payload, hdata.handle, fun _ => hdata.isOn, hlocals,
    hdata.flags, hstatuses, hunread, Or.inl hpc'.1, fun hw => ?_, hgoes⟩ hrank
  rw [at_pc, hpc'.2] at hw
  cases hw

/-- The event that the worker has not read is the same at another place. -/
theorem unread_at {s1 : State} {pc pc' : WorkerPc} (hpc : s.pc = pc)
    (hlocals : s1.locals = s.locals) (h : pc'.unread s.locals = pc.unread s.locals) :
    (s1.at pc').unread = s.unread := by
  subst hpc
  rw [State.unread, State.unread, ← h, ← hlocals]
  rfl

/-- The worker comes to rest. -/
theorem rests_conn {pc : WorkerPc} (hpc : s.pc = pc) (hdata : s'.data = s.data)
    (hlocals : s'.locals = s.locals) (hstatuses : s'.statuses = s.statuses)
    (hunread : s'.unread = none)
    (hpc' : s'.pc.beforeReply = pc.beforeReply ∧ s'.pc.writesConn = false)
    (hwhy : s.pc = .top ∧ s.data.deferredActionFlags = 0 ∨ s.ending)
    (hgoes : s.noReply = false → ¬ s.ending → ¬ s'.ending) : ConnMove s s' := by
  subst hpc
  refine .rests ⟨by rw [hdata], by rw [hdata], by rw [hdata], fun _ => by rw [hdata], hlocals,
    by rw [hdata], hstatuses, Or.inr hunread, Or.inl hpc'.1, fun hw => ?_, hgoes⟩ hwhy
  rw [hpc'.2] at hw
  cases hw

theorem has_replies (flags bit : Flags) (hbit : replyMask &&& bit = bit) :
    Flags.has flags bit = Flags.has (Flags.replies flags) bit := by
  unfold Flags.has Flags.replies
  rw [BitVec.and_assoc, hbit]

theorem replies_ne_zero {flags bit : Flags} (hbit : replyMask &&& bit = bit)
    (h : Flags.has flags bit = true) : Flags.replies flags ≠ 0 := by
  intro hz
  rw [has_replies flags bit hbit, hz] at h
  have hne := of_decide_eq_true h
  exact hne BitVec.zero_and

/-- The worker handles the answer that a flag stands for. -/
theorem replies_conn {bit : Flags} (hpc : s.pc = .dataConn) (hbit : replyMask &&& bit = bit)
    (hflag : Flags.has s.locals.flags bit = true) (hdata : s'.data = s.data)
    (hlocals : s'.locals = s.locals) (hunread : s'.unread = none)
    (hbefore : s'.pc.beforeReply = false) (hrank : s'.pc.rank < WorkerPc.dataConn.rank)
    (hstatuses : s'.statuses = s.statuses ++ s.serverStatus.filterMap Obs.status) :
    ConnMove s s' := by
  refine .replies hpc (replies_ne_zero hbit hflag) hdata hlocals hunread hbefore ?_ hstatuses
  rwa [hpc]

theorem replies_eq_zero {flags : Flags} (ho : Flags.has flags actionAgpsDataSuccess = false)
    (hc : Flags.has flags actionAgpsDataClosed = false)
    (hf : Flags.has flags actionAgpsDataFailed = false) : Flags.replies flags = 0 := by
  have hzero : ∀ {bit : Flags}, Flags.has flags bit = false → flags &&& bit = 0 :=
    fun h => Decidable.of_not_not (of_decide_eq_false h)
  unfold Flags.replies replyMask
  rw [BitVec.and_or_distrib_left, BitVec.and_or_distrib_left, hzero ho, hzero hc, hzero hf]
  rfl

theorem replies_or (flags flag : Flags) (h : flag &&& replyMask = 0) :
    Flags.replies (flags ||| flag) = Flags.replies flags := by
  unfold Flags.replies
  rw [BitVec.and_or_distrib_right, h]
  exact BitVec.or_zero

theorem work_conn (hs : work s = some s') : ConnMove s s' := by
  have hgoes : s.noReply = false → ¬ s.ending → ¬ s'.ending := fun _ => work_goes hs
  have hw := work_cases hs
  have hsent := statuses_step (.works hw)
  have hstatuses : s.pc ≠ .dataConn → s'.statuses = s.statuses := by
    intro hpc
    rw [hsent, State.sends, workSends_status hpc, List.append_nil]
  have hstatus : s.pc = .dataConn →
      s'.statuses = s.statuses ++ s.serverStatus.filterMap Obs.status := by
    intro hpc
    rw [hsent, State.sends, State.workSends, hpc]
  have hsame : s.data.SameConn s.data := ⟨rfl, rfl, rfl, rfl, rfl⟩
  cases hw with
  | takes hcomes hquit => exact .takes _ hcomes rfl
  | conn e hpc he => exact .reads e hpc he rfl
  | opened hpc hflag =>
      exact replies_conn hpc (by decide) hflag rfl rfl rfl rfl (by decide : 4 < 5) (hstatus hpc)
  | closed hpc _ hflag =>
      exact replies_conn hpc (by decide) hflag rfl rfl rfl rfl (by decide : 2 < 5) (hstatus hpc)
  | openFailed hpc _ _ hflag _ =>
      exact replies_conn hpc (by decide) hflag rfl rfl rfl rfl (by decide : 4 < 5) (hstatus hpc)
  | closeFailed hpc _ _ hflag _ =>
      exact replies_conn hpc (by decide) hflag rfl rfl rfl rfl (by decide : 3 < 5) (hstatus hpc)
  | noReply hpc ho hc hf =>
      have hzero := replies_eq_zero ho hc hf
      refine .goesOn ⟨rfl, rfl, rfl, fun _ => rfl, rfl, rfl, rfl, Or.inr rfl, Or.inr ⟨rfl, hzero⟩,
        fun h => (by cases h), hgoes⟩ ?_
      rw [hpc]
      exact (by decide : 1 < 5)
  | sleeps hpc hflags =>
      exact rests_conn hpc rfl rfl rfl rfl ⟨rfl, rfl⟩ (Or.inl ⟨hpc, hflags⟩) hgoes
  | quits hcomes hquit =>
      cases hcomes with
      | again hpc _ =>
          exact rests_conn hpc rfl rfl rfl rfl ⟨rfl, rfl⟩ (Or.inr (Or.inl hquit)) hgoes
      | woken hpc =>
          exact rests_conn hpc rfl rfl rfl rfl ⟨rfl, rfl⟩ (Or.inr (Or.inl hquit)) hgoes
  | exits hpc =>
      exact rests_conn hpc rfl rfl rfl rfl ⟨rfl, rfl⟩ (Or.inr (Or.inr (Or.inl hpc))) hgoes
  | dataSet success hpc =>
      refine .goesOn ⟨rfl, rfl, rfl, fun hw => ?_, rfl, rfl, rfl, Or.inr ?_, Or.inl ?_,
        fun _ => by rw [hpc]; rfl, hgoes⟩ ?_
      · rw [hpc] at hw
        cases hw
      · cases success <;> rfl
      · rw [hpc]
        cases success <;> rfl
      · rw [hpc, at_pc]
        cases success <;> decide
  | dataOff hpc =>
      refine .goesOn ⟨rfl, rfl, rfl, fun hw => ?_, rfl, rfl, rfl, Or.inr rfl,
        Or.inl (by rw [hpc]; rfl), fun h => (by cases h), hgoes⟩ ?_
      · rw [hpc] at hw
        cases hw
      · rw [hpc]
        exact (by decide : 2 < 3)
  | processes e hpc he =>
      exact goesOn_conn hpc hsame rfl (hstatuses (by rw [hpc]; simp))
        (Or.inl (unread_at hpc rfl he.symm)) ⟨rfl, rfl⟩ (by simp [WorkerPc.rank]) hgoes
  | status e hpc _ =>
      exact goesOn_conn hpc (reportStatus_conn _ _) rfl (hstatuses (by rw [hpc]; simp))
        (Or.inl (unread_at hpc rfl rfl)) ⟨rfl, rfl⟩ (by simp [WorkerPc.rank]) hgoes
  | mute e hpc =>
      exact goesOn_conn hpc (muteSession_conn _) rfl rfl (Or.inl (unread_at hpc rfl rfl)) ⟨rfl, rfl⟩
        (by simp [WorkerPc.rank]) hgoes
  | nmea e hpc =>
      exact goesOn_conn hpc (reportNmea_conn _ e) rfl (hstatuses (by rw [hpc]; simp))
        (Or.inl (unread_at hpc rfl rfl)) ⟨rfl, rfl⟩ (by simp [WorkerPc.rank]) hgoes
  | posts e hpc _ =>
      exact goesOn_conn hpc ⟨rfl, rfl, rfl, rfl, replies_or _ _ (by decide)⟩ rfl rfl
        (Or.inl (unread_at hpc rfl rfl)) ⟨rfl, rfl⟩ (by simp [WorkerPc.rank]) hgoes
  | noStatus e hpc _ | noPost e hpc _ =>
      exact goesOn_conn hpc hsame rfl rfl (Or.inl (unread_at hpc rfl rfl)) ⟨rfl, rfl⟩
        (by simp [WorkerPc.rank]) hgoes
  | noEvent hpc _ | noConn _ hpc _ | aiding hpc _ _ | noAiding hpc _ | clears _ hpc
  | clearsAgain hpc | xtra hpc _ _ | noXtra hpc _ | xtraTake hpc =>
      exact goesOn_conn hpc ⟨rfl, rfl, rfl, rfl, rfl⟩ rfl rfl (Or.inr rfl) ⟨rfl, rfl⟩
        (by simp [WorkerPc.rank]) hgoes
  | ni _ hpc | deletes _ hpc | xtraInject _ hpc | stop hpc | atl hpc =>
      exact goesOn_conn hpc ⟨rfl, rfl, rfl, rfl, rfl⟩ rfl (hstatuses (by rw [hpc]; simp))
        (Or.inr rfl) ⟨rfl, rfl⟩ (by simp [WorkerPc.rank]) hgoes

theorem replies_zero : Flags.replies 0 = 0 := by decide

theorem no_request : has 0 locationServerRequest = false := by decide

theorem Told.takes {s1 : State} (h : Told s g) (hcomes : Comes s s1) : Told (copyOut s1) g := by
  obtain ⟨hnone, _⟩ := noReply_iff.mp h.none
  have hdata : s1.data = s.data ∧ s1.log = s.log := by cases hcomes <;> exact ⟨rfl, rfl⟩
  refine ⟨?_, noReply_iff.mpr ⟨replies_zero, fun _ => ?_⟩⟩
  · show s1.log.filterMap Obs.status = _
    rw [hdata.2]
    exact h.statuses
  · show Flags.replies s1.data.deferredActionFlags = 0
    rw [hdata.1]
    exact hnone

theorem Owing.takes {s1 : State} {before : List (ServerRequest × Answer)} {r : ServerRequest}
    {a : Answer} (h : Owing s g before r a) (hcomes : Comes s s1) (hpc : s.pc.beforeReply = false)
    (hgoes : ¬ (copyOut s1).ending) : Owing (copyOut s1) g before r a := by
  have hdata : s1.data = s.data ∧ s1.log = s.log := by cases hcomes <;> exact ⟨rfl, rfl⟩
  have hflag : Flags.replies s1.data.deferredActionFlags = a.flag := by
    rw [hdata.1]
    rcases h.place with ⟨hflag, _⟩ | ⟨_, hb, _⟩
    · exact hflag
    · rw [hpc] at hb
      cases hb
  refine ⟨h.answered, h.admits, ?_, ?_, ?_, rfl, hgoes, Or.inr ⟨replies_zero, rfl, hflag⟩⟩
  · show s1.log.filterMap Obs.status = _
    rw [hdata.2]
    exact h.statuses
  · show s1.data.connHandle = r.handle
    rw [hdata.1]
    exact h.handle
  · show a = .failed → s1.data.dataConnectionIsOn = r.isOpen
    rw [hdata.1]
    exact h.isOn

theorem comes_beforeReply {s1 : State} (h : Comes s s1) : s.pc.beforeReply = false := by
  cases h with
  | again hpc _ => rw [hpc]; rfl
  | woken hpc => rw [hpc]; rfl

theorem ConnInv.takes {s1 : State} (h : ConnInv s g) (hcomes : Comes s s1)
    (hgoes : ¬ s.ending → ¬ (copyOut s1).ending) : ConnInv (copyOut s1) g := by
  have hdata : s1.data = s.data := by cases hcomes <;> rfl
  have hpc := comes_beforeReply hcomes
  refine ⟨fun hz => absurd (no_request.symm.trans hz) Bool.false_ne_true, fun e he hmask => ?_,
    fun r hr => ?_, ?_⟩
  · have he' : (if s1.data.locEvent = 0 then none
        else some ⟨s1.data.locEvent, s1.data.locEventPayload⟩) = some e := he
    split at he' <;> cases he'
    rw [hdata] at hmask ⊢
    obtain ⟨hwaits, hflags⟩ := h.stored hmask
    refine ⟨hwaits, ?_, no_request⟩
    rcases h.replies with htold | ⟨before, r, a, howing⟩
    · exact htold.takes hcomes
    · rcases howing.place with ⟨hflag, _⟩ | ⟨_, hb, _⟩
      · exact absurd (hflag.symm.trans hflags) (flag_ne_zero a)
      · rw [hpc] at hb
        cases hb
  · obtain ⟨hhandle, htold, _⟩ := h.read r hr
    refine ⟨?_, htold.takes hcomes, rfl⟩
    show s1.data.connHandle = r.handle
    rw [hdata]
    exact hhandle
  · rcases h.replies with htold | ⟨before, r, a, howing⟩
    · exact Or.inl (htold.takes hcomes)
    · exact Or.inr ⟨before, r, a, howing.takes hcomes hpc (hgoes howing.goes)⟩

theorem processConnRequest_handle (d : Data) (r : ServerRequest) :
    (processConnRequest d r).connHandle = r.handle := by
  cases r <;> rfl

theorem processConnRequest_event (d : Data) (r : ServerRequest) :
    (processConnRequest d r).locEvent = d.locEvent ∧
      (processConnRequest d r).deferredActionFlags = d.deferredActionFlags := by
  cases r <;> exact ⟨rfl, rfl⟩

/-- The worker reads the request that waits. -/
theorem ConnInv.reads (h : ConnInv s g) {e : Event} (hpc : s.pc = .conn e)
    (he : has e.mask locationServerRequest = true) :
    ConnInv (((s.put (processConnRequest s.data e.payload.server)).raise actionAgpsStatus).at
      (.ni e)) { g with waiting := some (e.payload.server, true) } := by
  have hun : s.unread = some e := by rw [State.unread, hpc]; rfl
  obtain ⟨_, htold, hnone⟩ := h.unread e hun he
  obtain ⟨hevent, hflags⟩ := processConnRequest_event s.data e.payload.server
  have hreplies :
      Flags.replies ((processConnRequest s.data e.payload.server).deferredActionFlags |||
        actionAgpsStatus) = Flags.replies s.data.deferredActionFlags := by
    rw [hflags, replies_or _ _ (by decide)]
  have htold' : Told
      (((s.put (processConnRequest s.data e.payload.server)).raise actionAgpsStatus).at (.ni e))
      { g with waiting := some (e.payload.server, true) } :=
    htold.keep rfl rfl hreplies rfl (Or.inl (by rw [hpc]; rfl))
  refine ⟨fun hstored => ?_, fun e' he' => ?_, fun r hr => ?_, Or.inl htold'⟩
  · have hstored' : has (processConnRequest s.data e.payload.server).locEvent
        locationServerRequest = true := hstored
    rw [hevent, hnone] at hstored'
    cases hstored'
  · cases he'
  · cases hr
    exact ⟨processConnRequest_handle _ _, htold', rfl⟩

/-- The status the worker sends is the one that is due. -/
theorem serverStatus_due {r : ServerRequest} {a : Answer} (hadmits : r.admits a = true)
    (hhandle : s.data.connHandle = r.handle)
    (hon : a = .failed → s.data.dataConnectionIsOn = r.isOpen)
    (hflags : Flags.replies s.locals.flags = a.flag) :
    s.serverStatus.filterMap Obs.status = [due (r, a)] := by
  have hhas : ∀ bit : Flags, replyMask &&& bit = bit →
      Flags.has s.locals.flags bit = Flags.has a.flag bit := by
    intro bit hbit
    rw [has_replies _ _ hbit, hflags]
  unfold State.serverStatus
  rw [hhas _ (by decide), hhas _ (by decide), hhas _ (by decide), hhandle]
  cases a with
  | opened => cases r with
    | openReq c => rfl
    | closeReq c => cases hadmits
  | closed => cases r with
    | openReq c => cases hadmits
    | closeReq c => rfl
  | failed =>
      rw [hon rfl]
      cases r <;> rfl

/-- **The worker handles the answer** that waits, and sends the status that is due. -/
theorem ConnInv.replied (h : ConnInv s g) (hpc : s.pc = .dataConn)
    (hreply : Flags.replies s.locals.flags ≠ 0) (hdata : s'.data = s.data)
    (hunread : s'.unread = none) (hbefore : s'.pc.beforeReply = false)
    (hstatuses : s'.statuses = s.statuses ++ s.serverStatus.filterMap Obs.status) :
    ConnInv s' g := by
  have hb : s.pc.beforeReply = true := by rw [hpc]; rfl
  have hnot : ¬ Told s g := fun htold => hreply ((noReply_iff.mp htold.none).2 hb)
  refine ⟨?_, fun e he => ?_, fun r hr => absurd (h.read r hr).2.1 hnot, Or.inl ?_⟩
  · rw [hdata]
    exact h.stored
  · rw [hunread] at he
    cases he
  · rcases h.replies with htold | ⟨before, r, a, howing⟩
    · exact absurd htold hnot
    · rcases howing.place with ⟨_, hzero⟩ | ⟨hflags, _, hcopied⟩
      · exact absurd (hzero hb) hreply
      · have hsent := serverStatus_due howing.admits howing.handle howing.isOn hcopied
        refine ⟨?_, noReply_iff.mpr ⟨hdata ▸ hflags, fun hb' => ?_⟩⟩
        · rw [hstatuses, hsent, howing.statuses, howing.answered, List.map_append]
          rfl
        · rw [hbefore] at hb'
          cases hb'

/-- **Every step of the worker keeps the invariant.** -/
theorem ConnInv.work (h : ConnInv s g) (hs : Engine.work s = some s') :
    ConnInv s' (g.reads s) := by
  have hmove := work_conn hs
  by_cases hread : ∃ e, s.pc = .conn e ∧ has e.mask locationServerRequest = true
  · obtain ⟨e, hpc, he⟩ := hread
    have hg : g.reads s = { g with waiting := some (e.payload.server, true) } := by
      rw [Exchanges.reads, hpc]
      exact if_pos he
    unfold Engine.work at hs
    rw [hpc] at hs
    simp only [he, if_true, post_eq] at hs
    cases hs
    rw [hg]
    exact h.reads hpc he
  · have hg : g.reads s = g := by
      unfold Exchanges.reads
      split
      · rename_i e hpc
        exact if_neg fun he => hread ⟨e, hpc, he⟩
      · rfl
    rw [hg]
    cases hmove with
    | goesOn hf _ => exact h.frame hf
    | rests hf _ => exact h.frame hf
    | takes s1 hcomes heq =>
        subst heq
        exact h.takes hcomes (work_goes hs)
    | reads e hpc he _ => exact absurd ⟨e, hpc, he⟩ hread
    | replies hpc hreply hdata _ hunread hbefore _ hstatuses =>
        exact h.replied hpc hreply hdata hunread hbefore hstatuses

end Worker

/-! ## 6. The calls -/

section Calls

variable {s s' s1 : State} {g : Exchanges} {k : Nat} {c : Call} {ok : Bool} {next : Option Call}

theorem callSends_status (s : State) (c : Call) : (s.callSends c).filterMap Obs.status = [] := by
  cases c with
  | close =>
      rw [State.callSends]
      split <;> rfl
  | _ => rfl

/-- A step of somebody else leaves the worker where it is or wakes it. -/
theorem frame_nudge (hdata : s.data.SameConn s'.data) (hlocals : s'.locals = s.locals)
    (hpc : s'.pc = s.pc ∨ s'.pc = s.pc.signalled) (hstatuses : s'.statuses = s.statuses)
    (hgoes : s.noReply = false → ¬ s.ending → ¬ s'.ending) : ConnFrame s s' := by
  refine ⟨hdata.event, hdata.payload, hdata.handle, fun _ => hdata.isOn, hlocals, hdata.flags,
    hstatuses, Or.inl ?_, Or.inl (nudged_apply hpc WorkerPc.beforeReply rfl), fun hw => ?_, hgoes⟩
  · rw [State.unread, State.unread, hlocals]
    exact nudged_apply hpc (WorkerPc.unread s.locals) rfl
  · rw [← nudged_apply hpc WorkerPc.writesConn rfl]
    exact hw

/-- A call that is about neither requests nor answers goes on. -/
theorem proceed_frame (hk : s.calls[k]? = some c)
    (hdata : s.data.SameConn (proceed s ok c).1.data)
    (hgoes : s.noReply = false → ¬ s.ending → ¬ (proceed s ok c).1.ending) :
    ConnFrame s ((proceed s ok c).1.resume k (proceed s ok c).2) := by
  have hstep : Step s (.proceed k ok) _ := .proceeds k ok c hk
  refine frame_nudge ?_ (step_engine hstep (by simp)).2 (step_nudge hstep (by simp)).pc_eq ?_ ?_
  · rw [resume_data]
    exact hdata
  · rw [statuses_step hstep, State.sends, hk, Option.elim_some, callSends_status, List.append_nil]
  · unfold State.ending
    rw [resume_data, resume_pc]
    exact hgoes

theorem plain_goes (hc : c.isPlain = true) (h : ¬ s.ending) : ¬ (proceed s ok c).1.ending :=
  fun he => h (ending_of_called (proceed_called hc s ok).pc (proceed_called hc s ok).raised he)

theorem endSession_conn (d : Data) : d.SameConn (endSession d).1 := by
  unfold endSession
  dsimp only
  split
  · split <;> exact ⟨rfl, rfl, rfl, rfl, rfl⟩
  · exact ⟨rfl, rfl, rfl, rfl, rfl⟩

theorem deletion_conn (s : State) (f : AidingData) :
    s.data.SameConn (deleteAidingData s f).data ∧
      (¬ s.ending → ¬ (deleteAidingData s f).ending) := by
  have hrec : s.data.SameConn (recordDeletion s f).data ∧
      ((recordDeletion s f).ending → s.ending) := by
    unfold recordDeletion
    split <;> exact ⟨⟨rfl, rfl, rfl, rfl, rfl⟩, id⟩
  have hcalled := deleteAidingData_called s f
  refine ⟨?_, fun h he => h (hrec.2 (ending_of_called hcalled.pc hcalled.raised he))⟩
  unfold deleteAidingData
  dsimp only
  split
  · obtain ⟨he, hp, hh, ho, hf⟩ := hrec.1
    rw [post_data, raise_data]
    exact ⟨he, hp, hh, ho, (replies_or _ _ (by decide)).trans hf⟩
  · exact hrec.1

/-- What a call does that sets a flag for the worker and returns. -/
theorem posted_goes {flag : Flags} (hpc : s1.pc = s.pc)
    (hflags : s1.data.deferredActionFlags = s.data.deferredActionFlags)
    (hquit : flag &&& actionQuit = 0) (h : ¬ s.ending) :
    ¬ ((s1.post flag).resume k none).ending := by
  have hraised : Raised s ((s1.post flag).resume k none) := by
    refine ⟨flag, ?_, hquit⟩
    rw [resume_data, post_data, raise_data, hflags]
  refine fun he => h (ending_of_called (Or.inr ?_) hraised he)
  rw [resume_pc, post_pc, hpc]

/-- A request arrives when none waits and no answer is to be taken; or an event without one. -/
theorem ConnInv.arrives (h : ConnInv s g) {e : Event} (hk : s.calls[k]? = some (.event e))
    (hturn : has e.mask locationServerRequest = true → g.waiting = none)
    (hapart : has e.mask locationServerRequest = true →
      Flags.replies s.data.deferredActionFlags = 0) :
    ConnInv ((locEventCb s e).resume k none) (g.arrives e) := by
  have hstep : Step s (.proceed k true) ((locEventCb s e).resume k none) :=
    .proceeds k true _ hk
  have hlocals := (step_engine hstep (by simp)).2
  have hpc := (step_nudge hstep (by simp)).pc_eq
  have hstatuses : ((locEventCb s e).resume k none).statuses = s.statuses := by
    rw [statuses_step hstep, State.sends, hk, Option.elim_some, callSends_status, List.append_nil]
  have hdata : ((locEventCb s e).resume k none).data = { s.data with
      locEvent := e.mask, locEventPayload := e.payload,
      deferredActionFlags := s.data.deferredActionFlags ||| actionEvent } := by
    rw [resume_data, locEventCb, post_data]
    rfl
  have hflags : Flags.replies ((locEventCb s e).resume k none).data.deferredActionFlags =
      Flags.replies s.data.deferredActionFlags := by
    rw [hdata]
    exact replies_or _ _ (by decide)
  have hanswered : (g.arrives e).answered = g.answered := by
    unfold Exchanges.arrives
    split <;> rfl
  have hbefore := nudged_apply hpc WorkerPc.beforeReply rfl
  have htold : Told s g → Told ((locEventCb s e).resume k none) (g.arrives e) := fun ht =>
    ht.keep hstatuses hanswered hflags hlocals (Or.inl hbefore)
  have hunread : ((locEventCb s e).resume k none).unread = s.unread := by
    rw [State.unread, State.unread, hlocals]
    exact nudged_apply hpc (WorkerPc.unread s.locals) rfl
  have hwrites := nudged_apply hpc WorkerPc.writesConn rfl
  refine ⟨fun hmask => ?_, fun e' he' hmask => ?_, fun r hr => ?_, ?_⟩
  · rw [hdata] at hmask ⊢
    have hmask' : has e.mask locationServerRequest = true := hmask
    refine ⟨?_, ?_⟩
    · rw [Exchanges.arrives, if_pos hmask']
    · rw [← hdata, hflags]
      exact hapart hmask'
  · obtain ⟨hwaits, ht, _⟩ := h.unread e' (hunread.symm.trans he') hmask
    have hno : has e.mask locationServerRequest = false := by
      cases hm : has e.mask locationServerRequest with
      | false => rfl
      | true =>
          rw [hturn hm] at hwaits
          cases hwaits
    refine ⟨?_, htold ht, ?_⟩
    · rw [Exchanges.arrives, hno]
      exact hwaits
    · rw [hdata]
      exact hno
  · have hr' : g.waiting = some (r, true) := by
      unfold Exchanges.arrives at hr
      split at hr
      · cases hr
      · exact hr
    obtain ⟨hhandle, ht, hw⟩ := h.read r hr'
    refine ⟨?_, htold ht, hwrites.trans hw⟩
    rw [hdata]
    exact hhandle
  · rcases h.replies with ht | ⟨before, r, a, howing⟩
    · exact Or.inl (htold ht)
    · refine Or.inr ⟨before, r, a, howing.keep hstatuses hanswered hflags hlocals (Or.inl hbefore)
        (by rw [hdata]) (by rw [hdata]) (fun hw => hwrites.symm.trans hw) ?_⟩
      exact posted_goes rfl rfl (by decide) howing.goes

theorem flag_replies (a : Answer) {flags : Flags} (h : Flags.replies flags = 0) :
    Flags.replies (flags ||| a.flag) = a.flag := by
  have hflag : a.flag &&& replyMask = a.flag := by cases a <;> decide
  unfold Flags.replies at h ⊢
  rw [BitVec.and_or_distrib_right, h, hflag]
  exact BitVec.zero_or

/-- The request that the worker has read is answered. -/
theorem ConnInv.answered (h : ConnInv s g) {a : Answer} {r : ServerRequest}
    (hevent : s1.data.locEvent = s.data.locEvent)
    (hhandle : s1.data.connHandle = s.data.connHandle)
    (hflags : s1.data.deferredActionFlags = s.data.deferredActionFlags)
    (hpc : s1.pc = s.pc) (hlocals : s1.locals = s.locals) (hlog : s1.log = s.log)
    (hwaits : g.waiting = some (r, true)) (hadmits : r.admits a = true) (hgoes : ¬ s.ending)
    (hon : a = .failed → s1.data.dataConnectionIsOn = r.isOpen) :
    ConnInv ((s1.post a.flag).resume k none) (g.answers a) := by
  obtain ⟨hread, htold, hwrites⟩ := h.read r hwaits
  obtain ⟨hzero, hcopied⟩ := noReply_iff.mp htold.none
  have hg : g.answers a = ⟨none, g.answered ++ [(r, a)]⟩ := by rw [Exchanges.answers, hwaits]
  have hpc' : ((s1.post a.flag).resume k none).pc = s.pc.signalled := by
    rw [resume_pc, post_pc, hpc]
  have hunread : ((s1.post a.flag).resume k none).unread = s.unread := by
    rw [State.unread, State.unread, resume_locals, post_locals, hlocals, hpc']
    exact signalled_apply (WorkerPc.unread s.locals) rfl s.pc
  have hother : ∀ {r' : ServerRequest}, g.waiting ≠ some (r', false) := by
    intro r' hw
    rw [hwaits] at hw
    cases hw
  rw [hg]
  refine ⟨fun hmask => ?_, fun e he hmask => ?_, fun r' hr' => (by cases hr'),
    Or.inr ⟨g.answered, r, a, rfl, hadmits, ?_, ?_, ?_, ?_, ?_, Or.inl ⟨?_, fun hb => ?_⟩⟩⟩
  · rw [resume_data, post_data, raise_data] at hmask
    exact absurd (h.stored (hevent ▸ hmask)).1 hother
  · exact absurd (h.unread e (hunread.symm.trans he) hmask).1 hother
  · rw [← htold.statuses, State.statuses, resume_log, post_log, hlog]
    rfl
  · rw [resume_data, post_data, raise_data]
    exact hhandle.trans hread
  · rw [resume_data, post_data, raise_data]
    exact hon
  · rw [hpc', signalled_apply WorkerPc.writesConn rfl]
    exact hwrites
  · exact posted_goes hpc hflags (by cases a <;> decide) hgoes
  · rw [resume_data, post_data, raise_data, hflags]
    exact flag_replies a hzero
  · rw [hpc', signalled_apply WorkerPc.beforeReply rfl] at hb
    rw [resume_locals, post_locals, hlocals]
    exact hcopied hb

theorem setApn_conn (d : Data) (apn : Option (List Char)) :
    (setApn d apn).locEvent = d.locEvent ∧ (setApn d apn).connHandle = d.connHandle ∧
      (setApn d apn).deferredActionFlags = d.deferredActionFlags := by
  cases apn with
  | some apn =>
      unfold setApn
      dsimp only
      split <;> exact ⟨rfl, rfl, rfl⟩
  | none => exact ⟨rfl, rfl, rfl⟩

/-- What it takes for an answer. -/
theorem answer_admitted {a : Answer} (hk : s.calls[k]? = some c) (hc : c.answer = some a)
    (hturn : inTurn (s, g) (.proceed k ok) = true) (hapart : apart (s, g) (.proceed k ok) = true) :
    ∃ r, g.waiting = some (r, true) ∧ r.admits a = true ∧ ¬ s.ending ∧
      (a = .failed → s.data.dataConnectionIsOn = r.isOpen) := by
  have hturn' : g.admits a = true := by
    unfold inTurn at hturn
    cases c <;> cases hc <;> simpa only [hk, Call.answer, Option.all_some] using hturn
  have hapart' : (decide (¬ s.ending) && (decide (a ≠ .failed) ||
      g.waiting.all fun y => decide (s.data.dataConnectionIsOn = y.1.isOpen))) = true := by
    unfold apart at hapart
    cases c <;> cases hc <;> simpa only [hk, Call.answer, Option.all_some] using hapart
  unfold Exchanges.admits at hturn'
  split at hturn'
  · rename_i r read hwaits
    obtain ⟨rfl, hadmits⟩ := Bool.and_eq_true_iff.mp hturn'
    rw [hwaits, Option.all_some, Bool.and_eq_true, Bool.or_eq_true] at hapart'
    refine ⟨r, hwaits, hadmits, of_decide_eq_true hapart'.1, fun hf => ?_⟩
    rcases hapart'.2 with hne | hon
    · exact absurd hf (of_decide_eq_true hne)
    · exact of_decide_eq_true hon
  · cases hturn'

/-- **The steps of a call.** -/
theorem ConnInv.proceed (h : ConnInv s g) (hk : s.calls[k]? = some c)
    (hturn : inTurn (s, g) (.proceed k ok) = true) (hapart : apart (s, g) (.proceed k ok) = true) :
    ConnInv ((proceed s ok c).1.resume k (proceed s ok c).2) (g.goesOn c) := by
  have hsame : s.data.SameConn s.data := ⟨rfl, rfl, rfl, rfl, rfl⟩
  cases c with
  | event e =>
      simp only [inTurn, hk] at hturn
      simp only [apart, hk] at hapart
      exact h.arrives hk (of_decide_eq_true hturn) (of_decide_eq_true hapart)
  | dataConnOpen apn =>
      obtain ⟨r, hwaits, hadmits, hgoes, hon⟩ := answer_admitted hk rfl hturn hapart
      obtain ⟨hevent, hhandle, hflags⟩ := setApn_conn s.data apn
      show ConnInv (((s.put (setApn s.data apn)).post Answer.opened.flag).resume k none)
        (g.answers .opened)
      exact h.answered hevent hhandle hflags rfl rfl rfl hwaits hadmits hgoes fun hf => by cases hf
  | dataConnClosed =>
      obtain ⟨r, hwaits, hadmits, hgoes, hon⟩ := answer_admitted hk rfl hturn hapart
      show ConnInv ((s.post Answer.closed.flag).resume k none) (g.answers .closed)
      exact h.answered rfl rfl rfl rfl rfl rfl hwaits hadmits hgoes hon
  | dataConnFailed =>
      obtain ⟨r, hwaits, hadmits, hgoes, hon⟩ := answer_admitted hk rfl hturn hapart
      show ConnInv ((s.post Answer.failed.flag).resume k none) (g.answers .failed)
      exact h.answered rfl rfl rfl rfl rfl rfl hwaits hadmits hgoes hon
  | deleteAidingData f =>
      obtain ⟨hdata, hgoes⟩ := deletion_conn s f
      exact h.frame (proceed_frame hk hdata fun _ => hgoes)
  | quit =>
      simp only [apart, hk] at hapart
      refine h.frame (proceed_frame hk ?_ fun hnot => ?_)
      · unfold Engine.proceed
        dsimp only
        split
        · rw [post_data, raise_data]
          exact ⟨rfl, rfl, rfl, rfl, replies_or _ _ (by decide)⟩
        · exact hsame
      · rw [hapart] at hnot
        cases hnot
  | stopped closing =>
      exact h.frame (proceed_frame hk (endSession_conn s.data) fun _ => plain_goes rfl)
  | stop closing =>
      refine h.frame (proceed_frame hk ?_ fun _ => plain_goes rfl)
      unfold Engine.proceed
      dsimp only
      split <;> exact ⟨rfl, rfl, rfl, rfl, rfl⟩
  | xtraSignal =>
      refine h.frame (proceed_frame hk ?_ fun _ => plain_goes rfl)
      unfold Engine.proceed
      rw [signal_eq]
      exact hsame
  | close =>
      refine h.frame (proceed_frame hk ?_ fun _ => plain_goes rfl)
      unfold Engine.proceed
      dsimp only
      split <;> exact ⟨rfl, rfl, rfl, rfl, rfl⟩
  | _ =>
      exact h.frame (proceed_frame hk ⟨rfl, rfl, rfl, rfl, rfl⟩ fun _ => plain_goes rfl)

/-- **Every step that is in turn and apart keeps the invariant.** -/
theorem ConnInv.step {a : Act} (h : ConnInv s g) (hturn : inTurn (s, g) a = true)
    (hapart : apart (s, g) a = true) (hs : Engine.step s a = some s') :
    ConnInv s' (g.after s a s') := by
  cases step_cases hs with
  | opens _ passes c hopens =>
      have hg : g.after s a (s.call passes c) = g := by
        cases a <;> first | rfl | cases hopens
      rw [hg]
      refine h.frame (frame_nudge ?_ (call_locals ..) (Or.inl (call_pc ..)) ?_ fun _ => ?_)
      · rw [call_data]
        exact ⟨rfl, rfl, rfl, rfl, rfl⟩
      · rw [State.statuses, call_log]
        rfl
      · unfold State.ending
        rw [call_data, call_pc]
        exact id
  | agpsInit =>
      exact h.frame (frame_nudge ⟨rfl, rfl, rfl, rfl, rfl⟩ rfl (Or.inl rfl) rfl fun _ => id)
  | xtraInit =>
      exact h.frame (frame_nudge ⟨rfl, rfl, rfl, rfl, rfl⟩ rfl (Or.inl rfl) rfl fun _ => id)
  | noData malloc => exact h
  | buffers data hne =>
      exact h.frame (frame_nudge ⟨rfl, rfl, rfl, rfl, rfl⟩ rfl (Or.inl rfl) rfl fun _ => id)
  | noMemory data hne =>
      exact h.frame (frame_nudge ⟨rfl, rfl, rfl, rfl, rfl⟩ rfl (Or.inl rfl) rfl fun _ => id)
  | proceeds k ok c hk =>
      rw [Exchanges.after, hk]
      exact h.proceed hk hturn hapart
  | spurious hpc =>
      refine h.frame
        (frame_nudge ⟨rfl, rfl, rfl, rfl, rfl⟩ rfl (Or.inr ?_) rfl fun _ hgoes he => ?_)
      · rw [hpc]
        rfl
      · rcases he with hq | hx | hx
        · exact hgoes (Or.inl hq)
        · cases hx
        · cases hx
  | works hw => exact h.work hs

end Calls

/-! ## 7. The worker gets to the answer -/

/-- How far the worker is from its look at the answer. -/
def State.owed (s : State) : Nat :=
  (if Flags.replies s.data.deferredActionFlags = 0 then 0 else 21) + s.pc.rank

section Settling

variable {s s' : State} {g : Exchanges} {before : List (ServerRequest × Answer)}
  {r : ServerRequest} {a : Answer}

/-- While an answer waits, every step of the worker brings it nearer. -/
theorem Owing.owed_lt (h : Owing s g before r a) (hi : ConnInv s g) (hmove : ConnMove s s') :
    s'.owed < s.owed := by
  unfold State.owed
  cases hmove with
  | goesOn hf hrank =>
      rw [hf.flags]
      exact Nat.add_lt_add_left hrank _
  | rests hf hwhy =>
      rcases hwhy with ⟨hpc, hflags⟩ | hending
      · rcases h.place with ⟨hflag, _⟩ | ⟨_, hb, _⟩
        · rw [hflags, replies_zero] at hflag
          exact absurd hflag.symm (flag_ne_zero a)
        · rw [hpc] at hb
          cases hb
      · exact absurd hending h.goes
  | takes s1 hcomes heq =>
      have hflag : Flags.replies s.data.deferredActionFlags ≠ 0 := by
        rcases h.place with ⟨hflag, _⟩ | ⟨_, hb, _⟩
        · rw [hflag]
          exact flag_ne_zero a
        · rw [comes_beforeReply hcomes] at hb
          cases hb
      have hzero : Flags.replies s'.data.deferredActionFlags = 0 := by
        rw [heq]
        exact replies_zero
      rw [if_neg hflag, if_pos hzero, heq]
      show 0 + 19 < 21 + _
      omega
  | reads e hpc he heq =>
      have hun : s.unread = some e := by rw [State.unread, hpc]; rfl
      have hnone := (hi.unread e hun he).2.1.none
      rw [h.noReply] at hnone
      cases hnone
  | replies _ _ hdata _ _ _ hrank _ =>
      rw [hdata]
      exact Nat.add_lt_add_left hrank _

/-- A worker that has an answer to handle is awake. -/
theorem Owing.awake (h : Owing s g before r a)
    (hasleep : s.pc = .waiting → s.data.deferredActionFlags = 0) :
    ∃ s', Engine.work s = some s' := by
  refine Option.isSome_iff_exists.mp (work_isSome (fun hw => ?_) fun hd => ?_)
  · rcases h.place with ⟨hflag, _⟩ | ⟨_, hb, _⟩
    · rw [hasleep hw, replies_zero] at hflag
      exact flag_ne_zero a hflag.symm
    · rw [hw] at hb
      cases hb
  · exact h.goes (Or.inr (Or.inr hd))

/-- Reading a request answers none. -/
theorem reads_answered (g : Exchanges) (s : State) : (g.reads s).answered = g.answered := by
  unfold Exchanges.reads
  split
  · split <;> rfl
  · rfl

/-- **The worker gets to the answer**: its own steps lead to where every answer has its status. -/
theorem conn_settles (h : ConnInv s g)
    (hasleep : s.pc = .waiting → s.data.deferredActionFlags = 0) :
    ∃ s', Reach step (fun _ a => a = .work) s s' ∧ s'.statuses = g.answered.map due := by
  -- an answer that waits is taken within a round, and handled within the next
  induction hn : s.owed using Nat.strong_induction_on generalizing s g with
  | _ n ih =>
      rcases h.replies with htold | ⟨before, r, a, howing⟩
      · exact ⟨s, .start, htold.statuses⟩
      · obtain ⟨s', hs⟩ := howing.awake hasleep
        have hlt := howing.owed_lt h (work_conn hs)
        have hfirst : Reach step (fun _ a => a = .work) s s' := .next .work .start rfl hs
        obtain ⟨s2, hr, hstatuses⟩ := ih s'.owed (hn ▸ hlt) (h.work hs)
          (asleep_step hasleep (.works (work_cases hs))) rfl
        rw [reads_answered] at hstatuses
        exact ⟨s2, hfirst.trans hr, hstatuses⟩

end Settling

/-! ## 8. Results -/

theorem connInv_init (clientHandle : Int) (statusCb : Bool) :
    ConnInv (init clientHandle statusCb) Exchanges.init :=
  ⟨fun hz => absurd (no_request.symm.trans hz) Bool.false_ne_true, fun _ he => (by cases he),
    fun _ hr => (by cases hr),
    Or.inl ⟨rfl, noReply_iff.mpr ⟨replies_zero, fun hb => (by cases hb)⟩⟩⟩

/-- **Answers reach the modem.** In every run in which requests and answers take turns and exchanges
    are apart, the statuses sent to the modem are those that are due for the answers given, in
    order, but for the last one at most; and the worker's own steps send that one too. -/
theorem answers_reach_the_modem {clientHandle : Int} {statusCb : Bool} {s : State} {g : Exchanges}
    (hr : Reach (tracked step Exchanges.after) (fun x a => inTurn x a = true ∧ apart x a = true)
      (init clientHandle statusCb, Exchanges.init) (s, g)) :
    (s.statuses = g.answered.map due ∨ s.statuses = (g.answered.map due).dropLast) ∧
      ∃ s', Reach step (fun _ a => a = .work) s s' ∧ s'.statuses = g.answered.map due := by
  have h : ConnInv s g ∧ (s.pc = .waiting → s.data.deferredActionFlags = 0) := by
    refine hr.inv (I := fun x => ConnInv x.1 x.2 ∧
        (x.1.pc = .waiting → x.1.data.deferredActionFlags = 0))
      ⟨connInv_init clientHandle statusCb, fun _ => rfl⟩ fun x a x' hi hc hs => ?_
    obtain ⟨hstep, hafter⟩ := tracked_eq_some hs
    rw [hafter]
    exact ⟨hi.1.step hc.1 hc.2 hstep, asleep_step hi.2 (step_cases hstep)⟩
  refine ⟨?_, conn_settles h.1 h.2⟩
  rcases h.1.replies with htold | ⟨before, r, a, howing⟩
  · exact Or.inl htold.statuses
  · refine Or.inr ?_
    rw [howing.statuses, howing.answered, List.map_append, List.map_singleton,
      List.dropLast_concat]

/-- A server request from the modem. -/
def serverEvent (r : ServerRequest) : Act :=
  .event 1 locationServerRequest ⟨0, .other, .other, r⟩

/-- Connection 7 is opened, and closed. -/
theorem answers_reach_the_modem_twice :
    ∃ x, Reach (tracked step Exchanges.after) (fun x a => inTurn x a = true ∧ apart x a = true)
        (init 1 true, Exchanges.init) x ∧
      x.2.answered = [(.openReq 7, .opened), (.closeReq 7, .closed)] ∧
      ∃ s', Reach step (fun _ a => a = .work) x.1 s' ∧
        s'.statuses = [⟨true, 7, true⟩, ⟨false, 7, true⟩] := by
  have hrun : runTest (tracked step Exchanges.after) (fun x a => inTurn x a && apart x a)
      (init 1 true, Exchanges.init)
      (List.flatten [[serverEvent (.openReq 7), .proceed 0 true], List.replicate 10 .work,
        [.dataConnOpen none, .proceed 0 true], List.replicate 8 .work,
        [serverEvent (.closeReq 7), .proceed 0 true], List.replicate 10 .work,
        [.dataConnClosed, .proceed 0 true]])
      (fun x => decide (x.2.answered = [(.openReq 7, .opened), (.closeReq 7, .closed)])) =
        true := by
    decide
  obtain ⟨⟨s, g⟩, hr, hp⟩ := reach_of_runTest hrun
  have hanswered : g.answered = _ := of_decide_eq_true hp
  have hr' := hr.weaken fun _ _ h => Bool.and_eq_true_iff.mp h
  obtain ⟨_, s', hwork, hstatuses⟩ := answers_reach_the_modem hr'
  refine ⟨(s, g), hr', hanswered, s', hwork, ?_⟩
  rw [hstatuses, hanswered]
  rfl

/-- **A failed open is reported as a failed close.** The first request of a fresh engine is to open
    connection 7; it fails; the worker sends a close status and sleeps. -/
theorem failed_open_reported_as_close :
    ∃ x, Reach (tracked step Exchanges.after) (fun x a => inTurn x a = true)
        (init 1 true, Exchanges.init) x ∧
      x.2 = ⟨none, [(.openReq 7, .failed)]⟩ ∧ x.1.statuses = [⟨false, 7, false⟩] ∧
      x.1.pc = .waiting := by
  have hrun : runTest (tracked step Exchanges.after) inTurn (init 1 true, Exchanges.init)
      (List.flatten [[serverEvent (.openReq 7), .proceed 0 true], List.replicate 10 .work,
        [.dataConnFailed, .proceed 0 true], List.replicate 9 .work])
      (fun x => decide (x.2 = ⟨none, [(.openReq 7, .failed)]⟩ ∧
        x.1.statuses = [⟨false, 7, false⟩] ∧ x.1.pc = .waiting)) = true := by
    decide
  obtain ⟨x, hr, hp⟩ := reach_of_runTest hrun
  exact ⟨x, hr, of_decide_eq_true hp⟩

/-- The next request comes in before the worker has taken the answer to the one before: the worker
    reads the new handle first, and the status that is due for 7 goes out for 8. -/
example : runTest (tracked step Exchanges.after) inTurn (init 1 true, Exchanges.init)
    (List.flatten [[serverEvent (.openReq 7), .proceed 0 true], List.replicate 10 .work,
      [.dataConnOpen none, .proceed 0 true, serverEvent (.closeReq 8), .proceed 0 true],
      List.replicate 10 .work])
    (fun x => decide (x.2.answered = [(.openReq 7, .opened)] ∧
      x.1.statuses = [⟨true, 8, true⟩])) = true := by
  decide

end Y210.Gps.Engine

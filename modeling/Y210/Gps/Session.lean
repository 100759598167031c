/-
  File:      Y210/Gps/Session.lean
  Subject:   THE SESSION AS THE FRAMEWORK SEES IT, and `fix_session_status`.

  The framework knows the session by its callbacks: SESSION_BEGIN begins it, SESSION_END and
  ENGINE_OFF end it, and so does a new `loc_eng_init`. `loc_inform_gps_status` replays SESSION_BEGIN
  after an "engine on" when the status it reported last was SESSION_BEGIN; that status is a static
  variable, which no `loc_eng_init` resets. So the replay may be of a session of the life before.

  Events and calls come one after the other here, each of them whole, from the functions of
  Engine.lean.

  * `Session.step` -- one event or call;
  * `Agrees`, `session_agrees` -- belief and status agree as long as no old session is replayed;
  * `old_session_replayed` for one that is.
-/
import Y210.Gps.Engine
import Y210.Lib.Run

namespace Y210.Gps.Engine

open Y210.Lib

/-! ## 1. Calls one after the other -/

/-- `loc_eng_stop`, with the result of `loc_stop_fix`. -/
def locEngStop (d : Data) (ok : Bool) : Data × List Obs :=
  if d.inited then
    if d.agpsRequestPending then ({ d with stopRequestPending := true }, [])
    else if ok then endSession d
    else (d, [])
  else (d, [])

/-- `loc_eng_start`, with the result of `loc_start_fix`. -/
def locEngStart (d : Data) (ok : Bool) : Data :=
  if d.inited && ok then { d with navigating := true } else d

/-- `loc_eng_deinit`. -/
def locEngDeinit (d : Data) (ok : Bool) : Data × List Obs :=
  if d.inited then
    let r := if d.navigating then locEngStop d ok else (d, [])
    ({ r.1 with navigating := false, clientOpened := false, inited := false }, r.2)
  else (d, [])

/-- `loc_eng_init`: a running engine is shut down first, and everything but the static variable of
    `loc_inform_gps_status` is set anew. -/
def locEngInit (d : Data) (ok : Bool) (clientHandle : Int) (statusCb : Bool) : Data × List Obs :=
  let r := locEngDeinit d ok
  ({ (init clientHandle statusCb).data with lastStatus := r.1.lastStatus }, r.2)

/-- The engine, and whether the framework believes in a session. -/
structure Session where
  data : Data
  belief : Bool
  deriving DecidableEq

/-- What a callback makes of the framework's belief. -/
def believes (belief : Bool) : Obs → Bool
  | .gpsStatus .sessionBegin => true
  | .gpsStatus .sessionEnd => false
  | .gpsStatus .engineOff => false
  | _ => belief

def Session.tell (x : Session) (r : Data × List Obs) : Session :=
  ⟨r.1, r.2.foldl believes x.belief⟩

/-- An event or a call: `connRequest` and `connReply` begin and end the time in which a stop is
    deferred. -/
inductive Session.Act where
  | report (r : StatusReport)
  | start (ok : Bool)
  | stop (ok : Bool)
  | connRequest (r : ServerRequest)
  | connReply
  | reinit (ok : Bool) (clientHandle : Int) (statusCb : Bool)

/-- **One event or call.** -/
def Session.step (x : Session) : Session.Act → Option Session
  | .report r =>
    let y := x.tell (reportStatus x.data r)
    some { y with data := muteSession y.data }
  | .start ok => some { x with data := locEngStart x.data ok }
  | .stop ok => some (x.tell (locEngStop x.data ok))
  | .connRequest r => some { x with data := processConnRequest x.data r }
  | .connReply => some { x with data := { x.data with agpsRequestPending := false } }
  | .reinit ok clientHandle statusCb =>
    some { x.tell (locEngInit x.data ok clientHandle statusCb) with belief := false }

/-- After the first `loc_eng_init`. -/
def Session.first (clientHandle : Int) : Session := ⟨(init clientHandle true).data, false⟩

/-- **No old session is replayed**: an engine that comes on outside of a session finds another
    status than SESSION_BEGIN reported last; and the framework has a status callback. -/
def noReplay (x : Session) : Session.Act → Bool
  | .report (.engineState true) =>
    decide (x.data.engineStatus ≠ .engineOn → x.data.fixSessionStatus ≠ .sessionBegin →
      x.data.lastStatus ≠ .sessionBegin)
  | .reinit _ _ statusCb => statusCb
  | _ => true

/-! ## 2. Belief and status -/

/-- **Belief and status agree**, and a session means an engine that is on. -/
structure Agrees (x : Session) : Prop where
  callback : x.data.statusCb = true
  session : x.belief = true ↔ x.data.fixSessionStatus = .sessionBegin
  engine : x.data.fixSessionStatus = .sessionBegin → x.data.engineStatus = .engineOn

section Steps

variable {x x' : Session}

theorem inform_told {d : Data} (h : d.statusCb = true) (belief : Bool) (st : GpsStatus)
    (hst : st = .engineOn → d.lastStatus ≠ .sessionBegin) :
    (inform d st).2.foldl believes belief = believes belief (.gpsStatus st) := by
  have hif : ¬ (st = .engineOn ∧ d.lastStatus = .sessionBegin) := fun hr => hst hr.1 hr.2
  unfold inform
  rw [if_pos h, if_neg hif]
  rfl

/-- The engine is reported on: outside of a session this may be news, and is not followed by an old
    session. -/
theorem Agrees.engineOn (h : Agrees x) (hno : noReplay x (.report (.engineState true)) = true) :
    Agrees (x.tell (reportStatus x.data (.engineState true))) := by
  have hreport : reportStatus x.data (.engineState true) =
      if x.data.fixSessionStatus ≠ .sessionBegin ∧ x.data.engineStatus ≠ .engineOn then
        inform { x.data with engineStatus := .engineOn } .engineOn
      else ({ x.data with engineStatus := .engineOn }, []) := by
    unfold reportStatus
    simp only [setStatus, ne_eq, not_true_eq_false, and_false, if_false, List.append_nil]
    rfl
  rw [hreport]
  split
  · rename_i hnews
    have hlast := of_decide_eq_true hno hnews.2 hnews.1
    have htold := inform_told (d := { x.data with engineStatus := .engineOn }) h.callback x.belief
      .engineOn fun _ => hlast
    refine ⟨h.callback, ?_, fun _ => rfl⟩
    rw [Session.tell, htold]
    exact h.session
  · exact ⟨h.callback, h.session, fun _ => rfl⟩

/-- The engine is reported off, which ends the session. -/
theorem Agrees.engineOff (h : Agrees x) :
    Agrees (x.tell (reportStatus x.data (.engineState false))) := by
  have hreport : reportStatus x.data (.engineState false) =
      if x.data.engineStatus ≠ .engineOff then
        inform { x.data with engineStatus := .engineOff, fixSessionStatus := .sessionEnd }
          .engineOff
      else ({ x.data with engineStatus := .engineOff, fixSessionStatus := .sessionEnd }, []) := by
    unfold reportStatus
    simp [setStatus]
  rw [hreport]
  split
  · have htold := inform_told
      (d := { x.data with engineStatus := .engineOff, fixSessionStatus := .sessionEnd }) h.callback
      x.belief .engineOff nofun
    refine ⟨h.callback, ?_, nofun⟩
    rw [Session.tell, htold]
    exact ⟨nofun, nofun⟩
  · rename_i hoff
    refine ⟨h.callback, ⟨fun hb => ?_, nofun⟩, nofun⟩
    have hon := h.engine (h.session.mp hb)
    rw [Decidable.of_not_not hoff] at hon
    cases hon

/-- A session is reported to begin. -/
theorem Agrees.sessionBegin (h : Agrees x) :
    Agrees (x.tell (reportStatus x.data (.fixSessionState true))) := by
  have hreport : reportStatus x.data (.fixSessionState true) =
      if x.data.fixSessionStatus ≠ .sessionBegin then
        inform { x.data with engineStatus := .engineOn, fixSessionStatus := .sessionBegin }
          .sessionBegin
      else ({ x.data with engineStatus := .engineOn, fixSessionStatus := .sessionBegin }, []) := by
    unfold reportStatus
    simp [setStatus]
  rw [hreport]
  split
  · have htold := inform_told
      (d := { x.data with engineStatus := .engineOn, fixSessionStatus := .sessionBegin }) h.callback
      x.belief .sessionBegin nofun
    refine ⟨h.callback, ?_, fun _ => rfl⟩
    rw [Session.tell, htold]
    exact ⟨fun _ => rfl, fun _ => rfl⟩
  · rename_i hs
    exact ⟨h.callback, ⟨fun _ => rfl, fun _ => h.session.mpr (Decidable.of_not_not hs)⟩,
      fun _ => rfl⟩

theorem reportStatus_same {d : Data} {r : StatusReport} (h : setStatus d r = d) :
    reportStatus d r = (d, []) := by
  unfold reportStatus
  simp [h]

theorem Agrees.report (h : Agrees x) {r : StatusReport} (hno : noReplay x (.report r) = true) :
    Agrees (x.tell (reportStatus x.data r)) := by
  have hsame : Agrees (x.tell (x.data, [])) := ⟨h.callback, h.session, h.engine⟩
  cases r with
  | engineState on => cases on with
    | true => exact h.engineOn hno
    | false => exact h.engineOff
  | fixSessionState begins => cases begins with
    | true => exact h.sessionBegin
    | false =>
        rw [reportStatus_same rfl]
        exact hsame
  | other =>
      rw [reportStatus_same rfl]
      exact hsame

/-- Whatever leaves both statuses and the callback alone. -/
theorem Agrees.same (h : Agrees x) {d : Data} (hcb : d.statusCb = x.data.statusCb)
    (hs : d.fixSessionStatus = x.data.fixSessionStatus)
    (he : d.engineStatus = x.data.engineStatus) : Agrees { x with data := d } := by
  refine ⟨hcb.trans h.callback, ?_, ?_⟩
  · rw [hs]
    exact h.session
  · rw [hs, he]
    exact h.engine

/-- The session is ended. -/
theorem Agrees.endSession (h : Agrees x) : Agrees (x.tell (endSession x.data)) := by
  unfold Engine.endSession
  dsimp only
  split
  · split
    · have htold := inform_told (d := { x.data with fixSessionStatus := .sessionEnd }) h.callback
        x.belief .sessionEnd nofun
      refine ⟨h.callback, ?_, nofun⟩
      rw [Session.tell, htold]
      exact ⟨nofun, nofun⟩
    · -- an engine that is off has no session to end
      rename_i hoff
      refine ⟨h.callback, ⟨fun hb => ?_, nofun⟩, nofun⟩
      have hon := h.engine (h.session.mp hb)
      rw [Decidable.of_not_not hoff] at hon
      cases hon
  · exact ⟨h.callback, h.session, h.engine⟩

theorem Agrees.stop (h : Agrees x) (ok : Bool) : Agrees (x.tell (locEngStop x.data ok)) := by
  unfold locEngStop
  split
  · split
    · exact ⟨h.callback, h.session, h.engine⟩
    · split
      · exact h.endSession
      · exact ⟨h.callback, h.session, h.engine⟩
  · exact ⟨h.callback, h.session, h.engine⟩

/-- **Every event and every call** that replays no old session keeps belief and status in
    agreement. -/
theorem Agrees.step {a : Session.Act} (h : Agrees x) (hno : noReplay x a = true)
    (hs : x.step a = some x') : Agrees x' := by
  cases a with
  | report r =>
      cases hs
      have hreport := h.report hno
      refine hreport.same ?_ ?_ ?_ <;> (unfold muteSession; split <;> rfl)
  | start ok =>
      cases hs
      refine h.same ?_ ?_ ?_ <;> (unfold locEngStart; split <;> rfl)
  | stop ok =>
      cases hs
      exact h.stop ok
  | connRequest r =>
      cases hs
      cases r <;> exact h.same rfl rfl rfl
  | connReply =>
      cases hs
      exact h.same rfl rfl rfl
  | reinit ok clientHandle statusCb =>
      cases hs
      exact ⟨hno, ⟨nofun, nofun⟩, nofun⟩

end Steps

/-- **Belief and status agree.** After every sequence of events, calls and re-initialisations in
    which no old session is replayed, the framework believes in a session exactly when
    `fix_session_status` is SESSION_BEGIN, and then the engine is on. -/
theorem session_agrees {clientHandle : Int} {x : Session}
    (hr : Reach Session.step (fun x a => noReplay x a = true) (Session.first clientHandle) x) :
    (x.belief = true ↔ x.data.fixSessionStatus = .sessionBegin) ∧
      (x.belief = true → x.data.engineStatus = .engineOn) := by
  have hfirst : Agrees (Session.first clientHandle) :=
    ⟨rfl, ⟨nofun, nofun⟩, nofun⟩
  have h : Agrees x := hr.inv hfirst fun _ _ _ hi hno hs => hi.step hno hs
  exact ⟨h.session, fun hb => h.engine (h.session.mp hb)⟩

/-- A session that is ended before the engine is set up anew is not replayed. -/
theorem session_agrees_again :
    ∃ x, Reach Session.step (fun x a => noReplay x a = true) (Session.first 1) x ∧
      x.belief = true ∧ x.data.fixSessionStatus = .sessionBegin ∧ x.data.clientHandle = 2 := by
  have hrun : runTest Session.step noReplay (Session.first 1)
      [.start true, .report (.fixSessionState true), .reinit true 2 true,
        .report (.engineState true), .start true, .report (.fixSessionState true)]
      (fun x => decide (x.belief = true ∧ x.data.clientHandle = 2)) = true := by
    decide
  obtain ⟨x, hr, hp⟩ := reach_of_runTest hrun
  obtain ⟨hb, hclient⟩ := of_decide_eq_true hp
  exact ⟨x, hr, hb, (session_agrees hr).1.mp hb, hclient⟩

/-- **An old session replayed.** The session is on when the engine is set up anew, without a fix of
    its own to be stopped; the first "engine on" of the new life tells the framework of a session
    that there is not. -/
theorem old_session_replayed :
    ∃ x, Reach Session.step Always (Session.first 1) x ∧
      x.belief = true ∧ x.data.fixSessionStatus = .none := by
  have hrun : runTest Session.step (fun _ _ => true) (Session.first 1)
      [.report (.fixSessionState true), .reinit true 2 true, .report (.engineState true)]
      (fun x => decide (x.belief = true ∧ x.data.fixSessionStatus = .none)) = true := by
    decide
  obtain ⟨x, hr, hp⟩ := reach_of_runTest hrun
  exact ⟨x, hr.always, of_decide_eq_true hp⟩

end Y210.Gps.Engine

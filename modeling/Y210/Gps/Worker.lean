/-
  File:      Y210/Gps/Worker.lean
  Subject:   WHAT OTHERS DO TO THE WORKER, and what goes to the modem.

  * `Nudge`, `step_nudge`, `step_engine` -- what a step of somebody else does to the worker, and
    what only the worker writes;
  * `State.sends`, `step_sends` -- what a step sends to the modem.
-/
import Y210.Gps.EngineFrame

namespace Y210.Gps.Engine

open Y210.Gps.SyncCall (EventMask)

/-! ## 1. What others do to the worker -/

/-- **A step of somebody else**: it leaves the worker alone, signals it, or sets a flag for it with
    the wake lock held. -/
inductive Nudge (s s' : State) : Prop where
  | none (hpc : s'.pc = s.pc) (hflags : s'.data.deferredActionFlags = s.data.deferredActionFlags)
      (hlock : s'.wakeLock = s.wakeLock)
  | signals (hpc : s'.pc = s.pc.signalled)
      (hflags : s'.data.deferredActionFlags = s.data.deferredActionFlags)
      (hlock : s'.wakeLock = s.wakeLock)
  | posts (hpc : s'.pc = s.pc.signalled) (hflags : s'.data.deferredActionFlags ≠ 0)
      (hlock : s'.wakeLock = true)

section Nudges

variable {s s' : State} {a : Act}

theorem Nudge.pc_eq (h : Nudge s s') : s'.pc = s.pc ∨ s'.pc = s.pc.signalled := by
  cases h with
  | none hpc _ _ => exact Or.inl hpc
  | signals hpc _ _ => exact Or.inr hpc
  | posts hpc _ _ => exact Or.inr hpc

theorem nudge_post {flag : Flags} (hpc : s'.pc = s.pc) (hflag : flag ≠ 0) :
    Nudge s (s'.post flag) := by
  rw [post_eq]
  refine .posts ?_ (fun hz => hflag (BitVec.or_eq_zero_iff.mp hz).2) rfl
  rw [at_pc, hpc]

theorem proceed_nudge (s : State) (ok : Bool) (c : Call) : Nudge s (proceed s ok c).1 := by
  cases c with
  | event e => exact nudge_post rfl (by decide)
  | deleteAidingData f =>
      have hrec : (recordDeletion s f).pc = s.pc ∧ (recordDeletion s f).wakeLock = s.wakeLock ∧
          (recordDeletion s f).data.deferredActionFlags = s.data.deferredActionFlags := by
        unfold recordDeletion
        split <;> exact ⟨rfl, rfl, rfl⟩
      unfold proceed deleteAidingData
      dsimp only
      split
      · exact nudge_post hrec.1 (by decide)
      · exact .none hrec.1 hrec.2.2 hrec.2.1
  | stop closing =>
      unfold proceed
      dsimp only
      split <;> exact .none rfl rfl rfl
  | stopped closing => exact .none rfl (endSession_quiet s.data).1.flags rfl
  | dataConnOpen apn => exact nudge_post rfl (by decide)
  | dataConnClosed | dataConnFailed => exact nudge_post rfl (by decide)
  | xtraSignal =>
      unfold proceed
      rw [signal_eq]
      exact .signals rfl rfl rfl
  | close =>
      unfold proceed
      dsimp only
      split <;> exact .none rfl rfl rfl
  | quit =>
      unfold proceed
      dsimp only
      split
      · exact nudge_post rfl (by decide)
      · exact .none rfl rfl rfl
  | _ => exact .none rfl rfl rfl

theorem step_nudge (hs : Step s a s') (ha : a ≠ .work) : Nudge s s' := by
  cases hs with
  | opens _ passes c h => exact .none (call_pc ..) (by rw [call_data]) (call_wakeLock ..)
  | agpsInit => exact .none rfl rfl rfl
  | xtraInit => exact .none rfl rfl rfl
  | noData malloc => exact .none rfl rfl rfl
  | buffers data hne => exact .none rfl rfl rfl
  | noMemory data hne => exact .none rfl rfl rfl
  | proceeds k ok c hk =>
      cases proceed_nudge s ok c with
      | none hpc hflags hlock =>
          exact .none (by rw [resume_pc, hpc]) (by rw [resume_data, hflags])
            (by rw [resume_wakeLock, hlock])
      | signals hpc hflags hlock =>
          exact .signals (by rw [resume_pc, hpc]) (by rw [resume_data, hflags])
            (by rw [resume_wakeLock, hlock])
      | posts hpc hflags hlock =>
          exact .posts (by rw [resume_pc, hpc]) (by rw [resume_data]; exact hflags)
            (by rw [resume_wakeLock, hlock])
  | spurious hpc =>
      refine .signals ?_ rfl rfl
      rw [at_pc, hpc]
      rfl
  | works h => exact absurd rfl ha

theorem setApn_engine (d : Data) (apn : Option (List Char)) :
    (setApn d apn).engineStatus = d.engineStatus := by
  cases apn with
  | some apn =>
      unfold setApn
      dsimp only
      split <;> rfl
  | none => rfl

theorem endSession_engine (d : Data) : (endSession d).1.engineStatus = d.engineStatus := by
  unfold endSession
  dsimp only
  split
  · split <;> rfl
  · rfl

theorem post_engine (s : State) (flag : Flags) :
    (s.post flag).data.engineStatus = s.data.engineStatus ∧ (s.post flag).locals = s.locals := by
  rw [post_data, post_locals]
  exact ⟨rfl, rfl⟩

theorem proceed_engine (s : State) (ok : Bool) (c : Call) :
    (proceed s ok c).1.data.engineStatus = s.data.engineStatus ∧
      (proceed s ok c).1.locals = s.locals := by
  cases c with
  | event e => exact post_engine _ _
  | deleteAidingData f =>
      have hrec : (recordDeletion s f).data.engineStatus = s.data.engineStatus ∧
          (recordDeletion s f).locals = s.locals := by
        unfold recordDeletion
        split <;> exact ⟨rfl, rfl⟩
      unfold proceed deleteAidingData
      dsimp only
      split
      · have hpost := post_engine (recordDeletion s f) actionDeleteAiding
        exact ⟨hpost.1.trans hrec.1, hpost.2.trans hrec.2⟩
      · exact hrec
  | stop closing =>
      unfold proceed
      dsimp only
      split <;> exact ⟨rfl, rfl⟩
  | stopped closing => exact ⟨endSession_engine s.data, rfl⟩
  | dataConnOpen apn =>
      have hpost := post_engine (s.put (setApn s.data apn)) actionAgpsDataSuccess
      exact ⟨hpost.1.trans (setApn_engine s.data apn), hpost.2⟩
  | dataConnClosed | dataConnFailed => exact post_engine _ _
  | xtraSignal =>
      unfold proceed
      rw [signal_eq]
      exact ⟨rfl, rfl⟩
  | close =>
      unfold proceed
      dsimp only
      split <;> exact ⟨rfl, rfl⟩
  | quit =>
      unfold proceed
      dsimp only
      split
      · exact post_engine _ _
      · exact ⟨rfl, rfl⟩
  | _ => exact ⟨rfl, rfl⟩

theorem proceed_calls (s : State) (ok : Bool) (c : Call) : (proceed s ok c).1.calls = s.calls := by
  cases c with
  | event e => exact post_calls _ _
  | deleteAidingData f =>
      have hrec : (recordDeletion s f).calls = s.calls := by
        unfold recordDeletion
        split <;> rfl
      unfold proceed deleteAidingData
      dsimp only
      split
      · exact (post_calls _ _).trans hrec
      · exact hrec
  | stop closing =>
      unfold proceed
      dsimp only
      split <;> rfl
  | dataConnOpen apn => exact post_calls _ _
  | dataConnClosed | dataConnFailed => exact post_calls _ _
  | xtraSignal =>
      unfold proceed
      rw [signal_eq]
      rfl
  | close =>
      unfold proceed
      dsimp only
      split <;> rfl
  | quit =>
      unfold proceed
      dsimp only
      split
      · exact post_calls _ _
      · rfl
  | _ => rfl

/-- The engine's status and the worker's copies are the worker's to write. -/
theorem step_engine (hs : Step s a s') (ha : a ≠ .work) :
    s'.data.engineStatus = s.data.engineStatus ∧ s'.locals = s.locals := by
  cases hs with
  | opens _ passes c h => rw [call_data, call_locals]; exact ⟨rfl, rfl⟩
  | agpsInit | xtraInit | noData _ | buffers _ _ | noMemory _ _ | spurious _ => exact ⟨rfl, rfl⟩
  | proceeds k ok c hk =>
      rw [resume_data, resume_locals]
      exact proceed_engine s ok c
  | works h => exact absurd rfl ha

end Nudges

/-- The worker waits only when it found no flag set; whoever sets one wakes it. -/
theorem asleep_step {s s' : State} {a : Act}
    (h : s.pc = .waiting → s.data.deferredActionFlags = 0) (hs : Step s a s') :
    s'.pc = .waiting → s'.data.deferredActionFlags = 0 := by
  intro hw
  by_cases ha : a = .work
  · subst ha
    cases hs with
    | opens _ passes c hopens => cases hopens
    | works hwork =>
        cases hwork with
        | sleeps _ hflags => exact hflags
        | dataSet success _ => cases success <;> cases hw
        | _ => cases hw
  · cases step_nudge hs ha with
    | none hpc hflags _ => exact hflags.trans (h (hpc.symm.trans hw))
    | signals hpc _ _ => exact absurd (hpc.symm.trans hw) (signalled_ne_waiting _)
    | posts hpc _ _ => exact absurd (hpc.symm.trans hw) (signalled_ne_waiting _)

/-! ## 2. What goes to the modem -/

/-- The observation is an ioctl or another call to the modem. -/
def Obs.toModem : Obs → Bool
  | .deleteAssistData _ | .injectXtra _ | .serverOpenStatus _ _ _ | .serverCloseStatus _ _
  | .startFix | .stopFix | .close => true
  | _ => false

/-- What the modem has been sent. -/
def State.sent (s : State) : List Obs := s.log.filter Obs.toModem

/-- The status the worker sends when it handles the connectivity manager's reply. -/
def State.serverStatus (s : State) : List Obs :=
  if Flags.has s.locals.flags actionAgpsDataSuccess then
    [.serverOpenStatus s.data.connHandle true s.data.apnName]
  else if Flags.has s.locals.flags actionAgpsDataClosed then
    [.serverCloseStatus s.data.connHandle true]
  else if Flags.has s.locals.flags actionAgpsDataFailed then
    if s.data.dataConnectionIsOn then [.serverOpenStatus s.data.connHandle false s.data.apnName]
    else [.serverCloseStatus s.data.connHandle false]
  else []

/-- What the worker sends from where it stands. -/
def State.workSends (s : State) : List Obs :=
  match s.pc with
  | .aidingIoctl type => [.deleteAssistData type]
  | .xtraInject data => data.toList.map .injectXtra
  | .dataConn => s.serverStatus
  | .stop => if s.data.stopRequestPending then [.stopFix] else []
  | _ => []

/-- What a call sends from where it stands. -/
def State.callSends (s : State) : Call → List Obs
  | .start => [.startFix]
  | .stopFix _ => [.stopFix]
  | .close => if s.data.clientOpened then [.close] else []
  | _ => []

/-- **What a step sends to the modem.** -/
def State.sends (s : State) : Act → List Obs
  | .proceed k _ => (s.calls[k]?).elim [] s.callSends
  | .work => s.workSends
  | _ => []

section Sends

variable {s s' : State} {a : Act}

theorem sent_say (s : State) (l : List Obs) : (s.say l).sent = s.sent ++ l.filter Obs.toModem :=
  List.filter_append ..

theorem sent_quiet {l : List Obs} (h : ∀ o ∈ l, o.toModem = false) : (s.say l).sent = s.sent := by
  have hnil : l.filter Obs.toModem = [] :=
    List.filter_eq_nil_iff.mpr fun o ho => by rw [h o ho]; exact Bool.false_ne_true
  rw [sent_say, hnil, List.append_nil]

theorem inform_toModem (d : Data) (st : GpsStatus) : ∀ o ∈ (inform d st).2, o.toModem = false := by
  intro o ho
  unfold inform at ho
  dsimp only at ho
  split at ho
  · rcases List.mem_cons.mp ho with rfl | ho
    · rfl
    · split at ho
      · obtain rfl := List.mem_singleton.mp ho
        rfl
      · cases ho
  · cases ho

theorem reportStatus_toModem (d : Data) (report : StatusReport) :
    ∀ o ∈ (reportStatus d report).2, o.toModem = false := by
  have hif : ∀ (c : Prop) [Decidable c] (d1 : Data) (st : GpsStatus),
      ∀ o ∈ (if c then inform d1 st else (d1, [])).2, o.toModem = false := by
    intro c _ d1 st o ho
    split at ho
    · exact inform_toModem d1 st o ho
    · cases ho
  intro o ho
  rcases List.mem_append.mp ho with ho | ho
  · exact hif _ _ _ o ho
  · exact hif _ _ _ o ho

theorem endSession_toModem (d : Data) : ∀ o ∈ (endSession d).2, o.toModem = false := by
  intro o ho
  unfold endSession at ho
  dsimp only at ho
  split at ho
  · split at ho
    · exact inform_toModem _ _ o ho
    · cases ho
  · cases ho

theorem toModem_ite {o : Obs} (c : Prop) [Decidable c] (h : o.toModem = false) :
    ∀ x ∈ (if c then [o] else []), x.toModem = false := by
  intro x hx
  split at hx
  · obtain rfl := List.mem_singleton.mp hx
    exact h
  · cases hx

theorem reportFix_toModem (d : Data) (e : Event) : ∀ o ∈ reportFix d e, o.toModem = false := by
  intro o ho
  rcases List.mem_append.mp ho with ho | ho
  · exact toModem_ite _ rfl o ho
  · exact toModem_ite _ rfl o ho

theorem reportNmea_toModem (d : Data) (e : Event) :
    ∀ o ∈ (reportNmea d e).2, o.toModem = false := by
  intro o ho
  unfold reportNmea at ho
  dsimp only at ho
  split at ho
  · rcases List.mem_append.mp ho with ho | ho
    · exact toModem_ite _ rfl o ho
    · obtain rfl := List.mem_singleton.mp ho
      rfl
  · exact toModem_ite _ rfl o ho

theorem work_sends (hw : Work s s') : s'.sent = s.sent ++ s.workSends := by
  have hnone : ∀ {pc : WorkerPc}, s.pc = pc → { s with pc := pc }.workSends = [] →
      s'.sent = s.sent → s'.sent = s.sent ++ s.workSends := by
    rintro pc rfl hnil hsame
    rw [hnil, hsame, List.append_nil]
  cases hw with
  | quits hcomes _ | takes hcomes _ =>
      cases hcomes with
      | again hpc _ => exact hnone hpc rfl rfl
      | woken hpc => exact hnone hpc rfl rfl
  | processes e hpc he =>
      refine hnone hpc rfl (sent_quiet fun o ho => ?_)
      rcases List.mem_cons.mp ho with rfl | ho
      · rfl
      · exact reportFix_toModem s.data e o ho
  | status e hpc he => exact hnone hpc rfl (sent_quiet (reportStatus_toModem _ _))
  | nmea e hpc => exact hnone hpc rfl (sent_quiet (reportNmea_toModem _ _))
  | ni e hpc =>
      refine hnone hpc rfl (sent_quiet fun o ho => ?_)
      obtain rfl := List.mem_singleton.mp ho
      rfl
  | atl hpc =>
      refine hnone hpc rfl (sent_quiet fun o ho => ?_)
      split at ho
      · obtain ⟨st, _, rfl⟩ := List.mem_map.mp ho
        rfl
      · cases ho
  | deletes type hpc =>
      rw [State.workSends, hpc]
      exact sent_say s _
  | xtraInject data hpc =>
      rw [State.workSends, hpc]
      cases data <;> exact sent_say s _
  | opened hpc hflag =>
      rw [State.workSends, hpc, State.serverStatus]
      simp only [if_pos hflag]
      exact sent_say s _
  | closed hpc hnot hflag =>
      rw [State.workSends, hpc, State.serverStatus, hnot]
      simp only [if_pos hflag]
      exact sent_say s _
  | openFailed hpc hnot hnot' hflag hon =>
      rw [State.workSends, hpc, State.serverStatus, hnot, hnot']
      simp only [if_pos hflag, if_pos hon]
      exact sent_say s _
  | closeFailed hpc hnot hnot' hflag hon =>
      rw [State.workSends, hpc, State.serverStatus, hnot, hnot', hon]
      simp only [if_pos hflag]
      exact sent_say s _
  | noReply hpc hnot hnot' hnot'' =>
      rw [State.workSends, hpc, State.serverStatus, hnot, hnot', hnot'']
      exact (List.append_nil _).symm
  | stop hpc =>
      rw [State.workSends, hpc]
      refine (sent_say _ _).trans (congrArg (s.sent ++ ·) ?_)
      cases s.data.stopRequestPending <;> rfl
  | sleeps hpc _ | noEvent hpc _ | noStatus _ hpc _ | mute _ hpc | posts _ hpc _ | noPost _ hpc _
  | conn _ hpc _ | noConn _ hpc _ | aiding hpc _ _ | noAiding hpc _ | clears _ hpc
  | clearsAgain hpc | xtra hpc _ _ | noXtra hpc _ | xtraTake hpc | dataSet _ hpc | dataOff hpc
  | exits hpc => exact hnone hpc rfl rfl

theorem sent_eq (h : s'.log = s.log) : s'.sent = s.sent := by rw [State.sent, h, State.sent]

theorem proceed_sends (s : State) (ok : Bool) (c : Call) :
    (proceed s ok c).1.sent = s.sent ++ s.callSends c := by
  have hnone : s.callSends c = [] → (proceed s ok c).1.sent = s.sent →
      (proceed s ok c).1.sent = s.sent ++ s.callSends c := by
    intro hnil hsame
    rw [hnil, hsame, List.append_nil]
  cases c with
  | event e =>
      refine hnone rfl ((sent_eq (post_log _ _)).trans (sent_quiet fun o ho => ?_))
      obtain rfl := List.mem_singleton.mp ho
      rfl
  | deleteAidingData f =>
      have hrec : (recordDeletion s f).sent = s.sent := by
        unfold recordDeletion
        split
        · refine sent_quiet fun o ho => ?_
          obtain rfl := List.mem_singleton.mp ho
          rfl
        · rfl
      refine hnone rfl ?_
      unfold proceed deleteAidingData
      dsimp only
      split
      · exact (sent_eq (post_log _ _)).trans hrec
      · exact hrec
  | stop closing =>
      refine hnone rfl ?_
      unfold proceed
      dsimp only
      split <;> rfl
  | start | stopFix closing => exact sent_say s _
  | stopped closing => exact hnone rfl (sent_quiet (endSession_toModem s.data))
  | dataConnOpen apn => exact hnone rfl (sent_eq (post_log _ _))
  | dataConnClosed | dataConnFailed => exact hnone rfl (sent_eq (post_log _ _))
  | xtraSignal =>
      refine hnone rfl (sent_eq ?_)
      unfold proceed
      rw [signal_eq]
      rfl
  | close =>
      unfold proceed State.callSends
      dsimp only
      split
      · exact sent_say _ _
      · exact (List.append_nil _).symm
  | quit =>
      refine hnone rfl ?_
      unfold proceed
      dsimp only
      split
      · exact sent_eq (post_log _ _)
      · rfl
  | started | muteOneSession | xtraTest | deinit | unset | down => exact hnone rfl rfl

/-- **What a step sends to the modem** is `sends`. -/
theorem step_sends (hs : Step s a s') : s'.sent = s.sent ++ s.sends a := by
  cases hs with
  | opens _ passes c h =>
      have hnil : s.sends a = [] := by
        cases a <;> first | rfl | cases h
      rw [hnil, List.append_nil]
      exact sent_eq (call_log ..)
  | agpsInit | xtraInit | noData _ | buffers _ _ | noMemory _ _ | spurious _ =>
      exact (List.append_nil _).symm
  | proceeds k ok c hk =>
      rw [State.sends, hk, sent_eq (resume_log ..)]
      exact proceed_sends s ok c
  | works h => exact work_sends h

end Sends

end Y210.Gps.Engine

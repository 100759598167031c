/-
  File:      Y210/Gps/Aiding.lean
  Subject:   THE WAY OF A DELETION: `loc_eng_delete_aiding_data` records it, the worker takes it and
             issues the DELETE_ASSIST_DATA ioctl.

  The worker clears the record before the ioctl and once more after it. What is recorded before the
  ioctl is issued is covered by it; what is recorded while the worker waits for the ioctl to return
  is cleared and never issued.

  The ioctl is meant for an engine that is off. The worker decides by the status it copied; the
  event it takes along with that copy may be the one that turns the engine on.

  * `AidingInv` -- the invariant of the runs in which nothing is recorded while the ioctl is out;
  * `deletion_pending_or_issued`, and `deletion_lost_behind_ioctl` for what happens otherwise;
  * `OffAt` -- what the worker's copy says of the engine, by where the worker stands;
  * `deletion_issued_off`, and `deletion_issued_on` for an engine that is turned on meanwhile.
-/
import Y210.Gps.Worker
import Y210.Lib.Trace

namespace Y210.Gps.Engine

open Y210.Lib

/-! ## 1. Where deletions are -/

def Obs.asksDeletion : Obs → Bool
  | .deletionAsked _ => true
  | _ => false

def Obs.issuesDeletion : Obs → Bool
  | .deleteAssistData _ => true
  | _ => false

/-- The worker has taken a deletion and is about to issue it. -/
def WorkerPc.holdsDeletion : WorkerPc → Bool
  | .aidingClear _ | .aidingIoctl _ => true
  | _ => false

/-- A deletion is recorded, or in the worker's hand. -/
def State.deletionPending (s : State) : Prop :=
  s.data.aidingDataForDeletion ≠ 0 ∨ s.pc.holdsDeletion = true

/-- Every deletion asked for has an ioctl after it. -/
def Issued (log : List Obs) : Prop := Answered Obs.asksDeletion Obs.issuesDeletion log

/-- **The steps of a calm run**: no deletion is recorded while the worker waits for the ioctl to
    return. -/
def calm (s : State) : Act → Bool
  | .proceed k _ =>
    match s.calls[k]? with
    | some (.deleteAidingData f) => decide (f = 0 ∨ s.pc ≠ .aidingDone)
    | _ => true
  | _ => true

/-- **The invariant of a calm run.** -/
structure AidingInv (s : State) : Prop where
  owed : Issued s.log ∨ s.deletionPending
  waits : s.pc = .aidingDone → Issued s.log

/-! ## 2. Steps -/

section Steps

variable {s s' : State}

theorem aside_asks {l : List Obs} (h : ∀ o ∈ l, o.aside = true) :
    ∀ o ∈ l, o.asksDeletion = false := by
  intro o ho
  have ha := h o ho
  cases o <;> first | rfl | cases ha

/-- Nothing is asked for, and nothing pending is dropped. -/
theorem AidingInv.keep (h : AidingInv s) {l : List Obs} (hlog : s'.log = s.log ++ l)
    (hquiet : ∀ o ∈ l, o.asksDeletion = false) (hpend : s.deletionPending → s'.deletionPending)
    (hwaits : s'.pc = .aidingDone → s.pc = .aidingDone) : AidingInv s' := by
  constructor
  · rcases h.owed with hi | hp
    · refine Or.inl ?_
      rw [hlog]
      exact Answered.append hi hquiet
    · exact Or.inr (hpend hp)
  · intro hw
    rw [hlog]
    exact Answered.append (h.waits (hwaits hw)) hquiet

theorem pending_of_recorded (hnot : s.pc.holdsDeletion = false)
    (hsame : s'.data.aidingDataForDeletion = s.data.aidingDataForDeletion)
    (hp : s.deletionPending) : s'.deletionPending := by
  rcases hp with hp | hp
  · refine Or.inl ?_
    rw [hsame]
    exact hp
  · rw [hnot] at hp
    cases hp

/-- A step of somebody else. -/
theorem AidingInv.aside (h : AidingInv s) (ha : Aside s s')
    (hpc : s'.pc = s.pc ∨ s'.pc = s.pc.signalled) : AidingInv s' := by
  obtain ⟨l, hlog, hl⟩ := ha.log
  refine h.keep hlog (aside_asks hl) (fun hp => ?_) (nudged_eq hpc nofun)
  rcases hp with hp | hp
  · exact Or.inl (by rw [ha.aiding]; exact hp)
  · exact Or.inr ((nudged_apply hpc WorkerPc.holdsDeletion rfl).trans hp)

theorem AidingInv.called (h : AidingInv s) (hc : Called s s') : AidingInv s' :=
  h.aside hc.toAside hc.pc

theorem AidingInv.recordDeletion (h : AidingInv s) {f : AidingData}
    (hcalm : f = 0 ∨ s.pc ≠ .aidingDone) : AidingInv (recordDeletion s f) := by
  unfold Engine.recordDeletion
  split
  · rename_i hf
    refine ⟨Or.inr (Or.inl (by decide : deleteAll ≠ 0)), fun hw => ?_⟩
    exact absurd hw (hcalm.resolve_left hf)
  · exact h

theorem AidingInv.accept (h : AidingInv s) (e : Event) : AidingInv (locEventCb s e) := by
  unfold locEventCb
  rw [post_eq]
  refine h.keep (l := [.accepted e]) rfl (fun o ho => ?_) (fun hp => ?_)
    (signalled_eq · nofun)
  · obtain rfl := List.mem_singleton.mp ho
    rfl
  · rcases hp with hp | hp
    · exact Or.inl hp
    · exact Or.inr ((signalled_apply WorkerPc.holdsDeletion rfl s.pc).trans hp)

/-- The worker moves on with a deletion neither in its hand nor out. -/
theorem AidingInv.next (h : AidingInv s) {l : List Obs} (hnot : s.pc.holdsDeletion = false)
    (hlog : s'.log = s.log ++ l) (hquiet : ∀ o ∈ l, o.asksDeletion = false)
    (hsame : s'.data.aidingDataForDeletion = s.data.aidingDataForDeletion)
    (hpc : s'.pc ≠ .aidingDone) : AidingInv s' :=
  h.keep hlog hquiet (pending_of_recorded hnot hsame) (fun hw => absurd hw hpc)

/-- It moves on and says nothing. -/
theorem AidingInv.silent {pc : WorkerPc} (h : AidingInv s) (hc : s.pc = pc)
    (hnot : pc.holdsDeletion = false) (hlog : s'.log = s.log)
    (hsame : s'.data.aidingDataForDeletion = s.data.aidingDataForDeletion)
    (hpc : s'.pc ≠ .aidingDone) : AidingInv s' :=
  h.next (l := []) (by rw [hc, hnot]) (by rw [hlog, List.append_nil])
    (fun _ ho => absurd ho List.not_mem_nil) hsame hpc

theorem AidingInv.comes {s1 : State} (h : AidingInv s) (hcomes : Comes s s1)
    (hlog : s'.log = s1.log)
    (hsame : s'.data.aidingDataForDeletion = s1.data.aidingDataForDeletion)
    (hpc : s'.pc ≠ .aidingDone) : AidingInv s' := by
  obtain ⟨hc, hdata, hlog'⟩ := hcomes.same
  rw [hdata] at hsame
  rcases hc with hc | hc
  · exact h.silent hc rfl (hlog.trans hlog') hsame hpc
  · exact h.silent hc rfl (hlog.trans hlog') hsame hpc

/-- **Every step of the worker keeps the invariant.** -/
theorem AidingInv.work (h : AidingInv s) (hs : Engine.work s = some s') : AidingInv s' := by
  rcases work_split hs with ⟨hh, hgo⟩ | hh
  · have hnot : s.pc.holdsDeletion = false := by
      cases hc : s.pc <;> first | rfl | (rw [hc] at hh; cases hh)
    obtain ⟨l, hlog, hl⟩ := hgo.log
    exact h.next hnot hlog (aside_asks hl) hgo.aiding hgo.pending
  · cases hh with
    | sleeps hc _ => exact h.silent hc rfl rfl rfl nofun
    | quits hcomes _ => exact h.comes hcomes rfl rfl nofun
    | takes hcomes => exact h.comes hcomes rfl rfl nofun
    | processes e hc _ =>
        refine h.next (l := .processed e :: reportFix s.data e) (by rw [hc]; rfl) rfl
          (fun o ho => ?_) rfl nofun
        rcases List.mem_cons.mp ho with rfl | ho
        · rfl
        · exact aside_asks (reportFix_aside s.data e) o ho
    | noEvent hc _ => exact h.silent hc rfl rfl rfl nofun
    | clears type hc =>
        exact h.keep (List.append_nil _).symm (fun _ ho => absurd ho List.not_mem_nil)
          (fun _ => Or.inr rfl) nofun
    | deletes type hc =>
        have hissued : Issued (s.log ++ [.deleteAssistData type]) := answered_concat _ rfl rfl
        exact ⟨Or.inl hissued, fun _ => hissued⟩
    | clearsAgain hc =>
        -- the second clearing: whatever was asked for is issued by now
        exact ⟨Or.inl (h.waits hc), nofun⟩
    | exits hc => exact h.silent hc rfl rfl rfl nofun

/-- The steps of a call. -/
theorem AidingInv.proceed {c : Call} {k : Nat} {ok : Bool} (h : AidingInv s)
    (hcalm : calm s (.proceed k ok) = true) (hk : s.calls[k]? = some c) :
    AidingInv (proceed s ok c).1 := by
  simp only [calm, hk] at hcalm
  cases c with
  | event e => exact h.accept e
  | deleteAidingData f =>
      exact (h.recordDeletion (of_decide_eq_true hcalm)).called (deleteAidingData_called s f)
  | quit =>
      unfold Engine.proceed
      dsimp only
      split
      · refine h.aside (aside_post s actionQuit) (Or.inr ?_)
        rw [post_eq]
        rfl
      · exact h
  | _ => exact h.called (proceed_called rfl s ok)

/-- **Every calm step keeps the invariant.** -/
theorem AidingInv.step {a : Act} (h : AidingInv s) (hcalm : calm s a = true)
    (hs : Engine.step s a = some s') : AidingInv s' := by
  rcases call_aside hs with rfl | hc | ⟨k, ok, c, rfl, hk, hstill⟩
  · exact h.work hs
  · exact h.called hc
  · exact (h.proceed hcalm hk).called hstill.called

end Steps

/-! ## 3. Results -/

/-- **No deletion is lost.** In every run in which no deletion is recorded while the ioctl of an
    earlier one is out, a deletion that was asked for is pending, or an ioctl was issued after
    it. -/
theorem deletion_pending_or_issued {clientHandle : Int} {statusCb : Bool} {s : State}
    (hr : Reach step (fun s a => calm s a = true) (init clientHandle statusCb) s) :
    ∀ (before after : List Obs) (f : AidingData), s.log = before ++ .deletionAsked f :: after →
      (∃ type, .deleteAssistData type ∈ after) ∨ s.deletionPending := by
  have hinit : AidingInv (init clientHandle statusCb) :=
    ⟨Or.inl answered_nil, fun hw => (by cases hw)⟩
  have h : AidingInv s := hr.inv hinit fun _ _ _ hi hcalm hs => hi.step hcalm hs
  intro before after f hlog
  rcases h.owed with hi | hp
  · obtain ⟨o, ho, hissues⟩ := hi before _ after hlog rfl
    cases o with
    | deleteAssistData type => exact Or.inl ⟨type, ho⟩
    | _ => cases hissues
  · exact Or.inr hp

theorem deletion_pending_or_issued_twice :
    ∃ s, Reach step (fun s a => calm s a = true) (init 1 true) s ∧
      s.log = [.deletionAsked deleteAll, .deletionAsked 1] ++ [.deleteAssistData .all] ∧
      ((∃ type, .deleteAssistData type ∈ [Obs.deleteAssistData .all]) ∨ s.deletionPending) := by
  have hrun : runTest step calm (init 1 true)
      (List.flatten [[.deleteAidingData deleteAll, .deleteAidingData 1, .proceed 0 true,
        .proceed 0 true], List.replicate 5 .work])
      (fun s => decide (s.log =
        [.deletionAsked deleteAll, .deletionAsked 1, .deleteAssistData .all])) = true := by
    decide
  obtain ⟨s, hr, hp⟩ := reach_of_runTest hrun
  have hlog := of_decide_eq_true hp
  exact ⟨s, hr, hlog, deletion_pending_or_issued hr [.deletionAsked deleteAll] _ 1 hlog⟩

/-- **A deletion lost behind the ioctl.** The second deletion is asked for when the ioctl of the
    first is out; the worker clears it when the ioctl returns. -/
theorem deletion_lost_behind_ioctl :
    ∃ s, Reach step Always (init 1 true) s ∧
      s.log = [.deletionAsked deleteAll, .deleteAssistData .all, .deletionAsked deleteAll] ∧
      ¬ s.deletionPending := by
  have hrun : runTest step (fun _ _ => true) (init 1 true)
      (List.flatten [[.deleteAidingData deleteAll, .proceed 0 true], List.replicate 5 .work,
        [.deleteAidingData deleteAll, .proceed 0 true, .work]])
      (fun s => decide (s.log =
          [.deletionAsked deleteAll, .deleteAssistData .all, .deletionAsked deleteAll] ∧
        s.data.aidingDataForDeletion = 0 ∧ s.pc.holdsDeletion = false)) = true := by
    decide
  obtain ⟨s, hr, hp⟩ := reach_of_runTest hrun
  obtain ⟨hlog, haiding, hholds⟩ := of_decide_eq_true hp
  refine ⟨s, hr.always, hlog, ?_⟩
  rintro (hne | hh)
  · exact hne haiding
  · rw [hholds] at hh
    cases hh

/-! ## 4. The engine at the ioctl -/

/-- The report turns the engine on. -/
def StatusReport.turnsOn : StatusReport → Bool
  | .engineState on => on
  | .fixSessionState begins => begins
  | .other => false

/-- The event reports that the engine is on. -/
def Event.turnsOn (e : Event) : Bool := has e.mask statusReport && e.payload.status.turnsOn

/-- By its copies the worker is to delete. -/
def Locals.deletes (l : Locals) : Prop := l.engineStatus ≠ .engineOn ∧ l.aidingData ≠ 0

/-- **What the worker relies on**, where it stands: if it is to delete then the engine is off, and
    the event it has yet to process leaves it off. -/
def OffAt (engine : GpsStatus) (l : Locals) : WorkerPc → Prop
  | .event => l.deletes → engine ≠ .engineOn ∧ ∀ e, l.event = some e → e.turnsOn = false
  | .status e => l.deletes → engine ≠ .engineOn ∧ e.turnsOn = false
  | .mute _ | .statusSignal _ | .nmea _ | .conn _ | .ni _ | .aiding =>
    l.deletes → engine ≠ .engineOn
  | .aidingClear _ | .aidingIoctl _ => engine ≠ .engineOn
  | _ => True

def OffInv (s : State) : Prop := OffAt s.data.engineStatus s.locals s.pc

/-- **The steps of a run in which the engine stays off**: the worker does not take a deletion for an
    engine that is off along with a report that it is on. -/
def takesOff (s : State) : Act → Bool
  | .work => decide ((s.pc = .woken ∨ s.pc = .top) →
      Flags.has s.data.deferredActionFlags actionQuit = false →
      s.data.engineStatus ≠ .engineOn → s.data.aidingDataForDeletion ≠ 0 →
        Event.turnsOn ⟨s.data.locEvent, s.data.locEventPayload⟩ = false)
  | _ => true

section Off

variable {s s' : State}

theorem reportStatus_off {d : Data} {report : StatusReport} (hoff : d.engineStatus ≠ .engineOn)
    (hreport : report.turnsOn = false) : (reportStatus d report).1.engineStatus ≠ .engineOn := by
  obtain ⟨st, hdata⟩ := reportStatus_data d report
  rw [hdata]
  cases report with
  | engineState on =>
      cases hreport
      exact fun h => (by cases h)
  | fixSessionState begins =>
      cases hreport
      exact hoff
  | other => exact hoff

theorem offInv_copyOut {s1 : State} (hcomes : Comes s s1)
    (hquit : Flags.has s.data.deferredActionFlags actionQuit = false)
    (htake : takesOff s .work = true) : OffInv (copyOut s1) := by
  have hdata : s1.data = s.data := by cases hcomes <;> rfl
  have hpc : s.pc = .woken ∨ s.pc = .top := by
    cases hcomes with
    | again hpc _ => exact Or.inr hpc
    | woken hpc => exact Or.inl hpc
  have hturn := of_decide_eq_true htake hpc hquit
  rw [← hdata] at hturn
  rintro ⟨hoff, hasks⟩
  refine ⟨hoff, fun e he => ?_⟩
  have he' : (if s1.data.locEvent = 0 then none
      else some ⟨s1.data.locEvent, s1.data.locEventPayload⟩) = some e := he
  split at he' <;> cases he'
  exact hturn hoff hasks

/-- **A step of the worker** keeps what it relies on. -/
theorem OffInv.work (h : OffInv s) (htake : takesOff s .work = true) (hw : Work s s') :
    OffInv s' := by
  have hat : ∀ {pc : WorkerPc}, s.pc = pc → OffAt s.data.engineStatus s.locals pc :=
    fun hpc => hpc ▸ h
  unfold OffInv
  cases hw with
  | takes hcomes hquit => exact offInv_copyOut hcomes hquit htake
  | processes e hpc he =>
      intro hdel
      have hoff := hat hpc hdel
      exact ⟨hoff.1, hoff.2 e he⟩
  | noEvent hpc he => exact fun hdel => (hat hpc hdel).1
  | status e hpc he =>
      intro hdel
      obtain ⟨hoff, hturn⟩ := hat hpc hdel
      rw [Event.turnsOn, he] at hturn
      exact reportStatus_off hoff hturn
  | noStatus e hpc he => exact fun hdel => (hat hpc hdel).1
  | mute e hpc =>
      intro hdel
      have hengine : (muteSession s.data).engineStatus = s.data.engineStatus := by
        unfold muteSession
        split <;> rfl
      exact fun hon => hat hpc hdel (hengine.symm.trans hon)
  | nmea e hpc =>
      intro hdel
      have hengine : (reportNmea s.data e).1.engineStatus = s.data.engineStatus := by
        unfold reportNmea
        dsimp only
        split <;> rfl
      exact fun hon => hat hpc hdel (hengine.symm.trans hon)
  | conn e hpc he =>
      intro hdel
      have hengine : (processConnRequest s.data e.payload.server).engineStatus =
          s.data.engineStatus := by
        cases e.payload.server <;> rfl
      exact fun hon => hat hpc hdel (hengine.symm.trans hon)
  | posts e hpc _ | noPost e hpc _ | noConn e hpc _ | ni e hpc =>
      have hoff := hat hpc
      exact hoff
  | aiding hpc hoff hasks => exact hat hpc ⟨hoff, hasks⟩
  | clears type hpc =>
      have hoff := hat hpc
      exact hoff
  | dataSet success hpc => cases success <;> exact trivial
  | _ => exact trivial

theorem OffInv.step {a : Act} (h : OffInv s) (htake : takesOff s a = true) (hs : Step s a s') :
    OffInv s' := by
  by_cases ha : a = .work
  · subst ha
    cases hs with
    | opens _ passes c h => cases h
    | works hw => exact h.work htake hw
  · obtain ⟨hengine, hlocals⟩ := step_engine hs ha
    unfold OffInv
    rw [hengine, hlocals,
      nudged_apply (step_nudge hs ha).pc_eq (OffAt s.data.engineStatus s.locals) rfl]
    exact h

theorem workSends_deletion {type : AssistType} (h : .deleteAssistData type ∈ s.workSends) :
    s.pc = .aidingIoctl type := by
  unfold State.workSends at h
  split at h
  · rename_i type' hpc
    cases List.mem_singleton.mp h
    exact hpc
  · obtain ⟨_, _, heq⟩ := List.mem_map.mp h
    cases heq
  · unfold State.serverStatus at h
    split at h
    · cases List.mem_singleton.mp h
    · split at h
      · cases List.mem_singleton.mp h
      · split at h
        · split at h <;> cases List.mem_singleton.mp h
        · cases h
  · split at h
    · cases List.mem_singleton.mp h
    · cases h
  · cases h

/-- Only the worker issues the ioctl, from its place. -/
theorem step_issues {a : Act} {l : List Obs} {type : AssistType} (hs : Step s a s')
    (hlog : s'.log = s.log ++ l) (hl : .deleteAssistData type ∈ l) : s.pc = .aidingIoctl type := by
  have hsent : s.sent ++ l.filter Obs.toModem = s.sent ++ s.sends a := by
    rw [← step_sends hs, State.sent, State.sent, hlog, List.filter_append]
  have hmem : .deleteAssistData type ∈ s.sends a := by
    rw [← List.append_cancel_left hsent]
    exact List.mem_filter.mpr ⟨hl, rfl⟩
  cases a with
  | work => exact workSends_deletion hmem
  | proceed k ok =>
      rw [State.sends] at hmem
      cases hk : s.calls[k]? with
      | none =>
          rw [hk] at hmem
          cases hmem
      | some c =>
          rw [hk] at hmem
          cases c with
          | start => cases List.mem_singleton.mp hmem
          | stopFix closing => cases List.mem_singleton.mp hmem
          | close =>
              rw [Option.elim_some, State.callSends] at hmem
              split at hmem
              · cases List.mem_singleton.mp hmem
              · cases hmem
          | _ => cases hmem
  | _ => cases hmem

end Off

/-- **A deletion is issued only while the engine is off**: in every run in which no deletion is
    taken along with a report that the engine is on, whoever logs a DELETE_ASSIST_DATA ioctl finds
    another engine status than "on". -/
theorem deletion_issued_off {clientHandle : Int} {statusCb : Bool} {s s' : State} {a : Act}
    {l : List Obs} {type : AssistType}
    (hr : Reach step (fun s a => takesOff s a = true) (init clientHandle statusCb) s)
    (hs : step s a = some s') (hlog : s'.log = s.log ++ l) (hl : .deleteAssistData type ∈ l) :
    s.data.engineStatus ≠ .engineOn := by
  have hinit : OffInv (init clientHandle statusCb) := trivial
  have hoff : OffInv s :=
    hr.inv hinit fun s a s' hi htake hs => hi.step htake (step_cases hs)
  rw [OffInv, step_issues (step_cases hs) hlog hl] at hoff
  exact hoff

/-- The engine is turned on only after the deletion. -/
theorem deletion_issued_off_first :
    ∃ s, Reach step (fun s a => takesOff s a = true) (init 1 true) s ∧
      s.pc = .aidingIoctl .all ∧ s.data.locEvent = statusReport ∧
      s.data.engineStatus ≠ .engineOn := by
  have hrun : runTest step takesOff (init 1 true)
      [.deleteAidingData 1, .proceed 0 true, .work, .work, .work, .work,
        .event 1 statusReport ⟨0, .engineState true, .other, .closeReq 0⟩, .proceed 0 true]
      (fun s => decide (s.pc = .aidingIoctl .all ∧ s.data.locEvent = statusReport)) = true := by
    decide
  obtain ⟨s, hr, hp⟩ := reach_of_runTest hrun
  obtain ⟨hpc, hevent⟩ := of_decide_eq_true hp
  have hs : step s .work = some ((s.say [.deleteAssistData .all]).at .aidingDone) := by
    unfold step work
    rw [hpc]
  exact ⟨s, hr, hpc, hevent, deletion_issued_off hr hs rfl (List.mem_singleton.mpr rfl)⟩

/-- **A deletion for an engine that is on.** The worker takes the deletion and, along with it, the
    report that turns the engine on; it processes the report and then issues the ioctl. -/
theorem deletion_issued_on :
    ∃ s s', Reach step Always (init 1 true) s ∧ step s .work = some s' ∧
      s'.log = s.log ++ [.deleteAssistData .all] ∧ s.data.engineStatus = .engineOn := by
  have hrun : runTest step (fun _ _ => true) (init 1 true)
      (List.flatten [[.deleteAidingData 1, .proceed 0 true,
        .event 1 statusReport ⟨0, .engineState true, .other, .closeReq 0⟩, .proceed 0 true],
        List.replicate 10 .work])
      (fun s => decide (s.pc = .aidingIoctl .all ∧ s.data.engineStatus = .engineOn)) = true := by
    decide
  obtain ⟨s, hr, hp⟩ := reach_of_runTest hrun
  obtain ⟨hpc, hon⟩ := of_decide_eq_true hp
  refine ⟨s, (s.say [.deleteAssistData .all]).at .aidingDone, hr.always, ?_, rfl, hon⟩
  unfold step work
  rw [hpc]

end Y210.Gps.Engine

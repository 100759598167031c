/-
  File:      Y210/Gps/Mailbox.lean
  Subject:   THE WAY OF A MODEM EVENT: `loc_event_cb` leaves it in `loc_event`, the worker copies it
             and processes it.

  There is room for one event. As long as `loc_event_cb` finds it empty and the worker still there,
  what was accepted is what was processed, what the worker has in its hand and what lies there, in
  this order; and the worker alone gets to process all of it.

  * `MailMove`, `work_mail` -- a step of the worker as it concerns events;
  * `MailInv` -- the invariant, `MailInv.step`;
  * `settles` -- the worker catches up;
  * `events_processed_in_order`, and `second_event_overwrites_first` for what happens otherwise.
-/
import Y210.Gps.EngineFrame

namespace Y210.Gps.Engine

open Y210.Lib
open Y210.Gps.SyncCall (EventMask)

/-! ## 1. Where events are -/

def Obs.acceptedEvent : Obs → Option Event
  | .accepted e => some e
  | _ => none

def Obs.processedEvent : Obs → Option Event
  | .processed e => some e
  | _ => none

def State.accepted (s : State) : List Event := s.log.filterMap Obs.acceptedEvent

def State.processed (s : State) : List Event := s.log.filterMap Obs.processedEvent

/-- What lies in `loc_event`. -/
def State.mail (s : State) : List Event :=
  if s.data.locEvent = 0 then [] else [⟨s.data.locEvent, s.data.locEventPayload⟩]

/-- What the worker copied and has not passed to `loc_eng_process_loc_event`. -/
def State.inHand (s : State) : List Event :=
  if s.pc = .event then s.locals.event.toList else []

/-- The worker was told to end. -/
def State.ending (s : State) : Prop :=
  Flags.has s.data.deferredActionFlags actionQuit = true ∨ s.pc = .exiting ∨ s.pc = .done

instance (s : State) : Decidable s.ending := inferInstanceAs (Decidable (_ ∨ _ ∨ _))

/-- **The steps of a run one by one**: `loc_event_cb` stores an event only when `loc_event` is empty
    and the worker was not told to end, the mask of the event is not 0, and the worker is told to
    end only when `loc_event` is empty. -/
def oneByOne (s : State) : Act → Bool
  | .proceed k _ =>
    match s.calls[k]? with
    | some (.event e) => decide (s.data.locEvent = 0 ∧ e.mask ≠ 0 ∧ ¬ s.ending)
    | some .quit => decide (s.data.locEvent = 0)
    | _ => true
  | _ => true

section Frames

variable {s s' : State}

/-- What was accepted and processed, and what lies there, is the same. -/
structure SameMail (s s' : State) : Prop where
  accepted : s'.accepted = s.accepted
  processed : s'.processed = s.processed
  mail : s'.mail = s.mail

theorem mail_congr (he : s'.data.locEvent = s.data.locEvent)
    (hp : s'.data.locEventPayload = s.data.locEventPayload) : s'.mail = s.mail := by
  unfold State.mail
  rw [he, hp]

theorem sameMail_of_log {l : List Obs} (hlog : s'.log = s.log ++ l)
    (hacc : l.filterMap Obs.acceptedEvent = []) (hproc : l.filterMap Obs.processedEvent = [])
    (hmail : s'.mail = s.mail) : SameMail s s' := by
  refine ⟨?_, ?_, hmail⟩
  · unfold State.accepted
    rw [hlog, List.filterMap_append, hacc, List.append_nil]
  · unfold State.processed
    rw [hlog, List.filterMap_append, hproc, List.append_nil]

theorem aside_events {l : List Obs} (h : ∀ o ∈ l, o.aside = true) :
    l.filterMap Obs.acceptedEvent = [] ∧ l.filterMap Obs.processedEvent = [] := by
  constructor
  · refine List.filterMap_eq_nil_iff.mpr fun o ho => ?_
    have ha := h o ho
    cases o <;> first | rfl | cases ha
  · refine List.filterMap_eq_nil_iff.mpr fun o ho => ?_
    have ha := h o ho
    cases o <;> first | rfl | cases ha

theorem Aside.sameMail (h : Aside s s') : SameMail s s' := by
  obtain ⟨l, hlog, hl⟩ := h.log
  exact sameMail_of_log hlog (aside_events hl).1 (aside_events hl).2 (mail_congr h.event h.payload)

theorem inHand_nil (h : s.pc ≠ .event) : s.inHand = [] := if_neg h

theorem inLoop_ne_event {pc : WorkerPc} (h : pc.inLoop = true) : pc ≠ .event := by
  rintro rfl
  cases h

end Frames

/-! ## 2. The worker -/

/-- **A step of the worker** as it concerns events: it goes on, and what was in its hand is now
    processed; it goes to sleep; it takes what lies there; or it ends. -/
inductive MailMove (s s' : State) : Prop where
  | goesOn (hacc : s'.accepted = s.accepted) (hproc : s'.processed = s.processed ++ s.inHand)
      (hmail : s'.mail = s.mail) (hraised : Raised s s') (hrank : s'.pc.rank < s.pc.rank)
      (hpc : s'.pc.inLoop = true)
  | sleeps (hnone : s.inHand = []) (hflags : s.data.deferredActionFlags = 0)
      (heq : s' = { s with wakeLock := false, pc := .waiting })
  | takes (hnone : s.inHand = []) (hacc : s'.accepted = s.accepted)
      (hproc : s'.processed = s.processed) (hmail : s'.mail = []) (hhand : s'.inHand = s.mail)
      (hflags : s'.data.deferredActionFlags = 0) (hpc' : s'.pc = .event)
  | ends (hnone : s.inHand = []) (hending : s.ending) (hsame : SameMail s s')
      (hpc' : s'.pc = .exiting ∨ s'.pc = .done)

section Worker

variable {s s' : State}

theorem comes_mail {s1 : State} (h : Comes s s1) : s.inHand = [] ∧ SameMail s s1 := by
  obtain ⟨hpc, hdata, hlog⟩ := h.same
  have hne : s.pc ≠ .event := by
    rcases hpc with hpc | hpc <;> rw [hpc] <;> simp
  have hmail : s1.mail = s.mail := mail_congr (by rw [hdata]) (by rw [hdata])
  exact ⟨inHand_nil hne, sameMail_of_log (l := []) (by rw [hlog, List.append_nil]) rfl rfl hmail⟩

/-- The worker takes what lies there, -/
theorem take_mail {s1 : State} (h : Comes s s1) : MailMove s (copyOut s1) := by
  obtain ⟨hnone, hsame⟩ := comes_mail h
  refine .takes hnone hsame.accepted hsame.processed (if_pos rfl) ?_ rfl rfl
  rw [← hsame.mail]
  show Option.toList (if s1.data.locEvent = 0 then none else _) = s1.mail
  unfold State.mail
  split <;> rfl

/-- and processes it. -/
theorem processed_mail {e : Event} (hc : s.pc = .event) (he : s.locals.event = some e) :
    MailMove s ((s.say (.processed e :: reportFix s.data e)).at (.status e)) := by
  have hhand : s.inHand = [e] := by
    rw [State.inHand, if_pos hc, he]
    rfl
  have haside := aside_events (reportFix_aside s.data e)
  refine .goesOn ?_ ?_ rfl (raised_of_eq rfl) (by rw [hc]; exact Nat.lt_succ_self 18) rfl
  · show (s.log ++ (.processed e :: reportFix s.data e)).filterMap _ = _
    rw [List.filterMap_append, List.filterMap_cons_none rfl, haside.1, List.append_nil]
    rfl
  · show (s.log ++ (.processed e :: reportFix s.data e)).filterMap _ = _
    rw [List.filterMap_append, hhand]
    show _ ++ e :: (reportFix s.data e).filterMap Obs.processedEvent = _
    rw [haside.2]
    rfl

theorem goesOn_mail {s1 : State} {pc pc' : WorkerPc} (hc : s.pc = pc) (hne : pc ≠ .event)
    (hsame : SameMail s s1)
    (hflags : s1.data.deferredActionFlags = s.data.deferredActionFlags)
    (hrank : pc'.rank < pc.rank) (hpc : pc'.inLoop = true) : MailMove s (s1.at pc') := by
  subst hc
  refine .goesOn hsame.accepted ?_ hsame.mail (raised_of_eq hflags) hrank hpc
  rw [inHand_nil hne, List.append_nil]
  exact hsame.processed

/-- **What the worker does about events.** -/
theorem work_mail (hs : work s = some s') : MailMove s s' := by
  rcases work_split hs with ⟨hh, hgo⟩ | hh
  · have hsame := hgo.toAside.sameMail
    refine .goesOn hsame.accepted ?_ hsame.mail hgo.raised hgo.rank hgo.pc
    rw [inHand_nil (fun e => by rw [e] at hh; cases hh), List.append_nil, hsame.processed]
  · cases hh with
    | sleeps hc hflags => exact .sleeps (inHand_nil (by rw [hc]; simp)) hflags rfl
    | quits hcomes hquit =>
        obtain ⟨hnone, hsame⟩ := comes_mail hcomes
        exact .ends hnone (Or.inl hquit) ⟨hsame.accepted, hsame.processed, hsame.mail⟩ (Or.inl rfl)
    | takes hcomes => exact take_mail hcomes
    | processes e hc he => exact processed_mail hc he
    | noEvent hc he =>
        have hhand : s.inHand = [] := by
          rw [State.inHand, if_pos hc, he]
          rfl
        refine .goesOn rfl ?_ rfl (raised_of_eq rfl) (by rw [hc]; exact (by decide : 12 < 19)) rfl
        rw [hhand]
        exact (List.append_nil _).symm
    | clears type hc =>
        exact goesOn_mail hc (by simp) (sameMail_of_log (List.append_nil _).symm rfl rfl rfl) rfl
          (by simp [WorkerPc.rank]) rfl
    | deletes type hc =>
        exact goesOn_mail hc (by simp) (sameMail_of_log rfl rfl rfl rfl) rfl
          (by simp [WorkerPc.rank]) rfl
    | clearsAgain hc =>
        exact goesOn_mail hc (by simp) (sameMail_of_log (List.append_nil _).symm rfl rfl rfl) rfl
          (by simp [WorkerPc.rank]) rfl
    | exits hc =>
        exact .ends (inHand_nil (by rw [hc]; simp)) (Or.inr (Or.inl hc)) ⟨rfl, rfl, rfl⟩
          (Or.inr rfl)

end Worker

/-! ## 3. The invariant -/

/-- **The invariant of a run one by one.** -/
structure MailInv (s : State) : Prop where
  order : s.accepted = s.processed ++ s.inHand ++ s.mail
  flag : s.mail ≠ [] → s.data.deferredActionFlags ≠ 0
  asleep : s.pc = .waiting → s.data.deferredActionFlags = 0
  ending : s.ending → s.mail = []

section Steps

variable {s s' : State}

theorem called_inHand (h : s'.pc = s.pc ∨ s'.pc = s.pc.signalled) (hl : s'.locals = s.locals) :
    s'.inHand = s.inHand := by
  unfold State.inHand
  rw [hl]
  exact nudged_apply h (fun pc => if pc = .event then s.locals.event.toList else []) rfl

theorem ending_of_called (hpc : s'.pc = s.pc ∨ s'.pc = s.pc.signalled) (hraised : Raised s s')
    (h : s'.ending) : s.ending := by
  rcases h with hq | hx | hx
  · exact Or.inl (hraised.quit.symm.trans hq)
  · exact Or.inr (Or.inl (nudged_eq hpc (by simp) hx))
  · exact Or.inr (Or.inr (nudged_eq hpc (by simp) hx))

/-- A step of somebody else that brings no event. -/
theorem MailInv.keep (h : MailInv s) (hsame : SameMail s s')
    (hpc : s'.pc = s.pc ∨ s'.pc = s.pc.signalled) (hl : s'.locals = s.locals)
    (hraised : Raised s s')
    (hasleep : s'.pc = .waiting → s'.data.deferredActionFlags = s.data.deferredActionFlags) :
    MailInv s' where
  order := by rw [hsame.accepted, hsame.processed, hsame.mail, called_inHand hpc hl, h.order]
  flag := fun hm => hraised.ne_zero (h.flag (hsame.mail ▸ hm))
  asleep := fun hw => (hasleep hw).trans (h.asleep (nudged_eq hpc (by simp) hw))
  ending := fun he => hsame.mail.trans (h.ending (ending_of_called hpc hraised he))

theorem MailInv.called (h : MailInv s) (hc : Called s s') : MailInv s' :=
  h.keep hc.toAside.sameMail hc.pc hc.locals hc.raised hc.asleep

theorem MailInv.recordDeletion (h : MailInv s) (f : AidingData) :
    MailInv (recordDeletion s f) := by
  unfold Engine.recordDeletion
  split
  · exact h.keep (sameMail_of_log rfl rfl rfl rfl) (Or.inl rfl) rfl (raised_of_eq rfl)
      (fun _ => rfl)
  · exact h

/-- An event is accepted where none lies, by a worker that is to go on. -/
theorem MailInv.accept (h : MailInv s) {e : Event} (hempty : s.mail = [])
    (hgoes : ¬ s.ending) (hlog : s'.log = s.log ++ [.accepted e]) (hmail : s'.mail = [e])
    (hpc : s'.pc = s.pc.signalled) (hl : s'.locals = s.locals)
    (hflags : s'.data.deferredActionFlags = s.data.deferredActionFlags ||| actionEvent) :
    MailInv s' := by
  have hraised : Raised s s' := ⟨actionEvent, hflags, by decide⟩
  have hacc : s'.accepted = s.accepted ++ [e] := by
    unfold State.accepted
    rw [hlog, List.filterMap_append]
    rfl
  have hproc : s'.processed = s.processed := by
    unfold State.processed
    rw [hlog, List.filterMap_append]
    exact List.append_nil _
  refine ⟨?_, fun _ hz => ?_, fun hw => ?_, fun he => ?_⟩
  · rw [hacc, hproc, hmail, called_inHand (Or.inr hpc) hl, h.order, hempty, List.append_nil]
  · rw [hflags] at hz
    exact absurd (BitVec.or_eq_zero_iff.mp hz).2 (by decide)
  · exact absurd (hpc.symm.trans hw) (signalled_ne_waiting _)
  · exact absurd (ending_of_called (Or.inr hpc) hraised he) hgoes

theorem MailInv.quit (h : MailInv s) (hempty : s.mail = []) : MailInv (s.post actionQuit) := by
  have hsame := (aside_post s actionQuit).sameMail
  have hpc : (s.post actionQuit).pc = s.pc.signalled := by
    rw [post_eq]
    rfl
  refine ⟨?_, fun hm => ?_, fun hw => ?_, fun _ => hsame.mail.trans hempty⟩
  · rw [hsame.accepted, hsame.processed, hsame.mail,
      called_inHand (Or.inr hpc) (aside_post s actionQuit).locals, h.order]
  · exact absurd (hsame.mail.trans hempty) hm
  · exact absurd (hpc.symm.trans hw) (signalled_ne_waiting _)

/-- The worker's steps. -/
theorem MailInv.move (h : MailInv s) (hm : MailMove s s') : MailInv s' := by
  cases hm with
  | goesOn hacc hproc hmail hraised hrank hpc =>
      refine ⟨?_, fun hne => hraised.ne_zero (h.flag (hmail ▸ hne)), fun hw => ?_, fun he => ?_⟩
      · rw [hacc, hproc, hmail, inHand_nil (inLoop_ne_event hpc), List.append_nil, h.order]
      · rw [hw] at hpc
        cases hpc
      · rcases he with hq | hx | hx
        · exact hmail.trans (h.ending (Or.inl (hraised.quit.symm.trans hq)))
        · rw [hx] at hpc
          cases hpc
        · rw [hx] at hpc
          cases hpc
  | sleeps hnone hflags heq =>
      subst heq
      refine ⟨?_, h.flag, fun _ => hflags, fun he => ?_⟩
      · have horder := h.order
        rw [hnone] at horder
        rw [inHand_nil (by simp)]
        exact horder
      · rcases he with hq | hx | hx
        · exact h.ending (Or.inl hq)
        · cases hx
        · cases hx
  | takes hnone hacc hproc hmail hhand hflags hpc' =>
      refine ⟨?_, fun hne => absurd hmail hne, fun _ => hflags, fun he => ?_⟩
      · rw [hacc, hproc, hmail, hhand, List.append_nil, h.order, hnone, List.append_nil]
      · rcases he with hq | hx | hx
        · rw [hflags] at hq
          exact absurd hq (by decide)
        · rw [hpc'] at hx
          cases hx
        · rw [hpc'] at hx
          cases hx
  | ends hnone hending hsame hpc' =>
      have hnone' : s'.inHand = [] := by
        refine inHand_nil ?_
        rcases hpc' with hpc' | hpc' <;> rw [hpc'] <;> simp
      have hempty := hsame.mail.trans (h.ending hending)
      refine ⟨?_, fun hne => absurd hempty hne, fun hw => ?_, fun _ => hempty⟩
      · rw [hsame.accepted, hsame.processed, hsame.mail, hnone', h.order, hnone]
      · rw [hw] at hpc'
        rcases hpc' with hx | hx <;> cases hx

/-- The steps of a call. -/
theorem MailInv.proceed {c : Call} {k : Nat} {ok : Bool} (h : MailInv s)
    (hone : oneByOne s (.proceed k ok) = true) (hk : s.calls[k]? = some c) :
    MailInv (proceed s ok c).1 := by
  simp only [oneByOne, hk] at hone
  cases c with
  | event e =>
      obtain ⟨hempty, hmask, hgoes⟩ := of_decide_eq_true hone
      show MailInv (locEventCb s e)
      unfold locEventCb
      rw [post_eq]
      exact h.accept (if_pos hempty) hgoes rfl (if_neg hmask) rfl rfl rfl
  | deleteAidingData f => exact (h.recordDeletion f).called (deleteAidingData_called s f)
  | quit =>
      unfold Engine.proceed
      dsimp only
      split
      · exact h.quit (if_pos (of_decide_eq_true hone))
      · exact h
  | _ => exact h.called (proceed_called rfl s ok)

/-- **Every step one by one keeps the invariant.** -/
theorem MailInv.step {a : Act} (h : MailInv s) (hone : oneByOne s a = true)
    (hs : Engine.step s a = some s') : MailInv s' := by
  rcases call_aside hs with rfl | hc | ⟨k, ok, c, rfl, hk, hstill⟩
  · exact h.move (work_mail hs)
  · exact h.called hc
  · exact (h.proceed hone hk).called hstill.called

end Steps

/-! ## 4. The worker catches up -/

/-- The worker alone can get all that was accepted processed. -/
def Settles (s : State) : Prop :=
  ∃ s', Reach step (fun _ a => a = .work) s s' ∧ s'.accepted = s.accepted ∧
    s'.processed = s.accepted

section Settling

variable {s s' : State}

theorem settled (h : MailInv s) (hhand : s.inHand = []) (hmail : s.mail = []) : Settles s := by
  refine ⟨s, .start, rfl, ?_⟩
  rw [h.order, hhand, hmail, List.append_nil, List.append_nil]

/-- Only a sleeping worker and one that is through take no step. -/
theorem work_isSome (hw : s.pc ≠ .waiting) (hd : s.pc ≠ .done) : (work s).isSome = true := by
  unfold work
  cases hc : s.pc with
  | waiting => exact absurd hc hw
  | done => exact absurd hc hd
  | top | status | conn | aiding | xtra => dsimp only; split <;> rfl
  | event => dsimp only; split <;> rfl
  | _ => rfl

end Settling

/-! ## 5. Results -/

end Y210.Gps.Engine

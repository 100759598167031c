/-
  File:      Y210/Gps/EngineFrame.lean
  Subject:   WHAT A STEP OF THE ENGINE LEAVES ALONE.

  Events go from `loc_event` through the worker's copy to `loc_eng_process_loc_event`, deletions
  through `aiding_data_for_deletion` to their ioctl. Most steps concern neither; here this is said
  once, with what they do to the worker and its flags.

  * `Aside` -- the step concerns neither an event on its way nor a deletion;
  * `Called`, `proceed_called`, `call_aside` -- the calls, which may wake the worker;
  * `GoesOn`, `Handled`, `work_split` -- the worker, which gets nearer to the top of its loop, or
    handles an event or a deletion.
-/
import Y210.Gps.EngineSteps

namespace Y210.Gps.Engine

/-! ## 1. Data and reports -/

/-- The observation is no part of an event's way or of a deletion. -/
def Obs.aside : Obs → Bool
  | .accepted _ | .processed _ | .deletionAsked _ | .deleteAssistData _ => false
  | _ => true

/-- Event, flags and deletion are as they were. -/
structure Data.Keeps (d d' : Data) : Prop where
  event : d'.locEvent = d.locEvent
  payload : d'.locEventPayload = d.locEventPayload
  aiding : d'.aidingDataForDeletion = d.aidingDataForDeletion
  flags : d'.deferredActionFlags = d.deferredActionFlags

theorem Data.Keeps.refl (d : Data) : d.Keeps d := ⟨rfl, rfl, rfl, rfl⟩

theorem Data.Keeps.trans {d d' d'' : Data} (h : d.Keeps d') (h' : d'.Keeps d'') : d.Keeps d'' :=
  ⟨h'.event.trans h.event, h'.payload.trans h.payload, h'.aiding.trans h.aiding,
    h'.flags.trans h.flags⟩

/-- A function of the engine that changes data and reports: both are aside. -/
def Quiet (d : Data) (r : Data × List Obs) : Prop :=
  d.Keeps r.1 ∧ ∀ o ∈ r.2, o.aside = true

theorem aside_ite {o : Obs} (c : Prop) [Decidable c] (h : o.aside = true) :
    ∀ x ∈ (if c then [o] else []), x.aside = true := by
  intro x hx
  split at hx
  · obtain rfl := List.mem_singleton.mp hx
    exact h
  · cases hx

theorem aside_append {l l' : List Obs} (h : ∀ o ∈ l, o.aside = true)
    (h' : ∀ o ∈ l', o.aside = true) : ∀ o ∈ l ++ l', o.aside = true := by
  intro o ho
  rcases List.mem_append.mp ho with ho | ho
  · exact h o ho
  · exact h' o ho

theorem aside_map {α : Type} (f : α → Obs) (hf : ∀ x, (f x).aside = true) (l : List α) :
    ∀ o ∈ l.map f, o.aside = true := by
  intro o ho
  obtain ⟨x, _, rfl⟩ := List.mem_map.mp ho
  exact hf x

section Functions

variable (d : Data)

theorem quiet_nil {d' : Data} (h : d.Keeps d') : Quiet d (d', []) :=
  ⟨h, fun _ ho => absurd ho List.not_mem_nil⟩

theorem inform_quiet (st : GpsStatus) : Quiet d (inform d st) := by
  refine ⟨⟨rfl, rfl, rfl, rfl⟩, fun o ho => ?_⟩
  unfold inform at ho
  dsimp only at ho
  split at ho
  · rcases List.mem_cons.mp ho with rfl | ho
    · rfl
    · exact aside_ite _ rfl o ho
  · cases ho

theorem setStatus_keeps (report : StatusReport) : d.Keeps (setStatus d report) := by
  cases report with
  | engineState on => cases on <;> exact ⟨rfl, rfl, rfl, rfl⟩
  | fixSessionState begins => cases begins <;> exact ⟨rfl, rfl, rfl, rfl⟩
  | other => exact .refl d

/-- Behind `setStatus` a status report changes `last_status` only. -/
theorem reportStatus_data (report : StatusReport) :
    ∃ st, (reportStatus d report).1 = { setStatus d report with lastStatus := st } := by
  unfold reportStatus
  dsimp only
  split <;> split <;> exact ⟨_, rfl⟩

theorem reportStatus_quiet (report : StatusReport) : Quiet d (reportStatus d report) := by
  have hset := setStatus_keeps d report
  have hif : ∀ (c : Prop) [Decidable c] (d1 : Data) (st : GpsStatus),
      Quiet d1 (if c then inform d1 st else (d1, [])) := by
    intro c _ d1 st
    split
    · exact inform_quiet d1 st
    · exact quiet_nil d1 (.refl d1)
  unfold reportStatus
  exact ⟨(hset.trans (hif _ _ _).1).trans (hif _ _ _).1,
    aside_append (hif _ _ _).2 (hif _ _ _).2⟩

theorem muteSession_keeps : d.Keeps (muteSession d) := by
  unfold muteSession
  split
  · exact ⟨rfl, rfl, rfl, rfl⟩
  · exact ⟨rfl, rfl, rfl, rfl⟩
  · exact .refl d

theorem reportFix_aside (e : Event) : ∀ o ∈ reportFix d e, o.aside = true :=
  aside_append (aside_ite _ rfl) (aside_ite _ rfl)

theorem reportNmea_quiet (e : Event) : Quiet d (reportNmea d e) := by
  unfold reportNmea
  dsimp only
  split
  · refine ⟨⟨rfl, rfl, rfl, rfl⟩, aside_append (aside_ite _ rfl) fun o ho => ?_⟩
    obtain rfl := List.mem_singleton.mp ho
    rfl
  · exact ⟨⟨rfl, rfl, rfl, rfl⟩, aside_ite _ rfl⟩

theorem processConnRequest_keeps (req : ServerRequest) : d.Keeps (processConnRequest d req) := by
  cases req <;> exact ⟨rfl, rfl, rfl, rfl⟩

theorem setApn_keeps (apn : Option (List Char)) : d.Keeps (setApn d apn) := by
  cases apn with
  | some apn =>
      unfold setApn
      dsimp only
      split
      · exact ⟨rfl, rfl, rfl, rfl⟩
      · exact .refl d
  | none => exact .refl d

theorem endSession_quiet : Quiet d (endSession d) := by
  unfold endSession
  dsimp only
  split
  · split
    · obtain ⟨hk, ho⟩ := inform_quiet { d with fixSessionStatus := .sessionEnd } .sessionEnd
      exact ⟨⟨hk.event, hk.payload, hk.aiding, hk.flags⟩, ho⟩
    · exact quiet_nil d ⟨rfl, rfl, rfl, rfl⟩
  · exact quiet_nil d ⟨rfl, rfl, rfl, rfl⟩

end Functions

/-! ## 2. Steps aside -/

/-- **A step aside.** Flags may be raised. -/
structure Aside (s s' : State) : Prop where
  event : s'.data.locEvent = s.data.locEvent
  payload : s'.data.locEventPayload = s.data.locEventPayload
  aiding : s'.data.aidingDataForDeletion = s.data.aidingDataForDeletion
  locals : s'.locals = s.locals
  log : ∃ l, s'.log = s.log ++ l ∧ ∀ o ∈ l, o.aside = true

section Asides

variable {s s' s'' : State}

theorem Aside.trans (h : Aside s s') (h' : Aside s' s'') : Aside s s'' := by
  obtain ⟨l, hl, hq⟩ := h.log
  obtain ⟨l', hl', hq'⟩ := h'.log
  refine ⟨h'.event.trans h.event, h'.payload.trans h.payload, h'.aiding.trans h.aiding,
    h'.locals.trans h.locals, l ++ l', ?_, aside_append hq hq'⟩
  rw [hl', hl, List.append_assoc]

/-- Nothing is logged. -/
theorem aside_of_eq (he : s'.data.locEvent = s.data.locEvent)
    (hp : s'.data.locEventPayload = s.data.locEventPayload)
    (ha : s'.data.aidingDataForDeletion = s.data.aidingDataForDeletion)
    (hl : s'.locals = s.locals) (hlog : s'.log = s.log) : Aside s s' :=
  ⟨he, hp, ha, hl, [], by rw [hlog, List.append_nil], fun _ ho => absurd ho List.not_mem_nil⟩

theorem Aside.refl (s : State) : Aside s s := aside_of_eq rfl rfl rfl rfl rfl

theorem aside_at (s : State) (pc : WorkerPc) : Aside s (s.at pc) :=
  aside_of_eq rfl rfl rfl rfl rfl

theorem aside_put {d : Data} (h : s.data.Keeps d) : Aside s (s.put d) :=
  aside_of_eq h.event h.payload h.aiding rfl rfl

theorem aside_say {l : List Obs} (h : ∀ o ∈ l, o.aside = true) : Aside s (s.say l) :=
  ⟨rfl, rfl, rfl, rfl, l, rfl, h⟩

theorem aside_say_one {o : Obs} (h : o.aside = true) : Aside s (s.say [o]) :=
  aside_say fun x hx => by
    obtain rfl := List.mem_singleton.mp hx
    exact h

theorem aside_quiet {r : Data × List Obs} (h : Quiet s.data r) :
    Aside s ((s.put r.1).say r.2) :=
  (aside_put h.1).trans (aside_say h.2)

end Asides

/-! ## 3. Flags raised -/

theorem aside_signal (s : State) : Aside s s.signal := by
  rw [signal_eq]
  exact aside_at s _

theorem aside_post (s : State) (flag : Flags) : Aside s (s.post flag) := by
  rw [post_eq]
  exact aside_of_eq rfl rfl rfl rfl rfl

theorem signalled_ne_waiting (pc : WorkerPc) : pc.signalled ≠ .waiting := by
  unfold WorkerPc.signalled
  split
  · exact fun e => (by cases e)
  · assumption

/-- Whoever does not tell a sleeping worker from a woken one does not see a signal. -/
theorem signalled_apply {β : Type} (f : WorkerPc → β) (hf : f .woken = f .waiting) (pc : WorkerPc) :
    f pc.signalled = f pc := by
  unfold WorkerPc.signalled
  split
  · rename_i hw
    rw [hw, hf]
  · rfl

/-- The same of whoever leaves the worker where it is or signals it. -/
theorem nudged_apply {pc pc' : WorkerPc} (h : pc' = pc ∨ pc' = pc.signalled) {β : Type}
    (f : WorkerPc → β) (hf : f .woken = f .waiting) : f pc' = f pc := by
  rcases h with h | h
  · rw [h]
  · rw [h, signalled_apply f hf]

theorem signalled_eq {pc pc' : WorkerPc} (h : pc.signalled = pc') (hw : pc' ≠ .woken) :
    pc = pc' := by
  unfold WorkerPc.signalled at h
  split at h
  · exact absurd h.symm hw
  · exact h

/-- A worker that was signalled at most, and is not at `woken`, is where it was. -/
theorem nudged_eq {pc pc₁ pc' : WorkerPc} (h : pc₁ = pc ∨ pc₁ = pc.signalled) (hw : pc' ≠ .woken)
    (hpc : pc₁ = pc') : pc = pc' := by
  rcases h with h | h
  · exact h.symm.trans hpc
  · exact signalled_eq (h.symm.trans hpc) hw

/-- Flags may be raised, but not the one that ends the worker. -/
def Raised (s s' : State) : Prop :=
  ∃ f, s'.data.deferredActionFlags = s.data.deferredActionFlags ||| f ∧ f &&& actionQuit = 0

theorem raised_of_eq {s s' : State}
    (h : s'.data.deferredActionFlags = s.data.deferredActionFlags) : Raised s s' :=
  ⟨0#32, by rw [h, BitVec.or_zero], BitVec.zero_and⟩

theorem Raised.ne_zero {s s' : State} (h : Raised s s') (hs : s.data.deferredActionFlags ≠ 0) :
    s'.data.deferredActionFlags ≠ 0 := by
  obtain ⟨f, hf, _⟩ := h
  rw [hf]
  exact fun e => hs (BitVec.or_eq_zero_iff.mp e).1

theorem Raised.quit {s s' : State} (h : Raised s s') :
    Flags.has s'.data.deferredActionFlags actionQuit =
      Flags.has s.data.deferredActionFlags actionQuit := by
  obtain ⟨f, hf, hq⟩ := h
  have hand : (s.data.deferredActionFlags ||| f) &&& actionQuit =
      s.data.deferredActionFlags &&& actionQuit := by
    rw [BitVec.and_or_distrib_right, hq]
    exact BitVec.or_zero
  unfold Flags.has
  rw [hf, hand]

/-- The worker and its flags are left alone. -/
structure Still (s s' : State) : Prop extends Aside s s' where
  pc : s'.pc = s.pc
  flags : s'.data.deferredActionFlags = s.data.deferredActionFlags

/-- **A call** leaves the worker where it is, or wakes it, and does so when it raises a flag. -/
structure Called (s s' : State) : Prop extends Aside s s' where
  pc : s'.pc = s.pc ∨ s'.pc = s.pc.signalled
  raised : Raised s s'
  asleep : s'.pc = .waiting → s'.data.deferredActionFlags = s.data.deferredActionFlags

section Calls

variable {s s' s'' : State}

theorem Still.refl (s : State) : Still s s := ⟨.refl s, rfl, rfl⟩

theorem Still.trans (h : Still s s') (h' : Still s' s'') : Still s s'' :=
  ⟨h.toAside.trans h'.toAside, h'.pc.trans h.pc, h'.flags.trans h.flags⟩

theorem still_put {d : Data} (h : s.data.Keeps d) : Still s (s.put d) :=
  ⟨aside_put h, rfl, h.flags⟩

theorem still_say {o : Obs} (h : o.aside = true) : Still s (s.say [o]) :=
  ⟨aside_say_one h, rfl, rfl⟩

theorem Still.called (h : Still s s') : Called s s' :=
  ⟨h.toAside, Or.inl h.pc, raised_of_eq h.flags, fun _ => h.flags⟩

theorem Still.signal (h : Still s s') : Called s s'.signal := by
  have hflags : s'.signal.data.deferredActionFlags = s.data.deferredActionFlags := by
    rw [signal_eq]
    exact h.flags
  refine ⟨h.toAside.trans (aside_signal s'), Or.inr ?_, raised_of_eq hflags, fun _ => hflags⟩
  rw [signal_eq, ← h.pc]
  rfl

theorem Still.raised_post {flag : Flags} (h : Still s s') (hflag : flag &&& actionQuit = 0) :
    Raised s (s'.post flag) := by
  refine ⟨flag, ?_, hflag⟩
  rw [post_eq, ← h.flags]
  rfl

theorem Still.post {flag : Flags} (h : Still s s') (hflag : flag &&& actionQuit = 0) :
    Called s (s'.post flag) := by
  have hpc : (s'.post flag).pc = s.pc.signalled := by
    rw [post_eq, ← h.pc]
    rfl
  refine ⟨h.toAside.trans (aside_post s' flag), Or.inr hpc, h.raised_post hflag, fun hw => ?_⟩
  exact absurd (hpc.symm.trans hw) (signalled_ne_waiting _)

/-- Where the calls stand is aside. -/
theorem still_calls (s : State) (l : List Call) : Still s { s with calls := l } :=
  ⟨aside_of_eq rfl rfl rfl rfl rfl, rfl, rfl⟩

theorem still_call (s : State) (passes : Bool) (c : Call) : Still s (s.call passes c) := by
  unfold State.call
  split
  · exact still_calls s _
  · exact .refl s

theorem still_resume (s : State) (k : Nat) (c : Option Call) : Still s (s.resume k c) := by
  cases c with
  | some c => exact still_calls s _
  | none => exact still_calls s _

/-- A deletion is recorded, and then the call goes on like any other. -/
theorem deleteAidingData_called (s : State) (f : AidingData) :
    Called (recordDeletion s f) (deleteAidingData s f) := by
  unfold deleteAidingData
  dsimp only
  split
  · exact (Still.refl _).post (by decide)
  · exact (Still.refl _).called

/-- The calls but for a modem event, a deletion and the end of the worker. -/
def Call.isPlain : Call → Bool
  | .event _ | .deleteAidingData _ | .quit => false
  | _ => true

/-- **A plain call** is aside at each of its steps. -/
theorem proceed_called {c : Call} (hc : c.isPlain = true) (s : State) (ok : Bool) :
    Called s (proceed s ok c).1 := by
  cases c with
  | event e => cases hc
  | deleteAidingData f => cases hc
  | quit => cases hc
  | start => exact Still.called (still_say rfl)
  | started => exact Still.called (still_put ⟨rfl, rfl, rfl, rfl⟩)
  | stop closing =>
      unfold proceed
      dsimp only
      split
      · exact Still.called (still_put ⟨rfl, rfl, rfl, rfl⟩)
      · exact (Still.refl s).called
  | stopFix closing => exact Still.called (still_say rfl)
  | stopped closing =>
      have hq := endSession_quiet s.data
      exact Still.called ⟨aside_quiet hq, rfl, hq.1.flags⟩
  | muteOneSession => exact Still.called (still_put ⟨rfl, rfl, rfl, rfl⟩)
  | dataConnOpen apn => exact (still_put (setApn_keeps _ apn)).post (by decide)
  | dataConnClosed => exact (Still.refl s).post (by decide)
  | dataConnFailed => exact (Still.refl s).post (by decide)
  | xtraTest => exact (Still.refl s).called
  | xtraSignal => exact (Still.refl s).signal
  | deinit => exact (Still.refl s).called
  | unset => exact Still.called (still_put ⟨rfl, rfl, rfl, rfl⟩)
  | close =>
      unfold proceed
      dsimp only
      split
      · have hput : Still s (s.put { s.data with clientOpened := false }) :=
          still_put ⟨rfl, rfl, rfl, rfl⟩
        exact (hput.trans (still_say rfl)).called
      · exact (Still.refl s).called
  | down => exact Still.called (still_put ⟨rfl, rfl, rfl, rfl⟩)

/-- **A step of the calls** is the step of a call under way, or aside. -/
theorem call_aside {a : Act} (hs : step s a = some s') :
    a = .work ∨ Called s s' ∨
      ∃ k ok c, a = .proceed k ok ∧ s.calls[k]? = some c ∧
        Still (proceed s ok c).1 s' := by
  cases step_cases hs with
  | works _ => exact Or.inl rfl
  | proceeds k ok c hk => exact Or.inr (Or.inr ⟨k, ok, c, rfl, hk, still_resume _ k _⟩)
  | opens _ passes c _ => exact Or.inr (Or.inl (still_call s passes c).called)
  | agpsInit | xtraInit => exact Or.inr (Or.inl (Still.called (still_put ⟨rfl, rfl, rfl, rfl⟩)))
  | noData _ => exact Or.inr (Or.inl (Still.refl s).called)
  | buffers data _ =>
      have hput : Still s (s.put { s.data with xtraDataForInjection := some data }) :=
        still_put ⟨rfl, rfl, rfl, rfl⟩
      exact Or.inr (Or.inl (hput.trans (still_call _ _ _)).called)
  | noMemory _ _ => exact Or.inr (Or.inl (still_call s _ _).called)
  | spurious hw =>
      refine Or.inr (Or.inl ⟨aside_at s .woken, Or.inr ?_, raised_of_eq rfl, fun _ => rfl⟩)
      show WorkerPc.woken = s.pc.signalled
      rw [hw]
      rfl

end Calls

/-! ## 4. The worker -/

/-- The worker is about to take what was left for it, or has an event or a deletion in hand. -/
def WorkerPc.handles : WorkerPc → Bool
  | .top | .woken | .event | .aidingClear _ | .aidingIoctl _ | .aidingDone => true
  | _ => false

/-- How far the worker is from the top of its loop. -/
def WorkerPc.rank : WorkerPc → Nat
  | .woken => 20
  | .event => 19
  | .status _ => 18
  | .mute _ => 17
  | .statusSignal _ => 16
  | .nmea _ => 15
  | .conn _ => 14
  | .ni _ => 13
  | .aiding => 12
  | .aidingClear _ => 11
  | .aidingIoctl _ => 10
  | .aidingDone => 9
  | .xtra => 8
  | .xtraTake => 7
  | .xtraInject _ => 6
  | .dataConn => 5
  | .dataSet _ => 4
  | .dataOff => 3
  | .stop => 2
  | .atl => 1
  | .top | .waiting | .exiting | .done => 0

/-- The worker is in its loop, with nothing it has just taken. -/
def WorkerPc.inLoop : WorkerPc → Bool
  | .waiting | .woken | .event | .exiting | .done => false
  | _ => true

/-- The worker goes on through its loop, and may raise a flag for its next round. -/
structure GoesOn (s s' : State) : Prop extends Aside s s' where
  rank : s'.pc.rank < s.pc.rank
  pc : s'.pc.inLoop = true
  pending : s'.pc ≠ .aidingDone
  raised : Raised s s'

section Worker

variable {s s' : State}

/-- The worker goes to another place. -/
theorem goesOn_at {s1 : State} {pc pc' : WorkerPc} (h : Aside s s1)
    (hf : s1.data.deferredActionFlags = s.data.deferredActionFlags) (hc : s.pc = pc)
    (hrank : pc'.rank < pc.rank) (hpc : pc'.inLoop = true ∧ pc' ≠ .aidingDone) :
    GoesOn s (s1.at pc') :=
  ⟨h.trans (aside_at s1 pc'), by rw [hc]; exact hrank, hpc.1, hpc.2, raised_of_eq hf⟩

/-- It raises a flag and goes to another place. -/
theorem goesOn_raised {s1 : State} {pc pc' : WorkerPc} {f : Flags} (h : Still s s1)
    (hflag : f &&& actionQuit = 0) (hc : s.pc = pc) (hrank : pc'.rank < pc.rank)
    (hpc : pc'.inLoop = true ∧ pc' ≠ .aidingDone) : GoesOn s ((s1.raise f).at pc') := by
  have haside : Aside s1 ((s1.raise f).at pc') := aside_of_eq rfl rfl rfl rfl rfl
  refine ⟨h.toAside.trans haside, by rw [hc]; exact hrank, hpc.1, hpc.2, f, ?_, hflag⟩
  rw [← h.flags]
  rfl

/-- **The worker at the places that handle something**, and where it ends. -/
inductive Handled (s : State) : State → Prop where
  | sleeps (hpc : s.pc = .top) (hflags : s.data.deferredActionFlags = 0) :
      Handled s { s with wakeLock := false, pc := .waiting }
  | quits {s1 : State} (hcomes : Comes s s1)
      (hquit : Flags.has s.data.deferredActionFlags actionQuit = true) : Handled s (s1.at .exiting)
  | takes {s1 : State} (hcomes : Comes s s1) : Handled s (copyOut s1)
  | processes (e : Event) (hpc : s.pc = .event) (he : s.locals.event = some e) :
      Handled s ((s.say (.processed e :: reportFix s.data e)).at (.status e))
  | noEvent (hpc : s.pc = .event) (he : s.locals.event = none) : Handled s (s.at .aiding)
  | clears (type : AssistType) (hpc : s.pc = .aidingClear type) :
      Handled s ((s.put { s.data with aidingDataForDeletion := 0 }).at (.aidingIoctl type))
  | deletes (type : AssistType) (hpc : s.pc = .aidingIoctl type) :
      Handled s ((s.say [.deleteAssistData type]).at .aidingDone)
  | clearsAgain (hpc : s.pc = .aidingDone) :
      Handled s ((s.put { s.data with aidingDataForDeletion := 0 }).at .xtra)
  | exits (hpc : s.pc = .exiting) :
      Handled s { s with wakeLock := false, thread := false, pc := .done }

/-- It goes on from a place that handles nothing. -/
theorem aside_at_place {pc : WorkerPc} (hc : s.pc = pc) (hh : pc.handles = false)
    (h : GoesOn s s') : (s.pc.handles = false ∧ GoesOn s s') ∨ Handled s s' :=
  .inl ⟨by rw [hc, hh], h⟩

/-- **The worker handles something, or goes on.** -/
theorem work_split (hs : work s = some s') :
    (s.pc.handles = false ∧ GoesOn s s') ∨ Handled s s' := by
  cases work_cases hs with
  | sleeps hc hflags => exact .inr (.sleeps hc hflags)
  | quits hcomes hquit => exact .inr (.quits hcomes hquit)
  | takes hcomes _ => exact .inr (.takes hcomes)
  | processes e hc he => exact .inr (.processes e hc he)
  | noEvent hc he => exact .inr (.noEvent hc he)
  | clears type hc => exact .inr (.clears type hc)
  | deletes type hc => exact .inr (.deletes type hc)
  | clearsAgain hc => exact .inr (.clearsAgain hc)
  | exits hc => exact .inr (.exits hc)
  | status e hc _ =>
      have hq := reportStatus_quiet s.data e.payload.status
      exact aside_at_place hc rfl
        (goesOn_at (aside_quiet hq) hq.1.flags hc (by simp [WorkerPc.rank]) ⟨rfl, by simp⟩)
  | mute e hc =>
      have hk := muteSession_keeps s.data
      exact aside_at_place hc rfl
        (goesOn_at (aside_put hk) hk.flags hc (by simp [WorkerPc.rank]) ⟨rfl, by simp⟩)
  | posts e hc _ =>
      exact aside_at_place hc rfl
        (goesOn_raised (.refl s) (by decide) hc (by simp [WorkerPc.rank]) ⟨rfl, by simp⟩)
  | nmea e hc =>
      have hq := reportNmea_quiet s.data e
      exact aside_at_place hc rfl
        (goesOn_at (aside_quiet hq) hq.1.flags hc (by simp [WorkerPc.rank]) ⟨rfl, by simp⟩)
  | conn e hc _ =>
      have hk := processConnRequest_keeps s.data e.payload.server
      exact aside_at_place hc rfl
        (goesOn_raised (still_put hk) (by decide) hc (by simp [WorkerPc.rank]) ⟨rfl, by simp⟩)
  | noStatus e hc _ | noPost e hc _ | noConn e hc _ | aiding hc _ _ =>
      exact aside_at_place hc rfl
        (goesOn_at (.refl s) rfl hc (by simp [WorkerPc.rank]) ⟨rfl, by simp⟩)
  | noAiding hc _ | xtra hc _ _ | noXtra hc _ | noReply hc _ _ _ =>
      exact aside_at_place hc rfl (goesOn_at (.refl s) rfl hc (by decide) (by decide))
  | ni e hc =>
      exact aside_at_place hc rfl
        (goesOn_at (aside_say_one rfl) rfl hc (by simp [WorkerPc.rank]) ⟨rfl, by simp⟩)
  | xtraTake hc =>
      exact aside_at_place hc rfl (goesOn_at (aside_put ⟨rfl, rfl, rfl, rfl⟩) rfl hc
        (by simp [WorkerPc.rank]) ⟨rfl, by simp⟩)
  | xtraInject data hc =>
      exact aside_at_place hc rfl (goesOn_at (aside_say (aside_map _ (fun _ => rfl) _)) rfl hc
        (by simp [WorkerPc.rank]) ⟨rfl, by simp⟩)
  | opened hc _ | closed hc _ _ | openFailed hc _ _ _ _ | closeFailed hc _ _ _ _ =>
      exact aside_at_place hc rfl (goesOn_at (aside_say_one rfl) rfl hc (by decide) (by decide))
  | dataSet success hc =>
      exact aside_at_place hc rfl (goesOn_at (aside_put ⟨rfl, rfl, rfl, rfl⟩) rfl hc
        (by cases success <;> decide) (by cases success <;> decide))
  | dataOff hc =>
      exact aside_at_place hc rfl
        (goesOn_at (aside_put ⟨rfl, rfl, rfl, rfl⟩) rfl hc (by decide) (by decide))
  | stop hc =>
      refine aside_at_place hc rfl (goesOn_at (Aside.trans (aside_put ?_)
        (aside_say (aside_ite _ rfl))) rfl hc (by decide) (by decide))
      exact ⟨rfl, rfl, rfl, rfl⟩
  | atl hc =>
      refine aside_at_place hc rfl (goesOn_at (aside_say fun o ho => ?_) rfl hc (by decide)
        (by decide))
      split at ho
      · exact aside_map _ (fun _ => rfl) _ o ho
      · cases ho

/-- Behind the wait nothing is changed yet. -/
theorem Comes.same {s1 : State} (h : Comes s s1) :
    (s.pc = .top ∨ s.pc = .woken) ∧ s1.data = s.data ∧ s1.log = s.log := by
  cases h with
  | again hpc _ => exact ⟨.inl hpc, rfl, rfl⟩
  | woken hpc => exact ⟨.inr hpc, rfl, rfl⟩

end Worker

end Y210.Gps.Engine

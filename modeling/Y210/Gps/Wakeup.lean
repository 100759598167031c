/-
  File:      Y210/Gps/Wakeup.lean
  Subject:   THE WORKER'S SLEEP: the wake lock around it, and what may be left when it sleeps.

  Whoever sets a flag takes the wake lock and signals, all under `deferred_action_mutex`; the worker
  gives the wake lock back under the same mutex when it finds no flag. The XTRA proxy sets no flag:
  its signal alone is to make the worker look at the buffer, and a signal that finds the worker
  awake is lost.

  * `LockInv` -- the wake lock, `wake_lock_held_while_working`;
  * `IdleInv` -- what is left for the worker and who looks after it, `sleeps_with_nothing_left`;
    `buffer_left_behind` for a lost signal.
-/
import Y210.Gps.Worker
import Y210.Lib.History

namespace Y210.Gps.Engine

open Y210.Lib

/-! ## 1. The wake lock -/

/-- The worker is in its loop, past its wait and before its next look at the flags. -/
def WorkerPc.inIteration : WorkerPc → Bool
  | .top | .waiting | .woken | .done => false
  | _ => true

/-- The worker is asleep, or signalled and not yet back from `pthread_cond_wait`. -/
def WorkerPc.inWait : WorkerPc → Bool
  | .waiting | .woken => true
  | _ => false

/-- **A step of the worker** as it concerns the wake lock. -/
inductive LockMove (s s' : State) : Prop where
  | sleeps (hflags : s.data.deferredActionFlags = 0)
      (heq : s' = { s with wakeLock := false, pc := .waiting })
  | exits (hpc' : s'.pc = .done)
  | goesOn (hpc' : s'.pc.inWait = false) (hlock : s'.wakeLock = true ∨ s'.wakeLock = s.wakeLock ∧
      (s.data.deferredActionFlags ≠ 0 ∨ s.pc.inIteration = true))

section Lock

variable {s s' : State}

theorem comes_lock {s1 : State} (h : Comes s s1) :
    s1.wakeLock = true ∨ s1.wakeLock = s.wakeLock ∧
      (s.data.deferredActionFlags ≠ 0 ∨ s.pc.inIteration = true) := by
  cases h with
  | again hpc hflags => exact Or.inr ⟨rfl, Or.inl hflags⟩
  | woken hpc => exact Or.inl rfl

theorem work_lock (h : Work s s') : LockMove s s' := by
  have hstays : ∀ {pc : WorkerPc}, s.pc = pc → pc.inIteration = true →
      s.wakeLock = true ∨ s.wakeLock = s.wakeLock ∧
        (s.data.deferredActionFlags ≠ 0 ∨ s.pc.inIteration = true) :=
    fun hpc hin => Or.inr ⟨rfl, Or.inr (hpc ▸ hin)⟩
  cases h with
  | sleeps hpc hflags => exact .sleeps hflags rfl
  | quits hcomes hquit =>
      have hlock := comes_lock hcomes
      exact .goesOn rfl hlock
  | takes hcomes hquit =>
      have hlock := comes_lock hcomes
      exact .goesOn rfl hlock
  | posts e hpc hidle => exact .goesOn rfl (Or.inl rfl)
  | conn e hpc he => exact .goesOn rfl (Or.inl rfl)
  | dataSet success hpc => exact .goesOn (by cases success <;> rfl) (hstays hpc rfl)
  | exits hpc => exact .exits rfl
  | processes _ hpc _ | noEvent hpc _ | status _ hpc _ | noStatus _ hpc _ | mute _ hpc
  | noPost _ hpc _ | nmea _ hpc | noConn _ hpc _ | ni _ hpc | aiding hpc _ _ | noAiding hpc _
  | clears _ hpc | deletes _ hpc | clearsAgain hpc | xtra hpc _ _ | noXtra hpc _ | xtraTake hpc
  | xtraInject _ hpc | opened hpc _ | closed hpc _ _ | openFailed hpc _ _ _ _
  | closeFailed hpc _ _ _ _ | noReply hpc _ _ _ | dataOff hpc | stop hpc | atl hpc =>
      exact .goesOn rfl (hstays hpc rfl)

theorem work_ne_done (hs : work s = some s') : s.pc ≠ .done := by
  intro hd
  unfold work at hs
  rw [hd] at hs
  cases hs

/-- Whether the worker is in an iteration: from its acquire after a wait to its next look at the
    flags; before its first step it is not. -/
def busyAfter (_ : State) (a : Act) (s' : State) (busy : Bool) : Bool :=
  match a with
  | .work => decide (s'.pc ≠ .waiting)
  | _ => busy

/-- **The invariant of the wake lock.** -/
structure LockInv (s : State) (busy : Bool) : Prop where
  held : s.pc ≠ .done → s.data.deferredActionFlags ≠ 0 ∨ busy = true → s.wakeLock = true
  free : s.pc.inWait = true → s.data.deferredActionFlags = 0 → s.wakeLock = false
  working : s.pc.inIteration = true → busy = true

theorem signalled_eq_done {pc : WorkerPc} (h : pc = .done) : pc.signalled = .done := by
  rw [h]
  rfl

theorem LockInv.nudge {busy : Bool} (h : LockInv s busy) (hn : Nudge s s') : LockInv s' busy := by
  cases hn with
  | none hpc hflags hlock =>
      refine ⟨?_, ?_, ?_⟩
      · rw [hpc, hflags, hlock]; exact h.held
      · rw [hpc, hflags, hlock]; exact h.free
      · rw [hpc]; exact h.working
  | signals hpc hflags hlock =>
      refine ⟨fun hd => ?_, ?_, ?_⟩
      · rw [hflags, hlock]
        exact h.held fun hd' => hd (hpc.trans (signalled_eq_done hd'))
      · rw [hpc, signalled_apply WorkerPc.inWait rfl, hflags, hlock]; exact h.free
      · rw [hpc, signalled_apply WorkerPc.inIteration rfl]; exact h.working
  | posts hpc hflags hlock =>
      refine ⟨fun _ _ => hlock, fun _ hz => absurd hz hflags, ?_⟩
      rw [hpc, signalled_apply WorkerPc.inIteration rfl]
      exact h.working

theorem LockInv.move {busy : Bool} (h : LockInv s busy) (hpc : s.pc ≠ .done)
    (hm : LockMove s s') : LockInv s' (decide (s'.pc ≠ .waiting)) := by
  cases hm with
  | sleeps hflags heq =>
      subst heq
      refine ⟨fun _ hb => ?_, fun _ _ => rfl, fun hi => (by cases hi)⟩
      rcases hb with hb | hb
      · exact absurd hflags hb
      · cases hb
  | exits hpc' =>
      rw [hpc']
      refine ⟨fun hd => absurd hpc' hd, fun hw => ?_, fun _ => rfl⟩
      rw [hpc'] at hw
      cases hw
  | goesOn hpc' hlock =>
      have hheld : s'.wakeLock = true := by
        rcases hlock with hlock | ⟨hlock, hflags | hin⟩
        · exact hlock
        · exact hlock.trans (h.held hpc (Or.inl hflags))
        · exact hlock.trans (h.held hpc (Or.inr (h.working hin)))
      refine ⟨fun _ _ => hheld, fun hw => ?_, fun _ => decide_eq_true fun hw => ?_⟩
      · rw [hpc'] at hw; cases hw
      · rw [hw] at hpc'; cases hpc'

theorem LockInv.step {a : Act} {busy : Bool} (h : LockInv s busy) (hs : step s a = some s') :
    LockInv s' (busyAfter s a s' busy) := by
  by_cases ha : a = .work
  · subst ha
    exact h.move (work_ne_done hs) (work_lock (work_cases hs))
  · have heq : busyAfter s a s' busy = busy := by
      cases a <;> first | rfl | exact absurd rfl ha
    rw [heq]
    exact h.nudge (step_nudge (step_cases hs) ha)

theorem lockInv_init (clientHandle : Int) (statusCb held : Bool) :
    LockInv { init clientHandle statusCb with wakeLock := held } false :=
  ⟨fun _ hb => hb.elim (fun hne => absurd rfl hne) fun hb => (by cases hb),
    fun hw => (by cases hw), fun hi => (by cases hi)⟩

end Lock

/-- **The wake lock.** Whatever it was when `loc_eng_init` returned, up to the worker's final
    release it is held while a flag is set and while the worker is in an iteration, and not held
    while the worker waits and no flag is set. -/
theorem wake_lock_held_while_working {clientHandle : Int} {statusCb held : Bool} {s : State}
    {busy : Bool}
    (hr : Reach (tracked step busyAfter) Always
      ({ init clientHandle statusCb with wakeLock := held }, false) (s, busy))
    (hlife : s.pc ≠ .done) :
    (s.data.deferredActionFlags ≠ 0 ∨ busy = true → s.wakeLock = true) ∧
      (s.pc = .waiting ∨ s.pc = .woken → s.data.deferredActionFlags = 0 → s.wakeLock = false) := by
  have h : LockInv s busy :=
    hr.inv (I := fun x => LockInv x.1 x.2) (lockInv_init clientHandle statusCb held)
      fun x a x' hi _ hs => by
        obtain ⟨hstep, hbusy⟩ := tracked_eq_some hs
        rw [hbusy]
        exact hi.step hstep
  refine ⟨h.held hlife, fun hw => h.free ?_⟩
  rcases hw with hw | hw <;> rw [hw] <;> rfl

/-- With the wake lock already held, the worker sleeps, is woken for an event and works on it while
    a deletion is asked for. -/
theorem wake_lock_held_while_working_event :
    ∃ x, Reach (tracked step busyAfter) Always ({ init 1 true with wakeLock := true }, false) x ∧
      x.1.pc = .aiding ∧ x.1.wakeLock = true := by
  have hrun : runTest (tracked step busyAfter) (fun _ _ => true)
      ({ init 1 true with wakeLock := true }, false)
      [.work, .event 1 1 ⟨0, .other, .other, .closeReq 0⟩, .proceed 0 true, .work, .work, .work,
        .deleteAidingData 1, .proceed 0 true, .work, .work, .work]
      (fun x => decide (x.1.pc = .aiding ∧ x.2 = true)) = true := by
    decide
  obtain ⟨⟨s, busy⟩, hr, hp⟩ := reach_of_runTest hrun
  obtain ⟨hpc, hbusy⟩ := of_decide_eq_true hp
  have hlife : s.pc ≠ .done := fun hd => (by cases hpc.symm.trans hd)
  have hlock := wake_lock_held_while_working hr.always hlife
  exact ⟨⟨s, busy⟩, hr.always, hpc, hlock.1 (Or.inr hbusy)⟩

/-! ## 2. What is left when the worker sleeps -/

/-- The call is still to make the worker look at the XTRA buffer. -/
def Call.signals : Call → Bool
  | .xtraTest | .xtraSignal => true
  | _ => false

/-- The worker is past its look at the XTRA buffer and not yet asleep. -/
def WorkerPc.pastXtra : WorkerPc → Bool
  | .xtraInject _ | .dataConn | .dataSet _ | .dataOff | .stop | .atl | .top => true
  | _ => false

/-- The worker has left its loop. -/
def WorkerPc.ended : WorkerPc → Bool
  | .exiting | .done => true
  | _ => false

/-- The worker, with what it has copied, is going to clear `aiding_data_for_deletion` or to look at
    it again. -/
def WorkerPc.willDelete (l : Locals) : WorkerPc → Bool
  | .event | .status _ | .nmea _ | .conn _ | .ni _ | .aiding =>
    decide (l.engineStatus ≠ .engineOn) && decide (l.aidingData ≠ 0)
  | .mute _ | .statusSignal _ | .aidingClear _ => true
  | _ => false

/-- **A signal that is not lost**: it finds the worker asleep or before its look at the XTRA buffer,
    or there is nothing in the buffer to look at, or another reason for the worker to come round. -/
def heard (s : State) : Act → Bool
  | .proceed k _ => decide (s.calls[k]? = some .xtraSignal →
      s.data.xtraDataForInjection = none ∨ s.data.engineStatus = .engineOn ∨
        s.data.deferredActionFlags ≠ 0 ∨ s.pc.pastXtra = false)
  | _ => true

/-- The engine is on, or a flag is set for the worker. -/
def State.covered (s : State) : Prop :=
  s.data.engineStatus = .engineOn ∨ s.data.deferredActionFlags ≠ 0

/-- **What is left for the worker is looked after.** -/
structure IdleInv (s : State) : Prop where
  event : s.data.locEvent ≠ 0 → s.data.deferredActionFlags ≠ 0
  asleep : s.pc = .waiting → s.data.deferredActionFlags = 0
  aiding : s.pc.ended = false → s.data.aidingDataForDeletion ≠ 0 →
    s.covered ∨ s.pc.willDelete s.locals = true
  xtra : s.pc.ended = false → s.data.xtraDataForInjection.isSome = true →
    s.covered ∨ (s.pc.pastXtra = false ∧ s.pc ≠ .waiting) ∨ ∃ c ∈ s.calls, c.signals = true

/-- What is left for the worker is as it was. -/
structure Data.SameLeft (d d' : Data) : Prop where
  event : d'.locEvent = d.locEvent
  flags : d'.deferredActionFlags = d.deferredActionFlags
  engine : d'.engineStatus = d.engineStatus
  aiding : d'.aidingDataForDeletion = d.aidingDataForDeletion
  xtra : d'.xtraDataForInjection = d.xtraDataForInjection

/-- A step of the worker that sets no flag, and loses what it was going to look at only where
    nothing is left or the engine is on. -/
structure Passes (s s' : State) : Prop where
  event : s'.data.locEvent = s.data.locEvent
  flags : s'.data.deferredActionFlags = s.data.deferredActionFlags
  engine : s'.data.engineStatus = s.data.engineStatus
  calls : s'.calls = s.calls
  pc : s.pc.ended = false ∧ s'.pc ≠ .waiting
  aiding : s'.data.aidingDataForDeletion ≠ 0 →
    s'.data.aidingDataForDeletion = s.data.aidingDataForDeletion ∧
      (s.pc.willDelete s.locals = true →
        s'.data.engineStatus = .engineOn ∨ s'.pc.willDelete s'.locals = true)
  xtra : s'.data.xtraDataForInjection.isSome = true →
    s'.data.xtraDataForInjection = s.data.xtraDataForInjection ∧
      (s'.pc.pastXtra = true → s'.data.engineStatus = .engineOn ∨ s.pc.pastXtra = true)

section Idle

variable {s s' : State}

theorem State.covered.keep (h : s.covered)
    (hflags : s'.data.deferredActionFlags = s.data.deferredActionFlags)
    (hengine : s'.data.engineStatus = s.data.engineStatus) : s'.covered := by
  unfold State.covered
  rw [hflags, hengine]
  exact h

theorem IdleInv.flagged (hflags : s'.data.deferredActionFlags ≠ 0) (hpc : s'.pc ≠ .waiting) :
    IdleInv s' :=
  ⟨fun _ => hflags, fun hw => absurd hw hpc, fun _ _ => Or.inl (Or.inr hflags),
    fun _ _ => Or.inl (Or.inr hflags)⟩

theorem IdleInv.passes (h : IdleInv s) (hp : Passes s s') : IdleInv s' := by
  refine ⟨?_, fun hw => absurd hw hp.pc.2, fun _ ha => ?_, fun _ hx => ?_⟩
  · rw [hp.event, hp.flags]
    exact h.event
  · obtain ⟨heq, hdel⟩ := hp.aiding ha
    rcases h.aiding hp.pc.1 (heq ▸ ha) with hc | hd
    · exact Or.inl (hc.keep hp.flags hp.engine)
    · exact (hdel hd).imp Or.inl id
  · obtain ⟨heq, hpast⟩ := hp.xtra hx
    rcases h.xtra hp.pc.1 (heq ▸ hx) with hc | hb | hs
    · exact Or.inl (hc.keep hp.flags hp.engine)
    · cases hpast' : s'.pc.pastXtra with
      | false => exact Or.inr (Or.inl ⟨rfl, hp.pc.2⟩)
      | true =>
          rcases hpast hpast' with hon | hpast
          · exact Or.inl (Or.inl hon)
          · rw [hb.1] at hpast
            cases hpast
    · exact Or.inr (Or.inr (hp.calls ▸ hs))

theorem passes_at {s1 : State} {pc pc' : WorkerPc} (hpc : s.pc = pc)
    (hdata : s.data.SameLeft s1.data) (hrest : s1.calls = s.calls ∧ s1.locals = s.locals)
    (hpc' : pc.ended = false ∧ pc' ≠ .waiting)
    (hdel : pc.willDelete s.locals = true → pc'.willDelete s.locals = true)
    (hxtra : pc'.pastXtra = true → pc.pastXtra = true) : Passes s (s1.at pc') := by
  subst hpc
  refine ⟨hdata.event, hdata.flags, hdata.engine, hrest.1, hpc',
    fun _ => ⟨hdata.aiding, fun hd => Or.inr ?_⟩,
    fun _ => ⟨hdata.xtra, fun hp => Or.inr (hxtra hp)⟩⟩
  rw [at_pc, at_locals, hrest.2]
  exact hdel hd

theorem muteSession_left (d : Data) : d.SameLeft (muteSession d) := by
  unfold muteSession
  split <;> exact ⟨rfl, rfl, rfl, rfl, rfl⟩

theorem reportNmea_left (d : Data) (e : Event) : d.SameLeft (reportNmea d e).1 := by
  unfold reportNmea
  dsimp only
  split <;> exact ⟨rfl, rfl, rfl, rfl, rfl⟩

theorem endSession_left (d : Data) : d.SameLeft (endSession d).1 := by
  unfold endSession
  dsimp only
  split
  · split <;> exact ⟨rfl, rfl, rfl, rfl, rfl⟩
  · exact ⟨rfl, rfl, rfl, rfl, rfl⟩

/-- Nothing is left, or the engine is on. -/
theorem idleWork_eq_false {d : Data} (h : d.idleWork = false) : d.engineStatus = .engineOn ∨
    d.aidingDataForDeletion = 0 ∧ d.xtraDataForInjection.isSome = false := by
  by_cases hon : d.engineStatus = .engineOn
  · exact Or.inl hon
  · simpa [Data.idleWork, hon] using h

theorem idleInv_copyOut (s : State) : IdleInv (copyOut s) := by
  refine ⟨fun he => absurd rfl he, fun hw => (by cases hw), fun _ ha => ?_,
    fun _ _ => Or.inr (Or.inl ⟨rfl, fun hw => (by cases hw)⟩)⟩
  by_cases hon : s.data.engineStatus = .engineOn
  · exact Or.inl (Or.inl hon)
  · exact Or.inr (Bool.and_eq_true_iff.mpr ⟨decide_eq_true hon, decide_eq_true ha⟩)

theorem IdleInv.status (h : IdleInv s) {e : Event} {r : Data × List Obs}
    (hr : Quiet s.data r) : IdleInv (((s.put r.1).say r.2).at (.mute e)) := by
  refine ⟨?_, fun hw => (by cases hw), fun _ _ => Or.inr rfl,
    fun _ _ => Or.inr (Or.inl ⟨rfl, fun hw => (by cases hw)⟩)⟩
  show r.1.locEvent ≠ 0 → r.1.deferredActionFlags ≠ 0
  rw [hr.1.event, hr.1.flags]
  exact h.event

theorem IdleInv.sleeps (h : IdleInv s) (hpc : s.pc = .top)
    (hflags : s.data.deferredActionFlags = 0) :
    IdleInv { s with wakeLock := false, pc := .waiting } := by
  have hlive : s.pc.ended = false := by rw [hpc]; rfl
  refine ⟨h.event, fun _ => hflags, fun _ ha => ?_, fun _ hx => ?_⟩
  · rcases h.aiding hlive ha with hc | hd
    · exact Or.inl hc
    · rw [hpc] at hd
      cases hd
  · rcases h.xtra hlive hx with hc | hb | hs
    · exact Or.inl hc
    · rw [hpc] at hb
      cases hb.1
    · exact Or.inr (Or.inr hs)

theorem IdleInv.work (h : IdleInv s) (hw : Work s s') : IdleInv s' := by
  have hkept : s.data.SameLeft s.data := ⟨rfl, rfl, rfl, rfl, rfl⟩
  cases hw with
  | sleeps hpc hflags => exact h.sleeps hpc hflags
  | @quits s1 hcomes hquit =>
      have hdata : s1.data = s.data := by cases hcomes <;> rfl
      refine .flagged (fun hz => ?_) (fun hpc => (by cases hpc))
      rw [at_data, hdata] at hz
      rw [hz] at hquit
      cases hquit
  | takes hcomes hquit => exact idleInv_copyOut _
  | status e hpc he => exact h.status (reportStatus_quiet _ _)
  | exits hpc =>
      exact ⟨h.event, fun hw => (by cases hw), fun hl => (by cases hl), fun hl => (by cases hl)⟩
  | posts e hpc hidle | conn e hpc he =>
      refine .flagged (fun hz => ?_) (fun hpc => (by cases hpc))
      exact absurd (BitVec.or_eq_zero_iff.mp hz).2 (by decide)
  | mute e hpc =>
      exact h.passes (passes_at hpc (muteSession_left _) ⟨rfl, rfl⟩ ⟨rfl, by simp⟩ id id)
  | nmea e hpc =>
      exact h.passes (passes_at hpc (reportNmea_left _ e) ⟨rfl, rfl⟩ ⟨rfl, by simp⟩ id id)
  | noPost e hpc hidle =>
      have hidle := idleWork_eq_false hidle
      refine h.passes ⟨rfl, rfl, rfl, rfl, ⟨by rw [hpc]; rfl, by simp⟩,
        fun ha => ⟨rfl, fun _ => ?_⟩, fun _ => ⟨rfl, fun hp => (by cases hp)⟩⟩
      exact hidle.imp id fun hz => absurd hz.1 ha
  | noAiding hpc hnot =>
      refine h.passes (passes_at hpc hkept ⟨rfl, rfl⟩ ⟨rfl, by simp⟩ (fun hd => ?_) id)
      have hd := Bool.and_eq_true_iff.mp hd
      exact absurd ⟨of_decide_eq_true hd.1, of_decide_eq_true hd.2⟩ hnot
  | clears type hpc | clearsAgain hpc =>
      exact h.passes ⟨rfl, rfl, rfl, rfl, ⟨by rw [hpc]; rfl, by simp⟩, fun ha => absurd rfl ha,
        fun _ => ⟨rfl, fun hp => (by cases hp)⟩⟩
  | noXtra hpc hnot =>
      refine h.passes ⟨rfl, rfl, rfl, rfl, ⟨by rw [hpc]; rfl, by simp⟩,
        fun ha => ⟨rfl, fun hd => ?_⟩, fun hx => ⟨rfl, fun _ => ?_⟩⟩
      · rw [hpc] at hd
        cases hd
      · by_cases hon : s.data.engineStatus = .engineOn
        · exact Or.inl hon
        · exact absurd ⟨hon, hx⟩ hnot
  | xtraTake hpc =>
      refine h.passes ⟨rfl, rfl, rfl, rfl, ⟨by rw [hpc]; rfl, by simp⟩,
        fun ha => ⟨rfl, fun hd => ?_⟩, fun hx => (by cases hx)⟩
      rw [hpc] at hd
      cases hd
  | dataSet success hpc =>
      refine h.passes (passes_at hpc ⟨rfl, rfl, rfl, rfl, rfl⟩ ⟨rfl, rfl⟩
        ⟨rfl, by cases success <;> simp⟩ (fun hd => (by cases hd)) fun _ => rfl)
  | processes e hpc he | noEvent hpc he | noStatus e hpc he | noConn e hpc he | ni e hpc =>
      exact h.passes (passes_at hpc hkept ⟨rfl, rfl⟩ ⟨rfl, by simp⟩ id id)
  | aiding hpc hoff hasks =>
      exact h.passes (passes_at hpc hkept ⟨rfl, rfl⟩ ⟨rfl, by simp⟩ (fun _ => rfl) id)
  | deletes type hpc | xtra hpc hoff hbuf | xtraInject data hpc | opened hpc hflag
  | closed hpc hnot hflag | openFailed hpc hnot hnot' hflag hon
  | closeFailed hpc hnot hnot' hflag hon | noReply hpc hnot hnot' hnot'' | dataOff hpc | stop hpc
  | atl hpc =>
      exact h.passes (passes_at hpc ⟨rfl, rfl, rfl, rfl, rfl⟩ ⟨rfl, rfl⟩ ⟨rfl, by simp⟩
        (fun hd => (by cases hd)) id)

theorem signals_resume {s1 : State} {k : Nat} {c : Call} {next : Option Call}
    (hk : s.calls[k]? = some c) (hc : c.signals = false) (hcalls : s1.calls = s.calls)
    (h : ∃ c ∈ s.calls, c.signals = true) : ∃ c ∈ (s1.resume k next).calls, c.signals = true := by
  obtain ⟨c', hmem, hsig⟩ := h
  obtain ⟨j, hj⟩ := List.mem_iff_getElem?.mp hmem
  have hne : j ≠ k := by
    rintro rfl
    rw [hk] at hj
    cases hj
    rw [hc] at hsig
    cases hsig
  refine ⟨c', ?_, hsig⟩
  cases next with
  | some n =>
      show c' ∈ s1.calls.set k n
      rw [hcalls]
      exact List.mem_iff_getElem?.mpr ⟨j, by rw [List.getElem?_set_ne hne.symm, hj]⟩
  | none =>
      show c' ∈ s1.calls.eraseIdx k
      rw [hcalls]
      exact List.mem_eraseIdx_iff_getElem?.mpr ⟨j, hne, hj⟩

/-- A step of somebody else that sets no flag. -/
structure Beside (s s' : State) : Prop where
  event : s'.data.locEvent = s.data.locEvent
  flags : s'.data.deferredActionFlags = s.data.deferredActionFlags
  engine : s'.data.engineStatus = s.data.engineStatus
  locals : s'.locals = s.locals
  pc : s'.pc = s.pc ∨ s'.pc = s.pc.signalled
  aiding : s'.data.aidingDataForDeletion ≠ 0 → s'.data.engineStatus = .engineOn ∨
    s'.data.aidingDataForDeletion = s.data.aidingDataForDeletion
  xtra : s'.data.xtraDataForInjection.isSome = true →
    s'.data.xtraDataForInjection = s.data.xtraDataForInjection ∨ ∃ c ∈ s'.calls, c.signals = true
  calls : (∃ c ∈ s.calls, c.signals = true) → (∃ c ∈ s'.calls, c.signals = true) ∨
    s'.data.xtraDataForInjection = none ∨ s'.covered ∨ s'.pc.pastXtra = false ∧ s'.pc ≠ .waiting

theorem IdleInv.beside (h : IdleInv s) (hb : Beside s s') : IdleInv s' := by
  refine ⟨?_, fun hw => ?_, fun hl ha => ?_, fun hl hx => ?_⟩
  · rw [hb.event, hb.flags]
    exact h.event
  · rcases hb.pc with hpc | hpc
    · rw [hb.flags]
      exact h.asleep (hpc.symm.trans hw)
    · exact absurd (hpc.symm.trans hw) (signalled_ne_waiting _)
  · rcases hb.aiding ha with hon | heq
    · exact Or.inl (Or.inl hon)
    · rw [nudged_apply hb.pc WorkerPc.ended rfl] at hl
      rcases h.aiding hl (heq ▸ ha) with hc | hd
      · exact Or.inl (hc.keep hb.flags hb.engine)
      · rw [hb.locals, nudged_apply hb.pc (WorkerPc.willDelete s.locals) rfl]
        exact Or.inr hd
  · rcases hb.xtra hx with heq | hs
    · rw [nudged_apply hb.pc WorkerPc.ended rfl] at hl
      rcases h.xtra hl (heq ▸ hx) with hc | hp | hs
      · exact Or.inl (hc.keep hb.flags hb.engine)
      · have hpc : s'.pc = s.pc := by
          rcases hb.pc with hpc | hpc
          · exact hpc
          · rw [hpc]
            unfold WorkerPc.signalled
            rw [if_neg hp.2]
        rw [hpc]
        exact Or.inr (Or.inl hp)
      · rcases hb.calls hs with hs | hnone | hc | hp
        · exact Or.inr (Or.inr hs)
        · rw [hnone] at hx
          cases hx
        · exact Or.inl hc
        · exact Or.inr (Or.inl hp)
    · exact Or.inr (Or.inr hs)

/-- A call that is not about the XTRA buffer goes on and leaves everything alone. -/
theorem beside_resume {s1 : State} {k : Nat} {c : Call} {next : Option Call}
    (hk : s.calls[k]? = some c) (hc : c.signals = false) (hdata : s.data.SameLeft s1.data)
    (hpc : s1.pc = s.pc) (hrest : s1.calls = s.calls ∧ s1.locals = s.locals) :
    Beside s (s1.resume k next) := by
  refine ⟨?_, ?_, ?_, ?_, Or.inl ?_, fun _ => Or.inr ?_, fun _ => Or.inl ?_,
    fun hs => Or.inl (signals_resume hk hc hrest.1 hs)⟩
  · rw [resume_data, hdata.event]
  · rw [resume_data, hdata.flags]
  · rw [resume_data, hdata.engine]
  · rw [resume_locals, hrest.2]
  · rw [resume_pc, hpc]
  · rw [resume_data, hdata.aiding]
  · rw [resume_data, hdata.xtra]

theorem IdleInv.posted {s1 : State} {flag : Flags} {k : Nat} {next : Option Call}
    (hflag : flag ≠ 0) : IdleInv ((s1.post flag).resume k next) := by
  rw [post_eq]
  refine .flagged ?_ ?_
  · rw [resume_data]
    exact fun hz => hflag (BitVec.or_eq_zero_iff.mp hz).2
  · rw [resume_pc]
    exact signalled_ne_waiting _

theorem IdleInv.deletion (h : IdleInv s) {k : Nat} {f : AidingData}
    (hk : s.calls[k]? = some (.deleteAidingData f)) :
    IdleInv ((deleteAidingData s f).resume k none) := by
  unfold deleteAidingData
  dsimp only
  split
  · exact .posted (by decide)
  · rename_i hnot
    refine h.beside ?_
    by_cases hf : f ≠ 0
    · rw [recordDeletion, if_pos hf] at hnot ⊢
      refine ⟨rfl, rfl, rfl, rfl, Or.inl rfl, fun ha => Or.inl ?_, fun _ => Or.inl rfl,
        fun hs => Or.inl (signals_resume hk rfl rfl hs)⟩
      by_contra hon
      exact hnot ⟨hon, ha⟩
    · rw [recordDeletion, if_neg hf]
      exact beside_resume hk rfl ⟨rfl, rfl, rfl, rfl, rfl⟩ rfl ⟨rfl, rfl⟩

theorem IdleInv.xtraTest (h : IdleInv s) {k : Nat} (hk : s.calls[k]? = some .xtraTest) :
    IdleInv (s.resume k (if s.data.engineStatus ≠ .engineOn then some .xtraSignal else none)) := by
  refine h.beside ?_
  by_cases hon : s.data.engineStatus = .engineOn
  · rw [if_neg (not_not_intro hon)]
    exact ⟨rfl, rfl, rfl, rfl, Or.inl rfl, fun _ => Or.inr rfl, fun _ => Or.inl rfl,
      fun _ => Or.inr (Or.inr (Or.inl (Or.inl hon)))⟩
  · rw [if_pos hon]
    refine ⟨rfl, rfl, rfl, rfl, Or.inl rfl, fun _ => Or.inr rfl, fun _ => Or.inl rfl,
      fun _ => Or.inl ⟨.xtraSignal, ?_, rfl⟩⟩
    obtain ⟨hlt, _⟩ := List.getElem?_eq_some_iff.mp hk
    exact List.mem_set hlt _

theorem IdleInv.xtraSignal (h : IdleInv s) {k : Nat} {ok : Bool}
    (hh : heard s (.proceed k ok) = true) (hk : s.calls[k]? = some .xtraSignal) :
    IdleInv (s.signal.resume k none) := by
  refine h.beside ?_
  rw [signal_eq]
  refine ⟨rfl, rfl, rfl, rfl, Or.inr rfl, fun _ => Or.inr rfl, fun _ => Or.inl rfl,
    fun _ => Or.inr ?_⟩
  rcases of_decide_eq_true hh hk with hnone | hon | hflags | hpc
  · exact Or.inl hnone
  · exact Or.inr (Or.inl (Or.inl hon))
  · exact Or.inr (Or.inl (Or.inr hflags))
  · refine Or.inr (Or.inr ⟨?_, signalled_ne_waiting _⟩)
    exact (signalled_apply WorkerPc.pastXtra rfl s.pc).trans hpc

theorem IdleInv.proceed (h : IdleInv s) {k : Nat} {ok : Bool} {c : Call}
    (hk : s.calls[k]? = some c) (hh : heard s (.proceed k ok) = true) :
    IdleInv ((proceed s ok c).1.resume k (proceed s ok c).2) := by
  have hkept : s.data.SameLeft s.data := ⟨rfl, rfl, rfl, rfl, rfl⟩
  cases c with
  | event e => exact .posted (by decide)
  | dataConnOpen apn => exact .posted (by decide)
  | dataConnClosed | dataConnFailed => exact .posted (by decide)
  | deleteAidingData f => exact h.deletion hk
  | xtraTest => exact h.xtraTest hk
  | xtraSignal => exact h.xtraSignal hh hk
  | stopped closing =>
      exact h.beside (beside_resume hk rfl (endSession_left s.data) rfl ⟨rfl, rfl⟩)
  | stop closing =>
      unfold Engine.proceed
      dsimp only
      split <;> exact h.beside (beside_resume hk rfl ⟨rfl, rfl, rfl, rfl, rfl⟩ rfl ⟨rfl, rfl⟩)
  | close =>
      unfold Engine.proceed
      dsimp only
      split <;> exact h.beside (beside_resume hk rfl ⟨rfl, rfl, rfl, rfl, rfl⟩ rfl ⟨rfl, rfl⟩)
  | quit =>
      unfold Engine.proceed
      dsimp only
      split
      · exact .posted (by decide)
      · exact h.beside (beside_resume hk rfl hkept rfl ⟨rfl, rfl⟩)
  | start | stopFix closing | deinit =>
      exact h.beside (beside_resume hk rfl hkept rfl ⟨rfl, rfl⟩)
  | started | muteOneSession | unset | down =>
      exact h.beside (beside_resume hk rfl ⟨rfl, rfl, rfl, rfl, rfl⟩ rfl ⟨rfl, rfl⟩)

theorem signals_call (passes : Bool) (c : Call) (h : ∃ c ∈ s.calls, c.signals = true) :
    ∃ c' ∈ (s.call passes c).calls, c'.signals = true := by
  obtain ⟨c', hmem, hsig⟩ := h
  refine ⟨c', ?_, hsig⟩
  rw [call_calls]
  split
  · exact List.mem_append_left _ hmem
  · exact hmem

theorem IdleInv.step (h : IdleInv s) {a : Act} (hh : heard s a = true) (hs : Step s a s') :
    IdleInv s' := by
  cases hs with
  | opens _ passes c _ =>
      exact h.beside ⟨by simp, by simp, by simp, by simp, Or.inl (by simp),
        fun _ => Or.inr (by simp), fun _ => Or.inl (by simp),
        fun hs => Or.inl (signals_call passes c hs)⟩
  | agpsInit | xtraInit =>
      exact h.beside ⟨rfl, rfl, rfl, rfl, Or.inl rfl, fun _ => Or.inr rfl, fun _ => Or.inl rfl,
        Or.inl⟩
  | noData malloc => exact h
  | buffers data hne =>
      have hsig : ∃ c ∈ s.calls ++ [.xtraTest], c.signals = true := ⟨.xtraTest, by simp, rfl⟩
      exact h.beside ⟨rfl, rfl, rfl, rfl, Or.inl rfl, fun _ => Or.inr rfl, fun _ => Or.inr hsig,
        fun _ => Or.inl hsig⟩
  | noMemory data hne =>
      exact h.beside ⟨rfl, rfl, rfl, rfl, Or.inl rfl, fun _ => Or.inr rfl, fun _ => Or.inl rfl,
        fun hs => Or.inl (signals_call true .xtraTest hs)⟩
  | proceeds k ok c hk => exact h.proceed hk hh
  | spurious hpc =>
      refine h.beside ⟨rfl, rfl, rfl, rfl, Or.inr ?_, fun _ => Or.inr rfl, fun _ => Or.inl rfl,
        Or.inl⟩
      rw [hpc]
      rfl
  | works hw => exact h.work hw

theorem idleInv_init (clientHandle : Int) (statusCb : Bool) :
    IdleInv (init clientHandle statusCb) :=
  ⟨fun he => absurd rfl he, fun _ => rfl, fun _ ha => absurd rfl ha, fun _ hx => (by cases hx)⟩

end Idle

/-- **The worker sleeps with nothing left.** In every run in which no XTRA signal is lost: when the
    worker waits and nobody is about to signal it, no flag is set and no event is stored, and unless
    the engine is on no deletion is pending and no XTRA buffer waits. -/
theorem sleeps_with_nothing_left {clientHandle : Int} {statusCb : Bool} {s : State}
    (hr : Reach step (fun s a => heard s a = true) (init clientHandle statusCb) s)
    (hpc : s.pc = .waiting) (hcalls : ∀ c ∈ s.calls, c.signals = false) :
    s.data.deferredActionFlags = 0 ∧ s.data.locEvent = 0 ∧
      (s.data.engineStatus ≠ .engineOn →
        s.data.aidingDataForDeletion = 0 ∧ s.data.xtraDataForInjection = none) := by
  have h : IdleInv s :=
    hr.inv (idleInv_init clientHandle statusCb) fun s a s' hi hh hs => hi.step hh (step_cases hs)
  have hflags := h.asleep hpc
  have hlive : s.pc.ended = false := by rw [hpc]; rfl
  refine ⟨hflags, ?_, fun hoff => ⟨?_, ?_⟩⟩
  · by_contra he
    exact h.event he hflags
  · by_contra ha
    rcases h.aiding hlive ha with (hon | hne) | hd
    · exact hoff hon
    · exact hne hflags
    · rw [hpc] at hd
      cases hd
  · by_contra hx
    rcases h.xtra hlive (Option.isSome_iff_ne_none.mpr hx) with (hon | hne) | hp | ⟨c, hc, hs⟩
    · exact hoff hon
    · exact hne hflags
    · exact hp.2 hpc
    · rw [hcalls c hc] at hs
      cases hs

/-- A buffer is handed over with the engine off, and injected. -/
theorem sleeps_with_nothing_left_xtra :
    ∃ s, Reach step (fun s a => heard s a = true) (init 1 true) s ∧
      s.log = [.injectXtra [1, 2]] ∧ s.data.xtraDataForInjection = none := by
  have hrun : runTest step heard (init 1 true)
      (List.flatten [[.work, .injectXtraData [1, 2] true, .proceed 0 true, .proceed 0 true],
        List.replicate 9 .work])
      (fun s => decide (s.log = [.injectXtra [1, 2]] ∧ s.data.engineStatus ≠ .engineOn ∧
        s.pc = .waiting ∧ s.calls = [])) = true := by
    decide
  obtain ⟨s, hr, hp⟩ := reach_of_runTest hrun
  obtain ⟨hlog, hoff, hpc, hcalls⟩ := of_decide_eq_true hp
  have hleft := sleeps_with_nothing_left hr hpc (by rw [hcalls]; simp)
  exact ⟨s, hr, hlog, (hleft.2.2 hoff).2⟩

/-- **A buffer left behind.** The signal of the XTRA proxy finds the worker on its way to the wait:
    the buffer is there, the engine off, and nobody is left who would wake the worker. -/
theorem buffer_left_behind :
    ∃ s, Reach step Always (init 1 true) s ∧ s.pc = .waiting ∧
      (∀ c ∈ s.calls, c.signals = false) ∧ s.data.engineStatus ≠ .engineOn ∧
      s.data.xtraDataForInjection ≠ none := by
  have hrun : runTest step (fun _ _ => true) (init 1 true)
      [.injectXtraData [1, 2] true, .proceed 0 true, .proceed 0 true, .work]
      (fun s => decide (s.pc = .waiting ∧ s.calls = [] ∧ s.data.engineStatus ≠ .engineOn ∧
        s.data.xtraDataForInjection = some [1, 2])) = true := by
    decide
  obtain ⟨s, hr, hp⟩ := reach_of_runTest hrun
  obtain ⟨hpc, hcalls, hoff, hbuf⟩ := of_decide_eq_true hp
  refine ⟨s, hr.always, hpc, by rw [hcalls]; simp, hoff, ?_⟩
  rw [hbuf]
  simp

end Y210.Gps.Engine

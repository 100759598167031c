/-
  File:      Y210/Ril/EventLoop.lean
  Subject:   RILD'S EVENT THREAD (ril_event_loop and the callbacks of ril.cpp) among the threads
             that call into libril.

  A step is one critical section, one access of a shared variable, or one outcome of a system
  call. The event thread copies `readFds`, reads the head of the timers, works out how long to
  sleep, sleeps in `select`, and then calls what is due; the other threads ask for timed callbacks,
  register the two server sockets, and find that a write to the command socket fails, which closes
  it. After a thread changed the tables it owes the event thread a byte in the wake-up pipe.

  `listenCallback` stores what `accept` gave in `s_fdCommand` at once; the peer is looked at, and
  `s_commands_event` is added, in later steps. `processCommandsCallback` closes the socket, takes
  the event out and adds `s_listen_event` in three steps.

  `requested` and `fired` are the history of the timed callbacks: which were asked for and for when,
  and which were called and when. `dead` is a command descriptor that was closed while
  `s_commands_event` waits for it or is about to: by a failed write, by the debug port's radio-off,
  or at the end of a connection.
  `crashed` is a null or dangling pointer that was followed, or a `ril_event_del` that returned with
  the mutex held; `aborted` is a failed `assert`.

  * `State`, `step` -- the machine;
  * `Base` -- what the tables hold; `Inv` -- and which of the sockets is waited for, and where the
    event thread stands;
  * `agenda` -- the timers as the library's agenda.
-/
import Y210.Lib.Agenda
import Y210.Lib.Run
import Y210.Ril.Events

namespace Y210.Ril.Loop

open Y210.Lib Events

/-! ## 1. State -/

/-- The callbacks: a timer is known by the number of its request. -/
inductive Handler where
  | wakeup
  | listen
  | commands
  | debug
  | timer (id : Nat)
  deriving DecidableEq

/-- The addresses of the static events. -/
abbrev commandsEvent : Nat := 2
abbrev wakeupEvent : Nat := 3
abbrev listenEvent : Nat := 4
abbrev debugEvent : Nat := 5

/-- The descriptors that stay open: `s_fdWakeupRead`, `s_fdListen`, `s_fdDebug`. -/
structure Fds where
  wakeup : Int
  listen : Int
  debug : Int
  nonneg : 0 ≤ wakeup ∧ 0 ≤ listen ∧ 0 ≤ debug
  distinct : wakeup ≠ listen ∧ wakeup ≠ debug ∧ listen ≠ debug

/-- Where the event thread stands. `wait` is what `calcNextTimeout` gave at the time `since`, `wake`
    the time `select` returns at, and `late` how long after `since` it was entered. -/
inductive Pc where
  | boot
  | piped
  | top
  | copied (rfds : Int → Bool)
  | head (rfds : Int → Bool) (tev : Nat)
  | timed (rfds : Int → Bool) (wait : Option Nat) (since : Nat)
  | select (rfds : Int → Bool) (wake : Option Nat) (late : Nat)
  | timeouts (rfds : Int → Bool) (n : Nat)
  | readies (rfds : Int → Bool) (n : Nat)
  | fire
  | firing (ev : Nat)
  | call (ev : Nat) (fd : Int) (func : Handler) (next : Nat)
  -- in `listenCallback`: a connection was taken; it is in the table
  | accepted (next : Nat)
  | connected (next : Nat)
  -- in `processCommandsCallback`: the socket was closed
  | closing (next : Nat)
  -- in either of the two, about to listen again
  | relisten (next : Nat)
  | returned
  | aborted
  | crashed

structure State where
  ev : Events Handler
  pc : Pc
  now : Nat
  pipe : Nat
  owed : Nat
  registered : Nat
  fdCommand : Int
  dead : Option Int
  requested : List (Nat × Nat)
  fired : List (Done Nat)

/-- After `ril_event_init`. -/
def init : State where
  ev := eventInit 4
  pc := .boot
  now := 0
  pipe := 0
  owed := 0
  registered := 0
  fdCommand := -1
  dead := none
  requested := []
  fired := []

inductive Act where
  | tick (d : Nat)
  -- the other threads
  | request (a tv : Nat)
  | trigger
  | register
  | writeError
  -- the event thread
  | pipe
  | boot
  | copy
  | readHead
  | nextTimeout
  | enter (reused : Bool)
  | eintr
  | ready (fds : List Int)
  | timeouts
  | readies
  | fire
  | takeNext
  | callbackRequest (a tv : Nat)
  | timerDone
  | drain
  | accept (fd : Option Int)
  | refuse
  | connect
  | ret
  | commands (closed : Bool)
  | unwatch
  | relisten
  | debug (radioOff : Bool)

/-! ## 2. Steps -/

def crash (s : State) : State := { s with pc := .crashed }

/-- The state with new tables, if the tables' function had a result. -/
def withEv (s : State) (pc : Pc) : Option (Events Handler) → State
  | none => crash s
  | some ev => { s with ev, pc }

/-- `internalRequestTimedCallback`, up to the trigger: `malloc` gave the address `a`. -/
def requestTimer (s : State) (a tv : Nat) : State :=
  { withEv s s.pc ((s.ev.timerNew a (.timer s.requested.length)).bind fun ev =>
      ev.timerAdd a tv s.now) with
    requested := s.requested ++ [(s.requested.length, s.now + tv)] }

/-- `ril_event_set` and `ril_event_add`. -/
def setAdd (ev : Events Handler) (a : Nat) (fd : Int) (persist : Bool) (func : Handler) :
    Option (Events Handler) :=
  (ev.eventSet a fd persist func).bind fun ev => ev.eventAdd a

/-- `calcNextTimeout`: how long `select` is to wait, not at all if the timer is due. -/
def nextTimeout (s : State) (tev : Nat) : Option Nat :=
  if tev = timerList then none else some (timeoutOf s.ev.mem tev - s.now)

/-- The timed callbacks called so far, with this call. -/
def firedWith (s : State) (timeout : Nat) : Handler → List (Done Nat)
  | .timer id => s.fired ++ [⟨id, timeout, s.now⟩]
  | _ => s.fired

/-- A pending event is taken out and its function called. -/
def callNext (s : State) (ev : Nat) : State :=
  match s.ev.takePending ev with
  | none => crash s
  | some (tables, next) =>
    match tables.mem.val ev with
    | none => crash s
    | some e =>
      match e.func with
      | none => crash s
      | some func =>
        { s with
          ev := tables
          pc := .call ev e.fd func next
          fired := firedWith s e.timeout func }

/-- The end of `processCommandsCallback` after end of stream or a fatal error: the socket was
    closed, its event leaves the table. -/
def closeCommands (s : State) (next : Nat) : State :=
  match s.ev.eventDel commandsEvent with
  | some (ev, true) => { s with ev, pc := .relisten next, dead := none }
  | _ => crash s

/-- The end of `listenCallback` with a connection of the phone process. -/
def acceptCommands (s : State) (next : Nat) : State :=
  withEv s (.connected next) (setAdd s.ev commandsEvent s.fdCommand true .commands)

/-- A callback that may ask for timed callbacks. -/
def Pc.calling : Pc → Bool
  | .call _ _ _ _ | .connected _ => true
  | _ => false

/-- The descriptor that `accept` gives is none of those that are open. -/
def newFd (fds : Fds) (fd : Int) : Bool :=
  0 ≤ fd && fd != fds.wakeup && fd != fds.listen && fd != fds.debug

def step (fds : Fds) (s : State) : Act → Option State
  | .tick d => some { s with now := s.now + d }
  | .request a tv =>
    match s.ev.mem.val a with
    | some _ => none
    | none => some { requestTimer s a tv with owed := s.owed + 1 }
  | .trigger =>
    if s.owed = 0 then none
    else
      match s.pc with
      -- before `pipe()` the byte goes to descriptor 0
      | .boot => some { s with owed := s.owed - 1 }
      | _ => some { s with owed := s.owed - 1, pipe := s.pipe + 1 }
  | .register =>
    match s.registered with
    | 0 => some { withEv s s.pc (setAdd s.ev listenEvent fds.listen false .listen) with
        registered := 1, owed := s.owed + 1 }
    | 1 => some { withEv s s.pc (setAdd s.ev debugEvent fds.debug true .debug) with
        registered := 2, owed := s.owed + 1 }
    | _ => none
  | .writeError => if s.fdCommand < 0 then none else some { s with dead := some s.fdCommand }
  | .pipe =>
    match s.pc with
    | .boot => some { s with pc := .piped }
    | _ => none
  | .boot =>
    match s.pc with
    | .piped => some (withEv s .top (setAdd s.ev wakeupEvent fds.wakeup true .wakeup))
    | _ => none
  | .copy =>
    match s.pc with
    | .top => some { s with pc := .copied s.ev.readFds }
    | _ => none
  | .readHead =>
    match s.pc with
    | .copied rfds =>
      match s.ev.mem.next timerList with
      | none => some (crash s)
      | some tev => some { s with pc := .head rfds tev }
    | _ => none
  | .nextTimeout =>
    match s.pc with
    | .head rfds tev =>
      match s.ev.mem.val tev with
      | none => some (crash s)
      | some _ => some { s with pc := .timed rfds (nextTimeout s tev) s.now }
    | _ => none
  | .enter reused =>
    match s.pc with
    | .timed rfds wait since =>
      -- a closed descriptor in the set is an error other than EINTR, if the number was not given
      -- out again
      if s.dead.any rfds ∧ ¬ reused then some { s with pc := .returned }
      else some { s with pc := .select rfds (wait.map (s.now + ·)) (s.now - since) }
    | _ => none
  | .eintr =>
    match s.pc with
    | .select _ _ _ => some { s with pc := .top }
    | _ => none
  | .ready l =>
    match s.pc with
    | .select rfds wake _ =>
      if l.Nodup ∧ l.all rfds ∧ (l ≠ [] ∨ wake.any (· ≤ s.now)) then
        some { s with pc := .timeouts (fun fd => l.contains fd) l.length }
      else none
    | _ => none
  | .timeouts =>
    match s.pc with
    | .timeouts rfds n => some (withEv s (.readies rfds n) (s.ev.processTimeouts s.now))
    | _ => none
  | .readies =>
    match s.pc with
    | .readies rfds n => some (withEv s .fire (s.ev.processReadReadies rfds n))
    | _ => none
  | .fire =>
    match s.pc with
    | .fire =>
      match s.ev.mem.next pendingList with
      | none => some (crash s)
      | some ev => some { s with pc := .firing ev }
    | _ => none
  | .takeNext =>
    match s.pc with
    | .firing ev =>
      if ev = pendingList then some { s with pc := .top } else some (callNext s ev)
    | _ => none
  | .callbackRequest a tv =>
    match s.pc.calling, s.ev.mem.val a with
    | true, none => some (requestTimer s a tv)
    | _, _ => none
  | .timerDone =>
    match s.pc with
    | .call ev _ (.timer _) next =>
      some { s with ev := { s.ev with mem := s.ev.mem.free ev }, pc := .firing next }
    | _ => none
  | .drain =>
    match s.pc with
    | .call _ _ .wakeup next =>
      if s.pipe = 0 then some { s with pc := .firing next }
      else some { s with pipe := s.pipe - 16 }
    | _ => none
  | .accept r =>
    match s.pc with
    | .call _ fd .listen next =>
      if 0 ≤ s.fdCommand ∨ fd ≠ fds.listen then some { s with pc := .aborted }
      else
        match r with
        | none => some { s with pc := .relisten next, fdCommand := -1 }
        | some f =>
          if newFd fds f then some { s with pc := .accepted next, fdCommand := f } else none
    | _ => none
  | .refuse =>
    match s.pc with
    | .accepted next => some { s with pc := .relisten next, fdCommand := -1, dead := none }
    | _ => none
  | .connect =>
    match s.pc with
    | .accepted next => some (acceptCommands s next)
    | _ => none
  | .ret =>
    match s.pc with
    | .connected next => some { s with pc := .firing next }
    | _ => none
  | .commands closed =>
    match s.pc with
    | .call _ fd .commands next =>
      if fd ≠ s.fdCommand then some { s with pc := .aborted }
      else if closed then
        some { s with pc := .closing next, fdCommand := -1, dead := some s.fdCommand }
      else some { s with pc := .firing next }
    | _ => none
  | .unwatch =>
    match s.pc with
    | .closing next => some (closeCommands s next)
    | _ => none
  | .relisten =>
    match s.pc with
    | .relisten next => some (withEv s (.firing next) (s.ev.eventAdd listenEvent))
    | _ => none
  | .debug radioOff =>
    match s.pc with
    | .call _ _ .debug next =>
      if radioOff ∧ 0 ≤ s.fdCommand then
        some { s with pc := .firing next, fdCommand := -1, dead := some s.fdCommand }
      else some { s with pc := .firing next }
    | _ => none

/-! ## 3. The invariant -/

/-- What the static events are set to. -/
inductive Kind (fds : Fds) : Nat → Int → Bool → Option Handler → Prop where
  | wakeup : Kind fds wakeupEvent fds.wakeup true (some .wakeup)
  | listen : Kind fds listenEvent fds.listen false (some .listen)
  | debug : Kind fds debugEvent fds.debug true (some .debug)
  | commands {fd : Int} (h : newFd fds fd = true) : Kind fds commandsEvent fd true (some .commands)

def IsStatic (fds : Fds) (m : Cells (RilEvent Handler)) (a : Nat) : Prop :=
  ∃ e, m.val a = some e ∧ Kind fds a e.fd e.persist e.func

def IsTimer (m : Cells (RilEvent Handler)) (a : Nat) : Prop :=
  6 ≤ a ∧ ∃ e id, m.val a = some e ∧ e.func = some (.timer id)

/-- The events about to be called, the one that is being called included, until it is known which of
    the two server sockets is to be waited for next. -/
def queue : Pc → List Nat → List Nat
  | .call ev _ _ _, ps => ev :: ps
  | .accepted _, ps | .relisten _, ps => listenEvent :: ps
  | .closing _, ps => commandsEvent :: ps
  | _, ps => ps

/-- A connection was taken, and its event is not in the table yet. -/
def Pc.taken : Pc → Bool
  | .accepted _ => true
  | _ => false

def Pc.started : Pc → Bool
  | .boot | .piped => false
  | _ => true

/-- **One server socket at a time**: with the sockets registered, either the listening socket is
    waited for or its callback is due, or the command socket is waited for; `listenEvent ∈ q` also
    stands for a callback that is about to decide. -/
structure Conn (watched : Nat → Prop) (q : List Nat) (registered : Nat) : Prop where
  listen : watched listenEvent → listenEvent ∉ q ∧ ¬ watched commandsEvent
  queued : listenEvent ∈ q → ¬ watched commandsEvent
  commands : commandsEvent ∈ q → watched commandsEvent
  served : 1 ≤ registered → watched listenEvent ∨ listenEvent ∈ q ∨ watched commandsEvent
  none : registered = 0 → ¬ watched listenEvent ∧ listenEvent ∉ q ∧ ¬ watched commandsEvent
  debug : watched debugEvent ∨ debugEvent ∈ q → 2 ≤ registered

/-- `s_fdCommand` is the descriptor that `s_commands_event` waits for, unless it was closed by the
    event thread itself. -/
def CmdFd (s : State) : Prop :=
  (¬ s.ev.Watched commandsEvent → s.pc.taken = false → s.fdCommand < 0 ∧ s.dead = none) ∧
  ∀ e, s.ev.Watched commandsEvent → s.ev.mem.val commandsEvent = some e →
    (s.fdCommand = e.fd ∧ (s.dead = none ∨ s.dead = some e.fd)) ∨
      (s.fdCommand < 0 ∧ s.dead = some e.fd)

/-- What the event thread can rely on where it stands. -/
def At (fds : Fds) (s : State) (ts ps : List Nat) : Prop :=
  match s.pc with
  | .boot | .piped | .top | .copied _ | .timed _ _ _ | .select _ _ _ | .timeouts _ _ => ps = []
  | .head _ tev => ps = [] ∧ tev ∈ timerList :: ts
  | .readies _ _ => ∀ a ∈ ps, 6 ≤ a
  | .fire => True
  | .firing ev => ev = ps.headD pendingList
  | .call ev fd func next => next = ps.headD pendingList ∧ Loose ts ps ev ∧
      ∃ e, s.ev.mem.val ev = some e ∧ e.fd = fd ∧ e.func = some func
  | .accepted next => next = ps.headD pendingList ∧ listenEvent ∉ ps ∧
      newFd fds s.fdCommand = true ∧ (s.dead = none ∨ s.dead = some s.fdCommand)
  | .connected next => next = ps.headD pendingList
  | .closing next => next = ps.headD pendingList ∧ commandsEvent ∉ ps ∧ s.fdCommand < 0
  | .relisten next => next = ps.headD pendingList ∧ listenEvent ∉ ps
  | .returned => s.dead.isSome = true
  | .aborted => s.dead.isSome = true ∧ s.fdCommand < 0
  | .crashed => False

/-- What the tables hold: only the static events are in the table, and what is in a ring, or being
    called, is a timer or one of them. -/
structure Base (fds : Fds) (ev : Events Handler) (q ts ps : List Nat) : Prop where
  rings : Rings ev.mem ts ps
  watching : Watching ev
  static : ∀ a, 2 ≤ a → a < 6 → ∃ e, ev.mem.val a = some e
  timer : ∀ a ∈ ts, IsTimer ev.mem a
  queued : ∀ a ∈ q, IsTimer ev.mem a ∨ IsStatic fds ev.mem a
  watched : ∀ a, ev.Watched a → IsStatic fds ev.mem a

/-- **The invariant**, with the events in the two rings. -/
structure Inv (fds : Fds) (s : State) (ts ps : List Nat) : Prop where
  base : Base fds s.ev (queue s.pc ps) ts ps
  listenSet : 1 ≤ s.registered → IsStatic fds s.ev.mem listenEvent
  wake : s.ev.Watched wakeupEvent ↔ s.pc.started = true
  conn : Conn s.ev.Watched (queue s.pc ps) s.registered
  cmd : CmdFd s
  here : At fds s ts ps

section Facts

variable {fds : Fds} {m m' : Cells (RilEvent Handler)} {a b : Nat} {fd : Int} {p p' : Bool}
  {f f' : Option Handler}

theorem Kind.range (h : Kind fds a fd p f) : 2 ≤ a ∧ a < 6 := by
  cases h <;> decide

theorem Kind.nonneg (h : Kind fds a fd p f) : 0 ≤ fd := by
  have := fds.nonneg
  cases h with
  | commands h =>
      simp only [newFd, Bool.and_eq_true, decide_eq_true_eq] at h
      exact h.1.1.1
  | _ => omega

/-- No two static events have one descriptor. -/
theorem Kind.inj {fd' : Int} (h : Kind fds a fd p f) (h' : Kind fds b fd' p' f')
    (hfd : fd = fd') : a = b := by
  have := fds.distinct
  cases h <;> cases h' <;> simp_all [newFd]

theorem Kind.not_timer (h : Kind fds a fd p f) (id : Nat) : f ≠ some (.timer id) := by
  cases h <;> simp

/-- Only the listening socket's event does not persist. -/
theorem Kind.once (h : Kind fds a fd p f) : p = false ↔ a = listenEvent := by
  cases h <;> decide

theorem Kind.func (h : Kind fds a fd p f) : ∃ func, f = some func := by
  cases h <;> exact ⟨_, rfl⟩

theorem IsStatic.range (h : IsStatic fds m a) : 2 ≤ a ∧ a < 6 :=
  have ⟨_, _, hk⟩ := h
  hk.range

theorem IsStatic.of_val (h : IsStatic fds m a) (hv : m'.val a = m.val a) : IsStatic fds m' a := by
  obtain ⟨e, he, hk⟩ := h
  exact ⟨e, hv.trans he, hk⟩

theorem IsTimer.of_val (h : IsTimer m a) (hv : m'.val a = m.val a) : IsTimer m' a := by
  obtain ⟨hle, e, id, he, hf⟩ := h
  exact ⟨hle, e, id, hv.trans he, hf⟩

theorem IsStatic.alike (h : IsStatic fds m a) (hal : Alike m m') : IsStatic fds m' a := by
  obtain ⟨e, he, hk⟩ := h
  obtain ⟨j, hj⟩ := hal.val he
  exact ⟨_, hj, hk⟩

theorem IsTimer.alike (h : IsTimer m a) (hal : Alike m m') : IsTimer m' a := by
  obtain ⟨hle, e, id, he, hf⟩ := h
  obtain ⟨j, hj⟩ := hal.val he
  exact ⟨hle, _, id, hj, hf⟩

/-- A timer is called with its own number. -/
theorem IsTimer.func (h : IsTimer m a) {e : RilEvent Handler} (hv : m.val a = some e) :
    ∃ id, e.func = some (.timer id) := by
  obtain ⟨-, e', id, he, hf⟩ := h
  obtain rfl : e = e' := Option.some.inj (hv.symm.trans he)
  exact ⟨id, hf⟩

theorem IsTimer.live (h : IsTimer m a) : m.val a ≠ none := by
  obtain ⟨-, e, id, he, -⟩ := h
  rw [he]
  exact Option.some_ne_none e

theorem IsStatic.live (h : IsStatic fds m a) : m.val a ≠ none := by
  obtain ⟨e, he, -⟩ := h
  rw [he]
  exact Option.some_ne_none e

/-- Another queue, with the same of the server's events in it. -/
theorem Conn.requeue {watched : Nat → Prop} {q q' : List Nat} {r : Nat} (h : Conn watched q r)
    (h4 : listenEvent ∈ q' ↔ listenEvent ∈ q) (h2 : commandsEvent ∈ q' → commandsEvent ∈ q)
    (h5 : debugEvent ∈ q' → debugEvent ∈ q) : Conn watched q' r where
  listen := fun hw => ⟨fun hm => (h.listen hw).1 (h4.mp hm), (h.listen hw).2⟩
  queued := fun hm => h.queued (h4.mp hm)
  commands := fun hm => h.commands (h2 hm)
  served := fun hr => (h.served hr).imp id fun hm => hm.imp h4.mpr id
  none := fun hr => ⟨(h.none hr).1, fun hm => (h.none hr).2.1 (h4.mp hm), (h.none hr).2.2⟩
  debug := fun hd => h.debug (hd.imp id h5)

/-- Another table, with the same of the server's events in it. -/
theorem Conn.congr {watched watched' : Nat → Prop} {q : List Nat} {r : Nat} (h : Conn watched q r)
    (h4 : watched' listenEvent ↔ watched listenEvent)
    (h2 : watched' commandsEvent ↔ watched commandsEvent)
    (h5 : watched' debugEvent → watched debugEvent) : Conn watched' q r where
  listen := fun hw => (h.listen (h4.mp hw)).imp_right (not_congr h2).mpr
  queued := fun hm => (not_congr h2).mpr (h.queued hm)
  commands := fun hm => h2.mpr (h.commands hm)
  served := fun hr => (h.served hr).imp h4.mpr (Or.imp_right h2.mpr)
  none := fun hr => by
    rw [h4, h2]
    exact h.none hr
  debug := fun hd => h.debug (hd.imp h5 id)

/-- The event that is being called leaves the queue. -/
theorem Conn.drop {watched : Nat → Prop} {ps : List Nat} {r : Nat}
    (h : Conn watched (a :: ps) r) (ha : a ≠ listenEvent) : Conn watched ps r := by
  refine h.requeue ⟨List.mem_cons_of_mem _, fun hm => ?_⟩ (List.mem_cons_of_mem _)
    (List.mem_cons_of_mem _)
  exact (List.mem_cons.mp hm).resolve_left (Ne.symm ha)

/-- The command socket's event is as it was. -/
theorem CmdFd.congr {s s' : State} (h : CmdFd s)
    (hw : s'.ev.Watched commandsEvent ↔ s.ev.Watched commandsEvent)
    (hal : Alike s.ev.mem s'.ev.mem) (ht : s'.pc.taken = s.pc.taken)
    (hfd : s'.fdCommand = s.fdCommand) (hdead : s'.dead = s.dead) : CmdFd s' := by
  unfold CmdFd
  rw [hw, ht, hfd, hdead]
  refine ⟨h.1, fun e hwat hv => ?_⟩
  obtain ⟨j, hj⟩ := hal.symm.val hv
  have := h.2 _ hwat hj
  exact this

end Facts

/-! ### The tables -/

section Tables

variable {fds : Fds} {ev ev' : Events Handler} {q ts ps : List Nat} {x : Nat}

/-- A descriptor of a static event that is not in the table is not waited for. -/
theorem Base.not_read (h : Base fds ev q ts ps) {fd : Int} {p : Bool} {f : Option Handler}
    (hk : Kind fds x fd p f) (hnot : ¬ ev.Watched x) : ev.readFds fd = false := by
  by_contra hread
  obtain ⟨i, y, e, hi, hv, rfl⟩ := h.watching.only (Bool.not_eq_false _ ▸ hread)
  obtain ⟨e', hv', hk'⟩ := h.watched y ⟨i, hi⟩
  obtain rfl : e = e' := Option.some.inj (hv.symm.trans hv')
  exact hnot (hk.inj hk' rfl ▸ ⟨i, hi⟩)

/-- The table has room: only the four static events are ever in it. -/
theorem Base.free (h : Base fds ev q ts ps) : ∃ i, ev.watchTable i = none := by
  by_contra hfull
  have hsome : ∀ i, ∃ a, ev.watchTable i = some a := fun i =>
    Option.ne_none_iff_exists'.mp fun hi => hfull ⟨i, hi⟩
  choose f hf using hsome
  have hnd : ((List.finRange maxFdEvents).map f).Nodup := by
    refine (List.nodup_finRange _).map fun i j hij => ?_
    exact h.watching.inj (hf i) (hij ▸ hf j)
  have hsub : (List.finRange maxFdEvents).map f ⊆ [2, 3, 4, 5] := by
    intro a ha
    obtain ⟨i, -, rfl⟩ := List.mem_map.mp ha
    have hr := (h.watched _ ⟨i, hf i⟩).range
    simp only [List.mem_cons, List.not_mem_nil, or_false]
    omega
  have hle := (List.subperm_of_subset hnd hsub).length_le
  simp only [List.length_map, List.length_finRange] at hle
  exact absurd hle (by decide)

theorem Base.loose (h : Base fds ev q ts ps) (hx : 2 ≤ x ∧ x < 6) (hp : x ∉ ps) :
    Loose ts ps x := by
  refine ⟨fun hm => ?_, fun hm => ?_⟩
  · rcases List.mem_cons.mp hm with rfl | hm
    · exact absurd hx.1 (by decide)
    · have := (h.timer x hm).1
      omega
  · rcases List.mem_cons.mp hm with rfl | hm
    · exact absurd hx.1 (by decide)
    · exact hp hm

/-- An address that `malloc` gives is none of the static ones. -/
theorem Base.six_le (h : Base fds ev q ts ps) (hx : ev.mem.val x = none) : 6 ≤ x := by
  by_contra hlt
  have hne : ∃ e, ev.mem.val x = some e := by
    rcases Nat.lt_or_ge x 2 with h2 | h2
    · rcases Nat.lt_or_ge x 1 with h1 | h1
      · obtain rfl : x = timerList := show x = 0 by omega
        exact h.rings.timers.live (by simp)
      · obtain rfl : x = pendingList := show x = 1 by omega
        exact h.rings.pending.live (by simp)
    · exact h.static x h2 (by omega)
  obtain ⟨e, he⟩ := hne
  rw [hx] at he
  cases he

/-- At most indices changed, and the table did not grow. -/
theorem Base.alike (h : Base fds ev q ts ps) (hw : Watching ev') (hal : Alike ev.mem ev'.mem)
    (hsub : ∀ y, ev'.Watched y → ev.Watched y) {q' ts' ps' : List Nat}
    (hr : Rings ev'.mem ts' ps') (hts : ∀ a ∈ ts', a ∈ ts)
    (hq : ∀ a ∈ q', a ∈ q ∨ a ∈ ts ∨ ev.Watched a) : Base fds ev' q' ts' ps' where
  rings := hr
  watching := hw
  static := by
    intro a h₁ h₂
    obtain ⟨e, he⟩ := h.static a h₁ h₂
    obtain ⟨j, hj⟩ := hal.val he
    exact ⟨_, hj⟩
  timer := fun a ha => (h.timer a (hts a ha)).alike hal
  queued := by
    intro a ha
    rcases hq a ha with ha | ha | ha
    · exact (h.queued a ha).imp (fun ht => ht.alike hal) fun hs => hs.alike hal
    · exact Or.inl ((h.timer a ha).alike hal)
    · exact Or.inr ((h.watched a ha).alike hal)
  watched := fun a ha => (h.watched a (hsub a ha)).alike hal

/-- Another queue, with static events added to it. -/
theorem Base.requeue (h : Base fds ev q ts ps) {q' : List Nat}
    (hq : ∀ a ∈ q', a ∈ q ∨ IsStatic fds ev.mem a) : Base fds ev q' ts ps where
  rings := h.rings
  watching := h.watching
  static := h.static
  timer := h.timer
  queued := fun a ha => (hq a ha).elim (h.queued a) Or.inr
  watched := h.watched

/-- Links changed, and no event did. -/
theorem Base.relink (h : Base fds ev q ts ps) {m : Cells (RilEvent Handler)}
    (hval : m.val = ev.mem.val) {q' ts' ps' : List Nat} (hr : Rings m ts' ps')
    (hts : ∀ a ∈ ts', a ∈ ts) (hq : ∀ a ∈ q', a ∈ q ∨ a ∈ ts) :
    Base fds { ev with mem := m } q' ts' ps' := by
  have hw : Watching { ev with mem := m } := h.watching.congr fun a _ => by rw [hval]
  have hal : Alike ev.mem m := Alike.of_val hval
  exact h.alike hw hal (fun _ hy => hy) hr hts fun a ha => (hq a ha).imp id Or.inl

/-- What `ril_event_add` leaves, whether or not `ril_event_set` came before it. -/
structure Added (fds : Fds) (ev ev' : Events Handler) (ts ps : List Nat) (x : Nat) (fd : Int) :
    Prop where
  rings : Rings ev'.mem ts ps
  watching : Watching ev'
  watched : ∀ y, ev'.Watched y ↔ y = x ∨ ev.Watched y
  others : ∀ a, a ≠ x → ev'.mem.val a = ev.mem.val a
  event : ∃ e, ev'.mem.val x = some e ∧ e.fd = fd ∧ Kind fds x e.fd e.persist e.func

/-- A static event is set and added. -/
theorem Base.setAdd (h : Base fds ev q ts ps) {fd : Int} {p : Bool} {f : Handler}
    (hk : Kind fds x fd p (some f)) (hnot : ¬ ev.Watched x) (hp : x ∉ ps) :
    ∃ ev', setAdd ev x fd p f = some ev' ∧ Added fds ev ev' ts ps x fd := by
  obtain ⟨e, he⟩ := h.static x hk.range.1 hk.range.2
  obtain ⟨m, hm, hw, hr, hval⟩ :=
    eventSet_spec h.watching h.rings (h.loose hk.range hp) hnot he fd p f
  have hself : m.val x = some (fresh fd p f) := by rw [hval, Function.update_self]
  obtain ⟨ev', hev', hw', hre, hwat⟩ := eventAdd_spec (s := { ev with mem := m }) hw hself
    hk.nonneg (h.not_read hk hnot) h.free
  refine ⟨ev', by rw [Loop.setAdd, hm, Option.bind_some, hev'], hre.rings hr, hw', hwat,
    fun a ha => ?_, ?_⟩
  · rw [hre.others a ha]
    show m.val a = _
    rw [hval, Function.update_of_ne ha]
  · obtain ⟨j, hj⟩ := hre.alike.val hself
    exact ⟨_, hj, rfl, hk⟩

/-- A static event that is set already is added. -/
theorem Base.eventAdd (h : Base fds ev q ts ps) (hx : IsStatic fds ev.mem x)
    (hnot : ¬ ev.Watched x) :
    ∃ ev' fd, ev.eventAdd x = some ev' ∧ Added fds ev ev' ts ps x fd := by
  obtain ⟨e, he, hk⟩ := hx
  obtain ⟨ev', hev', hw', hre, hwat⟩ := eventAdd_spec h.watching he hk.nonneg
    (h.not_read hk hnot) h.free
  refine ⟨ev', e.fd, hev', hre.rings h.rings, hw', hwat, hre.others, ?_⟩
  obtain ⟨j, hj⟩ := hre.alike.val he
  exact ⟨_, hj, rfl, hk⟩

theorem Added.isStatic {fd : Int} (ha : Added fds ev ev' ts ps x fd) : IsStatic fds ev'.mem x := by
  obtain ⟨e, he, -, hk⟩ := ha.event
  exact ⟨e, he, hk⟩

/-- Static events stay so. -/
theorem Added.keeps {fd : Int} (ha : Added fds ev ev' ts ps x fd) {a : Nat}
    (hs : IsStatic fds ev.mem a) : IsStatic fds ev'.mem a := by
  by_cases hax : a = x
  · exact hax ▸ ha.isStatic
  · exact hs.of_val (ha.others a hax)

theorem Added.watched_ne {fd : Int} (ha : Added fds ev ev' ts ps x fd) {y : Nat} (hy : y ≠ x) :
    ev'.Watched y ↔ ev.Watched y := by
  rw [ha.watched]
  exact or_iff_right hy

theorem Added.ne_timer {fd : Int} (ha : Added fds ev ev' ts ps x fd)
    {m : Cells (RilEvent Handler)} {a : Nat} (ht : IsTimer m a) : a ≠ x := by
  rintro rfl
  have := ht.1
  have := ha.isStatic.range
  omega

/-- New tables after `ril_event_add`. -/
theorem Base.added (h : Base fds ev q ts ps) {fd : Int} (ha : Added fds ev ev' ts ps x fd)
    {q' : List Nat} (hq : ∀ a ∈ q', a ∈ q) : Base fds ev' q' ts ps where
  rings := ha.rings
  watching := ha.watching
  static := by
    intro a h₁ h₂
    by_cases hax : a = x
    · obtain ⟨e, he, -⟩ := ha.event
      exact ⟨e, hax ▸ he⟩
    · obtain ⟨e, he⟩ := h.static a h₁ h₂
      exact ⟨e, (ha.others a hax).trans he⟩
  timer := fun a hm => (h.timer a hm).of_val (ha.others a (ha.ne_timer (h.timer a hm)))
  queued := by
    intro a hm
    rcases h.queued a (hq a hm) with ht | hs
    · exact Or.inl (ht.of_val (ha.others a (ha.ne_timer ht)))
    · exact Or.inr (ha.keeps hs)
  watched := by
    intro a hw
    rcases (ha.watched a).mp hw with rfl | hw
    · exact ha.isStatic
    · exact ha.keeps (h.watched a hw)

end Tables

/-! ### The event thread's place -/

section Places

variable {fds : Fds} {s s' : State} {ts ps : List Nat}

theorem mem_queue {pc : Pc} {a : Nat} (h : a ∈ ps) : a ∈ queue pc ps := by
  unfold queue
  split <;> simp [h]

theorem CmdFd.added {ev' : Events Handler} {x : Nat} {fd : Int} (h : CmdFd s)
    (ha : Added fds s.ev ev' ts ps x fd) (hx : commandsEvent ≠ x) (hev : s'.ev = ev')
    (ht : s'.pc.taken = s.pc.taken) (hfd : s'.fdCommand = s.fdCommand)
    (hdead : s'.dead = s.dead) : CmdFd s' := by
  unfold CmdFd
  rw [hev, ha.watched_ne hx, ht, hfd, hdead]
  exact ⟨h.1, fun e hw hv => h.2 e hw ((ha.others _ hx).symm.trans hv)⟩

/-- Another thread added timers or watched events, not one that is about to be called. -/
theorem At.congr {ts' : List Nat} (h : At fds s ts ps) (hpc : s'.pc = s.pc)
    (hval : ∀ a ∈ queue s.pc ps, s'.ev.mem.val a = s.ev.mem.val a) (hts : ∀ a ∈ ts, a ∈ ts')
    (hnew : ∀ a ∈ queue s.pc ps, a ∈ ts' → a ∈ ts) (hfd : s'.fdCommand = s.fdCommand)
    (hdead : s'.dead = s.dead) : At fds s' ts' ps := by
  unfold At at h ⊢
  rw [hpc, hfd, hdead]
  cases hs : s.pc with
  | head rfds tev =>
      simp only [hs] at h ⊢
      refine ⟨h.1, ?_⟩
      rcases List.mem_cons.mp h.2 with ht | ht
      · simp [ht]
      · exact List.mem_cons_of_mem _ (hts tev ht)
  | call ev fd func next =>
      simp only [hs, queue] at h hval hnew ⊢
      obtain ⟨hnext, hloose, e, he, hrest⟩ := h
      refine ⟨hnext, ⟨fun hm => hloose.1 ?_, hloose.2⟩, e,
        (hval ev List.mem_cons_self).trans he, hrest⟩
      rcases List.mem_cons.mp hm with hm | hm
      · simp [hm]
      · exact List.mem_cons_of_mem _ (hnew ev List.mem_cons_self hm)
  | crashed =>
      rw [hs] at h
      exact h
  | _ => simp only [hs] at h ⊢ <;> exact h

/-- Another thread's business. -/
theorem Inv.congr (h : Inv fds s ts ps) (hev : s'.ev = s.ev) (hpc : s'.pc = s.pc)
    (hreg : s'.registered = s.registered) (hfd : s'.fdCommand = s.fdCommand)
    (hdead : s'.dead = s.dead) : Inv fds s' ts ps := by
  obtain ⟨h₁, h₂, h₃, h₄, h₅, h₆⟩ := h
  refine ⟨?_, ?_, ?_, ?_, ?_, ?_⟩
  · rw [hev, hpc]; exact h₁
  · rw [hev, hreg]; exact h₂
  · rw [hev, hpc]; exact h₃
  · rw [hev, hpc, hreg]; exact h₄
  · unfold CmdFd at *
    rw [hev, hpc, hfd, hdead]; exact h₅
  · unfold At at *
    rw [hpc, hev, hfd, hdead]; exact h₆

/-- The event thread goes on, with the tables as they are and no event called or returned from. -/
theorem Inv.stage (h : Inv fds s ts ps) (hev : s'.ev = s.ev) (hreg : s'.registered = s.registered)
    (hq : queue s'.pc ps = queue s.pc ps) (hs : s'.pc.started = s.pc.started) (hcmd : CmdFd s')
    (hat : At fds s' ts ps) : Inv fds s' ts ps where
  base := by
    rw [hev, hq]
    exact h.base
  listenSet := by
    rw [hev, hreg]
    exact h.listenSet
  wake := by
    rw [hev, hs]
    exact h.wake
  conn := by
    rw [hev, hq, hreg]
    exact h.conn
  cmd := hcmd
  here := hat

/-- The invariant where the event thread stands. -/
theorem Inv.at {pc : Pc} (h : Inv fds s ts ps) (hpc : s.pc = pc) :
    Base fds s.ev (queue pc ps) ts ps ∧ (s.ev.Watched wakeupEvent ↔ pc.started = true) ∧
      Conn s.ev.Watched (queue pc ps) s.registered ∧ At fds { s with pc := pc } ts ps := by
  subst hpc
  exact ⟨h.base, h.wake, h.conn, h.here⟩

end Places

/-! ## 4. The timers as an agenda -/

/-- The request and the time of a timer. -/
def entry (m : Cells (RilEvent Handler)) (a : Nat) : Option (Nat × Nat) :=
  (m.val a).bind fun e =>
    match e.func with
    | some (.timer id) => some (id, e.timeout)
    | _ => none

def entries (m : Cells (RilEvent Handler)) (as : List Nat) : List (Nat × Nat) :=
  as.filterMap (entry m)

def agenda (s : State) (ts ps : List Nat) : Agenda Nat where
  now := s.now
  waiting := entries s.ev.mem ts
  due := entries s.ev.mem ps
  done := s.fired
  added := s.requested

section Entries

variable {fds : Fds} {m m' : Cells (RilEvent Handler)} {as : List Nat} {a : Nat}

theorem entries_congr (h : ∀ a ∈ as, entry m' a = entry m a) : entries m' as = entries m as :=
  List.filterMap_congr h

theorem entry_of_val (h : m'.val a = m.val a) : entry m' a = entry m a := by
  simp [entry, h]

theorem entry_alike (h : Alike m m') (a : Nat) : entry m' a = entry m a := by
  cases hv : m.val a with
  | none =>
      have hv' : m'.val a = none := by
        have := h a
        rw [hv] at this
        exact Option.map_eq_none_iff.mp this
      simp [entry, hv, hv']
  | some e =>
      obtain ⟨j, hj⟩ := h.val hv
      simp [entry, hv, hj]

theorem entry_static (h : IsStatic fds m a) : entry m a = none := by
  obtain ⟨e, he, hk⟩ := h
  simp only [entry, he, Option.bind_some]
  split
  · rename_i id hf
    exact absurd hf (hk.not_timer id)
  · rfl

theorem entry_timer (h : IsTimer m a) :
    ∃ id, entry m a = some (id, timeoutOf m a) := by
  obtain ⟨-, e, id, he, hf⟩ := h
  exact ⟨id, by simp [entry, timeoutOf, he, hf]⟩

/-- The timers up to a time, as entries, and the others. -/
theorem entries_span (h : ∀ a ∈ as, IsTimer m a) (t : Nat) :
    entries m (as.takeWhile fun a => decide (timeoutOf m a < t)) =
        (entries m as).takeWhile (Agenda.before t) ∧
      entries m (as.dropWhile fun a => decide (timeoutOf m a < t)) =
        (entries m as).dropWhile (Agenda.before t) := by
  induction as with
  | nil => exact ⟨rfl, rfl⟩
  | cons a as ih =>
      obtain ⟨id, hid⟩ := entry_timer (h a (by simp))
      have hrest := ih fun b hb => h b (List.mem_cons_of_mem _ hb)
      by_cases hlt : timeoutOf m a < t
      · simp only [entries] at hrest ⊢
        simp [hlt, hid, Agenda.before, hrest]
      · simp [entries, hlt, hid, Agenda.before]

/-- In the order of the ring, the entries' times are the events'. -/
theorem entries_times (h : ∀ a ∈ as, IsTimer m a) :
    (entries m as).map Prod.snd = as.map (timeoutOf m) := by
  induction as with
  | nil => rfl
  | cons a as ih =>
      obtain ⟨id, hid⟩ := entry_timer (h a (by simp))
      have hrest := ih fun b hb => h b (List.mem_cons_of_mem _ hb)
      simp only [entries] at hrest
      simp [entries, hid, hrest]

end Entries

end Y210.Ril.Loop

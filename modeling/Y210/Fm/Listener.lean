/-
  File:      Y210/Fm/Listener.lean
  Subject:   THE LISTENERS OF THE FM RADIO: `fmAcquireFdNative`, `fmCloseFdNative` and
             `fmGetBufferNative`, and the generation of a descriptor number.

  A session begins when the kernel gives a descriptor out and ends when it is closed; its number may
  then be given out again. `sFdGen` counts both for each number below 1024, odd while the number is
  open. A listener keeps the generation of its first call, and is parked when it finds another.

  Threads are interleaved between any two accesses to what they share: the table of the kernel and
  the generations. The rest of a call is the thread's own. All descriptors are duplicates of the one
  that `fminit` keeps open, with one queue of events: the kernel looks a descriptor up when the
  `ioctl` begins, and the event comes from a session that is open when it is dequeued, however long
  the listener waits.

  * `fdOpened`, `fdClosed`, `listenerIsStale`, `step` -- the code;
  * `Inv` -- a number with an odd generation is open and nobody is about to open or to close it;
    what each thread knows of its session (`Thread.Ok`);
  * `usual` -- descriptors below 1024, closed by their owner; memory for the generation; and a
    session begins only when none is open, no listener waits for an event, and none is between its
    test of the number and its use;
  * `listener_reads_own_session` -- in every run of such steps a listener reads its own session;
  * `foreign_session_read` -- a number given out behind the test, the number 1024, and a listener
    that waits through the end of its session.
-/
import Mathlib.Algebra.Group.Nat.Defs
import Mathlib.Logic.Function.Basic
import Mathlib.Tactic.Common
import Y210.Lib.Indexed
import Y210.Lib.Run

namespace Y210.Fm.Listener

open Y210.Lib

/-! ## 1. The code -/

def fmMaxFds : Nat := 1024

/-- Where a thread stands. -/
inductive Pc where
  | idle
  -- `fmAcquireFdNative` has the descriptor, and `fdOpened` comes next
  | opened (fd : Nat)
  -- `fmCloseFdNative` behind `fdClosed`
  | closing (fd : Nat)
  -- `fmGetBufferNative` before and behind `listenerIsStale`
  | called (fd : Nat)
  | checked (fd : Nat)
  -- in the `ioctl`, on a descriptor the kernel found
  | waiting
  | parked
  deriving DecidableEq

/-- `ListenerFd`. -/
structure ListenerFd where
  fd : Nat
  gen : Nat
  deriving DecidableEq

/-- A thread; `key` is what it has stored under `sListenerKey`. `first` is the session its
    descriptor had when it called `fmGetBufferNative` first: `none` before that call, `some none`
    without a session. -/
structure Thread where
  pc : Pc
  key : Option ListenerFd
  first : Option (Option Nat)
  deriving DecidableEq

/-- An event that was dequeued; the session is `none` if none was open. -/
structure Event where
  thread : Nat
  session : Option Nat
  deriving DecidableEq

/-- `fds` is the session of every descriptor number, `numbers` the numbers that have one, `sessions`
    the number of sessions so far, `events` who got an event from where. -/
structure State where
  fds : Nat → Option Nat
  numbers : List Nat
  sessions : Nat
  sFdGen : Nat → Nat
  threads : List Thread
  events : List Event

def fdOpened (gens : Nat → Nat) (fd : Nat) : Nat → Nat :=
  if fd < fmMaxFds ∧ gens fd % 2 = 0 then Function.update gens fd ((gens fd + 1) % 2 ^ 32) else gens

def fdClosed (gens : Nat → Nat) (fd : Nat) : Nat → Nat :=
  if fd < fmMaxFds ∧ gens fd % 2 = 1 then Function.update gens fd ((gens fd + 1) % 2 ^ 32) else gens

/-- What `malloc` and `pthread_setspecific` answer. -/
structure Memory where
  malloc : Bool
  setspecific : Bool
  deriving DecidableEq

def ListenerFd.stale (l : ListenerFd) (fd gen : Nat) : Bool :=
  l.fd != fd || l.gen != gen || gen % 2 == 0

/-- **`listenerIsStale`**: what the thread has stored behind it, and the answer. -/
def listenerIsStale (gens : Nat → Nat) (fd : Nat) (mem : Memory) :
    Option ListenerFd → Option ListenerFd × Bool
  | key =>
    if fmMaxFds ≤ fd then (key, false)
    else
      match key with
      | some l => (some l, l.stale fd (gens fd))
      | none =>
        if mem.malloc = false then (none, false)
        else
          let l : ListenerFd := { fd := fd, gen := gens fd }
          (if mem.setspecific then some l else none, l.stale fd (gens fd))

/-! ## 2. The machine -/

/-- A step of the thread with that index. The kernel picks the number of `acquire`. -/
inductive Act where
  | acquire (i fd : Nat)
  | opened (i : Nat)
  | close (i : Nat) (fd : Int)
  | closed (i : Nat)
  | getBuffer (i : Nat) (fd : Int) (buff : Bool)
  | check (i : Nat) (mem : Memory)
  -- an array without elements, or none to be had
  | giveUp (i : Nat)
  | ioctl (i : Nat)
  -- an event of the session that is open on a number, or of none
  | dequeue (i : Nat) (fd : Option Nat)
  | fail (i : Nat)
  deriving DecidableEq

def State.put (s : State) (i : Nat) (t : Thread) : State := { s with threads := s.threads.set i t }

/-- The session of a descriptor, as it was given. -/
def State.session (s : State) (fd : Int) : Option Nat := if fd < 0 then none else s.fds fd.toNat

def acquireStep (s : State) (i fd : Nat) (t : Thread) : Option State :=
  if t.pc = .idle ∧ s.fds fd = none then
    some { s.put i { t with pc := .opened fd } with
      fds := Function.update s.fds fd (some s.sessions)
      numbers := fd :: s.numbers
      sessions := s.sessions + 1 }
  else none

def openedStep (s : State) (i : Nat) (t : Thread) : Option State :=
  match t.pc with
  | .opened fd => some { s.put i { t with pc := .idle } with sFdGen := fdOpened s.sFdGen fd }
  | _ => none

def closeStep (s : State) (i : Nat) (fd : Int) (t : Thread) : Option State :=
  if t.pc ≠ .idle then none
  else if fd < 0 then some s
  else
    some { s.put i { t with pc := .closing fd.toNat } with sFdGen := fdClosed s.sFdGen fd.toNat }

def closedStep (s : State) (i : Nat) (t : Thread) : Option State :=
  match t.pc with
  | .closing fd => some { s.put i { t with pc := .idle } with
      fds := Function.update s.fds fd none
      numbers := s.numbers.filter (· != fd) }
  | _ => none

def getBufferStep (s : State) (i : Nat) (fd : Int) (buff : Bool) (t : Thread) : Option State :=
  if t.pc ≠ .idle then none
  else
    let t := { t with first := some (t.first.getD (s.session fd)) }
    if fd < 0 ∨ buff = false then some (s.put i t)
    else some (s.put i { t with pc := .called fd.toNat })

def checkStep (s : State) (i : Nat) (mem : Memory) (t : Thread) : Option State :=
  match t.pc with
  | .called fd =>
    let r := listenerIsStale s.sFdGen fd mem t.key
    some (s.put i { t with pc := if r.2 then .parked else .checked fd, key := r.1 })
  | _ => none

def giveUpStep (s : State) (i : Nat) (t : Thread) : Option State :=
  match t.pc with
  | .checked _ => some (s.put i { t with pc := .idle })
  | _ => none

def ioctlStep (s : State) (i : Nat) (t : Thread) : Option State :=
  match t.pc with
  | .checked fd =>
    some (s.put i { t with pc := if (s.fds fd).isSome then .waiting else .idle })
  | _ => none

/-- The session of the event: one that is open, if there is any. -/
def State.source (s : State) : Option Nat → Option (Option Nat)
  | some fd => (s.fds fd).map some
  | none => if s.numbers = [] then some none else none

def dequeueStep (s : State) (i : Nat) (fd : Option Nat) (t : Thread) : Option State :=
  match t.pc with
  | .waiting =>
    (s.source fd).map fun session =>
      { s.put i { t with pc := .idle } with
        events := s.events ++ [{ thread := i, session := session }] }
  | _ => none

def failStep (s : State) (i : Nat) (t : Thread) : Option State :=
  match t.pc with
  | .waiting => some (s.put i { t with pc := .idle })
  | _ => none

def step (s : State) : Act → Option State
  | .acquire i fd => s.threads[i]?.bind (acquireStep s i fd)
  | .opened i => s.threads[i]?.bind (openedStep s i)
  | .close i fd => s.threads[i]?.bind (closeStep s i fd)
  | .closed i => s.threads[i]?.bind (closedStep s i)
  | .getBuffer i fd buff => s.threads[i]?.bind (getBufferStep s i fd buff)
  | .check i mem => s.threads[i]?.bind (checkStep s i mem)
  | .giveUp i => s.threads[i]?.bind (giveUpStep s i)
  | .ioctl i => s.threads[i]?.bind (ioctlStep s i)
  | .dequeue i fd => s.threads[i]?.bind (dequeueStep s i fd)
  | .fail i => s.threads[i]?.bind (failStep s i)

def Thread.new : Thread := { pc := .idle, key := none, first := none }

def start (threads : Nat) : State where
  fds _ := none
  numbers := []
  sessions := 0
  sFdGen _ := 0
  threads := List.replicate threads .new
  events := []

/-- A listener that is between the test of the number and its use, or in its first call before it
    has read the generation; or that waits for an event, on whatever number. -/
def Thread.exposed (t : Thread) (fd : Nat) : Bool :=
  t.pc == .checked fd || (t.pc == .called fd && t.key.isNone) || t.pc == .waiting

/-- **The condition on a step.** -/
def usual (s : State) : Act → Bool
  | .acquire _ fd => s.numbers.isEmpty && s.threads.all fun t => !t.exposed fd
  | .close _ fd =>
    decide (fmMaxFds ≤ fd) || decide (fd < 0) ||
      (s.sFdGen fd.toNat % 2 == 1 && decide (s.sFdGen fd.toNat + 1 < 2 ^ 32))
  | .getBuffer _ fd buff => decide (0 ≤ fd) && decide (fd < fmMaxFds) && buff
  | .check _ mem => mem.malloc && mem.setspecific
  | _ => true

/-! ## 3. What a thread knows -/

section Known

variable {fds : Nat → Option Nat} {gens : Nat → Nat} {t : Thread} {fd session : Nat}

/-- The session of a number, if it has one, is the first of the thread. -/
def Thread.Reads (fds : Nat → Option Nat) (t : Thread) (fd : Nat) : Prop :=
  ∀ session, fds fd = some session → t.first = some (some session)

/-- What a thread knows where it stands. -/
def Thread.At (fds : Nat → Option Nat) (t : Thread) : Pc → Prop
  | .called fd => fd < fmMaxFds ∧ t.first ≠ none ∧ (t.key = none → t.Reads fds fd)
  | .checked fd => t.Reads fds fd
  | .waiting => ∀ fd, t.Reads fds fd
  | _ => True

structure Thread.Ok (fds : Nat → Option Nat) (gens : Nat → Nat) (t : Thread) : Prop where
  -- a number that is open with the stored generation is the first session
  stored : ∀ l, t.key = some l → t.first ≠ none ∧ l.fd < fmMaxFds ∧ l.gen ≤ gens l.fd ∧
    (gens l.fd = l.gen → l.gen % 2 = 1 → ∃ session, fds l.fd = some session ∧
      t.first = some (some session))
  -- a thread that has called has stored the generation, or is about to
  fresh : t.key = none → t.first ≠ none → ∃ fd, t.pc = .called fd
  known : t.At fds t.pc

/-- A thread that was not in `called` goes on. -/
theorem Thread.Ok.goes {pc : Pc} (h : t.Ok fds gens) (hpc : ∀ fd, t.pc ≠ .called fd)
    (hat : t.At fds pc) : Thread.Ok fds gens { t with pc := pc } where
  stored := h.stored
  fresh := fun hkey hfirst =>
    have ⟨fd, hcalled⟩ := h.fresh hkey hfirst
    absurd hcalled (hpc fd)
  known := hat

/-- The session of one number changes while its generation is even. -/
theorem Thread.Ok.frame {fds' : Nat → Option Nat} (h : t.Ok fds gens)
    (hfds : ∀ fd', fd' ≠ fd → fds' fd' = fds fd') (hgen : fd < fmMaxFds → gens fd % 2 = 0)
    (hreads : t.exposed fd = true → t.Reads fds' fd) : t.Ok fds' gens where
  stored := by
    intro l hl
    obtain ⟨hfirst, hlt, hle, hsession⟩ := h.stored l hl
    refine ⟨hfirst, hlt, hle, fun hsame hodd => ?_⟩
    by_cases hfd : l.fd = fd
    · have heven := hgen (hfd ▸ hlt)
      rw [hfd] at hsame
      omega
    · rw [hfds l.fd hfd]
      exact hsession hsame hodd
  fresh := h.fresh
  known := by
    have hother : ∀ fd', fd' ≠ fd → t.Reads fds fd' → t.Reads fds' fd' := by
      intro fd' hne hr session hs
      exact hr session (hfds fd' hne ▸ hs)
    have hknown := h.known
    unfold exposed at hreads
    cases hpc : t.pc with
    | called fd' =>
      rw [hpc] at hknown hreads
      refine ⟨hknown.1, hknown.2.1, fun hkey => ?_⟩
      by_cases hfd : fd' = fd
      · subst hfd
        exact hreads (by simp [hkey])
      · exact hother fd' hfd (hknown.2.2 hkey)
    | checked fd' =>
      rw [hpc] at hknown hreads
      by_cases hfd : fd' = fd
      · subst hfd
        exact hreads (by simp)
      · exact hother fd' hfd hknown
    | waiting =>
      rw [hpc] at hknown hreads
      intro fd'
      by_cases hfd : fd' = fd
      · subst hfd
        exact hreads (by simp)
      · exact hother fd' hfd (hknown fd')
    | _ => trivial

/-- The generation of a number goes up. -/
theorem Thread.Ok.count (h : t.Ok fds gens) (fd : Nat) :
    t.Ok fds (Function.update gens fd (gens fd + 1)) where
  stored := by
    intro l hl
    obtain ⟨hfirst, hlt, hle, hsession⟩ := h.stored l hl
    by_cases hfd : l.fd = fd
    · rw [hfd] at hle hlt ⊢
      rw [Function.update_self]
      exact ⟨hfirst, hlt, by omega, fun hsame => by omega⟩
    · rw [Function.update_of_ne hfd]
      exact ⟨hfirst, hlt, hle, hsession⟩
  fresh := h.fresh
  known := h.known

end Known

/-! ## 4. What is known of a number -/

/-- The number a thread is about to enter in, or to take out of, the table of the kernel. -/
def Pc.moving : Pc → Option Nat
  | .opened fd | .closing fd => some fd
  | _ => none

/-- No thread is about to open or to close the number. -/
def State.Still (s : State) (fd : Nat) : Prop :=
  ∀ (i : Nat) (t : Thread), s.threads[i]? = some t → t.pc.moving ≠ some fd

structure State.Number (s : State) (fd : Nat) : Prop where
  bound : s.sFdGen fd < 2 ^ 32
  free : s.fds fd = none → s.sFdGen fd % 2 = 0 ∧ s.Still fd
  odd : s.sFdGen fd % 2 = 1 → s.Still fd
  one : ∀ (i j : Nat) (ti tj : Thread), s.threads[i]? = some ti → s.threads[j]? = some tj →
    ti.pc.moving = some fd → tj.pc.moving = some fd → i = j

/-- Every event came from the first session of its listener. -/
def State.OwnEvents (s : State) : Prop :=
  ∀ e ∈ s.events, ∀ session, e.session = some session →
    ∃ t, s.threads[e.thread]? = some t ∧ t.first = some (some session)

structure Inv (s : State) : Prop where
  numbers : ∀ fd < fmMaxFds, s.Number fd
  -- there is one session at a time
  single : s.numbers.length ≤ 1
  listed : ∀ fd, s.fds fd ≠ none → fd ∈ s.numbers
  ok : ∀ (i : Nat) (t : Thread), s.threads[i]? = some t → t.Ok s.fds s.sFdGen
  events : s.OwnEvents

section Steps

variable {s s' : State} {i fd : Nat} {t t' : Thread}

theorem State.Still.set (h : s.Still fd) (ht : s.threads[i]? = some t)
    (hthreads : s'.threads = s.threads.set i t') (hmoving : t'.pc.moving ≠ some fd) :
    s'.Still fd := by
  intro j tj hj
  rw [hthreads] at hj
  rcases getElem?_set_cases ht hj with ⟨-, rfl⟩ | ⟨-, hj⟩
  · exact hmoving
  · exact h j tj hj

/-- **A number that the step is not about.** -/
theorem State.Number.frame (h : s.Number fd) (ht : s.threads[i]? = some t)
    (hthreads : s'.threads = s.threads.set i t') (hfds : s'.fds fd = s.fds fd)
    (hgen : s'.sFdGen fd = s.sFdGen fd) (hmoving : t'.pc.moving ≠ some fd) : s'.Number fd where
  bound := hgen ▸ h.bound
  free := fun hnone => by
    obtain ⟨heven, hstill⟩ := h.free (hfds ▸ hnone)
    exact ⟨hgen ▸ heven, hstill.set ht hthreads hmoving⟩
  odd := fun hodd => (h.odd (hgen ▸ hodd)).set ht hthreads hmoving
  one := by
    intro j k tj tk hj hk hmj hmk
    rw [hthreads] at hj hk
    rcases getElem?_set_cases ht hj with ⟨-, rfl⟩ | ⟨-, hj⟩
    · exact absurd hmj hmoving
    · rcases getElem?_set_cases ht hk with ⟨-, rfl⟩ | ⟨-, hk⟩
      · exact absurd hmk hmoving
      · exact h.one j k tj tk hj hk hmj hmk

/-- A thread begins to open or to close a number that is still. -/
theorem State.Number.begins (h : s.Still fd) (ht : s.threads[i]? = some t)
    (hthreads : s'.threads = s.threads.set i t') (hopen : s'.fds fd ≠ none)
    (heven : s'.sFdGen fd % 2 = 0) (hbound : s'.sFdGen fd < 2 ^ 32) : s'.Number fd where
  bound := hbound
  free := fun hnone => absurd hnone hopen
  odd := fun hodd => absurd (heven.symm.trans hodd) (by decide)
  one := by
    intro j k tj tk hj hk hmj hmk
    rw [hthreads] at hj hk
    rcases getElem?_set_cases ht hj with ⟨rfl, -⟩ | ⟨-, hj⟩
    · rcases getElem?_set_cases ht hk with ⟨rfl, -⟩ | ⟨-, hk⟩
      · rfl
      · exact absurd hmk (h k tk hk)
    · exact absurd hmj (h j tj hj)

/-- The one thread that was about to open or to close a number has done so. -/
theorem State.Number.ends (h : s.Number fd) (ht : s.threads[i]? = some t)
    (hthreads : s'.threads = s.threads.set i t') (hmoving : t.pc.moving = some fd)
    (hidle : t'.pc.moving = none) : s'.Still fd := by
  intro j tj hj
  rw [hthreads] at hj
  rcases getElem?_set_cases ht hj with ⟨-, rfl⟩ | ⟨hne, hj⟩
  · rw [hidle]
    nofun
  · exact fun hmj => hne (h.one j i tj t hj ht hmj hmoving)

theorem State.Still.number (h : s.Still fd) (heven : s.fds fd = none → s.sFdGen fd % 2 = 0)
    (hbound : s.sFdGen fd < 2 ^ 32) : s.Number fd where
  bound := hbound
  free := fun hnone => ⟨heven hnone, h⟩
  odd := fun _ => h
  one := fun j _ tj _ hj _ hmj _ => absurd hmj (h j tj hj)

/-- What is known of the events and of the threads, when one thread has moved. -/
theorem events_kept (h : s.OwnEvents) (ht : s.threads[i]? = some t)
    (hthreads : s'.threads = s.threads.set i t') (hevents : s'.events = s.events)
    (hfirst : t.first ≠ none → t'.first = t.first) : s'.OwnEvents := by
  intro e he session hes
  rw [hevents] at he
  obtain ⟨te, hte, hsession⟩ := h e he session hes
  rw [hthreads]
  by_cases hi : e.thread = i
  · rw [hi] at hte ⊢
    cases ht.symm.trans hte
    refine ⟨t', getElem?_set_at t' ht, ?_⟩
    rw [hfirst (by rw [hsession]; nofun), hsession]
  · exact ⟨te, (getElem?_set_off t' hi).trans hte, hsession⟩

theorem threads_set {P : Thread → Prop}
    (h : ∀ (j : Nat) (tj : Thread), s.threads[j]? = some tj → P tj) (ht : s.threads[i]? = some t)
    (ht' : P t') :
    ∀ (j : Nat) (tj : Thread), (s.threads.set i t')[j]? = some tj → P tj := by
  intro j tj hj
  rcases getElem?_set_cases ht hj with ⟨-, rfl⟩ | ⟨-, hj⟩
  · exact ht'
  · exact h j tj hj

/-- **A step of a thread on its own.** -/
theorem Inv.move (h : Inv s) (ht : s.threads[i]? = some t) (hmoving : t'.pc.moving = none)
    (hfirst : t.first ≠ none → t'.first = t.first) (hok : t'.Ok s.fds s.sFdGen) :
    Inv (s.put i t') where
  numbers := fun fd hfd =>
    (h.numbers fd hfd).frame ht rfl rfl rfl (by rw [hmoving]; nofun)
  single := h.single
  listed := h.listed
  ok := threads_set h.ok ht hok
  events := events_kept h.events ht rfl rfl hfirst

theorem acquireStep_inv (h : Inv s) (ht : s.threads[i]? = some t)
    (husual : usual s (.acquire i fd) = true) (hs : acquireStep s i fd t = some s') : Inv s' := by
  obtain ⟨⟨hidle, hnone⟩, hs⟩ := Option.ite_none_right_eq_some.mp hs
  cases hs
  obtain ⟨hempty, husual⟩ := (Bool.and_eq_true _ _).mp husual
  have hexposed : ∀ (j : Nat) (tj : Thread), s.threads[j]? = some tj → tj.exposed fd = false := by
    intro j tj hj
    have hall := List.all_eq_true.mp husual tj (List.mem_of_getElem? hj)
    simpa using hall
  have hgen : fd < fmMaxFds → s.sFdGen fd % 2 = 0 := fun hfd => ((h.numbers fd hfd).free hnone).1
  have hframe : ∀ {tj : Thread}, tj.Ok s.fds s.sFdGen → tj.exposed fd = false →
      tj.Ok (Function.update s.fds fd (some s.sessions)) s.sFdGen := fun hok hfalse =>
    hok.frame (fun fd' hne => Function.update_of_ne hne _ _) hgen
      fun htrue => absurd (hfalse.symm.trans htrue) nofun
  refine ⟨fun fd' hfd' => ?_, ?_, fun fd' hopen => ?_, ?_, ?_⟩
  · by_cases hne : fd' = fd
    · subst hne
      exact .begins ((h.numbers fd' hfd').free hnone).2 ht rfl
        (by simp [Function.update_self]) (hgen hfd') (h.numbers fd' hfd').bound
    · exact (h.numbers fd' hfd').frame ht rfl (Function.update_of_ne hne _ _) rfl
        (by simpa [Pc.moving] using fun he => hne he.symm)
  · show (fd :: s.numbers).length ≤ 1
    rw [List.isEmpty_iff.mp hempty]
    exact Nat.le_refl 1
  · by_cases hne : fd' = fd
    · rw [hne]
      exact List.mem_cons_self
    · have hsame : Function.update s.fds fd (some s.sessions) fd' = s.fds fd' :=
        Function.update_of_ne hne _ _
      exact List.mem_cons_of_mem fd (h.listed fd' (hsame ▸ hopen))
  · exact threads_set (fun j tj hj => hframe (h.ok j tj hj) (hexposed j tj hj)) ht
      ((hframe (h.ok i t ht) (hexposed i t ht)).goes (by simp [hidle]) trivial)
  · exact events_kept h.events ht rfl rfl fun _ => rfl

theorem openedStep_inv (h : Inv s) (ht : s.threads[i]? = some t)
    (hs : openedStep s i t = some s') : Inv s' := by
  unfold openedStep at hs
  split at hs
  · rename_i fd hpc
    cases hs
    have hgoes : Thread.Ok s.fds s.sFdGen { t with pc := .idle } :=
      (h.ok i t ht).goes (by simp [hpc]) trivial
    by_cases hfd : fd < fmMaxFds
    · have hnumber := h.numbers fd hfd
      have hmoving : t.pc.moving = some fd := by rw [hpc]; rfl
      -- a thread is about to open the number: it is in the table, and not yet counted
      have heven : s.sFdGen fd % 2 = 0 := by
        by_contra hodd
        exact hnumber.odd (by omega) i t ht hmoving
      have hopen : s.fds fd ≠ none := fun hnone => (hnumber.free hnone).2 i t ht hmoving
      have hcount : fdOpened s.sFdGen fd = Function.update s.sFdGen fd (s.sFdGen fd + 1) := by
        have hbound := hnumber.bound
        rw [fdOpened, if_pos ⟨hfd, heven⟩, Nat.mod_eq_of_lt (by omega)]
      rw [hcount]
      refine ⟨fun fd' hfd' => ?_, h.single, h.listed, ?_, ?_⟩
      · by_cases hne : fd' = fd
        · subst hne
          refine State.Still.number (hnumber.ends ht rfl hmoving rfl)
            (fun hnone => absurd hnone hopen) ?_
          have hbound := hnumber.bound
          simp only [Function.update_self]
          omega
        · exact (h.numbers fd' hfd').frame ht rfl rfl (Function.update_of_ne hne _ _) nofun
      · exact threads_set (fun j tj hj => (h.ok j tj hj).count fd) ht (hgoes.count fd)
      · exact events_kept h.events ht rfl rfl fun _ => rfl
    · have hsame : fdOpened s.sFdGen fd = s.sFdGen := if_neg fun hlt => hfd hlt.1
      rw [hsame]
      exact h.move ht rfl (fun _ => rfl) hgoes
  · cases hs

theorem closeStep_inv {fd : Int} (h : Inv s) (ht : s.threads[i]? = some t)
    (husual : usual s (.close i fd) = true) (hs : closeStep s i fd t = some s') : Inv s' := by
  unfold closeStep at hs
  split at hs
  · cases hs
  · rename_i hidle
    have hgoes : Thread.Ok s.fds s.sFdGen { t with pc := .closing fd.toNat } :=
      (h.ok i t ht).goes (by simp_all) trivial
    split at hs
    · cases hs
      exact h
    · rename_i hnonneg
      cases hs
      by_cases hfd : fd.toNat < fmMaxFds
      · have hnumber := h.numbers fd.toNat hfd
        -- the condition: the number is open, counted, and its generation is not the last one
        have howned : s.sFdGen fd.toNat % 2 = 1 ∧ s.sFdGen fd.toNat + 1 < 2 ^ 32 := by
          have hsmall : ¬ (fmMaxFds : Int) ≤ fd := by omega
          simpa [usual, hnonneg, hsmall] using husual
        have hopen : s.fds fd.toNat ≠ none := fun hnone => by
          have heven := (hnumber.free hnone).1
          omega
        have hcount : fdClosed s.sFdGen fd.toNat =
            Function.update s.sFdGen fd.toNat (s.sFdGen fd.toNat + 1) := by
          rw [fdClosed, if_pos ⟨hfd, howned.1⟩, Nat.mod_eq_of_lt howned.2]
        rw [hcount]
        refine ⟨fun fd' hfd' => ?_, h.single, h.listed, ?_, ?_⟩
        · by_cases hne : fd' = fd.toNat
          · subst hne
            refine .begins (hnumber.odd howned.1) ht rfl hopen ?_ ?_
            · simp only [Function.update_self]
              omega
            · simp only [Function.update_self]
              omega
          · exact (h.numbers fd' hfd').frame ht rfl rfl (Function.update_of_ne hne _ _)
              (by simpa [Pc.moving] using fun he => hne he.symm)
        · exact threads_set (fun j tj hj => (h.ok j tj hj).count _) ht (hgoes.count _)
        · exact events_kept h.events ht rfl rfl fun _ => rfl
      · have hsame : fdClosed s.sFdGen fd.toNat = s.sFdGen := if_neg fun hlt => hfd hlt.1
        rw [hsame]
        refine ⟨fun fd' hfd' => ?_, h.single, h.listed, ?_, ?_⟩
        · refine (h.numbers fd' hfd').frame ht rfl rfl rfl ?_
          have hne : fd.toNat ≠ fd' := by omega
          simpa [Pc.moving] using hne
        · exact threads_set h.ok ht hgoes
        · exact events_kept h.events ht rfl rfl fun _ => rfl

theorem closedStep_inv (h : Inv s) (ht : s.threads[i]? = some t)
    (hs : closedStep s i t = some s') : Inv s' := by
  unfold closedStep at hs
  split at hs
  · rename_i fd hpc
    cases hs
    have hmoving : t.pc.moving = some fd := by rw [hpc]; rfl
    have heven : fd < fmMaxFds → s.sFdGen fd % 2 = 0 := by
      intro hfd
      by_contra hodd
      exact (h.numbers fd hfd).odd (by omega) i t ht hmoving
    have hframe : ∀ {tj : Thread}, tj.Ok s.fds s.sFdGen →
        tj.Ok (Function.update s.fds fd none) s.sFdGen := fun hok =>
      hok.frame (fun fd' hne => Function.update_of_ne hne _ _) heven
        fun _ session hsession => by simp [Function.update_self] at hsession
    refine ⟨fun fd' hfd' => ?_, ?_, fun fd' hopen => ?_, ?_, ?_⟩
    · by_cases hne : fd' = fd
      · subst hne
        have hnumber := h.numbers fd' hfd'
        exact State.Still.number (hnumber.ends ht rfl hmoving rfl) (fun _ => heven hfd')
          hnumber.bound
      · exact (h.numbers fd' hfd').frame ht rfl (Function.update_of_ne hne _ _) rfl nofun
    · exact Nat.le_trans (List.length_filter_le _ _) h.single
    · by_cases hne : fd' = fd
      · subst hne
        exact absurd (Function.update_self fd' none s.fds) hopen
      · have hsame : Function.update s.fds fd none fd' = s.fds fd' := Function.update_of_ne hne _ _
        exact List.mem_filter.mpr ⟨h.listed fd' (hsame ▸ hopen), by simpa using hne⟩
    · exact threads_set (fun j tj hj => hframe (h.ok j tj hj)) ht
        ((hframe (h.ok i t ht)).goes (by simp [hpc]) trivial)
    · exact events_kept h.events ht rfl rfl fun _ => rfl
  · cases hs

theorem getBufferStep_inv {fd : Int} {buff : Bool} (h : Inv s) (ht : s.threads[i]? = some t)
    (husual : usual s (.getBuffer i fd buff) = true)
    (hs : getBufferStep s i fd buff t = some s') : Inv s' := by
  unfold getBufferStep at hs
  split at hs
  · cases hs
  · rename_i hidle
    obtain ⟨⟨hnonneg, hsmall⟩, hbuff⟩ : (0 ≤ fd ∧ fd < fmMaxFds) ∧ buff = true := by
      simpa [usual] using husual
    rw [if_neg (by simp [hbuff]; omega)] at hs
    cases hs
    have hok := h.ok i t ht
    have hkept : t.first ≠ none → some (t.first.getD (s.session fd)) = t.first := by
      intro hfirst
      cases hcase : t.first with
      | none => exact absurd hcase hfirst
      | some first => rfl
    refine h.move ht rfl hkept ⟨?_, fun _ _ => ⟨_, rfl⟩, ?_, nofun, ?_⟩
    · intro l hl
      obtain ⟨hfirst, hlt, hle, hsession⟩ := hok.stored l hl
      simp only [hkept hfirst]
      exact ⟨hfirst, hlt, hle, hsession⟩
    · omega
    · intro hkey session hsession
      -- the first call: nothing is stored yet, and the session is the one of now
      have hnone : t.first = none := by
        by_contra hfirst
        obtain ⟨fd', hcalled⟩ := hok.fresh hkey hfirst
        simp_all
      have hnow : s.session fd = s.fds fd.toNat := if_neg (by omega)
      simp only [hnone, Option.getD_none, hnow]
      exact congrArg some hsession

/-- The generation a thread has stored behind the test. -/
def Thread.stored (gens : Nat → Nat) (fd : Nat) (t : Thread) : ListenerFd :=
  t.key.getD { fd := fd, gen := gens fd }

theorem listenerIsStale_eq {gens : Nat → Nat} {mem : Memory} (hfd : fd < fmMaxFds)
    (hmalloc : mem.malloc = true) (hset : mem.setspecific = true) :
    listenerIsStale gens fd mem t.key =
      (some (t.stored gens fd), (t.stored gens fd).stale fd (gens fd)) := by
  unfold listenerIsStale Thread.stored
  rw [if_neg (by omega)]
  cases t.key with
  | some l => rfl
  | none => simp [hmalloc, hset]

/-- **The test.** What is stored behind it is the generation of the first session. -/
theorem Thread.Ok.check (hnumber : s.Number fd) (hok : t.Ok s.fds s.sFdGen)
    (hpc : t.pc = .called fd) :
    ({ t with key := some (t.stored s.sFdGen fd) } : Thread).Ok s.fds s.sFdGen := by
  have hknown := hok.known
  rw [hpc] at hknown
  obtain ⟨hlt, hfirst, hreads⟩ := hknown
  cases hkey : t.key with
  | some l =>
    have hsame : t.stored s.sFdGen fd = l := by rw [Thread.stored, hkey]; rfl
    rw [hsame, ← hkey]
    exact hok
  | none =>
    have hnew : t.stored s.sFdGen fd = { fd := fd, gen := s.sFdGen fd } := by
      rw [Thread.stored, hkey]; rfl
    refine ⟨fun l hl => ?_, nofun, ?_⟩
    · rw [hnew] at hl
      cases hl
      refine ⟨hfirst, hlt, le_refl _, fun _ hodd => ?_⟩
      -- an odd generation: the number is open, and it is the one of the call
      obtain ⟨session, hsession⟩ : ∃ session, s.fds fd = some session := by
        refine Option.ne_none_iff_exists'.mp fun hnone => ?_
        have heven := (hnumber.free hnone).1
        dsimp only at hodd
        omega
      exact ⟨session, hsession, hreads hkey session hsession⟩
    · show Thread.At s.fds _ t.pc
      rw [hpc]
      exact ⟨hlt, hfirst, nofun⟩

theorem checkStep_inv {mem : Memory} (h : Inv s) (ht : s.threads[i]? = some t)
    (husual : usual s (.check i mem) = true) (hs : checkStep s i mem t = some s') : Inv s' := by
  unfold checkStep at hs
  split at hs
  · rename_i fd hpc
    cases hs
    obtain ⟨hmalloc, hset⟩ : mem.malloc = true ∧ mem.setspecific = true := by
      simpa [usual] using husual
    have hok := h.ok i t ht
    have hlt : fd < fmMaxFds := by
      have hknown := hok.known
      rw [hpc] at hknown
      exact hknown.1
    have hchecked := hok.check (h.numbers fd hlt) hpc
    rw [listenerIsStale_eq hlt hmalloc hset]
    refine h.move ht (by dsimp only; split <;> rfl) (fun _ => rfl) ⟨hchecked.stored, nofun, ?_⟩
    dsimp only
    split
    · trivial
    · rename_i hfresh
      have hsame : ((t.stored s.sFdGen fd).fd = fd ∧ (t.stored s.sFdGen fd).gen = s.sFdGen fd) ∧
          s.sFdGen fd % 2 = 1 := by
        simpa [ListenerFd.stale] using hfresh
      obtain ⟨⟨hfd, hgen⟩, hodd⟩ := hsame
      obtain ⟨-, -, -, hsession⟩ := hchecked.stored _ rfl
      rw [hfd] at hsession
      obtain ⟨session, hfds, hfirst⟩ := hsession hgen.symm (hgen ▸ hodd)
      intro session' hfds'
      cases hfds.symm.trans hfds'
      exact hfirst
  · cases hs

/-- A call that returns. -/
theorem Inv.returns (h : Inv s) (ht : s.threads[i]? = some t) (hpc : ∀ fd, t.pc ≠ .called fd) :
    Inv (s.put i { t with pc := .idle }) :=
  h.move ht rfl (fun _ => rfl) ((h.ok i t ht).goes hpc trivial)

/-- The session that is open is that of every number. -/
theorem Inv.reads (h : Inv s) (hopen : s.fds fd ≠ none) (hreads : t.Reads s.fds fd) (fd' : Nat) :
    t.Reads s.fds fd' := by
  intro session hsession
  have hfd := h.listed fd hopen
  have hfd' := h.listed fd' (by rw [hsession]; nofun)
  have hsingle := h.single
  match hnumbers : s.numbers, hsingle with
  | [], _ => simp [hnumbers] at hfd
  | [only], _ =>
    rw [hnumbers, List.mem_singleton] at hfd hfd'
    subst hfd
    exact hreads session (hfd' ▸ hsession)
  | _ :: _ :: _, hsingle => simp at hsingle

theorem ioctlStep_inv (h : Inv s) (ht : s.threads[i]? = some t)
    (hs : ioctlStep s i t = some s') : Inv s' := by
  unfold ioctlStep at hs
  split at hs
  · rename_i fd hpc
    cases hs
    have hknown := (h.ok i t ht).known
    rw [hpc] at hknown
    cases hfds : s.fds fd with
    | none => exact h.returns ht (by simp [hpc])
    | some session =>
      exact h.move ht rfl (fun _ => rfl) ((h.ok i t ht).goes (by simp [hpc])
        (h.reads (by rw [hfds]; nofun) hknown))
  · cases hs

theorem State.source_open {fd : Option Nat} {session : Nat}
    (h : s.source fd = some (some session)) :
    ∃ fd', s.fds fd' = some session := by
  cases fd with
  | none =>
    obtain ⟨_, hnone⟩ := Option.ite_none_right_eq_some.mp h
    cases hnone
  | some fd =>
    obtain ⟨found, hfound, hsame⟩ := Option.map_eq_some_iff.mp h
    cases hsame
    exact ⟨fd, hfound⟩

theorem dequeueStep_inv {fd : Option Nat} (h : Inv s) (ht : s.threads[i]? = some t)
    (hs : dequeueStep s i fd t = some s') : Inv s' := by
  unfold dequeueStep at hs
  split at hs
  · rename_i hpc
    obtain ⟨source, hsource, hs⟩ := Option.map_eq_some_iff.mp hs
    cases hs
    have hreturns : Inv (s.put i { t with pc := .idle }) := h.returns ht (by simp [hpc])
    have hknown := (h.ok i t ht).known
    rw [hpc] at hknown
    refine ⟨fun fd hfd => ?_, h.single, h.listed, hreturns.ok, fun e he session hes => ?_⟩
    · exact (h.numbers fd hfd).frame ht rfl rfl rfl nofun
    · rcases List.mem_append.mp he with hold | hnew
      · exact hreturns.events e hold session hes
      · cases List.mem_singleton.mp hnew
        obtain ⟨fd', hopen⟩ := State.source_open (hsource.trans (congrArg some hes))
        exact ⟨_, getElem?_set_at _ ht, hknown fd' session hopen⟩
  · cases hs

theorem step_inv {a : Act} (h : Inv s) (husual : usual s a = true) (hs : step s a = some s') :
    Inv s' := by
  cases a <;> obtain ⟨t, ht, hs⟩ := Option.bind_eq_some_iff.mp hs
  case acquire i fd => exact acquireStep_inv h ht husual hs
  case opened i => exact openedStep_inv h ht hs
  case close i fd => exact closeStep_inv h ht husual hs
  case closed i => exact closedStep_inv h ht hs
  case getBuffer i fd buff => exact getBufferStep_inv h ht husual hs
  case check i mem => exact checkStep_inv h ht husual hs
  case giveUp i =>
    unfold giveUpStep at hs
    split at hs
    · rename_i fd hpc
      cases hs
      exact h.returns ht (by simp [hpc])
    · cases hs
  case ioctl i => exact ioctlStep_inv h ht hs
  case dequeue i fd => exact dequeueStep_inv h ht hs
  case fail i =>
    unfold failStep at hs
    split at hs
    · rename_i hpc
      cases hs
      exact h.returns ht (by simp [hpc])
    · cases hs

theorem start_inv (threads : Nat) : Inv (start threads) := by
  have hnew : ∀ (i : Nat) (t : Thread), (start threads).threads[i]? = some t → t = .new := by
    intro i t ht
    exact List.eq_of_mem_replicate (List.mem_of_getElem? ht)
  refine ⟨fun fd _ => ?_, Nat.zero_le 1, fun fd hopen => absurd rfl hopen, fun i t ht => ?_,
    fun e he => absurd he List.not_mem_nil⟩
  · refine State.Still.number (fun i t ht => ?_) (fun _ => rfl) (Nat.two_pow_pos 32)
    rw [hnew i t ht]
    nofun
  · rw [hnew i t ht]
    exact ⟨nofun, fun _ hfirst => absurd rfl hfirst, trivial⟩

end Steps

/-- **A listener reads its own session only.** In every run with any number of threads whose steps
    meet the condition, an event comes from the session that the listener's descriptor had when the
    listener made its first call. -/
theorem listener_reads_own_session {threads : Nat} {s : State}
    (h : Reach step (fun s a => usual s a = true) (start threads) s) :
    ∀ e ∈ s.events, ∀ session, e.session = some session →
      ∃ t, s.threads[e.thread]? = some t ∧ t.first = some (some session) :=
  (h.inv (start_inv threads) fun _ _ _ hs husual hstep => step_inv hs husual hstep).events

/-- Two sessions on the number 5, each with its listener; the first one ends while its listener
    waits, and the listener is parked at its next call. -/
def twoSessions : List Act :=
  [.acquire 0 5, .opened 0, .getBuffer 1 5 true, .check 1 ⟨true, true⟩, .ioctl 1,
    .dequeue 1 (some 5), .getBuffer 1 5 true, .check 1 ⟨true, true⟩, .ioctl 1, .close 0 5,
    .closed 0, .dequeue 1 none, .acquire 0 5, .opened 0, .getBuffer 2 5 true,
    .check 2 ⟨true, true⟩, .ioctl 2, .getBuffer 1 5 true, .check 1 ⟨true, true⟩,
    .dequeue 2 (some 5)]

theorem listener_reads_own_session_twice :
    ∃ s, Reach step Always (start 3) s ∧
      s.events = [⟨1, some 0⟩, ⟨1, none⟩, ⟨2, some 1⟩] ∧
      ∀ e ∈ s.events, ∀ session, e.session = some session →
        ∃ t, s.threads[e.thread]? = some t ∧ t.first = some (some session) := by
  have htest : runTest step usual (start 3) twoSessions
      (fun s => s.events == [⟨1, some 0⟩, ⟨1, none⟩, ⟨2, some 1⟩]) = true := by decide
  obtain ⟨s, hs, hp⟩ := reach_of_runTest htest
  exact ⟨s, hs.always, eq_of_beq hp, listener_reads_own_session hs⟩

/-! ## 5. The events of another session -/

/-- An event that was read by a listener of another session. -/
def State.foreign (s : State) : Bool :=
  s.events.any fun e => e.session.isSome &&
    s.threads[e.thread]?.any fun t => t.first != some e.session

/-- The number 5 is given out again between the test and its use. -/
def reusedBehindTest : List Act :=
  [.acquire 0 5, .opened 0, .getBuffer 1 5 true, .check 1 ⟨true, true⟩, .close 0 5, .closed 0,
    .acquire 0 5, .opened 0, .ioctl 1, .dequeue 1 (some 5)]

/-- The number 1024 has no generation. -/
def untracked : List Act :=
  [.acquire 0 1024, .opened 0, .getBuffer 1 1024 true, .check 1 ⟨true, true⟩, .ioctl 1,
    .dequeue 1 (some 1024), .close 0 1024, .closed 0, .acquire 0 1024, .opened 0,
    .getBuffer 1 1024 true, .check 1 ⟨true, true⟩, .ioctl 1, .dequeue 1 (some 1024)]

/-- A listener waits while the session is closed and the next one opened, on another number. -/
def waitedThrough : List Act :=
  [.acquire 0 5, .opened 0, .getBuffer 1 5 true, .check 1 ⟨true, true⟩, .ioctl 1, .close 0 5,
    .closed 0, .acquire 0 6, .opened 0, .dequeue 1 (some 6)]

/-- **The events of another session are read**, by a listener that has made its test, by one whose
    number is not counted, and by one that waits. -/
theorem foreign_session_read :
    (∃ s, Reach step Always (start 2) s ∧ s.events = [⟨1, some 1⟩] ∧ s.foreign = true) ∧
      (∃ s, Reach step Always (start 2) s ∧ s.events = [⟨1, some 0⟩, ⟨1, some 1⟩] ∧
        s.foreign = true) ∧
      ∃ s, Reach step Always (start 2) s ∧ s.fds 5 = none ∧ s.events = [⟨1, some 1⟩] ∧
        s.foreign = true := by
  have hreused : runTest step (fun _ _ => true) (start 2) reusedBehindTest
      (fun s => decide (s.events = [⟨1, some 1⟩] ∧ s.foreign = true)) = true := by decide
  have huntracked : runTest step (fun _ _ => true) (start 2) untracked
      (fun s => decide (s.events = [⟨1, some 0⟩, ⟨1, some 1⟩] ∧ s.foreign = true)) = true := by
    decide
  have hwaited : runTest step (fun _ _ => true) (start 2) waitedThrough
      (fun s => decide (s.fds 5 = none ∧ s.events = [⟨1, some 1⟩] ∧ s.foreign = true)) = true := by
    decide
  obtain ⟨s1, hs1, hp1⟩ := reach_of_runTest hreused
  obtain ⟨s2, hs2, hp2⟩ := reach_of_runTest huntracked
  obtain ⟨s3, hs3, hp3⟩ := reach_of_runTest hwaited
  exact ⟨⟨s1, hs1.always, of_decide_eq_true hp1⟩, ⟨s2, hs2.always, of_decide_eq_true hp2⟩,
    s3, hs3.always, of_decide_eq_true hp3⟩

end Y210.Fm.Listener

/-
  File:      Y210/Gralloc/Post.lean
  Subject:   POSTING A FRAME: `fb_post`, `fb_close` and the posting thread of framebuffer.cpp.

  `fb_post` leaves the frame in a queue of one place and returns; a thread of its own does the pan,
  which comes back only when the panel has the frame. The next `fb_post` waits for that before it
  gives up the frame before. One thread calls; `sPost.lock` and the two condition variables are
  what it shares with the posting thread. A step is what a thread does between two accesses that
  the other can see; a wake-up of a sleeping thread that nobody asked for is a step as well.

  With `debug.gr.async_post=0`, with one buffer, or when the thread cannot be made, `fb_post` does
  the pan itself. Both are here, and a device can be closed and opened again.

  * `step` -- the machine; `State.log` is what the two threads did, in order;
  * `Control` -- what ties the lock, `pending`, `quit` and `enabled` to the places of the threads;
  * `Control.move`, `Control.acquire`, `Control.release`, `Control.signal` -- the ways the client
    goes on, and the same for the posting thread;
  * `Control.step` -- every step keeps it.
-/
import Y210.Gralloc.BufferLock
import Y210.Lib.Run

namespace Y210.Gralloc.Post

open Y210.Lib
open Y210.Gralloc.Mapper (privFlagsFramebuffer)

/-! ## 1. The module and the queue -/

def fbActivateNow : BitVec 32 := 0

/-- What a posted buffer is to `fb_post`: its handle, what `validate` says of it, and the fields
    `fb_post` reads. -/
structure Buffer where
  handle : Nat
  valid : Bool
  flags : BitVec 32
  base : BitVec 32
  deriving DecidableEq

def Buffer.isFramebuffer (b : Buffer) : Bool := b.flags &&& privFlagsFramebuffer != 0

/-- `fb_var_screeninfo`. -/
structure ScreenInfo where
  xres : BitVec 32
  yres : BitVec 32
  activate : BitVec 32
  yoffset : BitVec 32
  reserved0 : BitVec 32
  reserved1 : BitVec 32
  reserved2 : BitVec 32
  deriving DecidableEq

/-- `private_module_t`. -/
structure Module where
  info : ScreenInfo
  lineLength : BitVec 32
  framebuffer : Buffer
  numBuffers : Nat
  currentBuffer : Option Buffer
  deriving DecidableEq

/-- The line `b` starts at: `(hnd->base - m->framebuffer->base) / m->finfo.line_length`. -/
def Module.lineOf (m : Module) (b : Buffer) : BitVec 32 :=
  (b.base - m.framebuffer.base) / m.lineLength

/-- `m->info` as `fb_post` makes it for `b`. -/
def Module.infoFor (m : Module) (b : Buffer) : ScreenInfo :=
  { m.info with activate := fbActivateNow, yoffset := m.lineOf b }

/-- `fb_setUpdateRect`; `none` is `-EINVAL`. -/
def setUpdateRect (m : Module) (l t w h : Int32) : Option Module :=
  if (w ||| h) ≤ 0 ∨ (l ||| t) < 0 then none
  else
    let corner (x y : Int32) : BitVec 32 := (x.toBitVec &&& 0xFFFF) ||| (y.toBitVec <<< 16)
    some { m with
      info := { m.info with
        reserved0 := 0x54445055
        reserved1 := corner l t
        reserved2 := corner (l + w) (t + h) } }

/-- The two threads. -/
inductive Party where
  | client
  | poster
  deriving DecidableEq

/-- `sPost`: who has the lock, and the fields. -/
structure Queue where
  lock : Option Party
  pending : Bool
  quit : Bool
  enabled : Bool
  info : ScreenInfo
  deriving DecidableEq

/-- `pthread_mutex_lock`: it waits while the other thread has the lock. -/
def Queue.acquire (q : Queue) (p : Party) : Option Queue :=
  if q.lock = none then some { q with lock := some p } else none

def Queue.release (q : Queue) : Queue := { q with lock := none }

/-! ## 2. The places of the threads -/

/-- What waits for the pan. -/
inductive Call where
  | post (b : Buffer)
  | close
  deriving DecidableEq

/-- Inside `fb_post_wait_idle`. -/
inductive Waiting where
  | enter
  | test
  | asleep
  | woken
  | leave
  deriving DecidableEq

/-- Inside a critical section that sets something and signals `cond_post`. -/
inductive Telling where
  | enter
  | set
  | signal
  | leave
  deriving DecidableEq

/-- Inside the branch of `fb_post` for a buffer that is no framebuffer. -/
inductive Copying where
  | lockFramebuffer
  | lockBuffer
  | copy
  | unlockBuffer
  | unlockFramebuffer
  deriving DecidableEq

/-- Where the client stands. -/
inductive ClientPc where
  | idle
  -- `fb_device_open` behind `pthread_create`
  | opening
  -- `fb_post_wait_idle` in `fb_post` or `fb_close`
  | wait (w : Waiting) (call : Call)
  -- `fb_post`
  | swap (b : Buffer)
  | lockForPost (b : Buffer)
  | queue (t : Telling) (b : Buffer)
  | pan (b : Buffer)
  | panning (b : Buffer)
  | failed (b : Buffer)
  | setCurrent (b : Buffer)
  | copy (c : Copying) (b : Buffer)
  -- `fb_close`
  | quit (t : Telling)
  | join
  | disable
  | free
  deriving DecidableEq

/-- Where the posting thread stands, with its copy of the info. -/
inductive PosterPc where
  -- there is no such thread
  | none
  | enter
  | test
  | asleep
  | woken
  | leave (info : ScreenInfo)
  | call (info : ScreenInfo)
  | panning (info : ScreenInfo)
  | reenter
  | clear
  | broadcast
  | exit
  | done
  deriving DecidableEq

/-- `pthread_cond_signal(&sPost.cond_post)`, for the one thread that waits there. -/
def PosterPc.signalled : PosterPc → PosterPc
  | .asleep => .woken
  | pc => pc

/-- `pthread_cond_broadcast(&sPost.cond_idle)`. -/
def ClientPc.signalled : ClientPc → ClientPc
  | .wait .asleep k => .wait .woken k
  | pc => pc

/-- Where `fb_post_wait_idle` returns to. -/
def Call.after : Call → ClientPc
  | .post b => .swap b
  | .close => .quit .enter

/-! ## 3. The machine -/

/-- What the threads do to a buffer and to the display. -/
inductive Event where
  | locked (b : Buffer)
  | unlocked (b : Buffer)
  -- `fb_post` has the buffer locked for its pan, with this info
  | posted (b : Buffer) (info : ScreenInfo)
  -- `FBIOPUT_VSCREENINFO` is called, and returns
  | panned (info : ScreenInfo)
  | returned (info : ScreenInfo)
  -- `fb_close` returns
  | closed
  deriving DecidableEq

structure State where
  m : Module
  q : Queue
  client : ClientPc
  poster : PosterPc
  -- the devices `fb_device_open` gave out and `fb_close` has not taken back
  devices : Nat
  log : List Event
  deriving DecidableEq

def State.at (s : State) (pc : ClientPc) : State := { s with client := pc }

def State.posterAt (s : State) (pc : PosterPc) : State := { s with poster := pc }

def State.say (s : State) (l : List Event) : State := { s with log := s.log ++ l }

inductive Act where
  -- the client calls
  | open (asyncPost : Bool) (created : Bool)
  | setUpdateRect (l t w h : Int32)
  | post (b : Buffer)
  | close
  -- the client goes on in its call; `ok` is the result of its `ioctl`
  | client (ok : Bool)
  | poster
  -- a wake-up nobody asked for
  | wakeClient
  | wakePoster
  deriving DecidableEq

/-- `fb_device_open`, behind `mapFrameBuffer`. -/
def openDevice (s : State) (asyncPost created : Bool) : State :=
  let s := { s with devices := s.devices + 1 }
  if asyncPost ∧ 1 < s.m.numBuffers ∧ s.q.enabled = false then
    let q := { s.q with lock := none, pending := false, quit := false }
    if created then { s with q := q, poster := .enter, client := .opening } else { s with q := q }
  else s

/-- `fb_post` and `fb_close` up to their first wait. -/
def enter (s : State) (k : Call) (after : ClientPc) : State :=
  s.at (if s.q.enabled then .wait .enter k else after)

/-- `fb_post_wait_idle`. -/
def runWait (s : State) (w : Waiting) (k : Call) : Option State :=
  match w with
  | .enter | .woken => (s.q.acquire .client).map fun q => { s with q := q, client := .wait .test k }
  | .test =>
    some (if s.q.pending then { s with q := s.q.release, client := .wait .asleep k }
      else s.at (.wait .leave k))
  | .asleep => none
  | .leave => some { s with q := s.q.release, client := k.after }

/-- The critical section of `fb_post`. -/
def runQueue (s : State) (t : Telling) (b : Buffer) : Option State :=
  match t with
  | .enter => (s.q.acquire .client).map fun q => { s with q := q, client := .queue .set b }
  | .set =>
    some { s with q := { s.q with info := s.m.info, pending := true }, client := .queue .signal b }
  | .signal => some { s with poster := s.poster.signalled, client := .queue .leave b }
  | .leave => some { s with q := s.q.release, client := .setCurrent b }

/-- The critical section of `fb_close`. -/
def runQuit (s : State) (t : Telling) : Option State :=
  match t with
  | .enter => (s.q.acquire .client).map fun q => { s with q := q, client := .quit .set }
  | .set => some { s with q := { s.q with quit := true }, client := .quit .signal }
  | .signal => some { s with poster := s.poster.signalled, client := .quit .leave }
  | .leave => some { s with q := s.q.release, client := .join }

/-- The branch for a buffer that is no framebuffer. -/
def runCopy (s : State) (c : Copying) (b : Buffer) : State :=
  match c with
  | .lockFramebuffer => (s.say [.locked s.m.framebuffer]).at (.copy .lockBuffer b)
  | .lockBuffer => (s.say [.locked b]).at (.copy .copy b)
  | .copy => s.at (.copy .unlockBuffer b)
  | .unlockBuffer => (s.say [.unlocked b]).at (.copy .unlockFramebuffer b)
  | .unlockFramebuffer => (s.say [.unlocked s.m.framebuffer]).at .idle

/-- `fb_post` gives up the buffer before. -/
def swap (s : State) (b : Buffer) : State :=
  { s with
    m := { s.m with currentBuffer := none }
    log := s.log ++ s.m.currentBuffer.toList.map .unlocked
    client := if b.isFramebuffer then .lockForPost b else .copy .lockFramebuffer b }

/-- `fb_post` locks `b` and makes the info for it. -/
def lockForPost (s : State) (b : Buffer) : State :=
  { s with
    m := { s.m with info := s.m.infoFor b }
    log := s.log ++ [.locked b, .posted b (s.m.infoFor b)]
    client := if s.q.enabled then .queue .enter b else .pan b }

/-- **A step of the client** inside a call. -/
def runClient (s : State) (ok : Bool) : Option State :=
  match s.client with
  | .idle => none
  | .opening => some { s with q := { s.q with enabled := true }, client := .idle }
  | .wait w k => runWait s w k
  | .swap b => some (swap s b)
  | .lockForPost b => some (lockForPost s b)
  | .queue t b => runQueue s t b
  | .pan b => some ((s.say [.panned s.m.info]).at (.panning b))
  | .panning b =>
    some ((s.say [.returned s.m.info]).at (if ok then .setCurrent b else .failed b))
  | .failed b => some ((s.say [.unlocked b]).at .idle)
  | .setCurrent b => some { s with m := { s.m with currentBuffer := some b }, client := .idle }
  | .copy c b => some (runCopy s c b)
  | .quit t => runQuit s t
  | .join => if s.poster = .done then some { s with poster := .none, client := .disable } else none
  | .disable =>
    some { s with q := { s.q with enabled := false, quit := false }, client := .free }
  | .free => some { s with devices := s.devices - 1, log := s.log ++ [.closed], client := .idle }

/-- **A step of the posting thread.** -/
def runPoster (s : State) : Option State :=
  match s.poster with
  | .none | .asleep | .done => Option.none
  | .enter | .woken => (s.q.acquire .poster).map fun q => { s with q := q, poster := .test }
  | .test =>
    some (if s.q.pending = false ∧ s.q.quit = false then
        { s with q := s.q.release, poster := .asleep }
      else if s.q.quit then s.posterAt .exit
      else s.posterAt (.leave s.q.info))
  | .leave info => some { s with q := s.q.release, poster := .call info }
  | .call info => some ((s.say [.panned info]).posterAt (.panning info))
  -- a pan that fails is only logged
  | .panning info => some ((s.say [.returned info]).posterAt .reenter)
  | .reenter => (s.q.acquire .poster).map fun q => { s with q := q, poster := .clear }
  | .clear => some { s with q := { s.q with pending := false }, poster := .broadcast }
  | .broadcast => some { s with client := s.client.signalled, poster := .test }
  | .exit => some { s with q := s.q.release, poster := .done }

/-- **The machine.** A device is used only while it is open. -/
def step (s : State) : Act → Option State
  | .open asyncPost created =>
    if s.client = .idle then some (openDevice s asyncPost created) else none
  | .setUpdateRect l t w h =>
    if s.client = .idle ∧ 0 < s.devices then
      some { s with m := (setUpdateRect s.m l t w h).getD s.m }
    else none
  | .post b =>
    if s.client = .idle ∧ 0 < s.devices then
      some (if b.valid then enter s (.post b) (.swap b) else s)
    else none
  | .close =>
    if s.client = .idle ∧ 0 < s.devices then some (enter s .close .free) else none
  | .client ok => runClient s ok
  | .poster => runPoster s
  | .wakeClient =>
    match s.client with
    | .wait .asleep k => some (s.at (.wait .woken k))
    | _ => none
  | .wakePoster => if s.poster = .asleep then some (s.posterAt .woken) else none

/-- Before the first `fb_device_open`. -/
def start (m : Module) (info : ScreenInfo) : State where
  m := m
  q := { lock := none, pending := false, quit := false, enabled := false, info := info }
  client := .idle
  poster := .none
  devices := 0
  log := []

/-! ## 4. What the flags say about the places -/

/-- The places inside `sPost.lock`. -/
def ClientPc.holds : ClientPc → Bool
  | .wait .test _ | .wait .leave _ => true
  | .queue .set _ | .queue .signal _ | .queue .leave _ => true
  | .quit .set | .quit .signal | .quit .leave => true
  | _ => false

def PosterPc.holds : PosterPc → Bool
  | .test | .leave _ | .clear | .broadcast | .exit => true
  | _ => false

/-- The client knows that no frame is queued. -/
def ClientPc.calm : ClientPc → Bool
  | .idle | .setCurrent _ | .queue .signal _ | .queue .leave _ => false
  | .wait .leave _ => true
  | .wait _ _ => false
  | _ => true

/-- What `sPost.enabled` is at the places that are on one side of a test of it. -/
def ClientPc.mode : ClientPc → Option Bool
  | .wait _ _ | .queue _ _ | .quit _ | .join | .disable => some true
  | .opening | .pan _ | .panning _ | .failed _ | .free => some false
  | _ => none

/-- How far the client has come with what the posting thread has to know. -/
inductive ClientStage where
  | plain
  -- the thread is there and `enabled` is not set yet
  | opening
  -- about to signal a frame
  | queued
  -- `quit` is set: about to signal it, behind the signal, behind the end of the thread
  | quitting
  | quits
  | joined
  deriving DecidableEq

def ClientPc.stage : ClientPc → ClientStage
  | .opening => .opening
  | .queue .signal _ => .queued
  | .quit .signal => .quitting
  | .quit .leave | .join => .quits
  | .disable => .joined
  | _ => .plain

def ClientStage.quit : ClientStage → Bool
  | .quitting | .quits | .joined => true
  | _ => false

def ClientStage.signals : ClientStage → Bool
  | .queued | .quitting => true
  | _ => false

def ClientPc.sleeps : ClientPc → Bool
  | .wait .asleep _ => true
  | _ => false

/-- What the posting thread is doing. -/
inductive PosterStage where
  | absent
  | plain
  | sleeps
  -- it has a frame in hand
  | works
  -- it has cleared `pending` and not said so
  | cleared
  | ends
  deriving DecidableEq

def PosterPc.stage : PosterPc → PosterStage
  | .none => .absent
  | .enter | .test | .woken => .plain
  | .asleep => .sleeps
  | .leave _ | .call _ | .panning _ | .reenter | .clear => .works
  | .broadcast => .cleared
  | .exit | .done => .ends

/-- **The flags and the places.** -/
structure Control (s : State) : Prop where
  clientLock : s.q.lock = some .client ↔ s.client.holds = true
  posterLock : s.q.lock = some .poster ↔ s.poster.holds = true
  calm : s.client.calm = true → s.q.pending = false
  enabled : s.q.pending = true → s.q.enabled = true
  mode : ∀ b, s.client.mode = some b → s.q.enabled = b
  works : s.poster.stage = .works → s.q.pending = true
  quit : s.q.quit = s.client.stage.quit
  ends : s.poster.stage = .ends → s.q.quit = true
  thread : s.poster.stage = .absent ↔
    (s.q.enabled = false ∧ s.client.stage ≠ .opening) ∨ s.client.stage = .joined
  -- no wake-up is lost
  posterSleeps : s.poster.stage = .sleeps →
    (s.q.pending = false ∧ s.q.quit = false) ∨ s.client.stage.signals = true
  clientSleeps : s.client.sleeps = true → s.q.pending = true ∨ s.poster.stage = .cleared

section Control

variable {s s' : State} {ok : Bool}

theorem Control.start (m : Module) (info : ScreenInfo) : Control (start m info) := by
  constructor <;> simp [Post.start, ClientPc.holds, PosterPc.holds, ClientPc.calm, ClientPc.mode,
    ClientPc.stage, PosterPc.stage, ClientStage.quit, ClientPc.sleeps]

theorem Control.idle_of_off (h : Control s) (hoff : s.q.enabled = false) :
    s.q.pending = false := by
  cases hp : s.q.pending with
  | false => rfl
  | true => rw [h.enabled hp] at hoff; cases hoff

/-- The client goes on and changes no flag. -/
theorem Control.move (h : Control s) (hposter : s'.poster = s.poster)
    (hpending : s'.q.pending = s.q.pending) (hquit : s'.q.quit = s.q.quit)
    (henabled : s'.q.enabled = s.q.enabled)
    (hlock : s'.q.lock = some .client ↔ s'.client.holds = true)
    (hother : s'.q.lock = some .poster ↔ s.q.lock = some .poster)
    (hcalm : s'.client.calm = true → s.q.pending = false)
    (hmode : ∀ b, s'.client.mode = some b → s.q.enabled = b)
    (hstage : s'.client.stage = s.client.stage)
    (hsleeps : s'.client.sleeps = true → s.q.pending = true ∨ s.poster.stage = .cleared) :
    Control s' where
  clientLock := hlock
  posterLock := by rw [hother, hposter]; exact h.posterLock
  calm := by rw [hpending]; exact hcalm
  enabled := by rw [hpending, henabled]; exact h.enabled
  mode := by rw [henabled]; exact hmode
  works := by rw [hposter, hpending]; exact h.works
  quit := by rw [hquit, hstage]; exact h.quit
  ends := by rw [hposter, hquit]; exact h.ends
  thread := by rw [hposter, henabled, hstage]; exact h.thread
  posterSleeps := by rw [hposter, hpending, hquit, hstage]; exact h.posterSleeps
  clientSleeps := by rw [hpending, hposter]; exact hsleeps

/-- The client goes on without `sPost`. -/
theorem Control.stay (h : Control s) (hposter : s'.poster = s.poster) (hq : s'.q = s.q)
    (hholds : s'.client.holds = s.client.holds)
    (hcalm : s'.client.calm = true → s.q.pending = false)
    (hmode : ∀ b, s'.client.mode = some b → s.q.enabled = b)
    (hstage : s'.client.stage = s.client.stage) (hsleeps : s'.client.sleeps = false) :
    Control s' :=
  h.move hposter (by rw [hq]) (by rw [hq]) (by rw [hq])
    (by rw [hq, hholds]; exact h.clientLock) (by rw [hq]) hcalm hmode hstage
    (fun hs => by rw [hsleeps] at hs; cases hs)

theorem Control.acquire {q : Queue} (h : Control s) (hq : s.q.acquire .client = some q)
    (hs : s'.q = q) (hposter : s'.poster = s.poster) (hholds : s'.client.holds = true)
    (hcalm : s'.client.calm = true → s.client.calm = true)
    (hmode : s'.client.mode = s.client.mode)
    (hstage : s'.client.stage = s.client.stage) (hsleeps : s'.client.sleeps = false) :
    Control s' := by
  unfold Queue.acquire at hq
  split at hq
  · rename_i hfree
    cases hq
    refine h.move hposter (by rw [hs]) (by rw [hs]) (by rw [hs]) ?_ ?_
      (fun hc => h.calm (hcalm hc)) (by rw [hmode]; exact h.mode) hstage ?_
    · simp [hs, hholds]
    · simp [hs, hfree]
    · intro ha
      rw [hsleeps] at ha
      cases ha
  · cases hq

theorem Control.release (h : Control s) (hs : s'.q = s.q.release)
    (hposter : s'.poster = s.poster) (hheld : s.client.holds = true)
    (hholds : s'.client.holds = false)
    (hcalm : s'.client.calm = true → s.q.pending = false)
    (hmode : ∀ b, s'.client.mode = some b → s.q.enabled = b)
    (hstage : s'.client.stage = s.client.stage)
    (hsleeps : s'.client.sleeps = true → s.q.pending = true) : Control s' := by
  have hlock : s.q.lock = some .client := h.clientLock.mpr hheld
  refine h.move hposter (by rw [hs]; rfl) (by rw [hs]; rfl) (by rw [hs]; rfl) ?_ ?_ hcalm hmode
    hstage (fun ha => .inl (hsleeps ha))
  · simp [hs, hholds, Queue.release]
  · simp [hs, hlock, Queue.release]

theorem Control.wait {w : Waiting} {k : Call} (h : Control s) (hc : s.client = .wait w k)
    (hs : runWait s w k = some s') : Control s' := by
  have hon : s.q.enabled = true := h.mode true (by rw [hc]; rfl)
  cases w with
  | enter =>
    obtain ⟨q, hq, rfl⟩ := Option.map_eq_some_iff.mp hs
    exact h.acquire hq rfl rfl rfl nofun (by rw [hc]; rfl) (by rw [hc]; rfl) rfl
  | test =>
    cases hs
    cases hpending : s.q.pending with
    | true =>
      exact h.release rfl rfl (by rw [hc]; rfl) rfl nofun (fun b hb => by cases hb; exact hon)
        (by rw [hc]; rfl) (fun _ => hpending)
    | false =>
      exact h.stay rfl rfl (by rw [hc]; rfl) (fun _ => hpending)
        (fun b hb => by cases hb; exact hon) (by rw [hc]; rfl) rfl
  | asleep => cases hs
  | woken =>
    obtain ⟨q, hq, rfl⟩ := Option.map_eq_some_iff.mp hs
    exact h.acquire hq rfl rfl rfl nofun (by rw [hc]; rfl) (by rw [hc]; rfl) rfl
  | leave =>
    cases hs
    have hidle : s.q.pending = false := h.calm (by rw [hc]; rfl)
    cases k with
    | post b =>
      exact h.release rfl rfl (by rw [hc]; rfl) rfl (fun _ => hidle) nofun (by rw [hc]; rfl) nofun
    | close =>
      exact h.release rfl rfl (by rw [hc]; rfl) rfl (fun _ => hidle)
        (fun b hb => by cases hb; exact hon) (by rw [hc]; rfl) nofun

theorem signalled_cases (pc : PosterPc) :
    (pc = .asleep ∧ pc.signalled = .woken) ∨ (pc.stage ≠ .sleeps ∧ pc.signalled = pc) := by
  cases pc <;> simp [PosterPc.signalled, PosterPc.stage]

/-- The client signals `cond_post`. -/
theorem Control.signal (h : Control s) (hq : s'.q = s.q)
    (hposter : s'.poster = s.poster.signalled) (hholds : s'.client.holds = s.client.holds)
    (hcalm : s'.client.calm = true → s.q.pending = false)
    (hmode : s'.client.mode = s.client.mode) (hon : s.client.mode = some true)
    (hstage : s'.client.stage.quit = s.client.stage.quit)
    (hjoined : s.client.stage ≠ .joined) (hjoined' : s'.client.stage ≠ .joined)
    (hsleeps : s'.client.sleeps = false) : Control s' := by
  have henabled : s.q.enabled = true := h.mode true hon
  have hthere : s.poster.stage ≠ .absent := by
    simp [h.thread, henabled, hjoined]
  have hnew : s'.poster.holds = s.poster.holds ∧
      (s'.poster.stage = s.poster.stage ∨ s'.poster.stage = .plain) ∧
      s'.poster.stage ≠ .sleeps := by
    rw [hposter]
    rcases signalled_cases s.poster with ⟨hp, he⟩ | ⟨hp, he⟩
    · rw [he, hp]
      exact ⟨rfl, .inr rfl, nofun⟩
    · rw [he]
      exact ⟨rfl, .inl rfl, hp⟩
  obtain ⟨hph, hps, hawake⟩ := hnew
  constructor
  case clientLock => rw [hq, hholds]; exact h.clientLock
  case posterLock => rw [hq, hph]; exact h.posterLock
  case calm => rw [hq]; exact hcalm
  case enabled => rw [hq]; exact h.enabled
  case mode => rw [hq, hmode]; exact h.mode
  case works =>
    intro hw
    rcases hps with he | he <;> rw [he] at hw
    · rw [hq]; exact h.works hw
    · cases hw
  case quit => rw [hq, hstage]; exact h.quit
  case ends =>
    intro hw
    rcases hps with he | he <;> rw [he] at hw
    · rw [hq]; exact h.ends hw
    · cases hw
  case thread =>
    rcases hps with he | he <;> simp [he, hq, henabled, hjoined', hthere]
  case posterSleeps => exact fun ha => absurd ha hawake
  case clientSleeps => rw [hsleeps]; exact nofun

theorem Control.queue {t : Telling} {b : Buffer} (h : Control s) (hc : s.client = .queue t b)
    (hs : runQueue s t b = some s') : Control s' := by
  have hon : s.q.enabled = true := h.mode true (by rw [hc]; rfl)
  cases t with
  | enter =>
    obtain ⟨q, hq, rfl⟩ := Option.map_eq_some_iff.mp hs
    exact h.acquire hq rfl rfl rfl (fun _ => by rw [hc]; rfl) (by rw [hc]; rfl) (by rw [hc]; rfl)
      rfl
  | set =>
    cases hs
    have hidle : s.q.pending = false := h.calm (by rw [hc]; rfl)
    exact {
      clientLock := by simpa [hc, ClientPc.holds] using h.clientLock
      posterLock := h.posterLock
      calm := nofun
      enabled := fun _ => hon
      mode := fun b hb => by cases hb; exact hon
      works := fun _ => rfl
      quit := h.quit.trans (by rw [hc]; rfl)
      ends := h.ends
      thread := by simpa [hon, hc, ClientPc.stage] using h.thread
      posterSleeps := fun _ => .inr rfl
      clientSleeps := nofun }
  | signal =>
    cases hs
    exact h.signal rfl rfl (by rw [hc]; rfl) nofun (by rw [hc]; rfl) (by rw [hc]; rfl)
      (by rw [hc]; rfl) (by rw [hc]; exact nofun) nofun rfl
  | leave =>
    cases hs
    exact h.release rfl rfl (by rw [hc]; rfl) rfl nofun nofun (by rw [hc]; rfl) nofun

theorem Control.quitting {t : Telling} (h : Control s) (hc : s.client = .quit t)
    (hs : runQuit s t = some s') : Control s' := by
  have hon : s.q.enabled = true := h.mode true (by rw [hc]; rfl)
  have hidle : s.q.pending = false := h.calm (by rw [hc]; rfl)
  cases t with
  | enter =>
    obtain ⟨q, hq, rfl⟩ := Option.map_eq_some_iff.mp hs
    exact h.acquire hq rfl rfl rfl (fun _ => by rw [hc]; rfl) (by rw [hc]; rfl) (by rw [hc]; rfl)
      rfl
  | set =>
    cases hs
    exact {
      clientLock := by simpa [hc, ClientPc.holds] using h.clientLock
      posterLock := h.posterLock
      calm := fun _ => hidle
      enabled := h.enabled
      mode := fun b hb => by cases hb; exact hon
      works := h.works
      quit := rfl
      ends := fun _ => rfl
      thread := by simpa [hon, hc, ClientPc.stage] using h.thread
      posterSleeps := fun _ => .inr rfl
      clientSleeps := nofun }
  | signal =>
    cases hs
    exact h.signal rfl rfl (by rw [hc]; rfl) (fun _ => hidle) (by rw [hc]; rfl) (by rw [hc]; rfl)
      (by rw [hc]; rfl) (by rw [hc]; exact nofun) nofun rfl
  | leave =>
    cases hs
    exact h.release rfl rfl (by rw [hc]; rfl) rfl (fun _ => hidle)
      (fun b hb => by cases hb; exact hon) (by rw [hc]; rfl) nofun

theorem Control.copy {c : Copying} {b : Buffer} (h : Control s) (hc : s.client = .copy c b) :
    Control (runCopy s c b) := by
  have hidle : s.q.pending = false := h.calm (by rw [hc]; rfl)
  cases c <;>
    exact h.stay rfl rfl (by rw [hc]; rfl) (fun _ => hidle) nofun (by rw [hc]; rfl) rfl

/-- The thread has ended and the client takes it away. -/
theorem Control.join (h : Control s) (hc : s.client = .join) (hdone : s.poster = .done) :
    Control { s with poster := .none, client := .disable } := by
  have hon : s.q.enabled = true := h.mode true (by rw [hc]; rfl)
  have hidle : s.q.pending = false := h.calm (by rw [hc]; rfl)
  have hlock : s.q.lock ≠ some .client := by simp [h.clientLock, hc, ClientPc.holds]
  have hlock' : s.q.lock ≠ some .poster := by simp [h.posterLock, hdone, PosterPc.holds]
  exact {
    clientLock := by simp [hlock, ClientPc.holds]
    posterLock := by simp [hlock', PosterPc.holds]
    calm := fun _ => hidle
    enabled := h.enabled
    mode := fun b hb => by cases hb; exact hon
    works := nofun
    quit := h.quit.trans (by rw [hc]; rfl)
    ends := nofun
    thread := by simp [PosterPc.stage, ClientPc.stage]
    posterSleeps := nofun
    clientSleeps := nofun }

/-- `fb_close` behind the end of the thread. -/
theorem Control.disable (h : Control s) (hc : s.client = .disable) :
    Control { s with q := { s.q with enabled := false, quit := false }, client := .free } := by
  have hidle : s.q.pending = false := h.calm (by rw [hc]; rfl)
  have hgone : s.poster.stage = .absent := h.thread.mpr (.inr (by rw [hc]; rfl))
  exact {
    clientLock := by simpa [hc, ClientPc.holds] using h.clientLock
    posterLock := h.posterLock
    calm := fun _ => hidle
    enabled := by simp [hidle]
    mode := fun b hb => by cases hb; rfl
    works := h.works
    quit := rfl
    ends := by simp [hgone]
    thread := by simp [hgone, ClientPc.stage]
    posterSleeps := by simp [hgone]
    clientSleeps := nofun }

/-- `fb_device_open` behind `pthread_create`. -/
theorem Control.opened (h : Control s) (hc : s.client = .opening) :
    Control { s with q := { s.q with enabled := true }, client := .idle } := by
  have hthere : s.poster.stage ≠ .absent := by simp [h.thread, hc, ClientPc.stage]
  have hidle : s.q.pending = false := h.calm (by rw [hc]; rfl)
  have hquit : s.q.quit = false := h.quit.trans (by rw [hc]; rfl)
  exact {
    clientLock := by simpa [hc, ClientPc.holds] using h.clientLock
    posterLock := h.posterLock
    calm := nofun
    enabled := fun _ => rfl
    mode := nofun
    works := h.works
    quit := hquit
    ends := h.ends
    thread := by simp [hthere, ClientPc.stage]
    posterSleeps := fun _ => .inl ⟨hidle, hquit⟩
    clientSleeps := nofun }

theorem Control.client (h : Control s) (hs : runClient s ok = some s') : Control s' := by
  cases hc : s.client <;> simp only [runClient, hc] at hs
  case idle => cases hs
  case opening =>
    cases hs
    exact h.opened hc
  case wait w k => exact h.wait hc hs
  case queue t b => exact h.queue hc hs
  case quit t => exact h.quitting hc hs
  case join =>
    split at hs
    · cases hs
      exact h.join hc ‹_›
    · cases hs
  case disable =>
    cases hs
    exact h.disable hc
  case setCurrent b =>
    cases hs
    exact h.stay rfl rfl (by rw [hc]; rfl) nofun nofun (by rw [hc]; rfl) rfl
  -- the places where no frame is queued
  all_goals
    have hidle : s.q.pending = false := h.calm (by rw [hc]; rfl)
    cases hs
  case copy c b => exact h.copy hc
  case swap b =>
    unfold swap
    cases b.isFramebuffer <;>
      exact h.stay rfl rfl (by rw [hc]; rfl) (fun _ => hidle) nofun (by rw [hc]; rfl) rfl
  case lockForPost b =>
    unfold lockForPost
    cases hon : s.q.enabled <;>
      exact h.stay rfl rfl (by rw [hc]; rfl) (fun _ => hidle)
        (fun b hb => by cases hb; exact hon) (by rw [hc]; rfl) rfl
  all_goals
    have hoff : s.q.enabled = false := h.mode false (by rw [hc]; rfl)
  case panning b =>
    cases ok with
    | true => exact h.stay rfl rfl (by rw [hc]; rfl) nofun nofun (by rw [hc]; rfl) rfl
    | false =>
      exact h.stay rfl rfl (by rw [hc]; rfl) (fun _ => hidle) (fun b hb => by cases hb; exact hoff)
        (by rw [hc]; rfl) rfl
  case pan b =>
    exact h.stay rfl rfl (by rw [hc]; rfl) (fun _ => hidle) (fun b hb => by cases hb; exact hoff)
      (by rw [hc]; rfl) rfl
  all_goals
    exact h.stay rfl rfl (by rw [hc]; rfl) (fun _ => hidle) nofun (by rw [hc]; rfl) rfl

/-- The posting thread goes on and changes no flag. -/
theorem Control.posterMove (h : Control s) (hclient : s'.client = s.client)
    (hpending : s'.q.pending = s.q.pending) (hquit : s'.q.quit = s.q.quit)
    (henabled : s'.q.enabled = s.q.enabled)
    (hlock : s'.q.lock = some .poster ↔ s'.poster.holds = true)
    (hother : s'.q.lock = some .client ↔ s.q.lock = some .client)
    (hworks : s'.poster.stage = .works → s.q.pending = true)
    (hends : s'.poster.stage = .ends → s.q.quit = true)
    (hthere : s.poster.stage ≠ .absent) (hthere' : s'.poster.stage ≠ .absent)
    (hsleeps : s'.poster.stage = .sleeps → s.q.pending = false ∧ s.q.quit = false)
    (hcleared : s.poster.stage = .cleared → s'.poster.stage = .cleared) : Control s' where
  clientLock := by rw [hother, hclient]; exact h.clientLock
  posterLock := hlock
  calm := by rw [hclient, hpending]; exact h.calm
  enabled := by rw [hpending, henabled]; exact h.enabled
  mode := by rw [hclient, henabled]; exact h.mode
  works := by rw [hpending]; exact hworks
  quit := by rw [hquit, hclient]; exact h.quit
  ends := by rw [hquit]; exact hends
  thread := by
    rw [henabled, hclient]
    exact ⟨fun ha => absurd ha hthere', fun ha => absurd (h.thread.mpr ha) hthere⟩
  posterSleeps := by
    rw [hpending, hquit]
    exact fun ha => .inl (hsleeps ha)
  clientSleeps := by
    rw [hclient, hpending]
    exact fun ha => (h.clientSleeps ha).imp id hcleared

theorem Control.posterStay (h : Control s) (hclient : s'.client = s.client) (hq : s'.q = s.q)
    (hholds : s'.poster.holds = s.poster.holds)
    (hworks : s'.poster.stage = .works → s.q.pending = true)
    (hends : s'.poster.stage = .ends → s.q.quit = true)
    (hthere : s.poster.stage ≠ .absent) (hthere' : s'.poster.stage ≠ .absent)
    (hsleeps : s'.poster.stage ≠ .sleeps) (hcleared : s.poster.stage ≠ .cleared) : Control s' :=
  h.posterMove hclient (by rw [hq]) (by rw [hq]) (by rw [hq])
    (by rw [hq, hholds]; exact h.posterLock) (by rw [hq]) hworks hends hthere hthere'
    (fun ha => absurd ha hsleeps) (fun ha => absurd ha hcleared)

theorem Control.posterAcquire {q : Queue} (h : Control s) (hq : s.q.acquire .poster = some q)
    (hs : s'.q = q) (hclient : s'.client = s.client) (hholds : s'.poster.holds = true)
    (hstage : s'.poster.stage = s.poster.stage) (hthere : s.poster.stage ≠ .absent)
    (hsleeps : s.poster.stage ≠ .sleeps) : Control s' := by
  unfold Queue.acquire at hq
  split at hq
  · rename_i hfree
    cases hq
    refine h.posterMove hclient (by rw [hs]) (by rw [hs]) (by rw [hs]) ?_ ?_
      (by rw [hstage]; exact h.works) (by rw [hstage]; exact h.ends) hthere
      (by rw [hstage]; exact hthere) (by rw [hstage]; exact fun ha => absurd ha hsleeps)
      (by rw [hstage]; exact id)
    · simp [hs, hholds]
    · simp [hs, hfree]
  · cases hq

theorem Control.posterRelease (h : Control s) (hs : s'.q = s.q.release)
    (hclient : s'.client = s.client) (hheld : s.poster.holds = true)
    (hholds : s'.poster.holds = false)
    (hworks : s'.poster.stage = .works → s.q.pending = true)
    (hends : s'.poster.stage = .ends → s.q.quit = true)
    (hthere : s.poster.stage ≠ .absent) (hthere' : s'.poster.stage ≠ .absent)
    (hsleeps : s'.poster.stage = .sleeps → s.q.pending = false ∧ s.q.quit = false)
    (hcleared : s.poster.stage ≠ .cleared) : Control s' := by
  have hlock : s.q.lock = some .poster := h.posterLock.mpr hheld
  refine h.posterMove hclient (by rw [hs]; rfl) (by rw [hs]; rfl) (by rw [hs]; rfl) ?_ ?_ hworks
    hends hthere hthere' hsleeps (fun ha => absurd ha hcleared)
  · simp [hs, hholds, Queue.release]
  · simp [hs, hlock, Queue.release]

/-- The posting thread clears `pending`, with the lock. -/
theorem Control.clear (h : Control s) (hp : s.poster = .clear) :
    Control { s with q := { s.q with pending := false }, poster := .broadcast } := by
  have hthere : s.poster.stage ≠ .absent := by rw [hp]; exact nofun
  exact {
    clientLock := h.clientLock
    posterLock := by simpa [hp, PosterPc.holds] using h.posterLock
    calm := fun _ => rfl
    enabled := nofun
    mode := h.mode
    works := nofun
    quit := h.quit
    ends := nofun
    thread := ⟨nofun, fun ha => absurd (h.thread.mpr ha) hthere⟩
    posterSleeps := nofun
    clientSleeps := fun _ => .inr rfl }

theorem clientSignalled_cases (pc : ClientPc) :
    pc.signalled.sleeps = false ∧ pc.signalled.holds = pc.holds ∧ pc.signalled.calm = pc.calm ∧
      pc.signalled.mode = pc.mode ∧ pc.signalled.stage = pc.stage := by
  unfold ClientPc.signalled
  split
  · exact ⟨rfl, rfl, rfl, rfl, rfl⟩
  · rename_i hne
    refine ⟨?_, rfl, rfl, rfl, rfl⟩
    unfold ClientPc.sleeps
    split
    · exact absurd rfl (hne _)
    · rfl

/-- The posting thread says that it is done with the frame. -/
theorem Control.broadcast (h : Control s) (hp : s.poster = .broadcast) :
    Control { s with client := s.client.signalled, poster := .test } := by
  obtain ⟨hsleeps, hholds, hcalm, hmode, hstage⟩ := clientSignalled_cases s.client
  have hthere : s.poster.stage ≠ .absent := by rw [hp]; exact nofun
  exact {
    clientLock := by rw [hholds]; exact h.clientLock
    posterLock := by simpa [hp, PosterPc.holds] using h.posterLock
    calm := by rw [hcalm]; exact h.calm
    enabled := h.enabled
    mode := by rw [hmode]; exact h.mode
    works := nofun
    quit := by rw [hstage]; exact h.quit
    ends := nofun
    thread := by rw [hstage]; exact ⟨nofun, fun ha => absurd (h.thread.mpr ha) hthere⟩
    posterSleeps := nofun
    clientSleeps := by rw [hsleeps]; exact nofun }

theorem Control.poster (h : Control s) (hs : runPoster s = some s') : Control s' := by
  cases hp : s.poster <;> simp only [runPoster, hp] at hs
  case none | asleep | done => cases hs
  case enter | woken =>
    obtain ⟨q, hq, rfl⟩ := Option.map_eq_some_iff.mp hs
    exact h.posterAcquire hq rfl rfl rfl (by rw [hp]; rfl) (by rw [hp]; exact nofun)
      (by rw [hp]; exact nofun)
  case test =>
    cases hs
    split
    · exact h.posterRelease rfl rfl (by rw [hp]; rfl) rfl nofun nofun (by rw [hp]; exact nofun)
        nofun (fun _ => ‹_›) (by rw [hp]; exact nofun)
    · rename_i hbusy
      split
      · exact h.posterStay rfl rfl (by rw [hp]; rfl) nofun (fun _ => ‹_›) (by rw [hp]; exact nofun)
          nofun nofun (by rw [hp]; exact nofun)
      · have hpending : s.q.pending = true := by simp_all
        exact h.posterStay rfl rfl (by rw [hp]; rfl) (fun _ => hpending) nofun
          (by rw [hp]; exact nofun) nofun nofun (by rw [hp]; exact nofun)
  case clear =>
    cases hs
    exact h.clear hp
  case broadcast =>
    cases hs
    exact h.broadcast hp
  case exit =>
    cases hs
    exact h.posterRelease rfl rfl (by rw [hp]; rfl) rfl nofun
      (fun _ => h.ends (by rw [hp]; rfl)) (by rw [hp]; exact nofun) nofun nofun
      (by rw [hp]; exact nofun)
  -- the thread has a frame in hand
  all_goals
    have hpending : s.q.pending = true := h.works (by rw [hp]; rfl)
  case reenter =>
    obtain ⟨q, hq, rfl⟩ := Option.map_eq_some_iff.mp hs
    exact h.posterAcquire hq rfl rfl rfl (by rw [hp]; rfl) (by rw [hp]; exact nofun)
      (by rw [hp]; exact nofun)
  case leave info =>
    cases hs
    exact h.posterRelease rfl rfl (by rw [hp]; rfl) rfl (fun _ => hpending) nofun
      (by rw [hp]; exact nofun) nofun nofun (by rw [hp]; exact nofun)
  all_goals
    cases hs
    exact h.posterStay rfl rfl (by rw [hp]; rfl) (fun _ => hpending) nofun
      (by rw [hp]; exact nofun) nofun nofun (by rw [hp]; exact nofun)

theorem Control.openDevice (h : Control s) (hc : s.client = .idle) (asyncPost created : Bool) :
    Control (openDevice s asyncPost created) := by
  unfold Post.openDevice
  dsimp only
  split
  · rename_i hnew
    have hoff : s.q.enabled = false := hnew.2.2
    have hgone : s.poster.stage = .absent := h.thread.mpr (.inl ⟨hoff, by rw [hc]; exact nofun⟩)
    have hnone : s.poster = .none := by
      cases hp : s.poster <;> rw [hp] at hgone <;> first | rfl | cases hgone
    cases created <;> constructor <;>
      simp [hc, hnone, hoff, ClientPc.holds, PosterPc.holds, ClientPc.mode, ClientPc.stage,
        PosterPc.stage, ClientStage.quit, ClientPc.sleeps]
  · exact h.stay rfl rfl rfl h.calm h.mode rfl (by rw [hc]; rfl)

theorem Control.enter {k : Call} {after : ClientPc} (h : Control s) (hc : s.client = .idle)
    (hholds : after.holds = false) (hstage : after.stage = .plain) (hsleeps : after.sleeps = false)
    (hmode : ∀ b, after.mode = some b → b = false) : Control (enter s k after) := by
  unfold Post.enter
  cases hon : s.q.enabled with
  | true =>
    exact h.stay rfl rfl (by rw [hc]; rfl) nofun (fun b hb => by cases hb; exact hon)
      (by rw [hc]; rfl) rfl
  | false =>
    have hidle : s.q.pending = false := h.idle_of_off hon
    exact h.stay rfl rfl (by rw [hc]; exact hholds) (fun _ => hidle)
      (fun b hb => by rw [hmode b hb]; exact hon) (by rw [hc]; exact hstage) hsleeps

theorem Control.step {a : Act} (h : Control s) (hs : step s a = some s') : Control s' := by
  cases a with
  | client ok => exact h.client hs
  | poster => exact h.poster hs
  | «open» asyncPost created =>
    obtain ⟨hc, hs⟩ := Option.ite_none_right_eq_some.mp hs
    cases hs
    exact h.openDevice hc asyncPost created
  | setUpdateRect l t w x =>
    obtain ⟨⟨hc, -⟩, hs⟩ := Option.ite_none_right_eq_some.mp hs
    cases hs
    exact h.stay rfl rfl rfl h.calm h.mode rfl (by rw [hc]; rfl)
  | post b =>
    obtain ⟨⟨hc, -⟩, hs⟩ := Option.ite_none_right_eq_some.mp hs
    cases hs
    cases b.valid with
    | false => exact h
    | true => exact h.enter hc rfl rfl rfl nofun
  | close =>
    obtain ⟨⟨hc, -⟩, hs⟩ := Option.ite_none_right_eq_some.mp hs
    cases hs
    exact h.enter hc rfl rfl rfl (fun b hb => by cases hb; rfl)
  | wakeClient =>
    simp only [Post.step] at hs
    split at hs
    · rename_i k hc
      cases hs
      exact h.stay rfl rfl (by rw [hc]; rfl) nofun
        (fun b hb => by cases hb; exact h.mode true (by rw [hc]; rfl)) (by rw [hc]; rfl) rfl
    · cases hs
  | wakePoster =>
    obtain ⟨hp, hs⟩ := Option.ite_none_right_eq_some.mp hs
    cases hs
    exact h.posterStay rfl rfl (by rw [hp]; rfl) nofun nofun (by rw [hp]; exact nofun) nofun nofun
      (by rw [hp]; exact nofun)

end Control

end Y210.Gralloc.Post

/-
  File:      Y210/Gps/Ni.lean
  Subject:   NETWORK-INITIATED LOCATION REQUESTS (loc_eng_ni.cpp): the modem asks for the user's
             consent, the user answers by notification id, a thread of its own sends the reply.

  Three parties share `loc_eng_ni_data`: the handler of a request (one at a time, it runs on the
  deferred-action thread), the NI thread it spawns, and any number of calls of
  `loc_eng_ni_respond`. The id and the busy flag are guarded by `loc_ni_lock` where they are
  written, and read by the responder with no lock at all; the answer is guarded by
  `user_cb_data_mutex`. A step is one access of a shared variable, or one critical section whose
  mutex every other party takes too.

  Requests are numbered as the modem raises them; `idOf` keeps the id each was notified with,
  `given` what the user answered to which id, `replies` what the modem was told.

  * `Step`, `step_cases` -- what a step finds and does;
  * `Ctl` -- the handler and the NI thread exclude each other; `Ans` -- every answer is the user's,
    in the runs in which it is stored in time (`inTime`, `ni_inv`);
  * `reply_is_the_users` -- what the modem is told in such a run;
  * `late_accept_answers_next` -- an answer stored late answers the next request.
-/
import Mathlib.Logic.Function.Basic
import Y210.Lib.Indexed
import Y210.Lib.Run

namespace Y210.Gps.Ni

open Y210.Lib

/-! ## 1. State -/

/-- `rpc_loc_ni_user_resp_e_type`. -/
inductive Resp where
  | accept
  | deny
  | noresp
  deriving DecidableEq, Repr

/-- `GpsUserResponseType`, an `int` on the wire. -/
inductive UserResponse where
  | accept
  | deny
  | noresp
  | other (code : Int)
  deriving DecidableEq, Repr

/-- The switch of `loc_ni_process_user_response`; `none` is its `return -1`. -/
def respOf : UserResponse → Option Resp
  | .accept => some .accept
  | .deny => some .deny
  | .noresp => some .noresp
  | .other _ => none

/-- Where `loc_ni_request_handler` stands with request `n`. From `saved` on it holds
    `loc_ni_lock`. -/
inductive HandlerPc where
  | idle
  | checked (n : Nat)
  | saved (n : Nat)
  | raised (n : Nat)
  | named (n : Nat)
  | spawned
  deriving DecidableEq, Repr

/-- Where `loc_ni_thread_proc` stands; `none` when there is no NI thread. In `replying` and
    `replied` it holds `user_cb_data_mutex`, from `locked` on `loc_ni_lock`. -/
inductive ThreadPc where
  | none
  | start
  | waiting
  | replying
  | replied
  | unlocked
  | locked
  | lowered
  | closed
  deriving DecidableEq, Repr

inductive FramePc where
  | entered
  | matched
  | passed
  | done
  deriving DecidableEq, Repr

/-- One call of `loc_eng_ni_respond`. -/
structure Frame where
  notifId : Int
  response : UserResponse
  pc : FramePc
  deriving DecidableEq, Repr

structure Reply where
  n : Nat
  resp : Resp
  deriving DecidableEq, Repr

/-- `loc_eng_ni_data`, the three parties and the logs. -/
structure State where
  notifInProgress : Bool
  currentNotifId : Int
  locNiRequest : Nat
  userResponseReceived : Bool
  resp : Resp
  handler : HandlerPc
  thread : ThreadPc
  frames : List Frame
  next : Nat
  idOf : Nat → Option Int
  given : List (Int × Resp)
  replies : List Reply

/-- After `loc_eng_ni_init`. -/
def init : State :=
  { notifInProgress := false, currentNotifId := -1, locNiRequest := 0,
    userResponseReceived := false, resp := .accept, handler := .idle, thread := .none,
    frames := [], next := 0, idOf := fun _ => none, given := [], replies := [] }

def HandlerPc.holdsLock : HandlerPc → Bool
  | .idle | .checked _ => false
  | _ => true

def ThreadPc.holdsLock : ThreadPc → Bool
  | .locked | .lowered | .closed => true
  | _ => false

def ThreadPc.holdsMutex : ThreadPc → Bool
  | .replying | .replied => true
  | _ => false

/-! ## 2. Steps -/

inductive Act where
  -- the handler
  | request
  | lock
  | raise
  | name (id : Int)
  | create (ok : Bool)
  | unlock
  -- the NI thread
  | run
  | wake
  | timeout
  | send
  | unlockUser
  | lockNi
  | lower
  | closeId
  | finish
  -- the user
  | respond (id : Int) (response : UserResponse)
  | checkId (k : Nat)
  | checkBusy (k : Nat)
  | store (k : Nat)
  deriving DecidableEq, Repr

/-- The head of the loop of `loc_ni_thread_proc`, and what follows when the flag is up. -/
def testFlag (s : State) : State :=
  if s.userResponseReceived then
    { s with userResponseReceived := false, thread := .replying }
  else { s with thread := .waiting }

def setFrame (s : State) (k : Nat) (f : Frame) (pc : FramePc) : State :=
  { s with frames := s.frames.set k { f with pc := pc } }

/-- `pthread_create`: when it fails, the handler only logs it. -/
def createStep (s : State) (ok : Bool) : State :=
  { s with handler := .spawned, thread := if ok then .start else s.thread }

/-- **One step.** -/
def step (s : State) : Act → Option State
  | .request =>
    if s.handler = .idle then
      -- a request that comes while one is in progress is ignored
      some { s with
        next := s.next + 1
        handler := if s.notifInProgress then .idle else .checked s.next }
    else none
  | .lock =>
    match s.handler with
    | .checked n =>
      if s.thread.holdsLock then none
      else some { s with handler := .saved n, locNiRequest := n }
    | _ => none
  | .raise =>
    match s.handler with
    | .saved n => some { s with handler := .raised n, notifInProgress := true }
    | _ => none
  | .name id =>
    match s.handler with
    | .raised n =>
      -- `abs(rand())`
      if 0 ≤ id then
        some { s with
          handler := .named n
          currentNotifId := id
          idOf := Function.update s.idOf n (some id) }
      else none
    | _ => none
  | .create ok =>
    match s.handler with
    | .named _ => some (createStep s ok)
    | _ => none
  | .unlock => if s.handler = .spawned then some { s with handler := .idle } else none
  | .run => if s.thread = .start then some (testFlag s) else none
  | .wake => if s.thread = .waiting then some (testFlag s) else none
  | .timeout =>
    if s.thread = .waiting then
      some { s with resp := .noresp, userResponseReceived := false, thread := .replying }
    else none
  | .send =>
    if s.thread = .replying then
      some { s with thread := .replied, replies := s.replies ++ [⟨s.locNiRequest, s.resp⟩] }
    else none
  | .unlockUser => if s.thread = .replied then some { s with thread := .unlocked } else none
  | .lockNi =>
    if s.thread = .unlocked ∧ s.handler.holdsLock = false then some { s with thread := .locked }
    else none
  | .lower =>
    if s.thread = .locked then some { s with thread := .lowered, notifInProgress := false }
    else none
  | .closeId =>
    if s.thread = .lowered then some { s with thread := .closed, currentNotifId := -1 } else none
  | .finish => if s.thread = .closed then some { s with thread := .none } else none
  | .respond id response =>
    some { s with
      frames := s.frames ++ [⟨id, response, .entered⟩]
      given := s.given ++ ((respOf response).map fun r => (id, r)).toList }
  | .checkId k =>
    match s.frames[k]? with
    | some f =>
      if f.pc = .entered then
        some (setFrame s k f (if f.notifId = s.currentNotifId then .matched else .done))
      else none
    | none => none
  | .checkBusy k =>
    match s.frames[k]? with
    | some f =>
      if f.pc = .matched then
        some (setFrame s k f (if s.notifInProgress then .passed else .done))
      else none
    | none => none
  | .store k =>
    match s.frames[k]? with
    | some f =>
      if f.pc = .passed ∧ s.thread.holdsMutex = false then
        match respOf f.response with
        | some r =>
          some { setFrame s k f .done with resp := r, userResponseReceived := true }
        | none => some (setFrame s k f .done)
      else none
    | none => none

/-- **What a step does**, with what it finds. -/
inductive Step (s : State) : Act → State → Prop
  | request (hpc : s.handler = .idle) :
      Step s .request { s with
        next := s.next + 1
        handler := if s.notifInProgress then .idle else .checked s.next }
  | lock {n : Nat} (hpc : s.handler = .checked n) (hfree : s.thread.holdsLock = false) :
      Step s .lock { s with handler := .saved n, locNiRequest := n }
  | raise {n : Nat} (hpc : s.handler = .saved n) :
      Step s .raise { s with handler := .raised n, notifInProgress := true }
  | name {n : Nat} {id : Int} (hpc : s.handler = .raised n) :
      Step s (.name id) { s with
        handler := .named n
        currentNotifId := id
        idOf := Function.update s.idOf n (some id) }
  | create {n : Nat} {ok : Bool} (hpc : s.handler = .named n) :
      Step s (.create ok) (createStep s ok)
  | unlock (hpc : s.handler = .spawned) : Step s .unlock { s with handler := .idle }
  | run (hpc : s.thread = .start) : Step s .run (testFlag s)
  | wake (hpc : s.thread = .waiting) : Step s .wake (testFlag s)
  | timeout (hpc : s.thread = .waiting) :
      Step s .timeout { s with resp := .noresp, userResponseReceived := false, thread := .replying }
  | send (hpc : s.thread = .replying) :
      Step s .send
        { s with thread := .replied, replies := s.replies ++ [⟨s.locNiRequest, s.resp⟩] }
  | unlockUser (hpc : s.thread = .replied) : Step s .unlockUser { s with thread := .unlocked }
  | lockNi (hpc : s.thread = .unlocked) : Step s .lockNi { s with thread := .locked }
  | lower (hpc : s.thread = .locked) :
      Step s .lower { s with thread := .lowered, notifInProgress := false }
  | closeId (hpc : s.thread = .lowered) :
      Step s .closeId { s with thread := .closed, currentNotifId := -1 }
  | finish (hpc : s.thread = .closed) : Step s .finish { s with thread := .none }
  | respond {id : Int} {response : UserResponse} :
      Step s (.respond id response) { s with
        frames := s.frames ++ [⟨id, response, .entered⟩]
        given := s.given ++ ((respOf response).map fun r => (id, r)).toList }
  | checkId {k : Nat} {f : Frame} (hk : s.frames[k]? = some f) :
      Step s (.checkId k)
        (setFrame s k f (if f.notifId = s.currentNotifId then .matched else .done))
  | checkBusy {k : Nat} {f : Frame} (hk : s.frames[k]? = some f) :
      Step s (.checkBusy k) (setFrame s k f (if s.notifInProgress then .passed else .done))
  | store {k : Nat} {f : Frame} {r : Resp} (hk : s.frames[k]? = some f)
      (hr : respOf f.response = some r) :
      Step s (.store k) { setFrame s k f .done with resp := r, userResponseReceived := true }
  | storeNone {k : Nat} {f : Frame} (hk : s.frames[k]? = some f) :
      Step s (.store k) (setFrame s k f .done)

theorem step_cases {s s' : State} {a : Act} (hs : step s a = some s') : Step s a s' := by
  cases a with
  | request =>
      simp only [step] at hs
      split at hs <;> cases hs
      exact .request ‹_›
  | lock =>
      simp only [step] at hs
      split at hs
      · split at hs <;> cases hs
        exact .lock ‹_› (Bool.not_eq_true _ ▸ ‹_›)
      · cases hs
  | raise =>
      simp only [step] at hs
      split at hs <;> cases hs
      exact .raise ‹_›
  | name id =>
      simp only [step] at hs
      split at hs
      · split at hs <;> cases hs
        exact .name ‹_›
      · cases hs
  | create ok =>
      simp only [step] at hs
      split at hs <;> cases hs
      exact .create ‹_›
  | unlock | run | wake | timeout | send | unlockUser | lower | closeId | finish =>
      simp only [step] at hs
      split at hs <;> cases hs
      constructor
      assumption
  | lockNi =>
      simp only [step] at hs
      split at hs <;> cases hs
      rename_i ht
      exact .lockNi ht.1
  | respond id response =>
      cases hs
      exact .respond
  | checkId k =>
      simp only [step] at hs
      split at hs
      · split at hs <;> cases hs
        exact .checkId ‹_›
      · cases hs
  | checkBusy k =>
      simp only [step] at hs
      split at hs
      · split at hs <;> cases hs
        exact .checkBusy ‹_›
      · cases hs
  | store k =>
      simp only [step] at hs
      split at hs
      · split at hs
        · split at hs <;> cases hs
          · exact .store ‹_› ‹_›
          · exact .storeNone ‹_›
        · cases hs
      · cases hs

/-! ## 3. Answers in time -/

def HandlerPc.isNamed : HandlerPc → Bool
  | .named _ => true
  | _ => false

def ThreadPc.expecting : ThreadPc → Bool
  | .start | .waiting => true
  | _ => false

/-- A request has its id and its reply is not yet on its way. -/
def State.awaiting (s : State) : Bool := s.thread.expecting || s.handler.isNamed

/-- **The steps of an undisturbed run**: an answer is stored while the request of its own id is
    still waiting for one, and the NI thread can be created. -/
def inTime (s : State) : Act → Bool
  | .store k => s.frames[k]?.all fun f => s.awaiting && decide (f.notifId = s.currentNotifId)
  | .create ok => ok
  | _ => true

/-! ## 4. Who is where -/

/-- The request the handler works on. -/
def HandlerPc.request : HandlerPc → Option Nat
  | .checked n | .saved n | .raised n | .named n => some n
  | _ => none

/-- Between taking `loc_ni_lock` and creating the NI thread. -/
def HandlerPc.inBody : HandlerPc → Bool
  | .saved _ | .raised _ | .named _ => true
  | _ => false

def HandlerPc.up : HandlerPc → Bool
  | .raised _ | .named _ => true
  | _ => false

def ThreadPc.busy : ThreadPc → Bool
  | .none | .lowered | .closed => false
  | _ => true

/-- The reply is still to be sent. -/
def ThreadPc.answering : ThreadPc → Bool
  | .start | .waiting | .replying => true
  | _ => false

/-- **The handler and the NI thread exclude each other**: there is no NI thread while the handler
    sets up a request, the busy flag says which of the two is at work, and the request being set up
    has no id before the handler gives it one. -/
structure Ctl (s : State) : Prop where
  alone : s.handler.inBody = true → s.thread = .none
  busy : s.notifInProgress = (s.handler.up || s.thread.busy)
  free : ∀ n, s.handler = .checked n → s.notifInProgress = false
  known : ∀ n, s.handler.request = some n → n < s.next
  unnamed : ∀ n, s.handler.request = some n → s.handler ≠ .named n → s.idOf n = none
  old : ∀ n, s.next ≤ n → s.idOf n = none
  saved : ∀ n, s.handler.request = some n → s.handler.inBody = true → s.locNiRequest = n

section Control

variable {s s' : State}

/-- A step that leaves the handler and the busy flag alone. -/
theorem Ctl.frame (h : Ctl s) (hh : s'.handler = s.handler)
    (hp : s'.notifInProgress = s.notifInProgress) (hn : s'.next = s.next)
    (hi : s'.idOf = s.idOf) (hl : s'.locNiRequest = s.locNiRequest)
    (hb : s'.thread.busy = s.thread.busy)
    (ha : s.handler.inBody = true → s'.thread = .none) : Ctl s' where
  alone := by rw [hh]; exact ha
  busy := by rw [hh, hp, hb]; exact h.busy
  free := by rw [hh, hp]; exact h.free
  known := by rw [hh, hn]; exact h.known
  unnamed := by rw [hh, hi]; exact h.unnamed
  old := by rw [hn, hi]; exact h.old
  saved := by rw [hh, hl]; exact h.saved

/-- A step of the NI thread. -/
theorem Ctl.thread (h : Ctl s) (hne : s.thread ≠ .none) (hh : s'.handler = s.handler)
    (hp : s'.notifInProgress = s.notifInProgress) (hn : s'.next = s.next)
    (hi : s'.idOf = s.idOf) (hl : s'.locNiRequest = s.locNiRequest)
    (hb : s'.thread.busy = s.thread.busy) : Ctl s' :=
  h.frame hh hp hn hi hl hb fun hbody => absurd (h.alone hbody) hne

/-- A step of a responder. -/
theorem Ctl.user (h : Ctl s) (hh : s'.handler = s.handler)
    (hp : s'.notifInProgress = s.notifInProgress) (hn : s'.next = s.next)
    (hi : s'.idOf = s.idOf) (hl : s'.locNiRequest = s.locNiRequest)
    (ht : s'.thread = s.thread) : Ctl s' :=
  h.frame hh hp hn hi hl (by rw [ht]) fun hbody => ht.trans (h.alone hbody)

theorem Ctl.testFlag (h : Ctl s) (hb : s.thread.busy = true) : Ctl (testFlag s) := by
  have hne : s.thread ≠ .none := fun e => by rw [e] at hb; cases hb
  unfold Ni.testFlag
  split
  · exact h.thread hne rfl rfl rfl rfl rfl (by rw [hb]; rfl)
  · exact h.thread hne rfl rfl rfl rfl rfl (by rw [hb]; rfl)

/-- When the busy flag is down and nobody holds `loc_ni_lock`, there is no NI thread. -/
theorem Ctl.noThread (h : Ctl s) (hp : s.notifInProgress = false)
    (hl : s.thread.holdsLock = false) : s.thread = .none := by
  have hb := h.busy
  rw [hp] at hb
  have hbusy : s.thread.busy = false := (Bool.or_eq_false_iff.mp hb.symm).2
  cases ht : s.thread <;> rw [ht] at hbusy hl
  all_goals first | rfl | exact absurd hl (by decide) | exact absurd hbusy (by decide)

theorem Ctl.request (h : Ctl s) (hidle : s.handler = .idle) :
    Ctl { s with
      next := s.next + 1
      handler := if s.notifInProgress then .idle else .checked s.next } := by
  have hbusy := h.busy
  rw [hidle] at hbusy
  have hold : ∀ n, s.next + 1 ≤ n → s.idOf n = none := fun n hn => h.old n (Nat.le_of_succ_le hn)
  cases hp : s.notifInProgress with
  | true =>
      rw [hp] at hbusy
      exact ⟨fun e => (by cases e), hbusy, fun n e => (by cases e), fun n e => (by cases e),
        fun n e => (by cases e), hold, fun n e => (by cases e)⟩
  | false =>
      rw [hp] at hbusy
      refine ⟨fun e => (by cases e), hbusy, fun _ _ => rfl, fun n e => ?_, fun n e _ => ?_, hold,
        fun n _ e => (by cases e)⟩
      · cases e
        exact Nat.lt_succ_self _
      · cases e
        exact h.old _ (Nat.le_refl _)

theorem Ctl.lock (h : Ctl s) {n : Nat} (hst : s.handler = .checked n)
    (hl : s.thread.holdsLock = false) :
    Ctl { s with handler := .saved n, locNiRequest := n } := by
  have hp := h.free n hst
  have ht := h.noThread hp hl
  have hreq : s.handler.request = some n := by rw [hst]; rfl
  refine ⟨fun _ => ht, ?_, fun m e => (by cases e), fun m e => ?_, fun m e _ => ?_, h.old,
    fun m e _ => Option.some.inj e⟩
  · show s.notifInProgress = (false || s.thread.busy)
    rw [hp, ht]
    rfl
  · cases e
    exact h.known n hreq
  · cases e
    exact h.unnamed n hreq (by rw [hst]; exact fun e => by cases e)

theorem Ctl.raise (h : Ctl s) {n : Nat} (hst : s.handler = .saved n) :
    Ctl { s with handler := .raised n, notifInProgress := true } := by
  have hreq : s.handler.request = some n := by rw [hst]; rfl
  refine ⟨fun _ => h.alone (by rw [hst]; rfl), rfl, fun m e => (by cases e), fun m e => ?_,
    fun m e _ => ?_, h.old, fun m e _ => ?_⟩
  · cases e
    exact h.known n hreq
  · cases e
    exact h.unnamed n hreq (by rw [hst]; exact fun e => by cases e)
  · cases e
    exact h.saved n hreq (by rw [hst]; rfl)

theorem Ctl.name (h : Ctl s) {n : Nat} {id : Int} (hst : s.handler = .raised n) :
    Ctl { s with
      handler := .named n
      currentNotifId := id
      idOf := Function.update s.idOf n (some id) } := by
  have hreq : s.handler.request = some n := by rw [hst]; rfl
  have hlt := h.known n hreq
  have hbusy := h.busy
  rw [hst] at hbusy
  refine ⟨fun _ => h.alone (by rw [hst]; rfl), hbusy, fun m e => (by cases e), fun m e => ?_,
    fun m e hne => ?_, fun m hm => ?_, fun m e _ => ?_⟩
  · cases e
    exact hlt
  · cases e
    exact absurd rfl hne
  · have hne : m ≠ n := fun e => absurd hlt (by rw [← e]; exact Nat.not_lt.mpr hm)
    exact (Function.update_of_ne hne _ _).trans (h.old m hm)
  · cases e
    exact h.saved n hreq (by rw [hst]; rfl)

theorem Ctl.create (h : Ctl s) {n : Nat} (hst : s.handler = .named n) :
    Ctl (createStep s true) := by
  have hbusy := h.busy
  rw [hst] at hbusy
  exact ⟨fun e => (by cases e), hbusy, fun m e => (by cases e), fun m e => (by cases e),
    fun m e => (by cases e), h.old, fun m e => (by cases e)⟩

theorem Ctl.unlock (h : Ctl s) (hst : s.handler = .spawned) :
    Ctl { s with handler := .idle } := by
  have hbusy := h.busy
  rw [hst] at hbusy
  exact ⟨fun e => (by cases e), hbusy, fun m e => (by cases e), fun m e => (by cases e),
    fun m e => (by cases e), h.old, fun m e => (by cases e)⟩

theorem Ctl.lower (h : Ctl s) (hst : s.thread = .locked) :
    Ctl { s with thread := .lowered, notifInProgress := false } := by
  have hbody : s.handler.inBody = false := by
    cases hb : s.handler.inBody with
    | false => rfl
    | true => rw [h.alone hb] at hst; cases hst
  have hup : s.handler.up = false := by
    cases hh : s.handler <;> rw [hh] at hbody <;> first | rfl | cases hbody
  refine ⟨fun e => ?_, ?_, fun _ _ => rfl, h.known, h.unnamed, h.old, h.saved⟩
  · rw [hbody] at e
    cases e
  · show false = (s.handler.up || false)
    rw [hup]
    rfl

/-- **The control along a step** of a run whose NI threads can be created. -/
theorem Ctl.step {a : Act} (h : Ctl s) (hc : inTime s a = true) (hs : step s a = some s') :
    Ctl s' := by
  cases step_cases hs with
  | request hpc => exact h.request hpc
  | lock hpc hfree => exact h.lock hpc hfree
  | raise hpc => exact h.raise hpc
  | name hpc => exact h.name hpc
  | create hpc =>
      cases hc
      exact h.create hpc
  | unlock hpc => exact h.unlock hpc
  | run hpc | wake hpc => exact h.testFlag (by rw [hpc]; rfl)
  | timeout hpc | send hpc | unlockUser hpc | lockNi hpc | closeId hpc | finish hpc =>
      exact h.thread (by rw [hpc]; decide) rfl rfl rfl rfl rfl (by rw [hpc]; rfl)
  | lower hpc => exact h.lower hpc
  | respond | checkId _ | checkBusy _ | store _ _ | storeNone _ =>
      exact h.user rfl rfl rfl rfl rfl rfl

end Control

theorem ctl_init : Ctl init :=
  ⟨fun e => (by cases e), rfl, fun n e => (by cases e), fun n e => (by cases e),
    fun n e => (by cases e), fun _ _ => rfl, fun n e => (by cases e)⟩

/-! ## 5. Whose answer it is -/

/-- **Every answer is the user's.** The request awaiting one is notified under the current id; a
    raised flag means that it has an answer, given for that id; so is the answer being sent; and
    every notified request was replied to or is being looked after. -/
structure Ans (s : State) : Prop where
  named : s.awaiting = true ∨ s.thread = .replying →
    s.idOf s.locNiRequest = some s.currentNotifId
  armed : s.userResponseReceived = true →
    s.awaiting = true ∧ (s.currentNotifId, s.resp) ∈ s.given
  frames : ∀ f ∈ s.frames, ∀ r, respOf f.response = some r → (f.notifId, r) ∈ s.given
  sending : s.thread = .replying → s.resp ≠ .noresp → (s.currentNotifId, s.resp) ∈ s.given
  replies : ∀ r ∈ s.replies, ∃ id, s.idOf r.n = some id ∧
    (r.resp ≠ .noresp → (id, r.resp) ∈ s.given)
  taken : ∀ n id, s.idOf n = some id → (∃ r ∈ s.replies, r.n = n) ∨
    (n = s.locNiRequest ∧ (s.awaiting = true ∨ s.thread = .replying))

section Answers

variable {s s' : State}

theorem awaiting_of_expecting (h : s.thread.expecting = true) : s.awaiting = true := by
  rw [State.awaiting, h, Bool.true_or]

theorem awaiting_of_named (h : s.handler.isNamed = true) : s.awaiting = true := by
  rw [State.awaiting, h, Bool.or_true]

theorem not_awaiting (ht : s.thread.answering = false) (hh : s.handler.isNamed = false) :
    s.awaiting = false := by
  rw [State.awaiting, hh, Bool.or_false]
  cases hst : s.thread <;> rw [hst] at ht <;> first | rfl | cases ht

theorem ne_replying (ht : s.thread.answering = false) : s.thread ≠ .replying := by
  intro e
  rw [e] at ht
  cases ht

/-- There is no NI thread while the handler has just named its request. -/
theorem Ctl.not_named (h : Ctl s) (hne : s.thread ≠ .none) : s.handler.isNamed = false := by
  cases hst : s.handler with
  | named n => exact absurd (h.alone (by rw [hst]; rfl)) hne
  | _ => rfl

/-- A step outside the time in which a request awaits its answer. -/
theorem Ans.outside (h : Ans s) (ha : s.awaiting = false) (ht : s.thread ≠ .replying)
    (ha' : s'.awaiting = false) (ht' : s'.thread ≠ .replying)
    (hr : s'.userResponseReceived = s.userResponseReceived) (hf : s'.frames = s.frames)
    (hg : s'.given = s.given) (hrep : s'.replies = s.replies) (hid : s'.idOf = s.idOf) :
    Ans s' where
  named := fun e => by
    rcases e with e | e
    · rw [ha'] at e; cases e
    · exact absurd e ht'
  armed := fun e => by
    rw [hr] at e
    rw [(h.armed e).1] at ha
    cases ha
  frames := by rw [hf, hg]; exact h.frames
  sending := fun e => absurd e ht'
  replies := by rw [hrep, hid, hg]; exact h.replies
  taken := by
    intro n id hn
    rw [hid] at hn
    rcases h.taken n id hn with hrn | ⟨_, e | e⟩
    · exact Or.inl (by rw [hrep]; exact hrn)
    · rw [ha] at e; cases e
    · exact absurd e ht

/-- A step of the handler or the NI thread while the request keeps awaiting its answer. -/
theorem Ans.inside (h : Ans s) (ha : s.awaiting = true) (ha' : s'.awaiting = true)
    (ht' : s'.thread ≠ .replying) (hc : s'.currentNotifId = s.currentNotifId)
    (hl : s'.locNiRequest = s.locNiRequest)
    (hr : s'.userResponseReceived = s.userResponseReceived) (hresp : s'.resp = s.resp)
    (hf : s'.frames = s.frames) (hg : s'.given = s.given) (hrep : s'.replies = s.replies)
    (hid : s'.idOf = s.idOf) : Ans s' where
  named := fun _ => by rw [hid, hl, hc]; exact h.named (Or.inl ha)
  armed := fun e => ⟨ha', by rw [hc, hresp, hg]; exact (h.armed (hr ▸ e)).2⟩
  frames := by rw [hf, hg]; exact h.frames
  sending := fun e => absurd e ht'
  replies := by rw [hrep, hid, hg]; exact h.replies
  taken := by
    intro n id hn
    rw [hid] at hn
    rcases h.taken n id hn with hrn | ⟨hn', _⟩
    · exact Or.inl (by rw [hrep]; exact hrn)
    · exact Or.inr ⟨hn'.trans hl.symm, Or.inl ha'⟩

/-- The NI thread stops waiting: with the answer of a raised flag, or with no response. -/
theorem Ans.settle (h : Ans s) (ha : s.awaiting = true) {resp : Resp}
    (hresp : resp ≠ .noresp → (s.currentNotifId, resp) ∈ s.given) :
    Ans { s with resp := resp, userResponseReceived := false, thread := .replying } where
  named := fun _ => h.named (Or.inl ha)
  armed := fun e => (by cases e)
  frames := h.frames
  sending := fun _ => hresp
  replies := h.replies
  taken := by
    intro n id hn
    rcases h.taken n id hn with hrn | ⟨hn', _⟩
    · exact Or.inl hrn
    · exact Or.inr ⟨hn', Or.inr rfl⟩

theorem Ans.testFlag (h : Ans s) (ha : s.awaiting = true) : Ans (testFlag s) := by
  unfold Ni.testFlag
  split
  · rename_i hr
    exact h.settle ha fun _ => (h.armed hr).2
  · exact h.inside ha (awaiting_of_expecting rfl) (fun e => by cases e) rfl rfl rfl rfl rfl rfl rfl
      rfl

theorem Ans.send (h : Ans s) (hctl : Ctl s) (ht : s.thread = .replying) :
    Ans { s with thread := .replied, replies := s.replies ++ [⟨s.locNiRequest, s.resp⟩] } where
  named := fun e => by
    have hnamed := hctl.not_named (by rw [ht]; decide)
    rcases e with e | e
    · rw [State.awaiting, hnamed] at e
      cases e
    · cases e
  armed := fun e => by
    have ha := (h.armed e).1
    rw [State.awaiting, hctl.not_named (by rw [ht]; decide), ht] at ha
    cases ha
  frames := h.frames
  sending := fun e => (by cases e)
  replies := by
    intro r hr
    rcases List.mem_append.mp hr with hr | hr
    · exact h.replies r hr
    · obtain rfl := List.mem_singleton.mp hr
      exact ⟨s.currentNotifId, h.named (Or.inr ht), h.sending ht⟩
  taken := by
    intro n id hn
    left
    rcases h.taken n id hn with ⟨r, hr, hrn⟩ | ⟨hn', _⟩
    · exact ⟨r, List.mem_append_left _ hr, hrn⟩
    · exact ⟨_, List.mem_append_right _ (List.mem_singleton_self _), hn'.symm⟩

theorem Ans.name (h : Ans s) (hctl : Ctl s) {n : Nat} {id : Int} (hst : s.handler = .raised n) :
    Ans { s with
      handler := .named n
      currentNotifId := id
      idOf := Function.update s.idOf n (some id) } := by
  have hreq : s.handler.request = some n := by rw [hst]; rfl
  have ht : s.thread = .none := hctl.alone (by rw [hst]; rfl)
  have hl : s.locNiRequest = n := hctl.saved n hreq (by rw [hst]; rfl)
  have hnone : s.idOf n = none := hctl.unnamed n hreq (by rw [hst]; exact fun e => by cases e)
  have hawait : s.awaiting = false := by rw [State.awaiting, ht, hst]; rfl
  refine ⟨fun _ => ?_, fun e => ?_, h.frames, fun e => ?_, fun r hr => ?_, fun m id' hm => ?_⟩
  · show Function.update s.idOf n (some id) s.locNiRequest = some id
    rw [hl, Function.update_self]
  · rw [(h.armed e).1] at hawait
    cases hawait
  · exact absurd (ht.symm.trans e) (by decide)
  · obtain ⟨id', hid', hgiven⟩ := h.replies r hr
    have hne : r.n ≠ n := fun e => by rw [e, hnone] at hid'; cases hid'
    exact ⟨id', (Function.update_of_ne hne _ _).trans hid', hgiven⟩
  · by_cases hmn : m = n
    · exact Or.inr ⟨hmn.trans hl.symm, Or.inl (awaiting_of_named rfl)⟩
    · rcases h.taken m id' ((Function.update_of_ne hmn _ _).symm.trans hm) with hrm | ⟨hm', _⟩
      · exact Or.inl hrm
      · exact absurd (hm'.trans hl) hmn

theorem Ans.respond (h : Ans s) {id : Int} {response : UserResponse} :
    Ans { s with
      frames := s.frames ++ [⟨id, response, .entered⟩]
      given := s.given ++ ((respOf response).map fun r => (id, r)).toList } where
  named := h.named
  armed := fun e => ⟨(h.armed e).1, List.mem_append_left _ (h.armed e).2⟩
  frames := by
    intro f hf r hr
    rcases List.mem_append.mp hf with hf | hf
    · exact List.mem_append_left _ (h.frames f hf r hr)
    · obtain rfl := List.mem_singleton.mp hf
      refine List.mem_append_right _ ?_
      rw [show respOf response = some r from hr]
      exact List.mem_singleton_self _
  sending := fun e hne => List.mem_append_left _ (h.sending e hne)
  replies := by
    intro r hr
    obtain ⟨id', hid', hgiven⟩ := h.replies r hr
    exact ⟨id', hid', fun hne => List.mem_append_left _ (hgiven hne)⟩
  taken := h.taken

/-- A responder moves on in its own frame. -/
theorem Ans.setFrame (h : Ans s) {k : Nat} {f : Frame} (hk : s.frames[k]? = some f)
    (pc : FramePc) : Ans (Ni.setFrame s k f pc) where
  named := h.named
  armed := h.armed
  frames := by
    intro g hg r hr
    rcases List.mem_or_eq_of_mem_set hg with hg | rfl
    · exact h.frames g hg r hr
    · exact h.frames f (List.mem_of_getElem? hk) r hr
  sending := h.sending
  replies := h.replies
  taken := h.taken

/-- An answer stored in time. -/
theorem Ans.store (h : Ans s) {k : Nat} {f : Frame} (hk : s.frames[k]? = some f) {r : Resp}
    (hr : respOf f.response = some r) (ha : s.awaiting = true)
    (hid : f.notifId = s.currentNotifId) :
    Ans { Ni.setFrame s k f .done with resp := r, userResponseReceived := true } := by
  have hframe := h.setFrame hk .done
  have hgiven : (s.currentNotifId, r) ∈ s.given := by
    rw [← hid]
    exact h.frames f (List.mem_of_getElem? hk) r hr
  exact ⟨hframe.named, fun _ => ⟨ha, hgiven⟩, hframe.frames, fun _ _ => hgiven, hframe.replies,
    hframe.taken⟩

/-- A step of the handler that touches nothing the answers depend on. -/
theorem Ans.handler (h : Ans s) (ht : s'.thread = s.thread) (hh : s.handler.isNamed = false)
    (hh' : s'.handler.isNamed = false) (hc : s'.currentNotifId = s.currentNotifId)
    (hl : s'.locNiRequest = s.locNiRequest)
    (hr : s'.userResponseReceived = s.userResponseReceived) (hresp : s'.resp = s.resp)
    (hf : s'.frames = s.frames) (hg : s'.given = s.given) (hrep : s'.replies = s.replies)
    (hid : s'.idOf = s.idOf) : Ans s' := by
  have ha : s'.awaiting = s.awaiting := by rw [State.awaiting, State.awaiting, ht, hh, hh']
  refine ⟨?_, ?_, ?_, ?_, ?_, ?_⟩
  · rw [ha, ht, hid, hl, hc]; exact h.named
  · rw [hr, ha, hc, hresp, hg]; exact h.armed
  · rw [hf, hg]; exact h.frames
  · rw [ht, hresp, hc, hg]; exact h.sending
  · rw [hrep, hid, hg]; exact h.replies
  · rw [hid, hrep, hl, ha, ht]; exact h.taken

/-- A step of the NI thread after its reply: the handler cannot be setting up a request. -/
theorem Ans.after (h : Ans s) (hctl : Ctl s) (hne : s.thread ≠ .none)
    (ht : s.thread.answering = false) (ht' : s'.thread.answering = false)
    (hh : s'.handler = s.handler)
    (hr : s'.userResponseReceived = s.userResponseReceived) (hf : s'.frames = s.frames)
    (hg : s'.given = s.given) (hrep : s'.replies = s.replies) (hid : s'.idOf = s.idOf) :
    Ans s' := by
  have hnot := hctl.not_named hne
  exact h.outside (not_awaiting ht hnot) (ne_replying ht)
    (not_awaiting ht' (by rw [hh]; exact hnot)) (ne_replying ht') hr hf hg hrep hid

/-- **The answers along a step** of an undisturbed run. -/
theorem Ans.step {a : Act} (h : Ans s) (hctl : Ctl s) (hc : inTime s a = true)
    (hs : step s a = some s') : Ans s' := by
  cases step_cases hs with
  | request hpc =>
      refine h.handler rfl (by rw [hpc]; rfl) ?_ rfl rfl rfl rfl rfl rfl rfl rfl
      show (if s.notifInProgress then HandlerPc.idle else .checked s.next).isNamed = false
      split <;> rfl
  | lock hpc hfree =>
      have ht := hctl.noThread (hctl.free _ hpc) hfree
      have hans : s.thread.answering = false := by rw [ht]; rfl
      exact h.outside (not_awaiting hans (by rw [hpc]; rfl)) (ne_replying hans)
        (not_awaiting hans rfl) (ne_replying hans) rfl rfl rfl rfl rfl
  | raise hpc | unlock hpc =>
      exact h.handler rfl (by rw [hpc]; rfl) rfl rfl rfl rfl rfl rfl rfl rfl rfl
  | name hpc => exact h.name hctl hpc
  | create hpc =>
      cases hc
      exact h.inside (awaiting_of_named (by rw [hpc]; rfl)) (awaiting_of_expecting rfl)
        (fun e => by cases e) rfl rfl rfl rfl rfl rfl rfl rfl
  | run hpc | wake hpc => exact h.testFlag (awaiting_of_expecting (by rw [hpc]; rfl))
  | timeout hpc =>
      exact h.settle (awaiting_of_expecting (by rw [hpc]; rfl)) fun e => absurd rfl e
  | send hpc => exact h.send hctl hpc
  | unlockUser hpc | lockNi hpc | lower hpc | closeId hpc | finish hpc =>
      exact h.after hctl (by rw [hpc]; decide) (by rw [hpc]; rfl) rfl rfl rfl rfl rfl rfl rfl
  | respond => exact h.respond
  | checkId hk | checkBusy hk | storeNone hk => exact h.setFrame hk _
  | store hk hr =>
      simp only [inTime, hk, Option.all_some, Bool.and_eq_true, decide_eq_true_eq] at hc
      exact h.store hk hr hc.1 hc.2

end Answers

theorem ans_init : Ans init where
  named := fun e => by rcases e with e | e <;> cases e
  armed := fun e => (by cases e)
  frames := fun f hf => (by cases hf)
  sending := fun e => (by cases e)
  replies := fun r hr => (by cases hr)
  taken := fun n id e => (by cases e)

/-- **Both invariants hold in every undisturbed run.** -/
theorem ni_inv {s : State} (hr : Reach step (fun s a => inTime s a = true) init s) :
    Ctl s ∧ Ans s :=
  hr.inv (I := fun s => Ctl s ∧ Ans s) ⟨ctl_init, ans_init⟩
    fun _ _ _ h hc hs => ⟨h.1.step hc hs, h.2.step h.1 hc hs⟩

/-! ## 6. What the modem is told -/

/-- The steps that bring a reply about without the user: the creation of the NI thread, its first
    look at the flag, the time-out and the reply. -/
def Act.ofNi : Act → Bool
  | .create ok => ok
  | .run | .timeout | .send => true
  | _ => false

/-- By those steps alone the modem is told `resp` for request `n`. -/
def Told (s : State) (n : Nat) (resp : Resp) : Prop :=
  ∃ s', Reach step (fun _ a => a.ofNi = true) s s' ∧ ⟨n, resp⟩ ∈ s'.replies

section Progress

variable {s s' : State} {n : Nat} {resp : Resp}

theorem Told.of_step {a : Act} (h : Told s' n resp) (ha : a.ofNi = true)
    (hs : step s a = some s') : Told s n resp := by
  obtain ⟨s'', hr, hmem⟩ := h
  have hfirst : Reach step (fun _ a => a.ofNi = true) s s' := .next a .start ha hs
  exact ⟨s'', hfirst.trans hr, hmem⟩

theorem told_replying (ht : s.thread = .replying) : Told s s.locNiRequest s.resp := by
  refine Told.of_step (a := .send) ⟨_, .start, ?_⟩ rfl (by simp only [step, if_pos ht]; rfl)
  exact List.mem_append_right _ (List.mem_singleton_self _)

theorem told_waiting (ht : s.thread = .waiting) : Told s s.locNiRequest .noresp := by
  refine Told.of_step (a := .timeout) ?_ rfl (by simp only [step, if_pos ht]; rfl)
  exact told_replying (s := { s with
    resp := .noresp, userResponseReceived := false, thread := .replying }) rfl

theorem told_start (ht : s.thread = .start) (hr : s.userResponseReceived = false) :
    Told s s.locNiRequest .noresp := by
  have hflag : testFlag s = { s with thread := .waiting } := by
    rw [testFlag, hr]
    rfl
  refine Told.of_step (a := .run) ?_ rfl (by simp only [step, if_pos ht]; rfl)
  rw [hflag]
  exact told_waiting (s := { s with thread := .waiting }) rfl

theorem told_start_received (ht : s.thread = .start) (hr : s.userResponseReceived = true) :
    Told s s.locNiRequest s.resp := by
  have hflag : testFlag s = { s with userResponseReceived := false, thread := .replying } := by
    rw [testFlag, hr]
    rfl
  refine Told.of_step (a := .run) ?_ rfl (by simp only [step, if_pos ht]; rfl)
  rw [hflag]
  exact told_replying (s := { s with userResponseReceived := false, thread := .replying }) rfl

/-- A request that awaits its answer and has none is told "no response". -/
theorem told_noresp (ha : s.awaiting = true) (hr : s.userResponseReceived = false) :
    Told s s.locNiRequest .noresp := by
  rcases Bool.or_eq_true_iff.mp ha with ht | hh
  · cases hst : s.thread with
    | start => exact told_start hst hr
    | waiting => exact told_waiting hst
    | _ => rw [hst] at ht; cases ht
  · cases hst : s.handler with
    | named n =>
        have hs : step s (.create true) = some (createStep s true) := by
          simp only [step, hst]
        exact Told.of_step (told_start (s := createStep s true) rfl hr) rfl hs
    | _ => rw [hst] at hh; cases hh

/-- A request that awaits its answer, or is being answered, is told something. -/
theorem told_some (h : s.awaiting = true ∨ s.thread = .replying) :
    ∃ resp, Told s s.locNiRequest resp := by
  rcases h with ha | ht
  · cases hr : s.userResponseReceived with
    | false => exact ⟨_, told_noresp ha hr⟩
    | true =>
        rcases Bool.or_eq_true_iff.mp ha with ht | hh
        · cases hst : s.thread with
          | start => exact ⟨_, told_start_received hst hr⟩
          | waiting => exact ⟨_, told_waiting hst⟩
          | _ => rw [hst] at ht; cases ht
        · cases hst : s.handler with
          | named n =>
              have hs : step s (.create true) = some (createStep s true) := by
                simp only [step, hst]
              exact ⟨s.resp,
                Told.of_step (told_start_received (s := createStep s true) rfl hr) rfl hs⟩
          | _ => rw [hst] at hh; cases hh
  · exact ⟨_, told_replying ht⟩

end Progress

/-- **The modem is told what the user said.** In every undisturbed run: every ACCEPT or DENY sent
    for a request was given by the user for the id that request was notified with, and every
    notified request is replied to, or will be by the NI thread alone; with "no response" when no
    answer for it has come in. -/
theorem reply_is_the_users {s : State}
    (hr : Reach step (fun s a => inTime s a = true) init s) :
    (∀ r ∈ s.replies, ∃ id, s.idOf r.n = some id ∧
      (r.resp = .accept ∨ r.resp = .deny → (id, r.resp) ∈ s.given)) ∧
    (∀ n id, s.idOf n = some id → (∃ r ∈ s.replies, r.n = n) ∨
      ((∃ resp, Told s n resp) ∧
        (s.userResponseReceived = false → s.thread ≠ .replying → Told s n .noresp))) := by
  obtain ⟨_, hans⟩ := ni_inv hr
  refine ⟨fun r hrep => ?_, fun n id hn => ?_⟩
  · obtain ⟨id, hid, hgiven⟩ := hans.replies r hrep
    refine ⟨id, hid, fun hresp => hgiven fun e => ?_⟩
    rw [e] at hresp
    rcases hresp with h | h <;> cases h
  · rcases hans.taken n id hn with hdone | ⟨rfl, hopen⟩
    · exact Or.inl hdone
    · refine Or.inr ⟨told_some hopen, fun hnot hne => ?_⟩
      rcases hopen with ha | ht
      · exact told_noresp ha hnot
      · exact absurd ht hne

/-- The handler's steps for a request that is notified under `id`. -/
def notify (id : Int) : List Act :=
  [.request, .lock, .raise, .name id, .create true, .unlock]

/-- The NI thread's steps after its reply. -/
def windUp : List Act := [.unlockUser, .lockNi, .lower, .closeId, .finish]

theorem reply_is_the_users_accept :
    ∃ s, Reach step (fun s a => inTime s a = true) init s ∧ ⟨0, .accept⟩ ∈ s.replies ∧
      ∃ id, s.idOf 0 = some id ∧ (id, .accept) ∈ s.given := by
  have hrun : runTest step inTime init
      (List.flatten [notify 5,
        [.run, .respond 5 .accept, .checkId 0, .checkBusy 0, .store 0, .wake, .send], windUp])
      (fun s => decide (⟨0, .accept⟩ ∈ s.replies)) = true := by
    decide
  obtain ⟨s, hr, hp⟩ := reach_of_runTest hrun
  have hmem := of_decide_eq_true hp
  obtain ⟨id, hid, hgiven⟩ := (reply_is_the_users hr).1 _ hmem
  exact ⟨s, hr, hmem, id, hid, hgiven (Or.inl rfl)⟩

/-- The user accepts request 5 just when it times out; the answer is stored once the reply to 5 is
    out, and accepts request 9. -/
def lateRun : List Act :=
  notify 5 ++
    [.run, .respond 5 .accept, .checkId 0, .checkBusy 0, .timeout, .send, .unlockUser, .store 0,
      .lockNi, .lower, .closeId, .finish] ++
    notify 9 ++ [.run, .send]

theorem late_accept_answers_next :
    ∃ s, Reach step Always init s ∧ ⟨1, .accept⟩ ∈ s.replies ∧ s.idOf 1 = some 9 ∧
      ∀ r, (9, r) ∉ s.given := by
  have hrun : runTest step (fun _ _ => true) init lateRun (fun s =>
      decide (⟨1, .accept⟩ ∈ s.replies ∧ s.idOf 1 = some 9 ∧ s.given = [(5, .accept)])) = true := by
    decide
  obtain ⟨s, hr, hp⟩ := reach_of_runTest hrun
  obtain ⟨hrep, hid, hgiven⟩ := of_decide_eq_true hp
  refine ⟨s, hr.always, hrep, hid, fun r hmem => ?_⟩
  rw [hgiven] at hmem
  cases List.mem_singleton.mp hmem

end Y210.Gps.Ni

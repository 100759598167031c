/-
  File:      Y210/Ril/Shim.lean
  Subject:   THE SHIM AS A MACHINE (rilshim.c between libril and the blob): any number of requests
             in flight, `shimOnRequest` and `shimOnRequestComplete` running interleaved.

  A request that libril dispatches is an ISSUE, numbered by its place in `issues`; its token may
  come back in a later issue. Its `Stage` is where its `shimOnRequest` stands and, once the blob
  was given the request, where the blob's completion of it stands. One action is one critical
  section or one call of the source:

      dispatch -> guard -> build -> add -> hand -> ret            (libril's thread)
                                             complete -> take -> learn -> answer -> release (blob's)

  A heap block is named by the issue it was allocated for: libril's parameters (`Block.libril`)
  or the shim's copy (`Block.shim`); `mem` holds what is allocated. `answers` and `frees` log the
  calls of libril's `OnRequestComplete` and of `free`.

  * `step` -- the executable step function, `Step` -- the same as a relation;
  * `step_sound` -- each step of the function is one of the relation: what a step can do, said once.
-/
import Mathlib.Logic.Function.Basic
import Y210.Lib.Indexed
import Y210.Lib.Run
import Y210.Ril.Translate

namespace Y210.Ril

open Y210.Lib

/-! ## 1. Parameters of a request -/

def sizeofSimIo : Nat := 32

def sizeofSimIoQc : Nat := 40

/-- The `datalen` libril passes with a parameter pointer. -/
def Args.datalen : Args → Nat
  | .strings l => l.length * sizeofPtr
  | .simIo _ => sizeofSimIo
  | .simIoQc _ => sizeofSimIoQc
  | .rawArgs bytes => bytes.length

/-- `pinRequestStrings`; 0 for a request that carries no PIN. -/
def pinRequestStrings : RilRequest → Nat
  | .enterSimPin | .enterSimPin2 => 1
  | .enterSimPuk | .enterSimPuk2 | .changeSimPin | .changeSimPin2 => 2
  | _ => 0

/-- What libril's dispatch function for the request passes: dispatchVoid no parameters,
    dispatchStrings NULL or an array of strings, dispatchSIM_IO its struct. -/
def dispatches : RilRequest → Option Args → Bool
  | .getSimStatus, d | .getImsi, d | .dataCallList, d => d.isNone
  | .simIo, some (.simIo _) => true
  | .simIo, _ => false
  | .other _, _ => true
  | _, none | _, some (.strings _) => true
  | _, _ => false

/-- `simIoToQc`. -/
def simIoToQc (io : SimIo) (aid : Option CStr) : SimIoQc :=
  { leading := 0, command := io.command, fileid := io.fileid, path := io.path, p1 := io.p1,
    p2 := io.p2, p3 := io.p3, data := io.data, pin2 := io.pin2, aidPtr := aid }

/-- `imsiArgsV6`. -/
def imsiArgsV6 (aid : Option CStr) : List (Option CStr) := [aid]

/-- `stringsWithAid`. -/
def stringsWithAid (strings : List (Option CStr)) (n : Nat) (aid : Option CStr) :
    List (Option CStr) :=
  strings.take n ++ [aid]

/-- What the block the shim allocates for a request holds. -/
def copyFor (request : RilRequest) (data : Option Args) (aid : Option CStr) : Args :=
  match request, data with
  | .simIo, some (.simIo io) => .simIoQc (simIoToQc io aid)
  | .getImsi, _ => .strings (imsiArgsV6 aid)
  | r, some (.strings l) => .strings (stringsWithAid l (pinRequestStrings r) aid)
  | _, some d => d
  | _, none => .strings []

/-! ## 2. State -/

/-- `MAX_PENDING`. -/
def maxPending : Nat := 64

/-- A heap block, named by the issue it was allocated for. -/
inductive Block where
  | libril (n : Nat)
  | shim (n : Nat)
  deriving DecidableEq, Repr

/-- One entry of `s_pending`; token 0 is NULL. -/
structure Pending where
  t : Nat
  request : RilRequest
  owned : Option Block
  deriving DecidableEq, Repr

/-- The arguments of the blob's call of `OnRequestComplete`. -/
structure Completion where
  e : Int
  response : Option BlobMem
  responselen : Nat

/-- Where the blob's completion of a request stands in `shimOnRequestComplete`. -/
inductive CbPc where
  | idle
  | entered (c : Completion)
  | taken (c : Completion) (request : Option RilRequest) (owned : Option Block)
  | learned (c : Completion) (request : Option RilRequest) (owned : Option Block)
  | answered (c : Completion) (owned : Option Block)
  | done (c : Completion)

/-- Where an issue stands. `owned` is the shim's block, `slot` the entry `pendingAdd` wrote
    (`none`: a kind it does not track, or a full table), `ptr` the parameter pointer handed to the
    blob and `args` what it pointed to at that moment, `returned` whether libril's dispatch
    function is through. -/
inductive Stage where
  | entered
  | guarded
  | built (owned : Option Block)
  | added (owned : Option Block) (slot : Option (Fin maxPending))
  | sent (owned : Option Block) (slot : Option (Fin maxPending)) (ptr : Option Block)
      (args : Option Args) (returned : Bool) (cb : CbPc)

/-- A request libril dispatched. -/
structure Issue where
  t : Nat
  request : RilRequest
  data : Option Args
  stage : Stage

/-- One call of libril's `OnRequestComplete`, and the issue it was made for. -/
structure Answer where
  n : Nat
  t : Nat
  reply : Reply

structure State where
  issues : List Issue
  pending : Fin maxPending → Pending
  aid : Option CStr
  mem : Block → Option Args
  answers : List Answer
  frees : List (Nat × Block)

/-- An entry that was never used. -/
def Pending.free : Pending := ⟨0, .other 0, none⟩

def init : State := ⟨[], fun _ => .free, none, fun _ => none, [], []⟩

/-! ### Accessors -/

/-- Where the blob's completion of the request stands. -/
def Stage.cb : Stage → CbPc
  | .sent _ _ _ _ _ cb => cb
  | _ => .idle

/-- What the blob completed the request with. -/
def CbPc.completion : CbPc → Option Completion
  | .idle => none
  | .entered c | .taken c _ _ | .learned c _ _ | .answered c _ | .done c => some c

/-- libril's `OnRequestComplete`, which frees the `RequestInfo` the token points to, was not yet
    called for it. -/
def CbPc.isOpen : CbPc → Bool
  | .answered .. | .done _ => false
  | _ => true

/-- `shimOnRequestComplete` is through. -/
def CbPc.isDone : CbPc → Bool
  | .done _ => true
  | _ => false

/-- `pendingTake` did not run for it. -/
def CbPc.waiting : CbPc → Bool
  | .idle | .entered _ => true
  | _ => false

def Stage.slot : Stage → Option (Fin maxPending)
  | .added _ slot | .sent _ slot _ _ _ _ => slot
  | _ => none

def Stage.owned : Stage → Option Block
  | .built owned | .added owned _ | .sent owned _ _ _ _ _ => owned
  | _ => none

/-- The switch of `shimOnRequest` has a case for the request. -/
def tracksKind : RilRequest → Bool
  | .other _ => false
  | _ => true

/-- `pendingAdd` found no entry for it. -/
def Issue.overflowed (i : Issue) : Bool := tracksKind i.request && i.stage.slot.isNone

/-- The parameter pointer after the switch of `shimOnRequest`: the copy, or libril's own. -/
def dataPtr (n : Nat) (data : Option Args) (owned : Option Block) : Option Block :=
  match owned with
  | some b => some b
  | none => data.map fun _ => Block.libril n

/-- No request in flight has this token. -/
def State.tokenFree (s : State) (t : Nat) : Bool :=
  s.issues.all fun i => !(i.t == t && i.stage.cb.isOpen)

def State.put (s : State) (n : Nat) (i : Issue) (st : Stage) : State :=
  { s with issues := s.issues.set n { i with stage := st } }

/-- The calls of libril's `OnRequestComplete` made for issue `n`. -/
def State.answersFor (s : State) (n : Nat) : List Answer := s.answers.filter fun a => a.n == n

/-- The calls of `free` on block `b`, each with the issue it was made for. -/
def State.freesOf (s : State) (b : Block) : List (Nat × Block) := s.frees.filter fun f => f.2 == b

/-! ## 3. Steps -/

/-- Where the switch of `shimOnRequest` goes from its head: to an allocation, straight to
    `pendingAdd`, or (no case) straight to the blob. -/
def switchHead (request : RilRequest) (data : Option Args) (aid : Option CStr) : Stage :=
  match request with
  | .getSimStatus | .setupDataCall | .dataCallList => .built none
  | .getImsi => if data.isNone then .guarded else .built none
  | .simIo =>
    match data with
    | some d => if d.datalen = sizeofSimIo then .guarded else .built none
    | none => .built none
  | .other _ => .added none none
  | r =>
    match data with
    | some d =>
      if d.datalen = pinRequestStrings r * sizeofPtr ∧ aid.isSome then .guarded else .built none
    | none => .built none

/-- `strdup`, which returns NULL when memory is short. -/
def strdupOf (ok : Bool) (str : CStr) : Option CStr := if ok then some str else none

/-- The first free entry of the table. -/
def State.freeSlot (s : State) : Option (Fin maxPending) :=
  firstIdx fun j => (s.pending j).t == 0

/-- The first entry with token `t`. -/
def State.slotOf (s : State) (t : Nat) : Option (Fin maxPending) :=
  firstIdx fun j => (s.pending j).t == t

inductive Act where
  | dispatch (t : Nat) (request : RilRequest) (data : Option Args)
  | guard (n : Nat)
  | build (n : Nat) (mallocOk : Bool)
  | add (n : Nat)
  | hand (n : Nat)
  | ret (n : Nat)
  | complete (n : Nat) (c : Completion)
  | take (n : Nat)
  | learn (n : Nat) (strdupOk : Bool)
  | answer (n : Nat)
  | release (n : Nat)

/-- `pendingAdd` for issue `n`. -/
def addStep (s : State) (n : Nat) (i : Issue) (owned : Option Block) : State :=
  match s.freeSlot with
  | some j =>
    { s.put n i (.added owned (some j)) with
      pending := Function.update s.pending j ⟨i.t, i.request, owned⟩ }
  | none => s.put n i (.added owned none)

/-- `pendingTake` for the completion `c` of issue `n`. -/
def takeStep (s : State) (n : Nat) (i : Issue) (mk : CbPc → Stage) (c : Completion) : State :=
  match s.slotOf i.t with
  | some j =>
    { s.put n i (mk (.taken c (some (s.pending j).request) (s.pending j).owned)) with
      pending := Function.update s.pending j { s.pending j with t := 0 } }
  | none => s.put n i (mk (.taken c none none))

/-- `free(owned)` at the end of `shimOnRequestComplete`; `free(NULL)` does nothing. -/
def releaseStep (s : State) (n : Nat) (i : Issue) (st : Stage) (owned : Option Block) : State :=
  match owned with
  | some b =>
    { s.put n i st with mem := Function.update s.mem b none, frees := s.frees ++ [(n, b)] }
  | none => s.put n i st

/-- libril dispatches a request: its own parameters are a new block. -/
def dispatchStep (s : State) (t : Nat) (request : RilRequest) (data : Option Args) : State :=
  { s with
    issues := s.issues ++ [⟨t, request, data, .entered⟩]
    mem := match data with
      | some d => Function.update s.mem (.libril s.issues.length) (some d)
      | none => s.mem }

/-- The call of the blob's `onRequest`. -/
def handStep (s : State) (n : Nat) (i : Issue) (owned : Option Block)
    (slot : Option (Fin maxPending)) : State :=
  let ptr := dataPtr n i.data owned
  s.put n i (.sent owned slot ptr (ptr.bind s.mem) false .idle)

/-- The steps that lead on from the stage of issue `n`. -/
def stepOf (s : State) (n : Nat) (i : Issue) : Act → Stage → Option State
  | .guard _, .entered => some (s.put n i (switchHead i.request i.data s.aid))
  | .build _ true, .guarded =>
    some { s.put n i (.built (some (.shim n))) with
      mem := Function.update s.mem (.shim n) (some (copyFor i.request i.data s.aid)) }
  | .build _ false, .guarded => some (s.put n i (.built none))
  | .add _, .built owned => some (addStep s n i owned)
  | .hand _, .added owned slot => some (handStep s n i owned slot)
  | .ret _, .sent owned slot ptr args false cb =>
    -- libril wipes and frees its own strings once `onRequest` is back
    some { s.put n i (.sent owned slot ptr args true cb) with
      mem := Function.update s.mem (.libril n) none }
  | .complete _ c, .sent owned slot ptr args returned .idle =>
    some (s.put n i (.sent owned slot ptr args returned (.entered c)))
  | .take _, .sent owned slot ptr args returned (.entered c) =>
    some (takeStep s n i (.sent owned slot ptr args returned) c)
  | .learn _ ok, .sent owned slot ptr args returned (.taken c request o) =>
    some { s.put n i (.sent owned slot ptr args returned (.learned c request o)) with
      aid := aidAfter (strdupOf ok) s.aid request c.e c.response c.responselen }
  | .answer _, .sent owned slot ptr args returned (.learned c request o) =>
    some { s.put n i (.sent owned slot ptr args returned (.answered c o)) with
      answers := s.answers ++ [⟨n, i.t, answerFor request c.e c.response c.responselen⟩] }
  | .release _, .sent owned slot ptr args returned (.answered c o) =>
    some (releaseStep s n i (.sent owned slot ptr args returned (.done c)) o)
  | _, _ => none

/-- The issue an action belongs to; a dispatch makes its own. -/
def Act.issue : Act → Option Nat
  | .dispatch .. => none
  | .guard n | .build n _ | .add n | .hand n | .ret n | .complete n _ | .take n | .learn n _
  | .answer n | .release n => some n

/-- **One step of the shim.** libril takes for a new request a token that no request in flight
    has; the blob completes a request at most once, after it was given it. -/
def step (s : State) (a : Act) : Option State :=
  match a with
  | .dispatch t request data =>
    if t ≠ 0 ∧ s.tokenFree t = true ∧ dispatches request data = true then
      some (dispatchStep s t request data)
    else none
  | a =>
    match a.issue with
    | some n =>
      match s.issues[n]? with
      | some i => stepOf s n i a i.stage
      | none => none
    | none => none

/-! ## 4. What a step can do -/

/-- The steps as a relation, one constructor for each. -/
inductive Step (s : State) : Act → State → Prop where
  | dispatch {t : Nat} {request : RilRequest} {data : Option Args} (ht : t ≠ 0)
      (hfree : s.tokenFree t = true) (hd : dispatches request data = true) :
      Step s (.dispatch t request data) (dispatchStep s t request data)
  | guard {n : Nat} {i : Issue} (hi : s.issues[n]? = some i) (hst : i.stage = .entered) :
      Step s (.guard n) (s.put n i (switchHead i.request i.data s.aid))
  | build {n : Nat} {i : Issue} (hi : s.issues[n]? = some i) (hst : i.stage = .guarded) :
      Step s (.build n true) { s.put n i (.built (some (.shim n))) with
        mem := Function.update s.mem (.shim n) (some (copyFor i.request i.data s.aid)) }
  | buildFail {n : Nat} {i : Issue} (hi : s.issues[n]? = some i) (hst : i.stage = .guarded) :
      Step s (.build n false) (s.put n i (.built none))
  | add {n : Nat} {i : Issue} {owned : Option Block} (hi : s.issues[n]? = some i)
      (hst : i.stage = .built owned) : Step s (.add n) (addStep s n i owned)
  | hand {n : Nat} {i : Issue} {owned : Option Block} {slot : Option (Fin maxPending)}
      (hi : s.issues[n]? = some i) (hst : i.stage = .added owned slot) :
      Step s (.hand n) (handStep s n i owned slot)
  | ret {n : Nat} {i : Issue} {owned : Option Block} {slot : Option (Fin maxPending)}
      {ptr : Option Block} {args : Option Args} {cb : CbPc} (hi : s.issues[n]? = some i)
      (hst : i.stage = .sent owned slot ptr args false cb) :
      Step s (.ret n) { s.put n i (.sent owned slot ptr args true cb) with
        mem := Function.update s.mem (.libril n) none }
  | complete {n : Nat} {i : Issue} {owned : Option Block} {slot : Option (Fin maxPending)}
      {ptr : Option Block} {args : Option Args} {returned : Bool} {c : Completion}
      (hi : s.issues[n]? = some i) (hst : i.stage = .sent owned slot ptr args returned .idle) :
      Step s (.complete n c) (s.put n i (.sent owned slot ptr args returned (.entered c)))
  | take {n : Nat} {i : Issue} {owned : Option Block} {slot : Option (Fin maxPending)}
      {ptr : Option Block} {args : Option Args} {returned : Bool} {c : Completion}
      (hi : s.issues[n]? = some i)
      (hst : i.stage = .sent owned slot ptr args returned (.entered c)) :
      Step s (.take n) (takeStep s n i (.sent owned slot ptr args returned) c)
  | learn {n : Nat} {i : Issue} {owned : Option Block} {slot : Option (Fin maxPending)}
      {ptr : Option Block} {args : Option Args} {returned : Bool} {c : Completion}
      {request : Option RilRequest} {o : Option Block} {ok : Bool} (hi : s.issues[n]? = some i)
      (hst : i.stage = .sent owned slot ptr args returned (.taken c request o)) :
      Step s (.learn n ok)
        { s.put n i (.sent owned slot ptr args returned (.learned c request o)) with
          aid := aidAfter (strdupOf ok) s.aid request c.e c.response c.responselen }
  | answer {n : Nat} {i : Issue} {owned : Option Block} {slot : Option (Fin maxPending)}
      {ptr : Option Block} {args : Option Args} {returned : Bool} {c : Completion}
      {request : Option RilRequest} {o : Option Block} (hi : s.issues[n]? = some i)
      (hst : i.stage = .sent owned slot ptr args returned (.learned c request o)) :
      Step s (.answer n) { s.put n i (.sent owned slot ptr args returned (.answered c o)) with
        answers := s.answers ++ [⟨n, i.t, answerFor request c.e c.response c.responselen⟩] }
  | release {n : Nat} {i : Issue} {owned : Option Block} {slot : Option (Fin maxPending)}
      {ptr : Option Block} {args : Option Args} {returned : Bool} {c : Completion}
      {o : Option Block} (hi : s.issues[n]? = some i)
      (hst : i.stage = .sent owned slot ptr args returned (.answered c o)) :
      Step s (.release n) (releaseStep s n i (.sent owned slot ptr args returned (.done c)) o)

theorem stepOf_sound {s s' : State} {a : Act} {n : Nat} {i : Issue} {st : Stage}
    (ha : a.issue = some n) (hi : s.issues[n]? = some i) (hst : i.stage = st)
    (h : stepOf s n i a st = some s') : Step s a s' := by
  cases a <;> cases ha
  all_goals
    unfold stepOf at h
    split at h <;> cases h <;> rename_i heq <;> cases heq
  · exact .guard hi hst
  · exact .build hi hst
  · exact .buildFail hi hst
  · exact .add hi hst
  · exact .hand hi hst
  · exact .ret hi hst
  · exact .complete hi hst
  · exact .take hi hst
  · exact .learn hi hst
  · exact .answer hi hst
  · exact .release hi hst

theorem step_of_issue {s : State} {a : Act} {n : Nat} {i : Issue} (ha : a.issue = some n)
    (hi : s.issues[n]? = some i) : step s a = stepOf s n i a i.stage := by
  cases a <;> cases ha <;> simp only [step, Act.issue, hi]

/-- **What a step can do.** -/
theorem step_sound {s s' : State} {a : Act} (h : step s a = some s') : Step s a s' := by
  cases ha : a.issue with
  | none =>
      cases a <;> cases ha
      simp only [step] at h
      split at h
      · rename_i hc
        cases h
        exact .dispatch hc.1 hc.2.1 hc.2.2
      · cases h
  | some n =>
      cases hi : s.issues[n]? with
      | none => cases a <;> cases ha <;> simp only [step, Act.issue, hi] at h <;> cases h
      | some i =>
          rw [step_of_issue ha hi] at h
          exact stepOf_sound ha hi rfl h

end Y210.Ril

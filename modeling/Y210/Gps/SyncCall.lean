/-
  File:      Y210/Gps/SyncCall.lean
  Subject:   WAITING FOR A MODEM CALLBACK (loc_api_sync_call.c): eight slots, each taken by
             `loc_api_select_callback`, filled by the callback that matches it, and emptied and
             freed by `loc_api_wait_callback`.

  A CALL is one `loc_api_select_callback` that got a slot; its waits are the calls of
  `loc_api_wait_callback` with the select id it returned. A step is one critical section of
  `loc_sync_data.lock` or of a slot's lock, or the one read made without a lock. The scan of a
  callback holds `loc_sync_data.lock` over all its visits, so no slot is taken or freed meanwhile,
  while selects and waits go on in the slots it is not at.

  Callbacks are numbered; a payload is the number of its callback. `owner` and `pending` of a slot,
  `selectedAt`, `delivered`, `lost` and `clock` only record what happened.

  * `matchCallback`, `Slot.accepts` -- which callback a slot takes;
  * `step` -- the steps of selects, waits and callbacks;
  * `proper` -- the steps of a run in which waits are used and woken as they should.
-/
import Mathlib.Logic.Function.Basic
import Y210.Lib.Indexed
import Y210.Lib.Run

namespace Y210.Gps.SyncCall

open Y210.Lib

/-! ## 1. State -/

/-- `LOC_SYNC_CALL_BUFFER_SIZE`. -/
def bufferSize : Nat := 8

/-- `rpc_loc_event_mask_type`. -/
abbrev EventMask := BitVec 64

/-- `RPC_LOC_EVENT_IOCTL_REPORT`. -/
def ioctlReport : EventMask := 0x80

/-- `loc_sync_call_data_s_type`; `receivedPayload` is the number of the callback whose payload the
    buffer holds, `owner` the call that set the slot up, `pending` a payload put there for a wait
    that has not taken it. -/
structure Slot where
  locHandle : Int
  waitEventMask : EventMask
  ioctlType : Nat
  isWaiting : Bool
  hasArrived : Bool
  receivedPayload : Option Nat
  owner : Option Nat
  pending : Option Nat
  deriving DecidableEq

/-- What `loc_api_sync_call_init` leaves. -/
def Slot.init : Slot := ⟨-1, 0, 0, false, false, none, none, none⟩

/-- What `loc_api_wait_callback` returns, with the payload it saved for the user. -/
inductive WaitRet where
  | success (payload : Option Nat)
  | timeout
  | busy
  | invalid
  deriving DecidableEq, Repr

/-- Where a wait stands. `woken` and `timedOut` left the condition variable and still have to get
    the slot's lock back; `leaving` has to free the slot. -/
inductive WaitPc where
  | entered
  | checked
  | blocked
  | woken
  | timedOut
  | leaving (r : WaitRet)
  | done (r : WaitRet)
  deriving DecidableEq, Repr

structure Call where
  locHandle : Int
  eventMask : EventMask
  ioctlType : Nat
  slot : Fin bufferSize
  selectedAt : Option Nat
  dropped : Bool
  waits : List WaitPc
  deriving DecidableEq

/-- A callback of the modem; `ioctlType` is the type in its ioctl report, `delivered` the call it
    was put in the slot for, and when. -/
structure Callback where
  locHandle : Int
  event : EventMask
  ioctlType : Nat
  delivered : Option (Nat × Nat)
  deriving DecidableEq

/-- The loop of `loc_api_callback_process_sync_call`: next slot and local variables. -/
structure Scan where
  k : Nat
  i : Nat
  inUse : Bool
  consumed : Bool
  deriving DecidableEq

structure State where
  slots : Fin bufferSize → Slot
  slotInUse : Fin bufferSize → Bool
  inUse : Bool
  calls : List Call
  cbs : List Callback
  scan : Option Scan
  clock : Nat
  lost : List Nat

def init : State :=
  ⟨fun _ => .init, fun _ => false, false, [], [], none, 0, []⟩

/-! ## 2. The functions -/

/-- `loc_match_callback`. -/
def matchCallback (waitMask : EventMask) (waitIoctl : Nat) (event : EventMask) (type : Nat) :
    Bool :=
  if event &&& waitMask = 0 then false
  else decide (event ≠ ioctlReport ∨ waitIoctl = 0 ∨ type = waitIoctl)

/-- `loc_cb_wait_event_mask` as `loc_api_select_callback` sets it. -/
def Call.waitMask (call : Call) : EventMask :=
  if call.ioctlType ≠ 0 then call.eventMask ||| ioctlReport else call.eventMask

/-- The callback is one the call asked for. -/
def Call.accepts (call : Call) (cb : Callback) : Bool :=
  decide (call.locHandle = cb.locHandle) &&
    matchCallback call.waitMask call.ioctlType cb.event cb.ioctlType

/-- The test of the loop, `slot_in_use` apart. -/
def Slot.accepts (sl : Slot) (cb : Callback) : Bool :=
  decide (sl.locHandle = cb.locHandle) &&
    matchCallback sl.waitEventMask sl.ioctlType cb.event cb.ioctlType && !sl.hasArrived

/-- The slot as `loc_api_select_callback` of call `c` sets it up. -/
def Slot.select (sl : Slot) (c : Nat) (call : Call) : Slot :=
  { sl with
    locHandle := call.locHandle
    isWaiting := false
    hasArrived := false
    waitEventMask := call.waitMask
    ioctlType := call.ioctlType
    owner := some c
    pending := none }

/-- The slot after callback `k` was put in: remembered when nobody waits. `expected` says whether a
    wait is going to take it. -/
def Slot.receive (sl : Slot) (k : Nat) (expected : Bool) : Slot :=
  { sl with
    receivedPayload := some k
    hasArrived := if sl.isWaiting then sl.hasArrived else true
    pending := if expected then some k else none }

/-- The slot after its wait came back. -/
def Slot.rest (sl : Slot) : Slot := { sl with isWaiting := false, pending := none }

def WaitPc.isDone : WaitPc → Bool
  | .done _ => true
  | _ => false

/-- The slot still belongs to the call: neither a wait nor `loc_api_sync_ioctl` freed it. -/
def Call.live (call : Call) : Bool := !call.dropped && !call.waits.any WaitPc.isDone

def State.setCall (s : State) (c : Nat) (call : Call) : State :=
  { s with calls := s.calls.set c call }

def Call.setWait (call : Call) (j : Nat) (pc : WaitPc) : Call :=
  { call with waits := call.waits.set j pc }

def State.setSlot (s : State) (i : Fin bufferSize) (sl : Slot) : State :=
  { s with slots := Function.update s.slots i sl }

/-- `loc_free_slot`. -/
def State.freeSlot (s : State) (i : Fin bufferSize) : State :=
  let used := Function.update s.slotInUse i false
  { s with
    slotInUse := used
    inUse := if (firstIdx used).isSome then s.inUse else false }

/-- A wait in slot `i` stands at `pc`. -/
def State.someAt (s : State) (i : Fin bufferSize) (pc : WaitPc) : Bool :=
  s.calls.any fun call => decide (call.slot = i) && call.waits.contains pc

/-- `pthread_cond_signal` on slot `i`: it wakes a wait that is blocked there, if there is one. -/
def State.signal (s : State) (i : Fin bufferSize) (wakes : Option (Nat × Nat)) : Option State :=
  match wakes with
  | some (c, j) =>
    match s.calls[c]? with
    | some call =>
      if call.slot = i ∧ call.waits[j]? = some .blocked then
        some (s.setCall c (call.setWait j .woken))
      else none
    | none => none
  | none => if s.someAt i .blocked then none else some s

/-! ## 3. Steps -/

inductive Act where
  | select (locHandle : Int) (eventMask : EventMask) (ioctlType : Nat)
  | init (c : Nat)
  | drop (c : Nat)
  | enterWait (c : Nat)
  | check (c j : Nat)
  | enter (c j : Nat)
  | spurious (c j : Nat)
  | timeout (c j : Nat)
  | resume (c j : Nat)
  | leave (c j : Nat)
  | callback (locHandle : Int) (event : EventMask) (ioctlType : Nat)
  | visit (wakes : Option (Nat × Nat))
  | endScan

/-- `loc_alloc_slot`: nothing happens when all slots are taken. -/
def allocStep (s : State) (locHandle : Int) (eventMask : EventMask) (ioctlType : Nat) : State :=
  match firstIdx fun i => !s.slotInUse i with
  | some i =>
    { s with
      slotInUse := Function.update s.slotInUse i true
      inUse := true
      calls := s.calls ++ [⟨locHandle, eventMask, ioctlType, i, none, false, []⟩] }
  | none => s

/-- The critical section at the head of `loc_api_wait_callback`, up to the condition wait. -/
def enterStep (s : State) (c : Nat) (call : Call) (j : Nat) : State :=
  let sl := s.slots call.slot
  if sl.hasArrived then
    (s.setSlot call.slot { sl with pending := none }).setCall c
      (call.setWait j (.leaving (.success sl.receivedPayload)))
  else if sl.isWaiting then s.setCall c (call.setWait j (.leaving .busy))
  else
    (s.setSlot call.slot { sl with isWaiting := true }).setCall c (call.setWait j .blocked)

/-- The callback is put in slot `i`. -/
def State.put (s : State) (i : Fin bufferSize) (sc : Scan) (cb : Callback) : State :=
  let sl := s.slots i
  let expected := !sl.isWaiting || s.someAt i .blocked || s.someAt i .woken
  { s.setSlot i (sl.receive sc.k expected) with
    cbs := s.cbs.set sc.k { cb with delivered := sl.owner.map fun c => (c, s.clock) }
    clock := s.clock + 1
    lost := s.lost ++ sl.pending.toList
    scan := some ⟨sc.k, sc.i + 1, true, true⟩ }

/-- One visit of the loop. -/
def visitStep (s : State) (sc : Scan) (i : Fin bufferSize) (cb : Callback)
    (wakes : Option (Nat × Nat)) : Option State :=
  if s.slotInUse i && (s.slots i).accepts cb then
    if (s.slots i).isWaiting then (s.put i sc cb).signal i wakes else some (s.put i sc cb)
  else some { s with scan := some { sc with i := sc.i + 1, inUse := sc.inUse || s.slotInUse i } }

/-- The steps of wait `j` of call `c`. -/
def waitStep (s : State) (c : Nat) (call : Call) (j : Nat) : Act → WaitPc → Option State
  | .check _ _, .entered =>
    some (s.setCall c (call.setWait j
      (if s.slotInUse call.slot then .checked else .done .invalid)))
  | .enter _ _, .checked => some (enterStep s c call j)
  | .spurious _ _, .blocked => some (s.setCall c (call.setWait j .woken))
  | .timeout _ _, .blocked => some (s.setCall c (call.setWait j .timedOut))
  | .resume _ _, .woken =>
    let sl := s.slots call.slot
    some ((s.setSlot call.slot sl.rest).setCall c
      (call.setWait j (.leaving (.success sl.receivedPayload))))
  | .resume _ _, .timedOut =>
    some ((s.setSlot call.slot (s.slots call.slot).rest).setCall c
      (call.setWait j (.leaving .timeout)))
  | .leave _ _, .leaving r =>
    if s.scan = none then
      some ((s.freeSlot call.slot).setCall c (call.setWait j (.done r)))
    else none
  | _, _ => none

/-- The wait an action belongs to. -/
def Act.wait : Act → Option (Nat × Nat)
  | .check c j | .enter c j | .spurious c j | .timeout c j | .resume c j | .leave c j => some (c, j)
  | _ => none

/-- **One step.** -/
def step (s : State) (a : Act) : Option State :=
  match a with
  | .select h m t => if s.scan = none then some (allocStep s h m t) else none
  | .init c =>
    match s.calls[c]? with
    | some call =>
      if call.selectedAt = none then
        some { (s.setSlot call.slot ((s.slots call.slot).select c call)).setCall c
            { call with selectedAt := some s.clock } with clock := s.clock + 1 }
      else none
    | none => none
  | .drop c =>
    match s.calls[c]? with
    | some call =>
      -- `loc_api_sync_ioctl` frees the slot when `loc_ioctl` failed
      if call.selectedAt.isSome ∧ s.scan = none then
        some ((s.freeSlot call.slot).setCall c { call with dropped := true })
      else none
    | none => none
  | .enterWait c =>
    match s.calls[c]? with
    | some call =>
      if call.selectedAt.isSome then
        some (s.setCall c { call with waits := call.waits ++ [.entered] })
      else none
    | none => none
  | .callback h e t =>
    if s.scan = none then
      some { s with
        cbs := s.cbs ++ [⟨h, e, t, none⟩]
        scan := if s.inUse then some ⟨s.cbs.length, 0, false, false⟩ else none }
    else none
  | .visit wakes =>
    match s.scan with
    | some sc =>
      if h : sc.i < bufferSize then
        match s.cbs[sc.k]? with
        | some cb => if sc.consumed then none else visitStep s sc ⟨sc.i, h⟩ cb wakes
        | none => none
      else none
    | none => none
  | .endScan =>
    match s.scan with
    | some sc =>
      if sc.consumed ∨ sc.i = bufferSize then
        some { s with scan := none, inUse := if sc.inUse then s.inUse else false }
      else none
    | none => none
  | a =>
    match a.wait with
    | some (c, j) =>
      match s.calls[c]? with
      | some call =>
        match call.waits[j]? with
        | some pc => waitStep s c call j a pc
        | none => none
      | none => none
    | none => none

/-- **The steps of a proper run**: a select id is used for one wait, or for none when
    `loc_api_sync_ioctl` gives up; no wait is woken without a callback; and no callback matches a
    slot whose wait was woken and has not taken its payload yet. -/
def proper (s : State) : Act → Bool
  | .enterWait c | .drop c => s.calls[c]?.all fun call => call.waits.isEmpty && !call.dropped
  | .spurious _ _ => false
  | .visit _ =>
    match s.scan with
    | some sc =>
      if h : sc.i < bufferSize then
        match s.cbs[sc.k]? with
        | some cb =>
          !(s.slotInUse ⟨sc.i, h⟩ && (s.slots ⟨sc.i, h⟩).accepts cb && s.someAt ⟨sc.i, h⟩ .woken)
        | none => true
      else true
    | none => true
  | _ => true

end Y210.Gps.SyncCall

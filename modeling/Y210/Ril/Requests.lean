/-
  File:      Y210/Ril/Requests.lean
  Subject:   THE LIFE OF A REQUEST IN LIBRIL (ril.cpp): `s_pendingRequests`, the `RequestInfo`s in
             memory, and the completions the vendor's threads call.

  The event thread reads requests from the command socket, issues local ones for the debug port,
  and cancels what is pending when the socket is closed. The vendor is any number of threads that
  call `RIL_onRequestComplete` whenever they like with whatever token they like: its own, one that
  was completed before, or none at all. A token is the address of a `RequestInfo`, and an address
  that was freed may come back from `calloc`.

  A step is one critical section of `s_pendingRequestsMutex` or one access of a shared variable.
  After `processCommandBuffer` has put a request on the list, the dispatch function still reads it,
  until `onRequest` is called with its token; `dispatching` has its address for so long.
  `listenCallback` puts the socket it accepts into `s_fdCommand` before it looks whose it is, so
  what the peer is found to be is a step of its own; `phone` has the connections of the phone.
  `log` is the history of what was issued, by number; `dropped` the requests that were pending when
  their connection was given up, `overtaken` those whose completion was under way then; `crashed` is
  a `RequestInfo` used or freed when it is not in memory.

  * `State`, `step` -- the machine;
  * `Ledger` -- where every request is, `Ledger.step`;
  * `usual` -- no token is completed while the event thread dispatches its request: the vendor was
    not given it yet, but may have it from an earlier request;
  * `answered_at_most_once` -- what the clients see, whatever else the vendor does.
-/
import Mathlib.Data.List.Nodup
import Mathlib.Data.List.Perm.Basic
import Y210.Lib.Indexed
import Y210.Lib.Run

namespace Y210.Ril.Server

open Y210.Lib

/-! ## 1. State -/

/-- `RequestInfo`, with its number and the connection it was made on. -/
structure Info where
  id : Nat
  token : Int
  request : Int
  cancelled : Bool
  isLocal : Bool
  conn : Nat
  deriving DecidableEq

/-- Where a completion stands: the request is dequeued; its answer is to be sent; it is to be
    freed. -/
inductive Stage where
  | taken
  | sending
  | freeing
  deriving DecidableEq

/-- A completion under way in some thread: the token and the error code it was called with. -/
structure Hand where
  addr : Nat
  error : Int
  stage : Stage
  deriving DecidableEq

/-- An answer, and the connection it was sent on. -/
structure Sent where
  id : Nat
  token : Int
  error : Int
  conn : Nat
  deriving DecidableEq

structure State where
  mem : Nat → Option Info
  pending : List Nat
  hands : List Hand
  dispatching : Option Nat
  command : Option Nat
  conns : Nat
  checking : Bool
  phone : List Nat
  closing : Bool
  ended : Bool
  log : List Info
  sent : List Sent
  freed : List Nat
  dropped : List Nat
  overtaken : List Nat
  crashed : Bool

def init : State where
  mem := fun _ => none
  pending := []
  hands := []
  dispatching := none
  command := none
  conns := 0
  checking := false
  phone := []
  closing := false
  ended := false
  log := []
  sent := []
  freed := []
  dropped := []
  overtaken := []
  crashed := false

inductive Act where
  -- the event thread; `a` is the address that `calloc` gives
  | accept
  | allow
  | refuse
  | command (a : Nat) (token request : Int)
  | read (last : Bool)
  | localRequest (a : Nat) (request : Int)
  | hangup
  | cancelAll
  | radioOff
  -- the vendor's threads
  | complete (t : Nat) (e : Int)
  | look (n : Nat)
  | send (n : Nat) (ret : Int)
  | lose (n : Nat)
  | free (n : Nat)

/-! ## 2. Steps -/

/-- `NUM_ELEMS(s_commands)`. -/
def numCommands : Int := 104

/-- `0xffffffff`, which a local request has for a token. -/
def localToken : Int := -1

/-- A `RequestInfo` at the head of `s_pendingRequests`. -/
def push (s : State) (a : Nat) (i : Info) : State :=
  { s with
    mem := Function.update s.mem a (some i)
    pending := a :: s.pending
    log := s.log ++ [i] }

/-- The numbers of the requests at these addresses. -/
def ids (mem : Nat → Option Info) (as : List Nat) : List Nat :=
  as.filterMap fun a => (mem a).map Info.id

/-- `onCommandsSocketClosed`. -/
def cancelPending (s : State) : State :=
  { s with
    mem := fun a => if a ∈ s.pending then (s.mem a).map ({ · with cancelled := true }) else s.mem a
    dropped := s.dropped ++ ids s.mem s.pending
    overtaken := s.overtaken ++ ids s.mem (s.hands.map Hand.addr) }

def restage (hands : List Hand) (n : Nat) (st : Stage) : List Hand :=
  hands.modify n ({ · with stage := st })

/-- What a completion does after it looked at its request. -/
def afterLook (i : Info) : Stage := if i.isLocal || i.cancelled then .freeing else .sending

def step (s : State) : Act → Option State
  | .accept =>
    if s.command = none ∧ s.closing = false ∧ s.ended = false ∧ s.dispatching = none then
      some { s with command := some s.conns, conns := s.conns + 1, checking := true }
    else none
  | .allow =>
    match s.command with
    | some c =>
      if s.checking then some { s with checking := false, phone := s.phone ++ [c] } else none
    | none => none
  | .refuse =>
    if s.checking then some { s with command := none, checking := false, closing := true }
    else none
  | .command a token request =>
    match s.command, s.mem a with
    | some c, none =>
      if s.checking ∨ s.dispatching.isSome then none
      else if request < 1 ∨ numCommands ≤ request then some s
      else some { push s a ⟨s.log.length, token, request, false, false, c⟩ with
        dispatching := some a }
    | _, _ => none
  | .read last =>
    -- `processCommandBuffer` and the dispatch functions; the last one before `onRequest`, or in
    -- `invalidCommandBlock`
    match s.dispatching with
    | some a =>
      match s.mem a with
      | none => some { s with crashed := true }
      | some _ => some { s with dispatching := if last then none else some a }
    | none => none
  | .localRequest a request =>
    match s.mem a with
    | none =>
      if s.checking ∨ s.closing ∨ s.dispatching.isSome then none
      else some (push s a ⟨s.log.length, localToken, request, false, true, s.conns⟩)
    | some _ => none
  | .hangup =>
    if s.command = none ∨ s.checking ∨ s.dispatching.isSome then none
    else some { s with command := none, closing := true }
  | .cancelAll => if s.closing then some { cancelPending s with closing := false } else none
  | .radioOff =>
    -- the debug port closes the socket; its event stays in the table, so none other is accepted
    if s.command = none ∨ s.checking ∨ s.dispatching.isSome then none
    else some { s with command := none, ended := true }
  | .complete t e =>
    -- `checkAndDequeueRequestInfo`
    if t ∈ s.pending then
      some { s with pending := s.pending.erase t, hands := s.hands ++ [⟨t, e, .taken⟩] }
    else some s
  | .look n =>
    match s.hands[n]? with
    | some ⟨a, _, .taken⟩ =>
      match s.mem a with
      | none => some { s with crashed := true }
      | some i => some { s with hands := restage s.hands n (afterLook i) }
    | _ => none
  | .send n ret =>
    match s.hands[n]? with
    | some ⟨a, e, .sending⟩ =>
      match s.mem a with
      | none => some { s with crashed := true }
      | some i =>
        match s.command with
        | none => some { s with hands := restage s.hands n .freeing }
        | some c => some { s with
            hands := restage s.hands n .freeing
            -- `ret` is the `responseFunction`'s, whose failure takes the place of the error
            sent := s.sent ++ [⟨i.id, i.token, if ret = 0 then e else ret, c⟩] }
    | _ => none
  | .lose n =>
    -- `sendResponseRaw` fails: too large, or the socket went away under it
    match s.hands[n]? with
    | some ⟨_, _, .sending⟩ => some { s with hands := restage s.hands n .freeing }
    | _ => none
  | .free n =>
    match s.hands[n]? with
    | some ⟨a, _, .freeing⟩ =>
      match s.mem a with
      | none => some { s with crashed := true }
      | some i => some { s with
          mem := Function.update s.mem a none
          hands := s.hands.eraseIdx n
          freed := s.freed ++ [i.id] }
    | _ => none

/-- **The condition on a step**: a request is not completed while it is dispatched. -/
def usual (s : State) : Act → Bool
  | .complete t _ => s.dispatching != some t
  | _ => true

/-! ## 3. The ledger -/

/-- The addresses of the requests that are pending or in a completion's hands. -/
def places (s : State) : List Nat := s.pending ++ s.hands.map Hand.addr

/-- **Where every request is.** Memory holds the requests that are pending or in hand and no others;
    each that was issued is in one place or freed; one whose answer was sent is on its way to be
    freed; and what is pending or in hand and would be answered belongs to the open connection, or
    its completion was under way when the connection was given up. -/
structure Ledger (s : State) : Prop where
  ok : s.crashed = false
  nodup : (places s).Nodup
  live : ∀ a, s.mem a ≠ none ↔ a ∈ places s
  issued : ∀ a i, s.mem a = some i → ∃ c, s.log[i.id]? = some { i with cancelled := c }
  once : (ids s.mem (places s) ++ s.freed).Perm (List.range s.log.length)
  sending : ∀ h ∈ s.hands, h.stage = .sending → ∀ i, s.mem h.addr = some i →
    i.isLocal = false ∧ i.cancelled = false
  sentOnce : (s.sent.map Sent.id).Nodup
  sentDone : ∀ x ∈ s.sent, x.id ∈ s.freed ∨
    ∃ h ∈ s.hands, h.stage = .freeing ∧ ∃ i, s.mem h.addr = some i ∧ i.id = x.id
  sentFor : ∀ x ∈ s.sent, ∃ i, s.log[x.id]? = some i ∧ i.isLocal = false ∧ x.token = i.token ∧
    (x.conn = i.conn ∨ x.id ∈ s.overtaken)
  dropped : ∀ a i, s.mem a = some i → i.id ∈ s.dropped → i.cancelled = true
  droppedSent : ∀ x ∈ s.sent, x.id ∉ s.dropped
  droppedLog : ∀ k ∈ s.dropped, k < s.log.length
  shut : s.closing = true ∨ s.ended = true → s.command = none
  checked : ∀ c, s.command = some c → s.checking = false → c ∈ s.phone
  asked : ∀ i ∈ s.log, i.isLocal = false → i.conn ∈ s.phone
  made : ∀ a i, s.mem a = some i → i.isLocal = false → i.cancelled = false →
    s.command = some i.conn ∨ s.closing = true ∨ s.ended = true ∨
      (a ∉ s.pending ∧ i.id ∈ s.overtaken)
  dispatched : ∀ a, s.dispatching = some a → a ∈ s.pending

theorem ledger_init : Ledger init := by
  constructor <;> simp [init, ids, places]

section Facts

variable {s : State} {mem mem' : Nat → Option Info} {as bs : List Nat} {a b n : Nat} {i j : Info}
  {hands : List Hand} {st : Stage} {h : Hand}

theorem ids_congr (h : ∀ a ∈ as, (mem' a).map Info.id = (mem a).map Info.id) :
    ids mem' as = ids mem as := List.filterMap_congr h

theorem mem_ids {k : Nat} : k ∈ ids mem as ↔ ∃ a ∈ as, ∃ i, mem a = some i ∧ i.id = k := by
  simp only [ids, List.mem_filterMap, Option.map_eq_some_iff]

theorem map_addr_restage : (restage hands n st).map Hand.addr = hands.map Hand.addr := by
  refine List.ext_getElem? fun k => ?_
  simp only [restage, List.getElem?_map, List.getElem?_modify]
  cases hands[k]? with
  | none => rfl
  | some x => by_cases hk : n = k <;> simp [hk]

/-- A completion after one of them went on. -/
theorem mem_restage {h' : Hand} (hn : hands[n]? = some h) (hm : h' ∈ restage hands n st) :
    h' = { h with stage := st } ∨ h' ∈ hands := by
  obtain ⟨k, hk⟩ := List.mem_iff_getElem?.mp hm
  rcases getElem?_modify_cases hk with ⟨-, g, hg, rfl⟩ | ⟨-, hk⟩
  · cases hn.symm.trans hg
    exact Or.inl rfl
  · exact Or.inr (List.mem_of_getElem? hk)

theorem restage_mem {h' : Hand} (hn : hands[n]? = some h) (hm : h' ∈ hands)
    (hne : h'.stage ≠ h.stage) : h' ∈ restage hands n st := by
  obtain ⟨k, hk⟩ := List.mem_iff_getElem?.mp hm
  refine List.mem_iff_getElem?.mpr ⟨k, ?_⟩
  have hnk : n ≠ k := by
    rintro rfl
    rw [hn] at hk
    exact hne (congrArg Hand.stage (Option.some.inj hk)).symm
  rw [restage, List.getElem?_modify, hk]
  simp [hnk]

/-- The completion that went on is there at its new stage. -/
theorem restage_self (hn : hands[n]? = some h) : { h with stage := st } ∈ restage hands n st := by
  refine List.mem_iff_getElem?.mpr ⟨n, ?_⟩
  rw [restage, List.getElem?_modify, hn]
  simp

theorem hands_perm (hn : hands[n]? = some h) : hands.Perm (h :: hands.eraseIdx n) := by
  obtain ⟨hlt, rfl⟩ := List.getElem?_eq_some_iff.mp hn
  exact (List.getElem_cons_eraseIdx_perm hlt).symm

theorem ids_perm (h : as.Perm bs) : (ids mem as).Perm (ids mem bs) := h.filterMap _

/-- Different addresses hold different requests. -/
theorem Ledger.id_inj (hl : Ledger s) (ha : s.mem a = some i) (hb : s.mem b = some j)
    (hid : i.id = j.id) : a = b := by
  have hnd : (ids s.mem (places s)).Nodup :=
    (List.nodup_append.mp (hl.once.nodup_iff.mpr List.nodup_range)).1
  have hma := (hl.live a).mp (by rw [ha]; exact Option.some_ne_none i)
  have hmb := (hl.live b).mp (by rw [hb]; exact Option.some_ne_none j)
  by_contra hne
  rw [(ids_perm (List.perm_cons_erase hma)).nodup_iff] at hnd
  have hcons : ids s.mem (a :: (places s).erase a) = i.id :: ids s.mem ((places s).erase a) := by
    simp [ids, ha]
  rw [hcons, List.nodup_cons] at hnd
  refine hnd.1 (mem_ids.mpr ⟨b, ?_, j, hb, hid.symm⟩)
  exact (List.mem_erase_of_ne (Ne.symm hne)).mpr hmb

/-- A request in memory was not freed. -/
theorem Ledger.not_freed (hl : Ledger s) (ha : s.mem a = some i) : i.id ∉ s.freed := by
  have hnd := List.nodup_append.mp (hl.once.nodup_iff.mpr List.nodup_range)
  intro hm
  refine hnd.2.2 i.id ?_ i.id hm rfl
  exact mem_ids.mpr ⟨a, (hl.live a).mp (by rw [ha]; exact Option.some_ne_none i), i, ha, rfl⟩

theorem Ledger.id_lt (hl : Ledger s) (ha : s.mem a = some i) : i.id < s.log.length := by
  obtain ⟨c, hc⟩ := hl.issued a i ha
  exact (List.getElem?_eq_some_iff.mp hc).1

/-- What is in hand is not pending. -/
theorem Ledger.hand_apart (hl : Ledger s) (hh : h ∈ s.hands) : h.addr ∉ s.pending := fun hp =>
  (List.nodup_append.mp hl.nodup).2.2 h.addr hp h.addr (List.mem_map_of_mem hh) rfl

/-- A completion is known by its token. -/
theorem Ledger.hand_inj (hl : Ledger s) {h' : Hand} (hh : h ∈ s.hands) (hh' : h' ∈ s.hands)
    (hid : h.addr = h'.addr) : h = h' := by
  have hnd := (List.nodup_append.mp hl.nodup).2.1
  exact List.inj_on_of_nodup_map hnd hh hh' hid

/-- What is in hand is in memory. -/
theorem Ledger.hand_live (hl : Ledger s) (hh : h ∈ s.hands) : s.mem h.addr ≠ none :=
  (hl.live h.addr).mpr (List.mem_append_right _ (List.mem_map_of_mem hh))

/-- Only a completion that is about to free its request may have answered it. -/
theorem Ledger.unsent (hl : Ledger s) (ha : s.mem a = some i)
    (hh : ∀ h ∈ s.hands, h.addr = a → h.stage ≠ .freeing) : i.id ∉ s.sent.map Sent.id := by
  intro hm
  obtain ⟨x, hx, hid⟩ := List.mem_map.mp hm
  rcases hl.sentDone x hx with hf | ⟨h, hmem, hst, j, hj, hji⟩
  · exact hl.not_freed ha (hid ▸ hf)
  · exact hh h hmem (hl.id_inj hj ha (hji.trans hid)) hst

end Facts

/-! ## 4. One step of the ledger -/

section Steps

variable {s s' : State} {a n : Nat} {i : Info} {h : Hand} {st : Stage}

/-- A new connection: what is not cancelled was overtaken. -/
theorem Ledger.accept (hl : Ledger s) (hc : s.command = none) (hcl : s.closing = false)
    (he : s.ended = false) (c k : Nat) :
    Ledger { s with command := some c, conns := k, checking := true } :=
  { hl with
    shut := by simp [hcl, he]
    checked := fun _ _ hk => Bool.noConfusion hk
    made := fun a i ha hloc hcan => by
      rcases hl.made a i ha hloc hcan with hk | hk | hk | hk
      · simp [hc] at hk
      · simp [hcl] at hk
      · simp [he] at hk
      · exact Or.inr (Or.inr (Or.inr hk)) }

theorem Ledger.allow (hl : Ledger s) {c : Nat} (hc : s.command = some c) :
    Ledger { s with checking := false, phone := s.phone ++ [c] } :=
  { hl with
    checked := fun _ hd _ =>
      List.mem_append_right _ (List.mem_singleton.mpr (Option.some.inj (hd.symm.trans hc)))
    asked := fun i hi hloc => List.mem_append_left _ (hl.asked i hi hloc) }

theorem Ledger.close (hl : Ledger s) (b b' b'' : Bool) (hb : b = true ∨ b' = true) :
    Ledger { s with command := none, checking := b'', closing := b, ended := b' } :=
  { hl with
    shut := fun _ => rfl
    checked := fun c hc _ => absurd hc.symm (Option.some_ne_none c)
    made := fun _ _ _ _ _ => hb.elim (fun hb => Or.inr (Or.inl hb)) fun hb =>
      Or.inr (Or.inr (Or.inl hb)) }

/-- A request that was cancelled is the one it was. -/
theorem cancelPending_mem {j : Info} (hj : (cancelPending s).mem a = some j) :
    ∃ i, s.mem a = some i ∧ (j = i ∧ a ∉ s.pending ∨ j = { i with cancelled := true }) := by
  simp only [cancelPending] at hj
  split at hj
  · obtain ⟨i, hi, rfl⟩ := Option.map_eq_some_iff.mp hj
    exact ⟨i, hi, Or.inr rfl⟩
  · exact ⟨j, hj, Or.inl ⟨rfl, by assumption⟩⟩

theorem cancelPending_mem_id (s : State) (a : Nat) :
    ((cancelPending s).mem a).map Info.id = (s.mem a).map Info.id := by
  simp only [cancelPending]
  split
  · cases s.mem a <;> rfl
  · rfl

theorem Ledger.cancelPending_hand (hl : Ledger s) (hh : h ∈ s.hands) :
    (cancelPending s).mem h.addr = s.mem h.addr := if_neg (hl.hand_apart hh)

/-- Requests that are pending are dropped; they were not answered. -/
theorem Ledger.pending_unsent (hl : Ledger s) {k : Nat} (hk : k ∈ ids s.mem s.pending) :
    k ∉ s.sent.map Sent.id := by
  obtain ⟨a, ha, i, hi, rfl⟩ := mem_ids.mp hk
  exact hl.unsent hi fun h hh hha _ => hl.hand_apart hh (hha ▸ ha)

theorem Ledger.cancelAll (hl : Ledger s) (hc : s.command = none) (b : Bool) :
    Ledger { cancelPending s with closing := b } where
  ok := hl.ok
  nodup := hl.nodup
  live := fun a => by
    have hid := cancelPending_mem_id s a
    have hnone : (cancelPending s).mem a ≠ none ↔ s.mem a ≠ none :=
      not_congr ⟨fun h => by simpa [h] using hid.symm, fun h => by simpa [h] using hid⟩
    exact hnone.trans (hl.live a)
  issued := fun a j hj => by
    obtain ⟨i, hi, ⟨rfl, -⟩ | rfl⟩ := cancelPending_mem hj
    · exact hl.issued a j hi
    · exact hl.issued a i hi
  once := by
    have hids : ids (cancelPending s).mem (places s) = ids s.mem (places s) :=
      ids_congr fun a _ => cancelPending_mem_id s a
    exact hids ▸ hl.once
  sending := fun h hh hst i hi => hl.sending h hh hst i (hl.cancelPending_hand hh ▸ hi)
  sentOnce := hl.sentOnce
  sentDone := fun x hx => (hl.sentDone x hx).imp_right fun ⟨h, hh, hst, i, hi, hid⟩ =>
    ⟨h, hh, hst, i, (hl.cancelPending_hand hh).trans hi, hid⟩
  sentFor := fun x hx => by
    obtain ⟨i, hi, hloc, ht, hk⟩ := hl.sentFor x hx
    exact ⟨i, hi, hloc, ht, hk.imp_right (List.mem_append_left _)⟩
  dropped := fun a j hj hd => by
    obtain ⟨i, hi, ⟨rfl, hp⟩ | rfl⟩ := cancelPending_mem hj
    · rcases List.mem_append.mp hd with hd | hd
      · exact hl.dropped a j hi hd
      · obtain ⟨b, hb, k, hk, hid⟩ := mem_ids.mp hd
        exact absurd (hl.id_inj hk hi hid ▸ hb) hp
    · rfl
  droppedSent := fun x hx hd => by
    rcases List.mem_append.mp hd with hd | hd
    · exact hl.droppedSent x hx hd
    · exact hl.pending_unsent hd (List.mem_map_of_mem hx)
  droppedLog := fun k hd => by
    rcases List.mem_append.mp hd with hd | hd
    · exact hl.droppedLog k hd
    · obtain ⟨a, _, i, hi, rfl⟩ := mem_ids.mp hd
      exact hl.id_lt hi
  shut := fun _ => hc
  checked := hl.checked
  asked := hl.asked
  made := fun a j hj hloc hcan => by
    obtain ⟨i, hi, ⟨rfl, hp⟩ | rfl⟩ := cancelPending_mem hj
    · -- it is not pending, so a completion has it
      have hm := (hl.live a).mp (by rw [hi]; exact Option.some_ne_none j)
      have hh := (List.mem_append.mp hm).resolve_left hp
      exact Or.inr (Or.inr (Or.inr ⟨hp, List.mem_append_right _ (mem_ids.mpr ⟨a, hh, j, hi, rfl⟩)⟩))
    · exact absurd hcan Bool.noConfusion
  dispatched := hl.dispatched

/-- A new request: `calloc` gave an address that was not in use. -/
theorem Ledger.push (hl : Ledger s) (ha : s.mem a = none) (hid : i.id = s.log.length)
    (hmade : i.isLocal = false → s.command = some i.conn ∧ s.checking = false) :
    Ledger (push s a i) := by
  have hnew : a ∉ places s := fun hm => (hl.live a).mpr hm ha
  have hne : ∀ b ∈ places s, Function.update s.mem a (some i) b = s.mem b := fun b hb =>
    Function.update_of_ne (fun hba : b = a => hnew (hba ▸ hb)) _ _
  have hhand : ∀ h ∈ s.hands, Function.update s.mem a (some i) h.addr = s.mem h.addr := fun h hh =>
    hne h.addr (List.mem_append_right _ (List.mem_map_of_mem hh))
  have hlog : ∀ {k : Nat} {j : Info}, s.log[k]? = some j → (s.log ++ [i])[k]? = some j :=
    fun {k j} hk => by
      rw [List.getElem?_append_left (List.getElem?_eq_some_iff.mp hk).1, hk]
  -- what is in memory now is the new request, or was there
  have hmem : ∀ {b : Nat} {j : Info}, Function.update s.mem a (some i) b = some j →
      b = a ∧ j = i ∨ s.mem b = some j := fun {b j} hj => by
    by_cases hb : b = a
    · subst hb
      rw [Function.update_self] at hj
      exact Or.inl ⟨rfl, (Option.some.inj hj).symm⟩
    · rw [Function.update_of_ne hb] at hj
      exact Or.inr hj
  exact {
    ok := hl.ok
    nodup := List.nodup_cons.mpr ⟨hnew, hl.nodup⟩
    live := fun b => by
      show Function.update s.mem a (some i) b ≠ none ↔ b ∈ a :: places s
      by_cases hb : b = a
      · simp [hb]
      · rw [Function.update_of_ne hb, hl.live b, List.mem_cons]
        exact (or_iff_right hb).symm
    issued := fun b j hj => by
      rcases hmem hj with ⟨-, rfl⟩ | hj
      · refine ⟨j.cancelled, ?_⟩
        show (s.log ++ [j])[j.id]? = some j
        rw [hid]
        exact List.getElem?_concat_length
      · exact (hl.issued b j hj).imp fun c hc => hlog hc
    once := by
      show (ids (Function.update s.mem a (some i)) (a :: places s) ++ s.freed).Perm
        (List.range (s.log ++ [i]).length)
      have hcons : ids (Function.update s.mem a (some i)) (a :: places s) =
          s.log.length :: ids s.mem (places s) := by
        rw [← ids_congr fun b hb => congrArg (Option.map Info.id) (hne b hb)]
        simp [ids, hid]
      rw [hcons, List.length_append, List.length_singleton, List.range_succ, List.cons_append]
      exact (hl.once.cons _).trans (List.perm_append_singleton _ _).symm
    sending := fun h hh hst j hj => hl.sending h hh hst j (hhand h hh ▸ hj)
    sentOnce := hl.sentOnce
    sentDone := fun x hx => (hl.sentDone x hx).imp_right fun ⟨h, hh, hst, j, hj, hji⟩ =>
      ⟨h, hh, hst, j, (hhand h hh).trans hj, hji⟩
    sentFor := fun x hx => (hl.sentFor x hx).imp fun j hj => ⟨hlog hj.1, hj.2⟩
    dropped := fun b j hj hd => by
      rcases hmem hj with ⟨-, rfl⟩ | hj
      · exact absurd (hl.droppedLog _ hd) (by omega)
      · exact hl.dropped b j hj hd
    droppedSent := hl.droppedSent
    droppedLog := fun k hk => Nat.lt_of_lt_of_le (hl.droppedLog k hk) (by simp [Server.push])
    shut := hl.shut
    checked := hl.checked
    asked := fun j hj hloc => by
      rcases List.mem_append.mp hj with hj | hj
      · exact hl.asked j hj hloc
      · rw [List.mem_singleton.mp hj] at hloc ⊢
        exact hl.checked _ (hmade hloc).1 (hmade hloc).2
    made := fun b j hj hloc hcan' => by
      rcases hmem hj with ⟨-, rfl⟩ | hb
      · exact Or.inl (hmade hloc).1
      · refine (hl.made b j hb hloc hcan').imp_right (Or.imp_right (Or.imp_right ?_))
        rintro ⟨hp, ho⟩
        refine ⟨fun hm => ?_, ho⟩
        rcases List.mem_cons.mp hm with rfl | hm
        · exact absurd (ha.symm.trans hb) (Option.some_ne_none j).symm
        · exact hp hm
    dispatched := fun b hb => List.mem_cons_of_mem a (hl.dispatched b hb) }

/-- A completion takes its request off the list. -/
theorem Ledger.complete (hl : Ledger s) (ha : a ∈ s.pending) (hd : s.dispatching ≠ some a)
    (e : Int) :
    Ledger { s with pending := s.pending.erase a, hands := s.hands ++ [⟨a, e, .taken⟩] } := by
  have hperm : (s.pending.erase a ++ (s.hands ++ [(⟨a, e, .taken⟩ : Hand)]).map Hand.addr).Perm
      (places s) := by
    rw [List.map_append, ← List.append_assoc]
    exact (List.perm_append_singleton _ _).trans
      ((List.perm_cons_erase ha).symm.append_right (s.hands.map Hand.addr))
  exact { hl with
    nodup := hperm.nodup_iff.mpr hl.nodup
    live := fun b => (hl.live b).trans hperm.mem_iff.symm
    once := ((ids_perm hperm).append_right s.freed).trans hl.once
    sending := fun h hh hst => by
      rcases List.mem_append.mp hh with hh | hh
      · exact hl.sending h hh hst
      · rw [List.mem_singleton.mp hh] at hst
        exact Stage.noConfusion hst
    sentDone := fun x hx => (hl.sentDone x hx).imp_right fun ⟨h, hh, hk⟩ =>
      ⟨h, List.mem_append_left _ hh, hk⟩
    made := fun b j hj hloc hcan => (hl.made b j hj hloc hcan).imp_right
      (Or.imp_right (Or.imp_right fun ⟨hp, ho⟩ => ⟨fun hb => hp (List.mem_of_mem_erase hb), ho⟩))
    dispatched := fun b hb => by
      have hne : b ≠ a := fun hba => hd (hba ▸ hb)
      exact (List.mem_erase_of_ne hne).mpr (hl.dispatched b hb) }

/-- A completion goes on. -/
theorem Ledger.restage (hl : Ledger s) (hn : s.hands[n]? = some h) (hst : h.stage ≠ .freeing)
    (hsend : st = .sending → ∀ i, s.mem h.addr = some i →
      i.isLocal = false ∧ i.cancelled = false) :
    Ledger { s with hands := restage s.hands n st } := by
  have hplaces : places { s with hands := Server.restage s.hands n st } = places s := by
    rw [places, map_addr_restage, places]
  exact { hl with
    nodup := hplaces.symm ▸ hl.nodup
    live := hplaces.symm ▸ hl.live
    once := hplaces.symm ▸ hl.once
    sending := fun g hg hgs => by
      rcases mem_restage hn hg with rfl | hg
      · exact hsend hgs
      · exact hl.sending g hg hgs
    sentDone := fun x hx => (hl.sentDone x hx).imp_right fun ⟨g, hg, hgs, hk⟩ =>
      ⟨g, restage_mem hn hg (by rw [hgs]; exact Ne.symm hst), hgs, hk⟩ }

/-- The answer to a request that is then freed, on the socket that is open. -/
theorem Ledger.answer (hl : Ledger s) {c : Nat} (hc : s.command = some c) (hh : h ∈ s.hands)
    (hst : h.stage = .freeing) (hi : s.mem h.addr = some i) (hloc : i.isLocal = false)
    (hcan : i.cancelled = false) (hnew : i.id ∉ s.sent.map Sent.id) (e : Int) :
    Ledger { s with sent := s.sent ++ [⟨i.id, i.token, e, c⟩] } := by
  have hopen : s.closing = false ∧ s.ended = false := by
    have hshut := hl.shut
    rw [hc] at hshut
    cases hcl : s.closing <;> cases he : s.ended <;> simp_all
  obtain ⟨b, hb⟩ := hl.issued h.addr i hi
  have hmade : c = i.conn ∨ i.id ∈ s.overtaken := by
    rcases hl.made h.addr i hi hloc hcan with hk | hk | hk | hk
    · exact Or.inl (Option.some.inj (hc.symm.trans hk))
    · simp [hopen.1] at hk
    · simp [hopen.2] at hk
    · exact Or.inr hk.2
  exact { hl with
    sentOnce := by
      rw [List.map_append]
      exact (List.perm_append_singleton _ _).nodup_iff.mpr (List.nodup_cons.mpr ⟨hnew, hl.sentOnce⟩)
    sentDone := fun x hx => by
      rcases List.mem_append.mp hx with hx | hx
      · exact hl.sentDone x hx
      · exact Or.inr ⟨h, hh, hst, i, hi, by rw [List.mem_singleton.mp hx]⟩
    sentFor := fun x hx => by
      rcases List.mem_append.mp hx with hx | hx
      · exact hl.sentFor x hx
      · rw [List.mem_singleton.mp hx]
        exact ⟨_, hb, hloc, rfl, hmade⟩
    droppedSent := fun x hx => by
      rcases List.mem_append.mp hx with hx | hx
      · exact hl.droppedSent x hx
      · rw [List.mem_singleton.mp hx]
        exact fun hd => absurd (hl.dropped _ i hi hd) (by simp [hcan]) }

/-- The end of a completion. -/
theorem Ledger.free (hl : Ledger s) (hn : s.hands[n]? = some h) (hi : s.mem h.addr = some i) :
    Ledger { s with
      mem := Function.update s.mem h.addr none
      hands := s.hands.eraseIdx n
      freed := s.freed ++ [i.id] } := by
  have hperm : (places s).Perm
      (h.addr :: (s.pending ++ (s.hands.eraseIdx n).map Hand.addr)) :=
    (((hands_perm hn).map Hand.addr).append_left s.pending).trans List.perm_middle
  obtain ⟨hout, hnd⟩ := List.nodup_cons.mp (hperm.nodup_iff.mp hl.nodup)
  have hne : ∀ b ∈ s.pending ++ (s.hands.eraseIdx n).map Hand.addr,
      Function.update s.mem h.addr none b = s.mem b := fun b hb =>
    Function.update_of_ne (fun hba : b = h.addr => hout (hba ▸ hb)) _ _
  have hhand : ∀ g ∈ s.hands.eraseIdx n,
      Function.update s.mem h.addr none g.addr = s.mem g.addr := fun g hg =>
    hne g.addr (List.mem_append_right _ (List.mem_map_of_mem hg))
  -- what is in memory still was there
  have hmem : ∀ {b : Nat} {j : Info}, Function.update s.mem h.addr none b = some j →
      s.mem b = some j := fun {b j} hj => by
    by_cases hb : b = h.addr
    · rw [hb, Function.update_self] at hj
      exact absurd hj.symm (Option.some_ne_none j)
    · rwa [Function.update_of_ne hb] at hj
  exact { hl with
    nodup := hnd
    live := fun b => by
      show Function.update s.mem h.addr none b ≠ none ↔
        b ∈ s.pending ++ (s.hands.eraseIdx n).map Hand.addr
      by_cases hb : b = h.addr
      · rw [hb, Function.update_self]
        exact iff_of_false (fun hk => hk rfl) hout
      · rw [Function.update_of_ne hb, hl.live b, hperm.mem_iff, List.mem_cons]
        exact or_iff_right hb
    issued := fun b j hj => hl.issued b j (hmem hj)
    once := by
      have hcons : (ids s.mem (places s)).Perm
          (i.id :: ids s.mem (s.pending ++ (s.hands.eraseIdx n).map Hand.addr)) := by
        refine (ids_perm hperm).trans (List.Perm.of_eq ?_)
        simp [ids, hi]
      show (ids (Function.update s.mem h.addr none)
        (s.pending ++ (s.hands.eraseIdx n).map Hand.addr) ++ (s.freed ++ [i.id])).Perm
          (List.range s.log.length)
      rw [ids_congr fun b hb => congrArg (Option.map Info.id) (hne b hb), ← List.append_assoc]
      exact (List.perm_append_singleton _ _).trans ((hcons.symm.append_right s.freed).trans hl.once)
    sending := fun g hg hst j hj =>
      hl.sending g (List.mem_of_mem_eraseIdx hg) hst j (hhand g hg ▸ hj)
    sentDone := fun x hx => by
      rcases hl.sentDone x hx with hf | ⟨g, hg, hst, j, hj, hid⟩
      · exact Or.inl (List.mem_append_left _ hf)
      · rcases List.mem_cons.mp ((hands_perm hn).mem_iff.mp hg) with rfl | hg
        · rw [hi] at hj
          cases hj
          exact Or.inl (List.mem_append_right _ (List.mem_singleton.mpr hid.symm))
        · exact Or.inr ⟨g, hg, hst, j, (hhand g hg).trans hj, hid⟩
    dropped := fun b j hj => hl.dropped b j (hmem hj)
    made := fun b j hj => hl.made b j (hmem hj) }

/-- **Every step keeps the ledger**, whatever the vendor calls. -/
theorem Ledger.step (hl : Ledger s) {act : Act} (hu : usual s act = true)
    (hs : step s act = some s') : Ledger s' := by
  cases act <;> simp only [Server.step] at hs
  case accept =>
    split at hs
    · rename_i hc
      cases hs
      exact hl.accept hc.1 hc.2.1 hc.2.2.1 _ _
    · cases hs
  case allow =>
    split at hs
    · rename_i c hc
      split at hs
      · cases hs
        exact hl.allow hc
      · cases hs
    · cases hs
  case refuse =>
    split at hs
    · cases hs
      exact hl.close true s.ended false (Or.inl rfl)
    · cases hs
  case command a token request =>
    split at hs
    · rename_i c hc ha
      split at hs
      · cases hs
      · rename_i hch
        split at hs
        · cases hs
          exact hl
        · cases hs
          have hpush := hl.push ha (i := ⟨s.log.length, token, request, false, false, c⟩) rfl
            fun _ => ⟨hc, Bool.eq_false_of_not_eq_true fun hk => hch (Or.inl hk)⟩
          exact { hpush with
            dispatched := fun b hb => List.mem_cons.mpr (Or.inl (Option.some.inj hb).symm) }
    · cases hs
  case read last =>
    split at hs
    · rename_i a ha
      have hlive : s.mem a ≠ none :=
        (hl.live a).mpr (List.mem_append_left _ (hl.dispatched a ha))
      split at hs
      · rename_i hnone
        exact absurd hnone hlive
      · cases hs
        refine { hl with dispatched := fun b hb => ?_ }
        cases last with
        | true => cases hb
        | false => exact hl.dispatched b (ha.trans hb)
    · cases hs
  case localRequest a request =>
    split at hs
    · rename_i ha
      split at hs
      · cases hs
      · cases hs
        exact hl.push ha rfl fun h => Bool.noConfusion h
    · cases hs
  case hangup =>
    split at hs
    · cases hs
    · cases hs
      exact hl.close true s.ended s.checking (Or.inl rfl)
  case cancelAll =>
    split at hs
    · rename_i hc
      cases hs
      exact hl.cancelAll (hl.shut (Or.inl hc)) false
    · cases hs
  case radioOff =>
    split at hs
    · cases hs
    · cases hs
      exact hl.close s.closing true s.checking (Or.inr rfl)
  case complete t e =>
    split at hs
    · rename_i ht
      cases hs
      exact hl.complete ht (by simpa [usual] using hu) e
    · cases hs
      exact hl
  case look n =>
    split at hs
    · rename_i a e hn
      split at hs
      · rename_i ha
        exact absurd ha (hl.hand_live (List.mem_of_getElem? hn))
      · rename_i i hi
        cases hs
        refine hl.restage hn (by simp) fun hst j hj => ?_
        cases hi.symm.trans hj
        simpa [afterLook] using hst
    · cases hs
  case send n ret =>
    split at hs
    · rename_i a e hn
      have hh := List.mem_of_getElem? hn
      split at hs
      · rename_i ha
        exact absurd ha (hl.hand_live hh)
      · rename_i i hi
        have hre : Ledger { s with hands := Server.restage s.hands n .freeing } :=
          hl.restage hn (by simp) fun hst => Stage.noConfusion hst
        split at hs
        · cases hs
          exact hre
        · rename_i c hc
          cases hs
          obtain ⟨hloc, hcan⟩ := hl.sending _ hh rfl i hi
          have hnew : i.id ∉ s.sent.map Sent.id := hl.unsent hi fun g hg hga hst => by
            rw [hl.hand_inj hg hh hga] at hst
            exact Stage.noConfusion hst
          exact hre.answer hc (restage_self hn) rfl hi hloc hcan hnew _
    · cases hs
  case lose n =>
    split at hs
    · rename_i a e hn
      cases hs
      exact hl.restage hn (by simp) fun hst => Stage.noConfusion hst
    · cases hs
  case free n =>
    split at hs
    · rename_i a e hn
      split at hs
      · rename_i ha
        exact absurd ha (hl.hand_live (List.mem_of_getElem? hn))
      · rename_i i hi
        cases hs
        exact hl.free hn hi
    · cases hs

end Steps

/-! ## 5. Runs -/

theorem ledger_of_reach {s : State} (hr : Reach step (fun s a => usual s a = true) init s) :
    Ledger s :=
  hr.inv (I := Ledger) ledger_init fun _ _ _ hl hu hs => hl.step hu hs

/-- **Every request is answered at most once and freed at most once**, in every interleaving and
    whatever tokens the vendor completes, as long as it completes none that is being dispatched. No
    `RequestInfo` is used after it was freed, and memory has those that are pending or in a
    completion's hands and no others. An answer has its request's token; it is not the answer of a
    local request, nor of one that was pending when its connection was given up; and it goes to the
    phone's connection the request came on, unless its completion was under way when that connection
    was given up. -/
theorem answered_at_most_once {s : State} (hr : Reach step (fun s a => usual s a = true) init s) :
    s.crashed = false ∧ (s.sent.map Sent.id).Nodup ∧
      (ids s.mem (places s) ++ s.freed).Perm (List.range s.log.length) ∧
      (∀ a, s.mem a ≠ none ↔ a ∈ places s) ∧
      ∀ x ∈ s.sent, x.id ∉ s.dropped ∧ ∃ i, s.log[x.id]? = some i ∧ i.isLocal = false ∧
        x.token = i.token ∧ (x.conn = i.conn ∧ x.conn ∈ s.phone ∨ x.id ∈ s.overtaken) := by
  have hl := ledger_of_reach hr
  refine ⟨hl.ok, hl.sentOnce, hl.once, hl.live, fun x hx => ⟨hl.droppedSent x hx, ?_⟩⟩
  obtain ⟨i, hi, hloc, ht, hk⟩ := hl.sentFor x hx
  refine ⟨i, hi, hloc, ht, hk.imp_left fun hc => ⟨hc, ?_⟩⟩
  rw [hc]
  exact hl.asked i (List.mem_of_getElem? hi) hloc

/-- Two requests at one address, the first one's token completed three times. -/
def reused : List Act :=
  [.accept, .allow, .command 5 70 1, .read false, .read true, .complete 5 0, .complete 5 0, .look 0,
    .send 0 0, .free 0, .complete 5 0, .command 5 71 2, .read true, .localRequest 6 3,
    .complete 6 0, .complete 5 2, .look 1, .send 1 0, .look 0]

theorem answered_at_most_once_reused : ∃ s : State, s.sent = [⟨0, 70, 0, 0⟩, ⟨1, 71, 2, 0⟩] ∧
    s.freed = [0] ∧ (s.sent.map Sent.id).Nodup ∧ ∀ x ∈ s.sent, x.id ∉ s.dropped := by
  have hrun : runTest step usual init reused
      (fun s => decide (s.sent = [⟨0, 70, 0, 0⟩, ⟨1, 71, 2, 0⟩] ∧ s.freed = [0])) = true := by
    decide +kernel
  obtain ⟨s, hr, hp⟩ := reach_of_runTest hrun
  obtain ⟨hsent, hfreed⟩ := of_decide_eq_true hp
  obtain ⟨-, honce, -, -, hall⟩ := answered_at_most_once hr
  exact ⟨s, hsent, hfreed, honce, fun x hx => (hall x hx).1⟩

/-- The condition is needed: with the token of an earlier request at the same address, a vendor can
    have the request freed that the event thread is about to read. -/
example : ∃ s, Reach step Always init s ∧ s.crashed = true := by
  have hrun : runTest step (fun _ _ => true) init
      [.accept, .allow, .command 5 70 1, .read true, .complete 5 0, .look 0, .send 0 0, .free 0,
        .command 5 71 2, .complete 5 0, .look 0, .send 0 0, .free 0, .read true]
      (fun s => s.crashed) = true := by
    decide +kernel
  obtain ⟨s, hr, hp⟩ := reach_of_runTest hrun
  exact ⟨s, hr.always, hp⟩

/-- An answer that was overtaken can reach a process that is not the phone's: the socket is in
    `s_fdCommand` before `listenCallback` looks whose it is. -/
example : ∃ s, Reach step Always init s ∧ s.sent = [⟨0, 70, 0, 1⟩] ∧ s.phone = [0] := by
  have hrun : runTest step (fun _ _ => true) init
      [.accept, .allow, .command 5 70 1, .read true, .complete 5 0, .look 0, .hangup, .cancelAll,
        .accept, .send 0 0, .refuse]
      (fun s => decide (s.sent = [⟨0, 70, 0, 1⟩] ∧ s.phone = [0])) = true := by
    decide +kernel
  obtain ⟨s, hr, hp⟩ := reach_of_runTest hrun
  exact ⟨s, hr.always, of_decide_eq_true hp⟩

end Y210.Ril.Server

/-
  File:      Y210/Gps/SyncWait.lean
  Subject:   WHAT A WAIT RETURNS: every proper run of the slots of loc_api_sync_call.c.

  A call is LIVE from the moment it takes its slot until the slot is freed for it. In a proper run
  live calls have slots of their own, so a step of a call, or a callback put in a slot, concerns one
  call and one slot, and everything else is framed.

  * `Inv` -- the invariant; `Core.move` -- one live call moves on, with its slot;
  * `Inv.step` -- every proper step keeps the invariant;
  * `wait_returns_its_callback` -- what a wait returns in a proper run;
  * `spurious_wake_returns_nothing` -- a wait that is woken for no reason.
-/
import Y210.Gps.SyncCall

namespace Y210.Gps.SyncCall

open Y210.Lib

/-! ## 1. The invariant -/

/-- Callback `k` was put in a slot for call `c`. -/
def DeliveredTo (s : State) (k c : Nat) : Prop :=
  ∃ cb t, s.cbs[k]? = some cb ∧ cb.delivered = some (c, t)

/-- The wait is in the condition wait, or on its way back from it. -/
def WaitPc.awaits : WaitPc → Bool
  | .blocked | .woken | .timedOut => true
  | _ => false

def WaitPc.result : WaitPc → Option WaitRet
  | .leaving r | .done r => some r
  | _ => none

/-- How the slot of a call looks, by where its wait is. -/
def WaitOk (s : State) (c : Nat) (sl : Slot) : List WaitPc → Prop
  | [] | [.entered] | [.checked] =>
    sl.isWaiting = false ∧
      (sl.hasArrived = true → ∃ k, sl.receivedPayload = some k ∧ DeliveredTo s k c)
  | [.blocked] | [.timedOut] => sl.isWaiting = true
  | [.woken] => sl.isWaiting = true ∧ ∃ k, sl.receivedPayload = some k ∧ DeliveredTo s k c
  | _ => True

/-- What holds of slot `i`: it is set up as its owner asked; somebody is behind its waiting flag;
    and a payload to be taken is marked as arrived, or its wait was woken. -/
structure SlotOk (s : State) (i : Fin bufferSize) (sl : Slot) : Prop where
  owner : ∀ c, sl.owner = some c → ∃ (call : Call) (t : Nat), s.calls[c]? = some call ∧
    call.selectedAt = some t ∧ t < s.clock ∧ sl.locHandle = call.locHandle ∧
    sl.waitEventMask = call.waitMask ∧ sl.ioctlType = call.ioctlType
  unowned : sl.owner = none → sl.waitEventMask = 0
  waiting : sl.isWaiting = true → ∃ (c : Nat) (call : Call) (pc : WaitPc),
    s.calls[c]? = some call ∧ call.slot = i ∧ call.waits = [pc] ∧ pc.awaits = true
  pending : sl.pending ≠ none → sl.hasArrived = true ∨ ∃ (c : Nat) (call : Call),
    s.calls[c]? = some call ∧ call.slot = i ∧ call.waits = [.woken]

/-- What holds of call `c`: one wait at most; as long as it is live the slot is taken, and once the
    select is through it is set up for this call; and a wait that succeeded has a payload that was
    delivered for it. -/
structure CallOk (s : State) (c : Nat) (call : Call) : Prop where
  one : call.waits.length ≤ 1
  early : call.selectedAt = none → call.waits = [] ∧ call.dropped = false
  drop : call.dropped = true → call.waits = []
  used : call.live = true → s.slotInUse call.slot = true
  owns : call.live = true → call.selectedAt ≠ none →
    (s.slots call.slot).owner = some c ∧ WaitOk s c (s.slots call.slot) call.waits
  result : ∀ pc ∈ call.waits, ∀ p, pc.result = some (.success p) →
    ∃ k, p = some k ∧ DeliveredTo s k c

/-- The invariant but for the slots. -/
structure Core (s : State) : Prop where
  excl : ∀ {c c' : Nat} {call call' : Call}, s.calls[c]? = some call → s.calls[c']? = some call' →
    call.live = true → call'.live = true → call.slot = call'.slot → c = c'
  calls : ∀ {c : Nat} {call : Call}, s.calls[c]? = some call → CallOk s c call
  scan : ∀ {sc : Scan}, s.scan = some sc → sc.consumed = false →
    ∃ cb, s.cbs[sc.k]? = some cb ∧ cb.delivered = none
  delivered : ∀ {k : Nat} {cb : Callback} {c t : Nat}, s.cbs[k]? = some cb →
    cb.delivered = some (c, t) → ∃ (call : Call) (t0 : Nat), s.calls[c]? = some call ∧
      call.selectedAt = some t0 ∧ t0 < t ∧ call.accepts cb = true
  lost : s.lost = []

/-- **The invariant of a proper run.** -/
structure Inv (s : State) : Prop extends Core s where
  slots : ∀ i, SlotOk s i (s.slots i)

section Frames

variable {s s' : State} {c : Nat} {call : Call}

theorem WaitOk.mono {sl : Slot} {waits : List WaitPc} (h : WaitOk s c sl waits)
    (hdel : ∀ k, DeliveredTo s k c → DeliveredTo s' k c) : WaitOk s' c sl waits := by
  have hstep : (∃ k, sl.receivedPayload = some k ∧ DeliveredTo s k c) →
      ∃ k, sl.receivedPayload = some k ∧ DeliveredTo s' k c := fun ⟨k, hk, hd⟩ => ⟨k, hk, hdel k hd⟩
  unfold WaitOk at h ⊢
  split at h
  · exact ⟨h.1, fun ha => hstep (h.2 ha)⟩
  · exact ⟨h.1, fun ha => hstep (h.2 ha)⟩
  · exact ⟨h.1, fun ha => hstep (h.2 ha)⟩
  · exact h
  · exact h
  · exact ⟨h.1, hstep h.2⟩
  · trivial

/-- Steps elsewhere leave a call alone. -/
theorem CallOk.frame (h : CallOk s c call)
    (hused : call.live = true → s'.slotInUse call.slot = s.slotInUse call.slot)
    (hslot : call.live = true → s'.slots call.slot = s.slots call.slot)
    (hdel : ∀ k, DeliveredTo s k c → DeliveredTo s' k c) : CallOk s' c call where
  one := h.one
  early := h.early
  drop := h.drop
  used := fun hl => (hused hl).trans (h.used hl)
  owns := by
    intro hl hsel
    rw [hslot hl]
    exact ⟨(h.owns hl hsel).1, (h.owns hl hsel).2.mono hdel⟩
  result := by
    intro pc hpc p hp
    obtain ⟨k, hk, hd⟩ := h.result pc hpc p hp
    exact ⟨k, hk, hdel k hd⟩

/-- What no step takes from a call: what it asked for, and when its select was through. -/
def Call.Keeps (call call' : Call) : Prop :=
  call'.locHandle = call.locHandle ∧ call'.eventMask = call.eventMask ∧
    call'.ioctlType = call.ioctlType ∧ call'.slot = call.slot ∧
    ∀ t, call.selectedAt = some t → call'.selectedAt = some t

theorem Call.Keeps.refl (call : Call) : call.Keeps call := ⟨rfl, rfl, rfl, rfl, fun _ h => h⟩

theorem Call.Keeps.waitMask {call' : Call} (h : call.Keeps call') :
    call'.waitMask = call.waitMask := by
  unfold Call.waitMask
  rw [h.2.1, h.2.2.1]

theorem Call.Keeps.accepts {call' : Call} (h : call.Keeps call') (cb : Callback) :
    call'.accepts cb = call.accepts cb := by
  unfold Call.accepts
  rw [h.1, h.waitMask, h.2.2.1]

/-- Every call is still there and keeps what it keeps. -/
def CallsKept (s s' : State) : Prop :=
  ∀ (c : Nat) (call : Call), s.calls[c]? = some call →
    ∃ call', s'.calls[c]? = some call' ∧ call.Keeps call'

theorem callsKept_set {call' : Call} (hc : s.calls[c]? = some call)
    (hcalls : s'.calls = s.calls.set c call') (hk : call.Keeps call') : CallsKept s s' := by
  intro m x hx
  rw [hcalls]
  by_cases hmc : m = c
  · subst hmc
    obtain rfl : call = x := Option.some.inj (hc.symm.trans hx)
    exact ⟨call', getElem?_set_at _ hc, hk⟩
  · exact ⟨x, (getElem?_set_off _ hmc).trans hx, .refl x⟩

theorem SlotOk.ownerKept {i : Fin bufferSize} {sl sl' : Slot} (h : SlotOk s i sl)
    (hk : CallsKept s s') (hclock : s.clock ≤ s'.clock) (hown : sl'.owner = sl.owner)
    (hh : sl'.locHandle = sl.locHandle) (hm : sl'.waitEventMask = sl.waitEventMask)
    (ht : sl'.ioctlType = sl.ioctlType) (c : Nat) (hc : sl'.owner = some c) :
    ∃ (call : Call) (t : Nat), s'.calls[c]? = some call ∧ call.selectedAt = some t ∧
      t < s'.clock ∧ sl'.locHandle = call.locHandle ∧ sl'.waitEventMask = call.waitMask ∧
      sl'.ioctlType = call.ioctlType := by
  obtain ⟨call, t, hcall, hsel, hlt, hlh, hwm, hit⟩ := h.owner c (hown ▸ hc)
  obtain ⟨call', hcall', hkeeps⟩ := hk c call hcall
  refine ⟨call', t, hcall', hkeeps.2.2.2.2 t hsel, Nat.lt_of_lt_of_le hlt hclock, ?_, ?_, ?_⟩
  · rw [hh, hlh, hkeeps.1]
  · rw [hm, hwm, hkeeps.waitMask]
  · rw [ht, hit, hkeeps.2.2.1]

end Frames

section Move

variable {s s' : State} {c : Nat} {call call' : Call} {sl' : Slot}

/-- A live call keeps the other live calls out of its slot. -/
theorem Core.other_slot (h : Core s) (hc : s.calls[c]? = some call) (hl : call.live = true)
    {m : Nat} {x : Call} (hm : s.calls[m]? = some x) (hmc : m ≠ c) (hx : x.live = true) :
    x.slot ≠ call.slot :=
  fun e => hmc (h.excl hm hc hx hl e)

/-- **One live call moves on**, and with it its slot. -/
theorem Core.move (h : Core s) (hc : s.calls[c]? = some call) (hl : call.live = true)
    (hothers : ∀ i, i ≠ call.slot → SlotOk s i (s.slots i))
    (hcalls : s'.calls = s.calls.set c call')
    (hslots : s'.slots = Function.update s.slots call.slot sl')
    (hused : ∀ j, j ≠ call.slot → s'.slotInUse j = s.slotInUse j) (hclock : s.clock ≤ s'.clock)
    (hcbs : s'.cbs = s.cbs) (hscan : s'.scan = s.scan) (hlost : s'.lost = s.lost)
    (hkeeps : call.Keeps call') (hok : CallOk s' c call') (hslot : SlotOk s' call.slot sl') :
    Inv s' := by
  have hdel : ∀ k m, DeliveredTo s k m → DeliveredTo s' k m := by
    rintro k m ⟨cb, t, hcb, hd⟩
    exact ⟨cb, t, by rw [hcbs]; exact hcb, hd⟩
  have hkept := callsKept_set hc hcalls hkeeps
  have hcases : ∀ {m : Nat} {x : Call}, s'.calls[m]? = some x →
      (m = c ∧ x = call') ∨ (m ≠ c ∧ s.calls[m]? = some x) := by
    intro m x hx
    rw [hcalls] at hx
    exact getElem?_set_cases hc hx
  refine ⟨⟨?_, ?_, ?_, ?_, hlost.trans h.lost⟩, ?_⟩
  · intro m m' x x' hx hx' hlx hlx' hs
    rcases hcases hx with ⟨rfl, rfl⟩ | ⟨hmc, hx⟩ <;>
      rcases hcases hx' with ⟨rfl, rfl⟩ | ⟨hmc', hx'⟩
    · rfl
    · exact absurd (hs.symm.trans hkeeps.2.2.2.1) (h.other_slot hc hl hx' hmc' hlx')
    · exact absurd (hs.trans hkeeps.2.2.2.1) (h.other_slot hc hl hx hmc hlx)
    · exact h.excl hx hx' hlx hlx' hs
  · intro m x hx
    rcases hcases hx with ⟨rfl, rfl⟩ | ⟨hmc, hx⟩
    · exact hok
    · refine (h.calls hx).frame (fun hlx => hused _ (h.other_slot hc hl hx hmc hlx))
        (fun hlx => ?_) (fun k hd => hdel k m hd)
      rw [hslots, Function.update_of_ne (h.other_slot hc hl hx hmc hlx)]
  · intro sc hsc hcons
    rw [hcbs]
    exact h.scan (hscan ▸ hsc) hcons
  · intro k cb m t hcb hd
    rw [hcbs] at hcb
    obtain ⟨x, t0, hx, hsel, hlt, hacc⟩ := h.delivered hcb hd
    obtain ⟨x', hx', hk⟩ := hkept m x hx
    exact ⟨x', t0, hx', hk.2.2.2.2 t0 hsel, hlt, (hk.accepts cb).trans hacc⟩
  · intro i
    by_cases hi : i = call.slot
    · subst hi
      rw [hslots, Function.update_self]
      exact hslot
    · rw [hslots, Function.update_of_ne hi]
      have hold := hothers i hi
      have hne : ∀ {m : Nat} {x : Call}, s.calls[m]? = some x → x.slot = i → m ≠ c := by
        rintro m x hx hxs rfl
        obtain rfl : call = x := Option.some.inj (hc.symm.trans hx)
        exact hi hxs.symm
      refine ⟨hold.ownerKept hkept hclock rfl rfl rfl rfl, hold.unowned, fun hw => ?_, fun hp => ?_⟩
      · obtain ⟨m, x, pc, hx, hxs, hwaits, hpc⟩ := hold.waiting hw
        refine ⟨m, x, pc, ?_, hxs, hwaits, hpc⟩
        rw [hcalls, getElem?_set_off _ (hne hx hxs)]
        exact hx
      · rcases hold.pending hp with ha | ⟨m, x, hx, hxs, hwaits⟩
        · exact Or.inl ha
        · refine Or.inr ⟨m, x, ?_, hxs, hwaits⟩
          rw [hcalls, getElem?_set_off _ (hne hx hxs)]
          exact hx

/-- A slot that the move does not touch. -/
theorem Inv.sameSlot (h : Inv s) (hc : s.calls[c]? = some call)
    (hcalls : s'.calls = s.calls.set c call') (hclock : s.clock ≤ s'.clock)
    (hkeeps : call.Keeps call')
    (hwait : (s.slots call.slot).isWaiting = true → ∃ pc, call'.waits = [pc] ∧ pc.awaits = true)
    (hwoken : call.waits ≠ [.woken]) : SlotOk s' call.slot (s.slots call.slot) := by
  have hold := h.slots call.slot
  refine ⟨hold.ownerKept (callsKept_set hc hcalls hkeeps) hclock rfl rfl rfl rfl, hold.unowned,
    fun hw => ?_, fun hp => ?_⟩
  · obtain ⟨pc, hpc, ha⟩ := hwait hw
    exact ⟨c, call', pc, by rw [hcalls]; exact getElem?_set_at _ hc, hkeeps.2.2.2.1, hpc, ha⟩
  · rcases hold.pending hp with ha | ⟨m, x, hx, hxs, hwaits⟩
    · exact Or.inl ha
    · refine Or.inr ⟨m, x, ?_, hxs, hwaits⟩
      rw [hcalls, getElem?_set_off _ ?_]
      · exact hx
      · rintro rfl
        obtain rfl : call = x := Option.some.inj (hc.symm.trans hx)
        exact hwoken hwaits

end Move

/-! ## 2. Calls along a step -/

section Calls

variable {s s' : State} {c : Nat} {call : Call}

theorem live_iff :
    call.live = true ↔ call.dropped = false ∧ call.waits.any WaitPc.isDone = false := by
  unfold Call.live
  rw [Bool.and_eq_true, Bool.not_eq_true', Bool.not_eq_true']

theorem CallOk.live_early (h : CallOk s c call) (hsel : call.selectedAt = none) :
    call.live = true := by
  obtain ⟨hw, hd⟩ := h.early hsel
  exact live_iff.mpr ⟨hd, by rw [hw]; rfl⟩

/-- Under `one`, the wait with index `j` is the only one. -/
theorem CallOk.single (h : CallOk s c call) {j : Nat} {pc : WaitPc}
    (hj : call.waits[j]? = some pc) : call.waits = [pc] ∧ j = 0 := by
  have hone := h.one
  match hw : call.waits, hj, hone with
  | [x], hj, _ =>
      cases j with
      | zero => exact ⟨congrArg (fun y => [y]) (Option.some.inj hj), rfl⟩
      | succ j => cases hj

theorem setWait_single {pc pc' : WaitPc} (hw : call.waits = [pc]) :
    (call.setWait 0 pc').waits = [pc'] := by
  show call.waits.set 0 pc' = [pc']
  rw [hw]
  rfl

theorem keeps_setWait (j : Nat) (pc : WaitPc) : call.Keeps (call.setWait j pc) :=
  ⟨rfl, rfl, rfl, rfl, fun _ h => h⟩

/-- A call with a wait that is not through is live and selected. -/
theorem CallOk.live_of_wait (h : CallOk s c call) {pc : WaitPc} (hw : call.waits = [pc])
    (hpc : pc.isDone = false) : call.live = true ∧ call.selectedAt ≠ none := by
  refine ⟨live_iff.mpr ⟨?_, ?_⟩, fun hsel => ?_⟩
  · cases hd : call.dropped with
    | false => rfl
    | true => rw [h.drop hd] at hw; cases hw
  · rw [hw, List.any_cons, hpc]
    rfl
  · rw [(h.early hsel).1] at hw
    cases hw

/-- The one unfinished wait in the slot of a live call is its own. -/
theorem Core.own_wait (h : Core s) (hc : s.calls[c]? = some call) (hl : call.live = true)
    {m : Nat} {x : Call} {pc : WaitPc} (hx : s.calls[m]? = some x) (hxs : x.slot = call.slot)
    (hw : x.waits = [pc]) (hpc : pc.isDone = false) : call.waits = [pc] := by
  obtain rfl := h.excl hx hc ((h.calls hx).live_of_wait hw hpc).1 hl hxs
  obtain rfl : call = x := Option.some.inj (hc.symm.trans hx)
  exact hw

/-- The wait of a call moves on: what is left to show about the call. -/
theorem CallOk.setWait (h : CallOk s c call) {pc pc' : WaitPc} (hw : call.waits = [pc])
    (hpc : pc.isDone = false) (hused : pc'.isDone = false → s'.slotInUse call.slot = true)
    (howns : pc'.isDone = false → (s'.slots call.slot).owner = some c ∧
      WaitOk s' c (s'.slots call.slot) [pc'])
    (hres : ∀ p, pc'.result = some (.success p) → ∃ k, p = some k ∧ DeliveredTo s' k c) :
    CallOk s' c (call.setWait 0 pc') := by
  have hw' : (call.setWait 0 pc').waits = [pc'] := setWait_single hw
  have hdone : (call.setWait 0 pc').live = true → pc'.isDone = false := by
    intro hl
    have := (live_iff.mp hl).2
    rw [hw', List.any_cons, List.any_nil, Bool.or_false] at this
    exact this
  refine ⟨by rw [hw']; exact Nat.le_refl 1, fun hsel => ?_, fun hd => ?_,
    fun hl => hused (hdone hl), fun hl _ => ?_, fun x hx p hp => ?_⟩
  · exact absurd hsel (h.live_of_wait hw hpc).2
  · have hlive := (live_iff.mp (h.live_of_wait hw hpc).1).1
    rw [show call.dropped = true from hd] at hlive
    cases hlive
  · rw [hw']
    exact howns (hdone hl)
  · rw [hw'] at hx
    obtain rfl := List.mem_singleton.mp hx
    exact hres p hp

end Calls

/-! ## 3. Steps of a call -/

section CallSteps

variable {s s' : State} {c : Nat} {call : Call}

theorem Inv.init_select (h : Inv s) (hc : s.calls[c]? = some call)
    (hsel : call.selectedAt = none) :
    Inv { (s.setSlot call.slot ((s.slots call.slot).select c call)).setCall c
      { call with selectedAt := some s.clock } with clock := s.clock + 1 } := by
  have hok := h.calls hc
  have hlive := hok.live_early hsel
  obtain ⟨hwaits, hdrop⟩ := hok.early hsel
  refine h.move hc hlive (fun i _ => h.slots i) rfl rfl (fun _ _ => rfl) (Nat.le_succ _) rfl rfl rfl
    ⟨rfl, rfl, rfl, rfl, fun t ht => by rw [hsel] at ht; cases ht⟩ ?_ ?_
  · refine ⟨hok.one, fun e => (by cases e), hok.drop, fun _ => hok.used hlive, fun _ _ => ?_,
      hok.result⟩
    show (Function.update s.slots call.slot _ call.slot).owner = _ ∧
      WaitOk _ c (Function.update s.slots call.slot _ call.slot) call.waits
    rw [Function.update_self, hwaits]
    exact ⟨rfl, rfl, fun e => (by cases e)⟩
  · refine ⟨fun m hm => ?_, fun e => (by cases e), fun e => (by cases e), fun hp => absurd rfl hp⟩
    obtain rfl : c = m := Option.some.inj hm
    exact ⟨_, s.clock, getElem?_set_at _ hc, rfl, Nat.lt_succ_self _, rfl, rfl, rfl⟩

/-- The steps of a call that is set up and not waited for yet. -/
theorem Inv.unwaited {call' : Call} (h : Inv s) (hc : s.calls[c]? = some call)
    (hlive : call.live = true) (hsel : call.selectedAt ≠ none) (hw : call.waits = [])
    (hcalls : s'.calls = s.calls.set c call') (hslots : s'.slots = s.slots)
    (hused : ∀ j, j ≠ call.slot → s'.slotInUse j = s.slotInUse j) (hclock : s'.clock = s.clock)
    (hcbs : s'.cbs = s.cbs) (hscan : s'.scan = s.scan) (hlost : s'.lost = s.lost)
    (hkeeps : call.Keeps call') (hok : CallOk s' c call') : Inv s' := by
  refine h.move hc hlive (fun i _ => h.slots i) hcalls
    (hslots.trans (Function.update_eq_self call.slot s.slots).symm)
    hused (Nat.le_of_eq hclock.symm) hcbs hscan hlost hkeeps hok
    (h.sameSlot hc hcalls (Nat.le_of_eq hclock.symm) hkeeps (fun hwait => ?_)
      (fun e => (by rw [hw] at e; cases e)))
  have hidle := ((h.calls hc).owns hlive hsel).2
  rw [hw] at hidle
  rw [hidle.1] at hwait
  cases hwait

theorem Inv.drop_call (h : Inv s) (hc : s.calls[c]? = some call) (hsel : call.selectedAt ≠ none)
    (hw : call.waits = []) (hd : call.dropped = false) :
    Inv ((s.freeSlot call.slot).setCall c { call with dropped := true }) := by
  have hlive : call.live = true := live_iff.mpr ⟨hd, by rw [hw]; rfl⟩
  refine h.unwaited hc hlive hsel hw rfl rfl (fun j hj => Function.update_of_ne hj _ _) rfl rfl rfl
    rfl ⟨rfl, rfl, rfl, rfl, fun _ ht => ht⟩ ?_
  refine ⟨(h.calls hc).one, fun e => absurd e hsel, fun _ => hw, fun hl => ?_, fun hl => ?_,
    fun pc hpc => ?_⟩
  · cases (live_iff.mp hl).1
  · cases (live_iff.mp hl).1
  · rw [show call.waits = [] from hw] at hpc
    cases hpc

theorem Inv.enter_wait (h : Inv s) (hc : s.calls[c]? = some call) (hsel : call.selectedAt ≠ none)
    (hw : call.waits = []) (hd : call.dropped = false) :
    Inv (s.setCall c { call with waits := call.waits ++ [.entered] }) := by
  have hlive : call.live = true := live_iff.mpr ⟨hd, by rw [hw]; rfl⟩
  have hok := h.calls hc
  rw [hw, List.nil_append]
  refine h.unwaited hc hlive hsel hw rfl rfl (fun _ _ => rfl) rfl rfl rfl rfl
    ⟨rfl, rfl, rfl, rfl, fun _ ht => ht⟩ ?_
  have hidle := hok.owns hlive hsel
  rw [hw] at hidle
  refine ⟨Nat.le_refl 1, fun e => absurd e hsel, fun e => ?_, fun _ => hok.used hlive,
    fun _ _ => hidle, fun pc hpc p hp => ?_⟩
  · rw [show call.dropped = true from e] at hd
    cases hd
  · obtain rfl := List.mem_singleton.mp hpc
    cases hp

/-- The steps of a wait that leave the slot as it is. -/
theorem Inv.wait_moves {pc pc' : WaitPc} (h : Inv s) (hc : s.calls[c]? = some call)
    (hw : call.waits = [pc]) (hpc : pc.isDone = false)
    (hcalls : s'.calls = s.calls.set c (call.setWait 0 pc')) (hslots : s'.slots = s.slots)
    (hused : ∀ j, j ≠ call.slot ∨ pc'.isDone = false → s'.slotInUse j = s.slotInUse j)
    (hclock : s'.clock = s.clock) (hcbs : s'.cbs = s.cbs) (hscan : s'.scan = s.scan)
    (hlost : s'.lost = s.lost) (hawaits : pc.awaits = true → pc'.awaits = true)
    (hwoken : pc ≠ .woken)
    (hwok : pc'.isDone = false → WaitOk s c (s.slots call.slot) [pc] →
      WaitOk s c (s.slots call.slot) [pc'])
    (hres : pc'.result = pc.result) : Inv s' := by
  have hok := h.calls hc
  obtain ⟨hlive, hsel⟩ := hok.live_of_wait hw hpc
  have hdel : ∀ k, DeliveredTo s k c → DeliveredTo s' k c := by
    rintro k ⟨cb, t, hcb, hd⟩
    exact ⟨cb, t, by rw [hcbs]; exact hcb, hd⟩
  refine h.move hc hlive (fun i _ => h.slots i) hcalls
    (hslots.trans (Function.update_eq_self call.slot s.slots).symm)
    (fun j hj => hused j (Or.inl hj)) (Nat.le_of_eq hclock.symm) hcbs hscan hlost
    (keeps_setWait 0 pc') (hok.setWait hw hpc (fun hn => ?_) (fun hn => ?_) (fun p hp => ?_))
    (h.sameSlot hc hcalls (Nat.le_of_eq hclock.symm) (keeps_setWait 0 pc') (fun hwait => ?_)
      (fun e => hwoken (List.singleton_inj.mp (hw.symm.trans e))))
  · exact (hused _ (Or.inr hn)).trans (hok.used hlive)
  · rw [hslots]
    have howns := hok.owns hlive hsel
    rw [hw] at howns
    exact ⟨howns.1, (hwok hn howns.2).mono hdel⟩
  · obtain ⟨k, hk, hd⟩ := hok.result pc (by rw [hw]; exact List.mem_singleton_self pc) p
      (hres.symm.trans hp)
    exact ⟨k, hk, hdel k hd⟩
  · obtain ⟨m, x, pc0, hx, hxs, hxw, ha⟩ := (h.slots call.slot).waiting hwait
    have hown := h.own_wait hc hlive hx hxs hxw (by cases pc0 <;> first | rfl | cases ha)
    obtain rfl : pc = pc0 := List.singleton_inj.mp (hw.symm.trans hown)
    exact ⟨pc', setWait_single hw, hawaits ha⟩

/-- The steps of a wait that change its slot, but not what the slot was set up for. -/
theorem Inv.wait_slot {pc pc' : WaitPc} {sl' : Slot} (h : Inv s) (hc : s.calls[c]? = some call)
    (hw : call.waits = [pc]) (hpc : pc.isDone = false)
    (hown : sl'.owner = (s.slots call.slot).owner)
    (hh : sl'.locHandle = (s.slots call.slot).locHandle)
    (hm : sl'.waitEventMask = (s.slots call.slot).waitEventMask)
    (ht : sl'.ioctlType = (s.slots call.slot).ioctlType)
    (hwait : sl'.isWaiting = true → pc'.awaits = true)
    (hpend : sl'.pending ≠ none → sl'.hasArrived = true) (hwok : WaitOk s c sl' [pc'])
    (hres : ∀ p, pc'.result = some (.success p) → ∃ k, p = some k ∧ DeliveredTo s k c) :
    Inv ((s.setSlot call.slot sl').setCall c (call.setWait 0 pc')) := by
  have hok := h.calls hc
  obtain ⟨hlive, hsel⟩ := hok.live_of_wait hw hpc
  refine h.move hc hlive (fun i _ => h.slots i) rfl rfl (fun _ _ => rfl) (Nat.le_refl _) rfl rfl rfl
    (keeps_setWait 0 pc') (hok.setWait hw hpc (fun _ => hok.used hlive) (fun _ => ?_) hres)
    ⟨(h.slots call.slot).ownerKept (callsKept_set hc rfl (keeps_setWait 0 pc')) (Nat.le_refl _)
      hown hh hm ht, fun hn => ?_, fun hwt => ?_, fun hp => Or.inl (hpend hp)⟩
  · show (Function.update s.slots call.slot sl' call.slot).owner = _ ∧
      WaitOk _ c (Function.update s.slots call.slot sl' call.slot) _
    rw [Function.update_self]
    exact ⟨hown.trans (hok.owns hlive hsel).1, hwok.mono fun _ hd => hd⟩
  · exact hm.trans ((h.slots call.slot).unowned (hown.symm.trans hn))
  · exact ⟨c, call.setWait 0 pc', pc', getElem?_set_at _ hc, rfl, setWait_single hw, hwait hwt⟩

theorem Inv.enter_section (h : Inv s) (hc : s.calls[c]? = some call)
    (hw : call.waits = [.checked]) : Inv (enterStep s c call 0) := by
  obtain ⟨hlive, hsel⟩ := (h.calls hc).live_of_wait hw rfl
  have howns := ((h.calls hc).owns hlive hsel).2
  rw [hw] at howns
  obtain ⟨hidle, harrived⟩ := howns
  unfold enterStep
  dsimp only
  split
  case isTrue ha =>
    refine h.wait_slot hc hw rfl rfl rfl rfl rfl (fun hwt => ?_) (fun hp => absurd rfl hp) trivial
      (fun p hp => ?_)
    · rw [show (s.slots call.slot).isWaiting = true from hwt] at hidle
      cases hidle
    · cases hp
      exact harrived ha
  case isFalse ha =>
    rw [if_neg (by rw [hidle]; exact Bool.false_ne_true)]
    refine h.wait_slot hc hw rfl rfl rfl rfl rfl (fun _ => rfl) (fun hp => ?_) rfl
      (fun p hp => (by cases hp))
    rcases (h.slots call.slot).pending hp with hpa | ⟨m, x, hx, hxs, hxw⟩
    · exact hpa
    · cases hw.symm.trans (h.own_wait hc hlive hx hxs hxw rfl)

theorem Inv.resume_wait (h : Inv s) (hc : s.calls[c]? = some call) {pc : WaitPc} {r : WaitRet}
    (hw : call.waits = [pc]) (hpc : pc.isDone = false)
    (hres : ∀ p, r = .success p → ∃ k, p = some k ∧ DeliveredTo s k c) :
    Inv ((s.setSlot call.slot (s.slots call.slot).rest).setCall c
      (call.setWait 0 (.leaving r))) := by
  refine h.wait_slot hc hw hpc rfl rfl rfl rfl (fun e => (by cases e)) (fun hp => absurd rfl hp)
    trivial (fun p hp => hres p ?_)
  cases hp
  rfl

/-- **Every step of a wait keeps the invariant**, spurious wake-ups apart. -/
theorem Inv.wait_step {j : Nat} {a : Act} {pc : WaitPc} (h : Inv s)
    (hc : s.calls[c]? = some call) (hj : call.waits[j]? = some pc) (hp : proper s a = true)
    (hs : waitStep s c call j a pc = some s') : Inv s' := by
  have hok := h.calls hc
  obtain ⟨hw, rfl⟩ := hok.single hj
  have hused : pc.isDone = false → s.slotInUse call.slot = true :=
    fun hpc => hok.used (hok.live_of_wait hw hpc).1
  unfold waitStep at hs
  split at hs
  · rw [if_pos (hused rfl)] at hs
    cases hs
    exact h.wait_moves hc hw rfl rfl rfl (fun _ _ => rfl) rfl rfl rfl rfl (fun e => e)
      (fun e => (by cases e)) (fun _ hwok => hwok) rfl
  · cases hs
    exact h.enter_section hc hw
  · cases hp
  · cases hs
    exact h.wait_moves hc hw rfl rfl rfl (fun _ _ => rfl) rfl rfl rfl rfl (fun e => e)
      (fun e => (by cases e)) (fun _ hwok => hwok) rfl
  · cases hs
    obtain ⟨hlive, hsel⟩ := hok.live_of_wait hw rfl
    have howns := (hok.owns hlive hsel).2
    rw [hw] at howns
    refine h.resume_wait hc hw rfl (fun p e => ?_)
    cases e
    exact howns.2
  · cases hs
    exact h.resume_wait hc hw rfl (fun p e => (by cases e))
  · split at hs <;> cases hs
    refine h.wait_moves hc hw rfl rfl rfl (fun i hi => ?_) rfl rfl rfl rfl (fun e => (by cases e))
      (fun e => (by cases e)) (fun e => (by cases e)) rfl
    rcases hi with hi | hi
    · exact Function.update_of_ne hi _ _
    · cases hi
  · cases hs

end CallSteps

/-! ## 4. Slots taken, and callbacks -/

section Callbacks

variable {s s' : State}

theorem CallsKept.of_eq (h : s'.calls = s.calls) : CallsKept s s' :=
  fun _ x hx => ⟨x, by rw [h]; exact hx, .refl x⟩

/-- A slot keeps what holds of it when the calls gain one without waits. -/
theorem Inv.alloc (h : Inv s) (locHandle : Int) (eventMask : EventMask) (ioctlType : Nat) :
    Inv (allocStep s locHandle eventMask ioctlType) := by
  unfold allocStep
  split
  case h_2 => exact h
  case h_1 i hi =>
    have hfree : s.slotInUse i = false := by
      have := firstIdx_some hi
      rwa [Bool.not_eq_true'] at this
    have hother : ∀ {m : Nat} {x : Call}, s.calls[m]? = some x → x.live = true → x.slot ≠ i := by
      rintro m x hx hl rfl
      rw [(h.calls hx).used hl] at hfree
      cases hfree
    refine ⟨⟨?_, ?_, h.scan, ?_, h.lost⟩, ?_⟩
    · intro m m' x x' hx hx' hlx hlx' hs
      rcases getElem?_concat_cases hx with hx | ⟨rfl, rfl⟩ <;>
        rcases getElem?_concat_cases hx' with hx' | ⟨rfl, rfl⟩
      · exact h.excl hx hx' hlx hlx' hs
      · exact absurd hs (hother hx hlx)
      · exact absurd hs.symm (hother hx' hlx')
      · rfl
    · intro m x hx
      rcases getElem?_concat_cases hx with hx | ⟨rfl, rfl⟩
      · exact (h.calls hx).frame (fun hl => Function.update_of_ne (hother hx hl) _ _)
          (fun _ => rfl) (fun _ hd => hd)
      · exact ⟨Nat.zero_le 1, fun _ => ⟨rfl, rfl⟩, fun _ => rfl,
          fun _ => Function.update_self i true s.slotInUse, fun _ e => absurd rfl e,
          fun pc hpc => (by cases hpc)⟩
    · intro k cb m t hcb hd
      obtain ⟨x, t0, hx, hrest⟩ := h.delivered hcb hd
      exact ⟨x, t0, getElem?_concat_old _ hx, hrest⟩
    · intro j
      have hold := h.slots j
      refine ⟨hold.ownerKept (fun m x hx => ⟨x, getElem?_concat_old _ hx, .refl x⟩) (Nat.le_refl _)
        rfl rfl rfl rfl, hold.unowned, fun hw => ?_, fun hp => ?_⟩
      · obtain ⟨m, x, pc, hx, hrest⟩ := hold.waiting hw
        exact ⟨m, x, pc, getElem?_concat_old _ hx, hrest⟩
      · rcases hold.pending hp with ha | ⟨m, x, hx, hrest⟩
        · exact Or.inl ha
        · exact Or.inr ⟨m, x, getElem?_concat_old _ hx, hrest⟩

/-- What holds of a slot and of its calls does not read the scan, and new callbacks come last. -/
theorem Inv.callbacks {cbs : List Callback} {scan : Option Scan} {inUse : Bool} (h : Inv s)
    (hold : ∀ (k : Nat) (cb : Callback), s.cbs[k]? = some cb → cbs[k]? = some cb)
    (hnew : ∀ (k : Nat) (cb : Callback), cbs[k]? = some cb →
      s.cbs[k]? = some cb ∨ cb.delivered = none)
    (hscan : ∀ sc, scan = some sc → sc.consumed = false →
      ∃ cb, cbs[sc.k]? = some cb ∧ cb.delivered = none) :
    Inv { s with cbs := cbs, scan := scan, inUse := inUse } := by
  refine ⟨⟨h.excl, ?_, ?_, ?_, h.lost⟩, ?_⟩
  · intro c call hc
    refine (h.calls hc).frame (fun _ => rfl) (fun _ => rfl) ?_
    rintro k ⟨cb, t, hcb, hd⟩
    exact ⟨cb, t, hold k cb hcb, hd⟩
  · intro sc hsc hcons
    exact hscan sc hsc hcons
  · intro k cb c t hcb hd
    rcases hnew k cb hcb with hcb | hnone
    · exact h.delivered hcb hd
    · rw [hnone] at hd
      cases hd
  · intro i
    have hslot := h.slots i
    exact ⟨hslot.owner, hslot.unowned, hslot.waiting, hslot.pending⟩

theorem someAt_of {i : Fin bufferSize} {pc : WaitPc} {c : Nat} {call : Call}
    (hc : s.calls[c]? = some call) (hi : call.slot = i) (hw : pc ∈ call.waits) :
    s.someAt i pc = true := by
  unfold State.someAt
  refine List.any_eq_true.mpr ⟨call, List.mem_of_getElem? hc, ?_⟩
  rw [Bool.and_eq_true, List.contains_iff_mem]
  exact ⟨decide_eq_true hi, hw⟩

/-- **A callback that a slot takes** is one the owner of the slot asked for, and nothing is there
    that it could overwrite. -/
theorem Inv.accepted {i : Fin bufferSize} {cb : Callback} (h : Inv s)
    (hacc : (s.slots i).accepts cb = true) (hquiet : s.someAt i .woken = false) :
    (∃ (c : Nat) (call : Call) (t : Nat), (s.slots i).owner = some c ∧ s.calls[c]? = some call ∧
      call.selectedAt = some t ∧ t < s.clock ∧ call.accepts cb = true) ∧
    (s.slots i).pending = none := by
  have hslot := h.slots i
  unfold Slot.accepts at hacc
  rw [Bool.and_eq_true, Bool.not_eq_true'] at hacc
  obtain ⟨hmatch, harr⟩ := hacc
  refine ⟨?_, ?_⟩
  · cases ho : (s.slots i).owner with
    | none =>
        -- a slot nobody set up has an empty mask, and nothing matches that
        rw [hslot.unowned ho, Bool.and_eq_true] at hmatch
        unfold matchCallback at hmatch
        rw [if_pos (show cb.event &&& 0 = 0 from BitVec.and_zero)] at hmatch
        cases hmatch.2
    | some c =>
        obtain ⟨call, t, hc, hsel, hlt, hh, hm, ht⟩ := hslot.owner c ho
        refine ⟨c, call, t, rfl, hc, hsel, hlt, ?_⟩
        unfold Call.accepts
        rw [← hh, ← hm, ← ht]
        exact hmatch
  · by_contra hp
    rcases hslot.pending hp with ha | ⟨m, x, hx, hxs, hxw⟩
    · rw [harr] at ha
      cases ha
    · rw [someAt_of hx hxs (by rw [hxw]; exact List.mem_singleton_self _)] at hquiet
      cases hquiet

theorem WaitOk.receive {sl : Slot} {c k : Nat} {waits : List WaitPc} (h : WaitOk s c sl waits)
    (hk : DeliveredTo s' k c) (expected : Bool) : WaitOk s' c (sl.receive k expected) waits := by
  have hnew : ∃ k', some k = some k' ∧ DeliveredTo s' k' c := ⟨k, rfl, hk⟩
  unfold WaitOk at h ⊢
  split at h
  · exact ⟨h.1, fun _ => hnew⟩
  · exact ⟨h.1, fun _ => hnew⟩
  · exact ⟨h.1, fun _ => hnew⟩
  · exact h
  · exact h
  · exact ⟨h.1, hnew⟩
  · trivial

section Put

variable {i : Fin bufferSize} {sc : Scan} {cb : Callback}

theorem put_slot (s : State) (i : Fin bufferSize) (sc : Scan) (cb : Callback) :
    (s.put i sc cb).slots i = (s.slots i).receive sc.k
      (!(s.slots i).isWaiting || s.someAt i .blocked || s.someAt i .woken) :=
  Function.update_self _ _ _

theorem put_other {j : Fin bufferSize} (hj : j ≠ i) : (s.put i sc cb).slots j = s.slots j :=
  Function.update_of_ne hj _ _

theorem put_delivered {c : Nat} (hcb : s.cbs[sc.k]? = some cb)
    (hown : (s.slots i).owner = some c) : DeliveredTo (s.put i sc cb) sc.k c := by
  refine ⟨_, s.clock, getElem?_set_at _ hcb, ?_⟩
  show (s.slots i).owner.map _ = _
  rw [hown]
  rfl

/-- **The callback is put in the slot**: all but the slot itself is as it should be. -/
theorem Inv.put (h : Inv s) (hcb : s.cbs[sc.k]? = some cb) (hfresh : cb.delivered = none)
    (hacc : (s.slots i).accepts cb = true) (hquiet : s.someAt i .woken = false) :
    Core (s.put i sc cb) ∧ ∀ j, j ≠ i → SlotOk (s.put i sc cb) j ((s.put i sc cb).slots j) := by
  obtain ⟨⟨c, call, t, hown, hc, hsel, hlt, hcall⟩, hpend⟩ := h.accepted hacc hquiet
  have hdel : ∀ k m, DeliveredTo s k m → DeliveredTo (s.put i sc cb) k m := by
    rintro k m ⟨cb', t', hcb', hd⟩
    refine ⟨cb', t', (getElem?_set_off _ ?_).trans hcb', hd⟩
    rintro rfl
    obtain rfl : cb = cb' := Option.some.inj (hcb.symm.trans hcb')
    rw [hfresh] at hd
    cases hd
  refine ⟨⟨h.excl, ?_, ?_, ?_, ?_⟩, ?_⟩
  · intro m x hx
    have hok := h.calls hx
    by_cases hxs : x.slot = i
    · subst hxs
      refine ⟨hok.one, hok.early, hok.drop, hok.used, fun hl hs => ?_, fun pc hpc p hp => ?_⟩
      · obtain ⟨ho, hwok⟩ := hok.owns hl hs
        rw [put_slot]
        exact ⟨ho, hwok.receive (put_delivered hcb ho) _⟩
      · obtain ⟨k, hk, hd⟩ := hok.result pc hpc p hp
        exact ⟨k, hk, hdel k m hd⟩
    · exact hok.frame (fun _ => rfl) (fun _ => put_other hxs) (fun k hd => hdel k m hd)
  · intro sc' hsc' hcons
    cases hsc'
    cases hcons
  · intro k cb' m t' hcb' hd
    rcases getElem?_set_cases hcb hcb' with ⟨rfl, rfl⟩ | ⟨_, hcb'⟩
    · rw [hown] at hd
      cases hd
      exact ⟨call, t, hc, hsel, hlt, hcall⟩
    · exact h.delivered hcb' hd
  · show s.lost ++ (s.slots i).pending.toList = []
    rw [h.lost, hpend]
    rfl
  · intro j hj
    have hslot := h.slots j
    rw [put_other hj]
    exact ⟨hslot.ownerKept (.of_eq rfl) (Nat.le_succ _) rfl rfl rfl rfl, hslot.unowned,
      hslot.waiting, hslot.pending⟩

/-- Nobody is blocked in the slot: the payload is remembered, or the wait has timed out. -/
theorem Inv.put_unblocked (h : Inv s) (hcb : s.cbs[sc.k]? = some cb)
    (hfresh : cb.delivered = none) (hacc : (s.slots i).accepts cb = true)
    (hquiet : s.someAt i .woken = false)
    (hidle : (s.slots i).isWaiting = true → s.someAt i .blocked = false) :
    Inv (s.put i sc cb) := by
  obtain ⟨hcore, hothers⟩ := h.put hcb hfresh hacc hquiet
  refine ⟨hcore, fun j => ?_⟩
  by_cases hj : j = i
  · subst hj
    have hslot := h.slots j
    rw [put_slot]
    refine ⟨hslot.ownerKept (.of_eq rfl) (Nat.le_succ _) rfl rfl rfl rfl, hslot.unowned,
      hslot.waiting, fun hp => Or.inl ?_⟩
    cases hw : (s.slots j).isWaiting with
    | false =>
        show (if (s.slots j).isWaiting = true then _ else true) = true
        rw [hw]
        rfl
    | true =>
        rw [hw, hidle hw, hquiet] at hp
        exact absurd rfl hp
  · exact hothers j hj

/-- The wait that is blocked in the slot is woken for the callback. -/
theorem Inv.put_blocked {c : Nat} {call : Call} (h : Inv s) (hcb : s.cbs[sc.k]? = some cb)
    (hfresh : cb.delivered = none) (hacc : (s.slots i).accepts cb = true)
    (hquiet : s.someAt i .woken = false) (hc : s.calls[c]? = some call) (hi : call.slot = i)
    (hw : call.waits = [.blocked]) :
    Inv ((s.put i sc cb).setCall c (call.setWait 0 .woken)) := by
  subst hi
  obtain ⟨hcore, hothers⟩ := h.put hcb hfresh hacc hquiet
  have hok := h.calls hc
  obtain ⟨hlive, hsel⟩ := hok.live_of_wait hw rfl
  obtain ⟨hown, hwok⟩ := hok.owns hlive hsel
  rw [hw] at hwok
  refine hcore.move hc hlive hothers rfl (Function.update_eq_self _ _).symm (fun _ _ => rfl)
    (Nat.le_refl _) rfl rfl rfl (keeps_setWait 0 .woken)
    (hok.setWait hw rfl (fun _ => hok.used hlive) (fun _ => ?_) (fun p hp => (by cases hp))) ?_
  · show ((s.put call.slot sc cb).slots call.slot).owner = _ ∧
      WaitOk _ c ((s.put call.slot sc cb).slots call.slot) _
    rw [put_slot]
    exact ⟨hown, hwok, sc.k, rfl, put_delivered hcb hown⟩
  · have hslot := h.slots call.slot
    have hwoken : ((s.put call.slot sc cb).setCall c (call.setWait 0 .woken)).calls[c]? =
        some (call.setWait 0 .woken) := getElem?_set_at _ hc
    show SlotOk _ call.slot ((s.put call.slot sc cb).slots call.slot)
    rw [put_slot]
    exact ⟨hslot.ownerKept (callsKept_set hc rfl (keeps_setWait 0 .woken)) (Nat.le_succ _)
      rfl rfl rfl rfl, hslot.unowned, fun _ => ⟨c, _, .woken, hwoken, rfl, setWait_single hw, rfl⟩,
      fun _ => Or.inr ⟨c, _, hwoken, rfl, setWait_single hw⟩⟩

end Put

theorem Inv.visit {i : Fin bufferSize} {sc : Scan} {cb : Callback} {wakes : Option (Nat × Nat)}
    (h : Inv s) (hsc : s.scan = some sc) (hcons : sc.consumed = false)
    (hcb : s.cbs[sc.k]? = some cb)
    (hquiet : s.slotInUse i = true → (s.slots i).accepts cb = true → s.someAt i .woken = false)
    (hs : visitStep s sc i cb wakes = some s') : Inv s' := by
  have hfresh : cb.delivered = none := by
    obtain ⟨cb', hcb', hnone⟩ := h.scan hsc hcons
    obtain rfl : cb = cb' := Option.some.inj (hcb.symm.trans hcb')
    exact hnone
  unfold visitStep at hs
  split at hs
  case isFalse =>
    cases hs
    refine h.callbacks (fun _ _ hk => hk) (fun _ _ hk => Or.inl hk) (fun sc' e _ => ?_)
    cases e
    exact ⟨cb, hcb, hfresh⟩
  case isTrue htake =>
    obtain ⟨hused, hacc⟩ := Bool.and_eq_true_iff.mp htake
    have hnone := hquiet hused hacc
    split at hs
    case isFalse hidle =>
      cases hs
      exact h.put_unblocked hcb hfresh hacc hnone fun hw => absurd hw hidle
    case isTrue =>
      unfold State.signal at hs
      split at hs
      · split at hs
        · split at hs <;> cases hs
          rename_i call hc hbl
          obtain ⟨hw, rfl⟩ := (h.calls hc).single hbl.2
          exact h.put_blocked hcb hfresh hacc hnone hc hbl.1 hw
        · cases hs
      · split at hs <;> cases hs
        rename_i hbl
        exact h.put_unblocked hcb hfresh hacc hnone fun _ => Bool.not_eq_true _ ▸ hbl

end Callbacks

/-! ## 5. Runs -/

theorem proper_visit {s : State} {sc : Scan} {cb : Callback} {wakes : Option (Nat × Nat)}
    (hsc : s.scan = some sc) (hlt : sc.i < bufferSize) (hcb : s.cbs[sc.k]? = some cb)
    (hp : proper s (.visit wakes) = true) (hused : s.slotInUse ⟨sc.i, hlt⟩ = true)
    (hacc : (s.slots ⟨sc.i, hlt⟩).accepts cb = true) : s.someAt ⟨sc.i, hlt⟩ .woken = false := by
  simp only [proper, hsc, hlt, hcb, hused, hacc] at hp
  simpa using hp

/-- **Every proper step keeps the invariant.** -/
theorem Inv.step {s s' : State} {a : Act} (h : Inv s) (hp : proper s a = true)
    (hs : SyncCall.step s a = some s') : Inv s' := by
  have hunused : ∀ {c : Nat} {call : Call}, s.calls[c]? = some call →
      (s.calls[c]?.all fun call => call.waits.isEmpty && !call.dropped) = true →
      call.waits = [] ∧ call.dropped = false := by
    intro c call hc hall
    rw [hc, Option.all_some, Bool.and_eq_true, List.isEmpty_iff, Bool.not_eq_true'] at hall
    exact hall
  cases a with
  | select lh m t =>
      simp only [SyncCall.step] at hs
      split at hs <;> cases hs
      exact h.alloc lh m t
  | init c =>
      simp only [SyncCall.step] at hs
      split at hs
      · split at hs <;> cases hs
        rename_i hc hsel
        exact h.init_select hc hsel
      · cases hs
  | drop c =>
      simp only [SyncCall.step] at hs
      split at hs
      · split at hs <;> cases hs
        rename_i hc hsel
        obtain ⟨hw, hd⟩ := hunused hc hp
        exact h.drop_call hc (Option.isSome_iff_ne_none.mp hsel.1) hw hd
      · cases hs
  | enterWait c =>
      simp only [SyncCall.step] at hs
      split at hs
      · split at hs <;> cases hs
        rename_i hc hsel
        obtain ⟨hw, hd⟩ := hunused hc hp
        exact h.enter_wait hc (Option.isSome_iff_ne_none.mp hsel) hw hd
      · cases hs
  | callback lh e t =>
      simp only [SyncCall.step] at hs
      split at hs <;> cases hs
      refine h.callbacks (fun k cb hk => getElem?_concat_old _ hk) (fun k cb hk => ?_)
        (fun sc hsc _ => ?_)
      · rcases getElem?_concat_cases hk with hk | ⟨_, rfl⟩
        · exact Or.inl hk
        · exact Or.inr rfl
      · split at hsc <;> cases hsc
        exact ⟨_, List.getElem?_concat_length, rfl⟩
  | visit wakes =>
      simp only [SyncCall.step] at hs
      split at hs
      · split at hs
        · split at hs
          · split at hs
            · cases hs
            · rename_i sc hsc hlt _ cb hcb hcons
              exact h.visit hsc (Bool.not_eq_true _ ▸ hcons) hcb (proper_visit hsc hlt hcb hp) hs
          · cases hs
        · cases hs
      · cases hs
  | endScan =>
      simp only [SyncCall.step] at hs
      split at hs
      · split at hs <;> cases hs
        exact h.callbacks (fun _ _ hk => hk) (fun _ _ hk => Or.inl hk) (fun _ e => (by cases e))
      · cases hs
  | check c j | enter c j | spurious c j | timeout c j | resume c j | leave c j =>
      simp only [SyncCall.step, Act.wait] at hs
      split at hs
      · split at hs
        · rename_i hc _ pc hj
          exact h.wait_step hc hj hp hs
        · cases hs
      · cases hs

theorem inv_init : Inv init := by
  refine ⟨⟨fun hc => ?_, fun hc => ?_, fun hsc => ?_, fun hcb => ?_, rfl⟩, fun i =>
    ⟨fun c e => ?_, fun _ => rfl, fun e => ?_, fun e => absurd rfl e⟩⟩
  · cases hc
  · cases hc
  · cases hsc
  · cases hcb
  · cases e
  · cases e

/-- Wait `j` of call `c` returned success with the payload of callback `k`, or is about to. -/
def Returned (s : State) (c j k : Nat) : Prop :=
  ∃ call pc, s.calls[c]? = some call ∧ call.waits[j]? = some pc ∧
    pc.result = some (.success (some k))

theorem Inv.returned {s : State} (h : Inv s) {c j k : Nat} (hret : Returned s c j k) :
    j = 0 ∧ DeliveredTo s k c := by
  obtain ⟨call, pc, hc, hj, hres⟩ := hret
  obtain ⟨k', hk', hd⟩ := (h.calls hc).result pc (List.mem_of_getElem? hj) _ hres
  cases hk'
  exact ⟨((h.calls hc).single hj).2, hd⟩

/-- **What a wait returns.** In every run whose steps are proper, a wait that returns success
    returns the payload of a callback that its call asked for and that was delivered for this call
    after its select was through; no payload is returned by two waits; and none is overwritten. -/
theorem wait_returns_its_callback {s : State}
    (hr : Reach step (fun s a => proper s a = true) init s) :
    (∀ (c : Nat) (call : Call) (pc : WaitPc) (p : Option Nat), s.calls[c]? = some call →
      pc ∈ call.waits → pc.result = some (.success p) →
      ∃ (k : Nat) (cb : Callback) (t t' : Nat), p = some k ∧ s.cbs[k]? = some cb ∧
        call.accepts cb = true ∧ call.selectedAt = some t ∧ cb.delivered = some (c, t') ∧
        t < t') ∧
    (∀ c c' j j' k, Returned s c j k → Returned s c' j' k → c = c' ∧ j = j') ∧
    s.lost = [] := by
  have h : Inv s := hr.inv inv_init fun _ _ _ hi hp hs => hi.step hp hs
  refine ⟨fun c call pc p hc hpc hres => ?_, fun c c' j j' k hret hret' => ?_, h.lost⟩
  · obtain ⟨k, rfl, cb, t', hcb, hd⟩ := (h.calls hc).result pc hpc p hres
    obtain ⟨call', t, hc', hsel, hlt, hacc⟩ := h.delivered hcb hd
    obtain rfl : call = call' := Option.some.inj (hc.symm.trans hc')
    exact ⟨k, cb, t, t', rfl, hcb, hacc, hsel, hd, hlt⟩
  · obtain ⟨rfl, cb, t, hcb, hd⟩ := h.returned hret
    obtain ⟨rfl, cb', t', hcb', hd'⟩ := h.returned hret'
    obtain rfl : cb = cb' := Option.some.inj (hcb.symm.trans hcb')
    cases hd.symm.trans hd'
    exact ⟨rfl, rfl⟩

/-- Client 3 selects the report of ioctl 9, and waits. -/
def blockedWait : List Act :=
  [.select 3 0 9, .init 0, .enterWait 0, .check 0 0, .enter 0 0]

/-- Its call, with the waits as they end. -/
def ioctlCall (waits : List WaitPc) : Call := ⟨3, 0, 9, ⟨0, by decide⟩, some 0, false, waits⟩

theorem wait_returns_its_callback_ioctl :
    ∃ s, Reach step (fun s a => proper s a = true) init s ∧ Returned s 0 0 0 ∧
      ∃ call cb, s.calls[0]? = some call ∧ s.cbs[0]? = some cb ∧ Call.accepts call cb = true := by
  have hrun : runTest step proper init
      (blockedWait ++ [.callback 3 ioctlReport 9, .visit (some (0, 0)), .endScan, .resume 0 0,
        .leave 0 0])
      (fun s => decide (s.calls = [ioctlCall [.done (.success (some 0))]])) = true := by
    decide
  obtain ⟨s, hr, hp⟩ := reach_of_runTest hrun
  have hc : s.calls[0]? = some (ioctlCall [.done (.success (some 0))]) := by
    rw [of_decide_eq_true hp]
    rfl
  obtain ⟨k, cb, _, _, hk, hcb, hacc, _⟩ :=
    (wait_returns_its_callback hr).1 0 _ _ _ hc (List.mem_singleton_self _) rfl
  cases hk
  exact ⟨s, hr, ⟨_, _, hc, rfl, rfl⟩, _, cb, hc, hcb, hacc⟩

/-- **A wait that is woken for no reason** returns success with a payload no callback wrote. -/
theorem spurious_wake_returns_nothing :
    ∃ s, Reach step Always init s ∧ s.cbs = [] ∧
      s.calls = [ioctlCall [.done (.success none)]] := by
  have hrun : runTest step (fun _ _ => true) init
      (blockedWait ++ [.spurious 0 0, .resume 0 0, .leave 0 0])
      (fun s => decide (s.cbs = [] ∧ s.calls = [ioctlCall [.done (.success none)]])) = true := by
    decide
  obtain ⟨s, hr, hp⟩ := reach_of_runTest hrun
  obtain ⟨hcbs, hcalls⟩ := of_decide_eq_true hp
  exact ⟨s, hr.always, hcbs, hcalls⟩

end Y210.Gps.SyncCall

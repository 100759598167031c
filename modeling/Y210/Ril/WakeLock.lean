/-
  File:      Y210/Ril/WakeLock.lean
  Subject:   THE WAKE LOCK OF LIBRIL (ril.cpp): `RIL_onUnsolicitedResponse` takes it, a timed
             callback releases it, and the next response cancels that callback and asks for another.

  Any number of threads are in `RIL_onUnsolicitedResponse`, the event thread is in
  `userTimerCallback`, and nothing keeps them apart: a step is one access of a shared variable. A
  `UserCallbackInfo` is known by its address; `malloc` gives any address that is not in use. The
  timers are an `Agenda`, as those of the event loop are; the vendor may ask for callbacks of its
  own. `crashed` is a `UserCallbackInfo` written when `s_last_wake_timeout_info` has become NULL
  or what it points to was freed.

  * `step` -- the machine, `Effect` -- what a step can do;
  * `wake_lock_let_go` -- in every interleaving the lock is not left behind;
  * `wake_lock_held` -- when the calls and the callbacks exclude each other, nothing crashes and the
    lock is held for a second after every response.
-/
import Mathlib.Data.List.Nodup
import Mathlib.Data.List.Perm.Basic
import Mathlib.Logic.Function.Basic
import Y210.Lib.Agenda
import Y210.Lib.Indexed
import Y210.Lib.Run

namespace Y210.Ril.WakeLock

open Y210.Lib

/-! ## 1. State -/

/-- `UserCallbackInfo`: whether its callback is `wakeTimeoutCallback`, and whether its `userParam`
    was set. -/
structure Info where
  wake : Bool
  param : Bool
  deriving DecidableEq

/-- Where a call of `RIL_onUnsolicitedResponse` stands that took the lock. -/
inductive Stage where
  | marshal
  | check
  | cancel
  | schedule
  | store (a : Nat)
  deriving DecidableEq

/-- Where the event thread stands in `userTimerCallback`. -/
inductive Firing where
  | release (a : Nat)
  | called (a : Nat)
  | matched (a : Nat)
  | cleared (a : Nat)
  deriving DecidableEq

def Firing.addr : Firing → Nat
  | .release a => a
  | .called a => a
  | .matched a => a
  | .cleared a => a

structure State where
  timers : Agenda Nat
  mem : Nat → Option Info
  locked : Bool
  last : Option Nat
  calls : List Stage
  firing : Option Firing
  since : Option Nat
  crashed : Bool

def init : State where
  timers := ⟨0, [], [], [], []⟩
  mem := fun _ => none
  locked := false
  last := none
  calls := []
  firing := none
  since := none
  crashed := false

inductive Act where
  | tick (d : Nat)
  -- a thread in `RIL_onUnsolicitedResponse`
  | grab
  | fail (n : Nat)
  | sent (n : Nat)
  | check (n : Nat)
  | cancel (n : Nat)
  | schedule (n a : Nat)
  | store (n : Nat)
  -- `RIL_requestTimedCallback`
  | other (a d : Nat)
  -- the event thread
  | expire
  | fire
  | release
  | compare
  | clear
  | free

/-! ## 2. Steps -/

/-- `TIMEVAL_WAKE_TIMEOUT`, in milliseconds. -/
def wakeTimeout : Nat := 1000

/-- What the callback does with its parameter. -/
def called (i : Info) (a : Nat) : Firing := if i.wake && !i.param then .release a else .called a

def move (s : State) : Act → Option State
  | .tick d => some { s with timers := { s.timers with now := s.timers.now + d } }
  | .grab => some { s with locked := true, calls := s.calls ++ [.marshal] }
  | .fail n =>
    -- `error_exit`
    match s.calls[n]? with
    | some .marshal => some { s with locked := false, calls := s.calls.eraseIdx n }
    | _ => none
  | .sent n =>
    match s.calls[n]? with
    | some .marshal => some { s with calls := s.calls.set n .check }
    | _ => none
  | .check n =>
    match s.calls[n]? with
    | some .check =>
      some { s with calls := s.calls.set n (if s.last.isSome then .cancel else .schedule) }
    | _ => none
  | .cancel n =>
    match s.calls[n]? with
    | some .cancel =>
      match s.last with
      | none => some { s with crashed := true }
      | some p =>
        match s.mem p with
        | none => some { s with crashed := true }
        | some i => some { s with
            mem := Function.update s.mem p (some { i with param := true })
            calls := s.calls.set n .schedule }
    | _ => none
  | .schedule n a =>
    match s.calls[n]?, s.mem a with
    | some .schedule, none => some { s with
        mem := Function.update s.mem a (some ⟨true, false⟩)
        timers := s.timers.put a wakeTimeout
        since := some s.timers.now
        calls := s.calls.set n (.store a) }
    | _, _ => none
  | .store n =>
    match s.calls[n]? with
    | some (.store a) => some { s with last := some a, calls := s.calls.eraseIdx n }
    | _ => none
  | .other a d =>
    match s.mem a with
    | none => some { s with
        mem := Function.update s.mem a (some ⟨false, false⟩)
        timers := s.timers.put a d }
    | some _ => none
  | .expire =>
    if s.firing = none ∧ s.timers.due = [] then some { s with timers := s.timers.expire } else none
  | .fire =>
    match s.firing, s.timers.due with
    | none, x :: rest =>
      match s.mem x.1 with
      | none => some { s with crashed := true }
      | some i => some { s with
          timers := { s.timers with
            due := rest
            done := s.timers.done ++ [⟨x.1, x.2, s.timers.now⟩] }
          firing := some (called i x.1) }
    | _, _ => none
  | .release =>
    match s.firing with
    | some (.release a) => some { s with locked := false, firing := some (.called a) }
    | _ => none
  | .compare =>
    match s.firing with
    | some (.called a) =>
      some { s with firing := some (if s.last = some a then .matched a else .cleared a) }
    | _ => none
  | .clear =>
    match s.firing with
    | some (.matched a) => some { s with last := none, firing := some (.cleared a) }
    | _ => none
  | .free =>
    match s.firing with
    | some (.cleared a) => some { s with mem := Function.update s.mem a none, firing := none }
    | _ => none

def step (s : State) (act : Act) : Option State := if s.crashed then none else move s act

/-- What a step can do. -/
inductive Effect (s : State) : Act → State → Prop where
  | tick (d : Nat) :
      Effect s (.tick d) { s with timers := { s.timers with now := s.timers.now + d } }
  | grab : Effect s .grab { s with locked := true, calls := s.calls ++ [.marshal] }
  | fail {n : Nat} (hn : s.calls[n]? = some .marshal) :
      Effect s (.fail n) { s with locked := false, calls := s.calls.eraseIdx n }
  | sent {n : Nat} (hn : s.calls[n]? = some .marshal) :
      Effect s (.sent n) { s with calls := s.calls.set n .check }
  | check {n : Nat} (hn : s.calls[n]? = some .check) :
      Effect s (.check n)
        { s with calls := s.calls.set n (if s.last.isSome then .cancel else .schedule) }
  | crash {n : Nat} (hn : s.calls[n]? = some .cancel)
      (hlast : ∀ p, s.last = some p → s.mem p = none) :
      Effect s (.cancel n) { s with crashed := true }
  | cancel {n p : Nat} {i : Info} (hn : s.calls[n]? = some .cancel) (hlast : s.last = some p)
      (hp : s.mem p = some i) : Effect s (.cancel n) { s with
        mem := Function.update s.mem p (some { i with param := true })
        calls := s.calls.set n .schedule }
  | schedule {n a : Nat} (hn : s.calls[n]? = some .schedule) (ha : s.mem a = none) :
      Effect s (.schedule n a) { s with
        mem := Function.update s.mem a (some ⟨true, false⟩)
        timers := s.timers.put a wakeTimeout
        since := some s.timers.now
        calls := s.calls.set n (.store a) }
  | store {n a : Nat} (hn : s.calls[n]? = some (.store a)) :
      Effect s (.store n) { s with last := some a, calls := s.calls.eraseIdx n }
  | other {a : Nat} (ha : s.mem a = none) (d : Nat) : Effect s (.other a d) { s with
      mem := Function.update s.mem a (some ⟨false, false⟩)
      timers := s.timers.put a d }
  | expire (hf : s.firing = none) : Effect s .expire { s with timers := s.timers.expire }
  | lost {x : Nat × Nat} {rest : List (Nat × Nat)} (hdue : s.timers.due = x :: rest)
      (hx : s.mem x.1 = none) : Effect s .fire { s with crashed := true }
  | fire {x : Nat × Nat} {rest : List (Nat × Nat)} {i : Info} (hf : s.firing = none)
      (hdue : s.timers.due = x :: rest) (hx : s.mem x.1 = some i) : Effect s .fire { s with
        timers := { s.timers with
          due := rest
          done := s.timers.done ++ [⟨x.1, x.2, s.timers.now⟩] }
        firing := some (called i x.1) }
  | release {a : Nat} (hf : s.firing = some (.release a)) :
      Effect s .release { s with locked := false, firing := some (.called a) }
  | compare {a : Nat} (hf : s.firing = some (.called a)) :
      Effect s .compare
        { s with firing := some (if s.last = some a then .matched a else .cleared a) }
  | clear {a : Nat} (hf : s.firing = some (.matched a)) :
      Effect s .clear { s with last := none, firing := some (.cleared a) }
  | free {a : Nat} (hf : s.firing = some (.cleared a)) :
      Effect s .free { s with mem := Function.update s.mem a none, firing := none }

theorem effect_of_move {s s' : State} {act : Act} (hs : move s act = some s') :
    Effect s act s' := by
  cases act <;> simp only [move] at hs
  case tick d =>
    cases hs
    exact .tick d
  case grab =>
    cases hs
    exact .grab
  case fail n =>
    split at hs
    · rename_i hn
      cases hs
      exact .fail hn
    · cases hs
  case sent n =>
    split at hs
    · rename_i hn
      cases hs
      exact .sent hn
    · cases hs
  case check n =>
    split at hs
    · rename_i hn
      cases hs
      exact .check hn
    · cases hs
  case cancel n =>
    split at hs
    · rename_i hn
      split at hs
      · rename_i hlast
        cases hs
        exact .crash hn fun p hp => absurd (hlast.symm.trans hp).symm (Option.some_ne_none p)
      · rename_i p hlast
        split at hs
        · rename_i hp
          cases hs
          exact .crash hn fun q hq => Option.some.inj (hlast.symm.trans hq) ▸ hp
        · rename_i i hp
          cases hs
          exact .cancel hn hlast hp
    · cases hs
  case schedule n a =>
    split at hs
    · rename_i hn ha
      cases hs
      exact .schedule hn ha
    · cases hs
  case store n =>
    split at hs
    · rename_i a hn
      cases hs
      exact .store hn
    · cases hs
  case other a d =>
    split at hs
    · rename_i ha
      cases hs
      exact .other ha d
    · cases hs
  case expire =>
    split at hs
    · rename_i hc
      cases hs
      exact .expire hc.1
    · cases hs
  case fire =>
    split at hs
    · rename_i x rest hf hdue
      split at hs
      · rename_i hx
        cases hs
        exact .lost hdue hx
      · rename_i i hx
        cases hs
        exact .fire hf hdue hx
    · cases hs
  case release =>
    split at hs
    · rename_i a hf
      cases hs
      exact .release hf
    · cases hs
  case compare =>
    split at hs
    · rename_i a hf
      cases hs
      exact .compare hf
    · cases hs
  case clear =>
    split at hs
    · rename_i a hf
      cases hs
      exact .clear hf
    · cases hs
  case free =>
    split at hs
    · rename_i a hf
      cases hs
      exact .free hf
    · cases hs

theorem effect_of_step {s s' : State} {act : Act} (hs : step s act = some s') :
    s.crashed = false ∧ Effect s act s' := by
  rw [step] at hs
  split at hs
  · cases hs
  · rename_i hc
    exact ⟨Bool.eq_false_of_not_eq_true hc, effect_of_move hs⟩

/-- The timers are an agenda. -/
theorem agenda_step {s s' : State} {act : Act} (h : Effect s act s') :
    Agenda.Step s.timers s'.timers := by
  cases h with
  | tick d => exact .tick _ d
  | schedule => exact .add _ _ _
  | other => exact .add _ _ _
  | expire => exact .expire _
  | fire _ hdue => exact .act _ _ _ hdue
  | _ => exact .stay _

theorem kept_of_reach {C : State → Act → Prop} {s : State} (hr : Reach step C init s) :
    s.timers.Kept :=
  hr.inv (I := fun s => s.timers.Kept) (Agenda.kept_empty 0) fun _ _ _ hk _ hs =>
    hk.step (agenda_step (effect_of_step hs).2)

/-! ## 3. Timers and memory -/

/-- The timers that are outstanding are in memory at addresses of their own, the one whose callback
    is under way too; and those that release the lock do it within a second. -/
structure Timers (s : State) : Prop where
  live : ∀ x ∈ s.timers.outstanding, s.mem x.1 ≠ none
  nodup : (s.timers.outstanding.map Prod.fst).Nodup
  firing : ∀ f, s.firing = some f →
    s.mem f.addr ≠ none ∧ f.addr ∉ s.timers.outstanding.map Prod.fst
  soon : ∀ x ∈ s.timers.outstanding, ∀ i, s.mem x.1 = some i → i.wake = true →
    x.2 ≤ s.timers.now + wakeTimeout

theorem timers_init : Timers init := by
  constructor <;> simp [init, Agenda.outstanding]

section Timers

variable {s s' : State} {act : Act} {a d p : Nat} {i : Info}

theorem called_addr (i : Info) (a : Nat) : (called i a).addr = a := by
  rw [called]
  split <;> rfl

/-- `malloc`, and the timer that is added. -/
theorem Timers.put (h : Timers s) (ha : s.mem a = none) (hd : i.wake = true → d ≤ wakeTimeout) :
    Timers { s with
      mem := Function.update s.mem a (some i)
      timers := s.timers.put a d } := by
  have hperm := Agenda.outstanding_put s.timers a d
  have hne : ∀ x ∈ s.timers.outstanding, x.1 ≠ a := fun x hx hxa => h.live x hx (hxa ▸ ha)
  -- an outstanding timer is the new one, or was outstanding and its memory is what it was
  have hcases : ∀ x ∈ (s.timers.put a d).outstanding, x = (a, s.timers.now + d) ∨
      x ∈ s.timers.outstanding ∧ Function.update s.mem a (some i) x.1 = s.mem x.1 :=
    fun x hx => (List.mem_cons.mp (hperm.mem_iff.mp hx)).imp_right fun hx =>
      ⟨hx, Function.update_of_ne (hne x hx) _ _⟩
  refine ⟨fun x hx => ?_, ?_, fun f hf => ?_, fun x hx j hj hw => ?_⟩
  · show Function.update s.mem a (some i) x.1 ≠ none
    rcases hcases x hx with rfl | ⟨hx, hmem⟩
    · rw [Function.update_self]
      exact Option.some_ne_none i
    · rw [hmem]
      exact h.live x hx
  · refine ((hperm.map Prod.fst).nodup_iff).mpr (List.nodup_cons.mpr ⟨fun hm => ?_, h.nodup⟩)
    obtain ⟨x, hx, hxa⟩ := List.mem_map.mp hm
    exact hne x hx hxa
  · obtain ⟨hmem, hout⟩ := h.firing f hf
    have hfa : f.addr ≠ a := fun hfa => hmem (hfa ▸ ha)
    refine ⟨?_, fun hm => ?_⟩
    · show Function.update s.mem a (some i) f.addr ≠ none
      rwa [Function.update_of_ne hfa]
    · rcases List.mem_cons.mp ((hperm.map Prod.fst).mem_iff.mp hm) with hm | hm
      · exact hfa hm
      · exact hout hm
  · replace hj : Function.update s.mem a (some i) x.1 = some j := hj
    rcases hcases x hx with rfl | ⟨hx, hmem⟩
    · rw [Function.update_self] at hj
      cases hj
      exact Nat.add_le_add_left (hd hw) _
    · exact h.soon x hx j (hmem ▸ hj) hw

/-- The cancellation. -/
theorem Timers.setParam (h : Timers s) (hp : s.mem p = some i) (calls : List Stage) :
    Timers { s with
      mem := Function.update s.mem p (some { i with param := true })
      calls := calls } := by
  have hlive : ∀ a, s.mem a ≠ none →
      Function.update s.mem p (some { i with param := true }) a ≠ none := fun a ha => by
    by_cases hap : a = p
    · rw [hap, Function.update_self]
      exact Option.some_ne_none _
    · rwa [Function.update_of_ne hap]
  refine ⟨fun x hx => hlive x.1 (h.live x hx), h.nodup, fun f hf => ?_, fun x hx j hj hw => ?_⟩
  · exact ⟨hlive f.addr (h.firing f hf).1, (h.firing f hf).2⟩
  · replace hj : Function.update s.mem p (some { i with param := true }) x.1 = some j := hj
    by_cases hxp : x.1 = p
    · rw [hxp, Function.update_self] at hj
      cases hj
      exact h.soon x hx i (hxp ▸ hp) hw
    · rw [Function.update_of_ne hxp] at hj
      exact h.soon x hx j hj hw

/-- The event thread goes on in the same callback. -/
theorem Timers.goOn (h : Timers s) {f g : Firing} (hf : s.firing = some f)
    (haddr : g.addr = f.addr) (locked : Bool) (last : Option Nat) :
    Timers { s with locked := locked, last := last, firing := some g } :=
  { h with
    firing := fun _ hg => by
      cases hg
      rw [haddr]
      exact h.firing f hf }

theorem Timers.step (h : Timers s) (he : Effect s act s') : Timers s' := by
  cases he with
  | tick d =>
    refine { h with soon := fun x hx i hi hw => Nat.le_trans (h.soon x hx i hi hw) ?_ }
    exact Nat.add_le_add_right (Nat.le_add_right _ d) _
  | grab => exact { h with }
  | fail => exact { h with }
  | sent => exact { h with }
  | check => exact { h with }
  | crash => exact { h with }
  | lost => exact { h with }
  | store => exact { h with }
  | cancel hn hlast hp => exact h.setParam hp _
  | schedule hn ha => exact { h.put (i := ⟨true, false⟩) ha fun _ => Nat.le_refl _ with }
  | other ha d => exact h.put (i := ⟨false, false⟩) ha fun hw => Bool.noConfusion hw
  | expire hf =>
    have hout := Agenda.outstanding_expire s.timers
    refine ⟨fun x hx => h.live x (hout ▸ hx), ?_, fun f hf => ?_, fun x hx => h.soon x (hout ▸ hx)⟩
    · show (s.timers.expire.outstanding.map Prod.fst).Nodup
      rw [hout]
      exact h.nodup
    · show _ ∧ f.addr ∉ s.timers.expire.outstanding.map Prod.fst
      rw [hout]
      exact h.firing f hf
  | @fire x rest i hf hdue hx =>
    have hout : s.timers.outstanding = x :: (rest ++ s.timers.waiting) := by
      rw [Agenda.outstanding, hdue]
      rfl
    have hnd := h.nodup
    rw [hout, List.map_cons, List.nodup_cons] at hnd
    have hin : ∀ y ∈ rest ++ s.timers.waiting, y ∈ s.timers.outstanding := fun y hy => by
      rw [hout]
      exact List.mem_cons_of_mem x hy
    refine ⟨fun y hy => h.live y (hin y hy), hnd.2, fun f hf => ?_, fun y hy =>
      h.soon y (hin y hy)⟩
    cases hf
    rw [called_addr]
    refine ⟨?_, hnd.1⟩
    show s.mem x.1 ≠ none
    rw [hx]
    exact Option.some_ne_none i
  | @release a hf => exact h.goOn (g := .called a) hf rfl false s.last
  | @compare a hf =>
    refine h.goOn hf ?_ _ _
    split <;> rfl
  | @clear a hf => exact h.goOn (g := .cleared a) hf rfl s.locked none
  | @free a hf =>
    obtain ⟨-, hout⟩ := h.firing _ hf
    have hne : ∀ x ∈ s.timers.outstanding, Function.update s.mem a none x.1 = s.mem x.1 := by
      refine fun x hx => Function.update_of_ne (fun hxa => hout ?_) _ _
      exact List.mem_map.mpr ⟨x, hx, hxa⟩
    refine ⟨fun x hx => ?_, h.nodup, fun f hf' => absurd hf'.symm (Option.some_ne_none f),
      fun x hx i hi => h.soon x hx i ((hne x hx).symm.trans hi)⟩
    show Function.update s.mem a none x.1 ≠ none
    rw [hne x hx]
    exact h.live x hx

end Timers

/-! ## 4. The lock is not left behind -/

/-- The call will ask for a timer, or release the lock. -/
def Stage.pledged : Stage → Bool
  | .store _ => false
  | _ => true

/-- Someone will release the lock: a call that is under way will, or asks for a timer; the event
    thread is about to; or a timer that was not cancelled is outstanding. -/
def Pledged (s : State) : Prop :=
  (∃ c ∈ s.calls, c.pledged = true) ∨ (∃ a, s.firing = some (.release a)) ∨
    ∃ x ∈ s.timers.outstanding, s.mem x.1 = some ⟨true, false⟩

section Pledged

variable {s s' : State} {act : Act} {n : Nat} {c c' : Stage}

theorem mem_set_of_getElem? {l : List Stage} (hn : l[n]? = some c) : c' ∈ l.set n c' :=
  List.mem_iff_getElem?.mpr ⟨n, getElem?_set_at c' hn⟩

theorem mem_eraseIdx_of_ne {l : List Stage} (hn : l[n]? = some c) (hm : c' ∈ l) (hne : c' ≠ c) :
    c' ∈ l.eraseIdx n := by
  obtain ⟨hlt, rfl⟩ := List.getElem?_eq_some_iff.mp hn
  exact (List.mem_cons.mp ((List.getElem_cons_eraseIdx_perm hlt).mem_iff.mpr hm)).resolve_left hne

theorem pledged_step (ht : Timers s) (h : s.locked = true → Pledged s) (he : Effect s act s') :
    s'.locked = true → Pledged s' := by
  cases he with
  | tick d => exact h
  | grab =>
    exact fun _ => Or.inl ⟨.marshal, List.mem_append_right _ (List.mem_singleton.mpr rfl), rfl⟩
  | fail => exact fun hk => Bool.noConfusion hk
  | sent hn => exact fun _ => Or.inl ⟨.check, mem_set_of_getElem? hn, rfl⟩
  | check hn =>
    refine fun _ => Or.inl ⟨_, mem_set_of_getElem? hn, ?_⟩
    split <;> rfl
  | crash => exact h
  | lost => exact h
  | cancel hn hlast hp => exact fun _ => Or.inl ⟨.schedule, mem_set_of_getElem? hn, rfl⟩
  | @schedule n a hn ha =>
    -- the promise passes from the call to its timer
    refine fun _ => Or.inr (Or.inr ⟨(a, s.timers.now + wakeTimeout), ?_, ?_⟩)
    on_goal 2 => exact Function.update_self _ _ _
    exact (Agenda.outstanding_put s.timers a wakeTimeout).mem_iff.mpr List.mem_cons_self
  | @store n a hn =>
    refine fun hk => (h hk).imp_left fun ⟨c, hc, hp⟩ => ⟨c, mem_eraseIdx_of_ne hn hc ?_, hp⟩
    rintro rfl
    exact Bool.noConfusion hp
  | @other a ha d =>
    refine fun hk => (h hk).imp_right (Or.imp_right fun ⟨x, hx, hm⟩ => ⟨x, ?_, ?_⟩)
    · exact (Agenda.outstanding_put s.timers a d).mem_iff.mpr (List.mem_cons_of_mem _ hx)
    · have hne : x.1 ≠ a := fun hxa => ht.live x hx (hxa ▸ ha)
      exact (Function.update_of_ne hne _ _).trans hm
  | expire hf =>
    refine fun hk => (h hk).imp_right (Or.imp_right fun ⟨x, hx, hm⟩ => ⟨x, ?_, hm⟩)
    exact (Agenda.outstanding_expire s.timers).symm ▸ hx
  | @fire x rest i hf hdue hx =>
    refine fun hk => (h hk).imp_right fun hk => ?_
    rcases hk with ⟨a, ha⟩ | ⟨y, hy, hm⟩
    · exact absurd (hf.symm.trans ha).symm (Option.some_ne_none _)
    · rw [Agenda.outstanding, hdue, List.cons_append] at hy
      rcases List.mem_cons.mp hy with rfl | hy
      · -- it was this one: the event thread is about to release the lock
        cases hx.symm.trans hm
        exact Or.inl ⟨y.1, rfl⟩
      · exact Or.inr ⟨y, hy, hm⟩
  | release => exact fun hk => Bool.noConfusion hk
  | compare hf =>
    refine fun hk => (h hk).imp_right fun hk => ?_
    rcases hk with ⟨b, hb⟩ | hk
    · cases hf.symm.trans hb
    · exact Or.inr hk
  | clear hf =>
    refine fun hk => (h hk).imp_right fun hk => ?_
    rcases hk with ⟨b, hb⟩ | hk
    · cases hf.symm.trans hb
    · exact Or.inr hk
  | @free a hf =>
    obtain ⟨-, hout⟩ := ht.firing _ hf
    refine fun hk => (h hk).imp_right fun hk => ?_
    rcases hk with ⟨b, hb⟩ | ⟨x, hx, hm⟩
    · cases hf.symm.trans hb
    · have hne : x.1 ≠ a := fun hxa => hout (hxa ▸ List.mem_map_of_mem hx)
      exact Or.inr ⟨x, hx, (Function.update_of_ne hne _ _).trans hm⟩

end Pledged

theorem timers_of_reach {C : State → Act → Prop} {s : State} (hr : Reach step C init s) :
    Timers s :=
  hr.inv (I := Timers) timers_init fun _ _ _ ht _ hs => ht.step (effect_of_step hs).2

/-- **The wake lock is not left behind**, in every interleaving of responses and callbacks: while it
    is held a call is on its way to ask for a timer or to release it, the event thread is about to
    release it, or a timer that was not cancelled is outstanding and due within a second. -/
theorem wake_lock_let_go {s : State} (hr : Reach step Always init s) (hl : s.locked = true) :
    (∃ c ∈ s.calls, c.pledged = true) ∨ (∃ a, s.firing = some (.release a)) ∨
      ∃ x ∈ s.timers.outstanding, s.mem x.1 = some ⟨true, false⟩ ∧
        x.2 ≤ s.timers.now + wakeTimeout := by
  have hp := hr.invOn (I := fun s => s.locked = true → Pledged s) (J := Timers)
    (fun _ => timers_of_reach) (fun hk => Bool.noConfusion hk)
    (fun _ _ _ ht h _ hs => pledged_step ht h (effect_of_step hs).2) hl
  refine hp.imp_right (Or.imp_right fun ⟨x, hx, hm⟩ => ⟨x, hx, hm, ?_⟩)
  exact (timers_of_reach hr).soon x hx _ hm rfl

/-- Two responses at once: both cancel the timer there is, and each asks for one. -/
theorem wake_lock_let_go_two : ∃ s : State, s.calls = [] ∧ s.locked = true ∧
    ∃ x ∈ s.timers.outstanding, s.mem x.1 = some ⟨true, false⟩ := by
  have hrun : runTest step (fun _ _ => true) init
      [.grab, .sent 0, .check 0, .schedule 0 1, .store 0, .tick 5, .grab, .grab, .sent 0, .sent 1,
        .check 0, .check 1, .cancel 0, .cancel 1, .schedule 1 2, .schedule 0 3, .store 0, .store 0]
      (fun s => decide (s.calls = [] ∧ s.locked = true ∧ s.firing = none)) = true := by
    decide +kernel
  obtain ⟨s, hr, hp⟩ := reach_of_runTest hrun
  obtain ⟨hcalls, hlocked, hfiring⟩ := of_decide_eq_true hp
  rcases wake_lock_let_go hr.always hlocked with ⟨c, hc, -⟩ | ⟨a, ha⟩ | ⟨x, hx, hm, -⟩
  · rw [hcalls] at hc
    cases hc
  · cases hfiring.symm.trans ha
  · exact ⟨s, hcalls, hlocked, x, hx, hm⟩

/-! ## 5. The lock is held -/

/-- Calls and callbacks exclude each other, and responses can be marshalled. -/
def Apart (s : State) : Act → Prop
  | .grab => s.calls = [] ∧ s.firing = none
  | .fail _ => False
  | .fire => s.calls = []
  | _ => True

/-- Where the one thread stands that is in a call or in a callback. -/
inductive Phase where
  | idle
  | call (c : Stage)
  | callback (f : Firing)

def Phase.calls : Phase → List Stage
  | .call c => [c]
  | _ => []

def Phase.firing : Phase → Option Firing
  | .callback f => some f
  | _ => none

/-- The one timer that may release the lock yet. -/
def Phase.timer (last : Option Nat) : Phase → Option Nat
  | .call .schedule => none
  | .call (.store a) => some a
  | _ => last

/-- What is known there. -/
def Phase.Law (s : State) : Phase → Prop
  | .idle => True
  | .call .cancel => s.locked = true ∧ s.last ≠ none
  | .call (.store a) => s.locked = true ∧ s.mem a ≠ none
  | .call _ => s.locked = true
  | .callback (.release _) => ∀ t, s.since = some t → t + wakeTimeout < s.timers.now
  | .callback (.called _) => True
  | .callback (.matched a) => s.last = some a
  | .callback (.cleared a) => s.last ≠ some a

structure Serial (s : State) (p : Phase) : Prop where
  ok : s.crashed = false
  calls : s.calls = p.calls
  firing : s.firing = p.firing
  last : ∀ a, s.last = some a → s.mem a ≠ none
  current : ∀ x ∈ s.timers.outstanding, s.mem x.1 = some ⟨true, false⟩ →
    p.timer s.last = some x.1 ∧ ∃ t, s.since = some t ∧ x.2 = t + wakeTimeout
  law : p.Law s
  held : ∀ t, s.since = some t → s.timers.now ≤ t + wakeTimeout → s.locked = true

theorem serial_init : Serial init .idle := by
  constructor <;> simp [init, Agenda.outstanding, Phase.calls, Phase.firing, Phase.Law]

section Serial

variable {s s' : State} {act : Act} {n a q : Nat} {c : Stage} {f : Firing} {i : Info} {p : Phase}

/-- The one call there is. -/
theorem Serial.in_call (h : Serial s p) (hn : s.calls[n]? = some c) : p = .call c ∧ n = 0 := by
  rw [h.calls] at hn
  cases p <;> simp [Phase.calls, List.getElem?_cons] at hn
  exact ⟨congrArg _ hn.2, hn.1⟩

theorem Serial.in_callback (h : Serial s p) (hf : s.firing = some f) : p = .callback f := by
  rw [h.firing] at hf
  cases p <;> cases hf
  rfl

theorem Serial.in_none (h : Serial s p) (hcalls : s.calls = []) (hf : s.firing = none) :
    p = .idle := by
  rw [h.calls] at hcalls
  rw [h.firing] at hf
  cases p with
  | idle => rfl
  | call => cases hcalls
  | callback => cases hf

theorem Serial.locked (h : Serial s (.call c)) : s.locked = true := by
  have hlaw := h.law
  cases c with
  | cancel => exact hlaw.1
  | store => exact hlaw.1
  | _ => exact hlaw

/-- Time passes, or timers and memory come to what there was. -/
theorem Phase.Law.congr (h : p.Law s) (hlocked : s'.locked = s.locked) (hlast : s'.last = s.last)
    (hmem : ∀ a, s.mem a ≠ none → s'.mem a ≠ none) (hsince : s'.since = s.since)
    (hnow : s.timers.now ≤ s'.timers.now) : p.Law s' := by
  cases p with
  | idle => trivial
  | call c => cases c <;> simp only [Law, hlocked, hlast] at h ⊢ <;> grind
  | callback f => cases f <;> simp only [Law, hlast, hsince] at h ⊢ <;> grind

/-- The timer that is current is the one that is cancelled. -/
theorem Serial.cancel (h : Serial s (.call .cancel)) (hlast : s.last = some q) :
    Serial { s with
      mem := Function.update s.mem q (some { i with param := true })
      calls := [.schedule] } (.call .schedule) where
  ok := h.ok
  calls := rfl
  firing := h.firing
  last := fun b hb => by
    cases hlast.symm.trans hb
    simp
  current := fun x hx hm => by
    by_cases hxq : x.1 = q
    · simp [hxq] at hm
    · simp only [Function.update_of_ne hxq] at hm
      cases hlast.symm.trans (h.current x hx hm).1
      exact absurd rfl hxq
  law := h.locked
  held := h.held

/-- The only timer that is current now is the new one. -/
theorem Serial.schedule (h : Serial s (.call .schedule)) (ht : Timers s) (ha : s.mem a = none) :
    Serial { s with
      mem := Function.update s.mem a (some ⟨true, false⟩)
      timers := s.timers.put a wakeTimeout
      since := some s.timers.now
      calls := [.store a] } (.call (.store a)) where
  ok := h.ok
  calls := rfl
  firing := h.firing
  last := fun b hb => by
    have hba : b ≠ a := fun hba => h.last b hb (hba ▸ ha)
    simpa [hba] using h.last b hb
  current := fun x hx hm => by
    have hperm := Agenda.outstanding_put s.timers a wakeTimeout
    rcases List.mem_cons.mp (hperm.mem_iff.mp hx) with rfl | hx
    · exact ⟨rfl, s.timers.now, rfl, rfl⟩
    · have hxa : x.1 ≠ a := fun hxa => ht.live x hx (hxa ▸ ha)
      cases (h.current x hx ((Function.update_of_ne hxa _ _).symm.trans hm)).1
  law := ⟨h.locked, by simp⟩
  held := fun _ _ _ => h.locked

theorem Serial.other (h : Serial s p) (ha : s.mem a = none) (d : Nat) :
    Serial { s with
      mem := Function.update s.mem a (some ⟨false, false⟩)
      timers := s.timers.put a d } p := by
  have hlive : ∀ b, s.mem b ≠ none → Function.update s.mem a (some ⟨false, false⟩) b ≠ none :=
    fun b hb => by
      have hba : b ≠ a := fun hba => hb (hba ▸ ha)
      rwa [Function.update_of_ne hba]
  refine { h with
    last := fun b hb => hlive b (h.last b hb)
    current := fun x hx hm => ?_
    law := h.law.congr rfl rfl hlive rfl (Nat.le_refl _) }
  by_cases hxa : x.1 = a
  · simp [hxa] at hm
  · simp only [Function.update_of_ne hxa] at hm
    refine h.current x ?_ hm
    refine (List.mem_cons.mp ((Agenda.outstanding_put _ _ _).mem_iff.mp hx)).resolve_left ?_
    rintro rfl
    exact hxa rfl

/-- The callback that is called next: if it releases the lock its second has passed. -/
theorem Serial.fire (h : Serial s .idle) (hk : s.timers.Kept) {x : Nat × Nat}
    {rest : List (Nat × Nat)} (hdue : s.timers.due = x :: rest) (hx : s.mem x.1 = some i)
    (done : List (Done Nat)) : Serial { s with
      timers := { s.timers with due := rest, done := done }
      firing := some (called i x.1) } (.callback (called i x.1)) := by
  have hout : s.timers.outstanding = x :: (rest ++ s.timers.waiting) := by
    rw [Agenda.outstanding, hdue]
    rfl
  refine { h with
    firing := rfl
    current := fun y hy => h.current y (hout ▸ List.mem_cons_of_mem x hy)
    law := ?_ }
  rw [called]
  split
  · rename_i hi
    intro t hs
    have hinfo : s.mem x.1 = some ⟨true, false⟩ := by
      obtain ⟨wake, param⟩ := i
      simp_all
    obtain ⟨-, u, hu, hx2⟩ := h.current x (hout ▸ List.mem_cons_self) hinfo
    cases hu.symm.trans hs
    have hpast := hk.due x (by rw [hdue]; exact List.mem_cons_self)
    exact hx2 ▸ hpast
  · trivial

theorem Serial.step (h : Serial s p) (ht : Timers s) (hk : s.timers.Kept) (hc : Apart s act)
    (he : Effect s act s') : ∃ p, Serial s' p := by
  cases he with
  | tick d =>
    have hle := Nat.le_add_right s.timers.now d
    exact ⟨p, { h with
      law := h.law.congr rfl rfl (fun _ => id) rfl hle
      held := fun t hs hnow => h.held t hs (Nat.le_trans hle hnow) }⟩
  | grab =>
    obtain rfl := h.in_none hc.1 hc.2
    exact ⟨.call .marshal, { h with
      calls := by rw [hc.1]; rfl
      law := rfl
      held := fun _ _ _ => rfl }⟩
  | fail => exact absurd hc id
  | sent hn =>
    obtain ⟨rfl, rfl⟩ := h.in_call hn
    exact ⟨.call .check, { h with calls := by rw [h.calls]; rfl }⟩
  | check hn =>
    obtain ⟨rfl, rfl⟩ := h.in_call hn
    by_cases hlast : s.last.isSome = true
    · refine ⟨.call .cancel, { h with calls := ?_, law := ⟨h.law, ?_⟩ }⟩
      · rw [h.calls, if_pos hlast]
        rfl
      · exact Option.isSome_iff_ne_none.mp hlast
    · refine ⟨.call .schedule, { h with calls := ?_, current := fun x hx hm => ?_ }⟩
      · rw [h.calls, if_neg hlast]
        rfl
      · exact absurd (Option.isSome_of_eq_some (h.current x hx hm).1) hlast
  | crash hn hlast =>
    obtain ⟨rfl, rfl⟩ := h.in_call hn
    obtain ⟨q, hq⟩ := Option.ne_none_iff_exists'.mp h.law.2
    exact absurd (hlast q hq) (h.last q hq)
  | cancel hn hlast =>
    obtain ⟨rfl, rfl⟩ := h.in_call hn
    rw [h.calls]
    exact ⟨_, h.cancel hlast⟩
  | schedule hn ha =>
    obtain ⟨rfl, rfl⟩ := h.in_call hn
    rw [h.calls]
    exact ⟨_, h.schedule ht ha⟩
  | @store n a hn =>
    obtain ⟨rfl, rfl⟩ := h.in_call hn
    refine ⟨.idle, { h with calls := by rw [h.calls]; rfl, last := fun b hb => ?_, law := trivial }⟩
    cases hb
    exact h.law.2
  | other ha d => exact ⟨p, h.other ha d⟩
  | expire =>
    have hout := Agenda.outstanding_expire s.timers
    exact ⟨p, { h with
      current := fun x hx => h.current x (hout ▸ hx)
      law := h.law.congr rfl rfl (fun _ => id) rfl (Nat.le_refl _) }⟩
  | lost hdue hx =>
    refine absurd hx (ht.live _ ?_)
    rw [Agenda.outstanding, hdue]
    exact List.mem_cons_self
  | fire hf hdue hx =>
    obtain rfl := h.in_none hc hf
    exact ⟨_, h.fire hk hdue hx _⟩
  | @release a hf =>
    obtain rfl := h.in_callback hf
    exact ⟨.callback (.called a), { h with
      firing := rfl
      law := trivial
      held := fun t hs hle => absurd (h.law t hs) (Nat.not_lt.mpr hle) }⟩
  | @compare a hf =>
    obtain rfl := h.in_callback hf
    by_cases hlast : s.last = some a
    · exact ⟨.callback (.matched a), { h with
        firing := congrArg some (if_pos hlast)
        law := hlast }⟩
    · exact ⟨.callback (.cleared a), { h with
        firing := congrArg some (if_neg hlast)
        law := hlast }⟩
  | @clear a hf =>
    obtain rfl := h.in_callback hf
    refine ⟨.callback (.cleared a), { h with
      firing := rfl
      last := fun b hb => absurd hb.symm (Option.some_ne_none b)
      current := fun x hx hm => ?_
      law := (Option.some_ne_none a).symm }⟩
    -- the timer whose callback this is is not outstanding any more
    cases h.law.symm.trans (h.current x hx hm).1
    exact absurd (List.mem_map_of_mem hx) (ht.firing _ hf).2
  | @free a hf =>
    obtain rfl := h.in_callback hf
    refine ⟨.idle, { h with
      firing := rfl
      last := fun b hb => ?_
      current := fun x hx hm => ?_
      law := trivial }⟩
    · have hba : b ≠ a := fun hba => h.law (hba ▸ hb)
      simpa [hba] using h.last b hb
    · have hxa : x.1 ≠ a := fun hxa => (ht.firing _ hf).2 (hxa ▸ List.mem_map_of_mem hx)
      exact h.current x hx ((Function.update_of_ne hxa _ _).symm.trans hm)

end Serial

/-- **The lock is held for a second after every response**, if calls and callbacks exclude each
    other and every response can be marshalled: then nothing crashes, the lock is held while a call
    is under way and until a second after the last timer was asked for. -/
theorem wake_lock_held {s : State} (hr : Reach step Apart init s) :
    s.crashed = false ∧ (s.calls ≠ [] → s.locked = true) ∧
      ∀ t, s.since = some t → s.timers.now ≤ t + wakeTimeout → s.locked = true := by
  obtain ⟨p, h⟩ := hr.invOn (I := fun s => ∃ p, Serial s p) (J := fun s => Timers s ∧ s.timers.Kept)
    (fun _ hr => ⟨timers_of_reach hr, kept_of_reach hr⟩) ⟨.idle, serial_init⟩
    fun _ _ _ hj ⟨_, h⟩ hc hs => h.step hj.1 hj.2 hc (effect_of_step hs).2
  refine ⟨h.ok, fun hne => ?_, h.held⟩
  rw [h.calls] at hne
  cases p with
  | call c => exact h.locked
  | _ => exact absurd rfl hne

/-- As a test. -/
def apart (s : State) : Act → Bool
  | .grab => decide (s.calls = [] ∧ s.firing = none)
  | .fail _ => false
  | .fire => decide (s.calls = [])
  | _ => true

theorem apart_sound {s : State} {act : Act} (h : apart s act = true) : Apart s act := by
  cases act with
  | grab => exact (of_decide_eq_true h : s.calls = [] ∧ s.firing = none)
  | fail => exact Bool.noConfusion h
  | fire => exact (of_decide_eq_true h : s.calls = [])
  | _ => exact trivial

/-- The first response's callback runs within the second after the second response. -/
theorem wake_lock_held_twice : ∃ s : State, s.timers.now = 1600 ∧ s.since = some 700 ∧
    s.timers.done.map Done.what = [1] ∧ s.locked = true := by
  have hrun : runTest step apart init
      [.grab, .sent 0, .check 0, .schedule 0 1, .store 0, .tick 700, .grab, .sent 0, .check 0,
        .cancel 0, .schedule 0 2, .store 0, .tick 900, .expire, .fire, .compare, .free]
      (fun s => decide (s.timers.now = 1600 ∧ s.since = some 700 ∧
        s.timers.done.map Done.what = [1])) = true := by
    decide +kernel
  obtain ⟨s, hr, hp⟩ := reach_of_runTest hrun
  obtain ⟨hnow, hsince, hdone⟩ := of_decide_eq_true hp
  obtain ⟨-, -, hheld⟩ := wake_lock_held (hr.weaken fun _ _ => apart_sound)
  exact ⟨s, hnow, hsince, hdone, hheld 700 hsince (by rw [hnow]; decide)⟩

/-- A response that cannot be marshalled releases the lock that the one before it holds. -/
example : ∃ s, Reach step Always init s ∧ s.since = some 0 ∧ s.timers.now = 1 ∧
    s.locked = false := by
  have hrun : runTest step (fun _ _ => true) init
      [.grab, .sent 0, .check 0, .schedule 0 1, .store 0, .tick 1, .grab, .fail 0]
      (fun s => decide (s.since = some 0 ∧ s.timers.now = 1 ∧ s.locked = false)) = true := by
    decide +kernel
  obtain ⟨s, hr, hp⟩ := reach_of_runTest hrun
  exact ⟨s, hr.always, of_decide_eq_true hp⟩

/-- The callback frees what the next response is about to cancel. -/
example : ∃ s, Reach step Always init s ∧ s.crashed = true := by
  have hrun : runTest step (fun _ _ => true) init
      [.grab, .sent 0, .check 0, .schedule 0 1, .store 0, .tick 1001, .grab, .sent 0, .check 0,
        .expire, .fire, .release, .compare, .clear, .free, .cancel 0]
      (fun s => decide (s.crashed = true)) = true := by
    decide +kernel
  obtain ⟨s, hr, hp⟩ := reach_of_runTest hrun
  exact ⟨s, hr.always, of_decide_eq_true hp⟩

end Y210.Ril.WakeLock

/-
  File:      Y210/Gps/DeferredStop.lean
  Subject:   STOPS AND THEIR CAUSES: which `loc_eng_stop` a `loc_stop_fix` goes back to.

  While an AGPS request is pending `loc_eng_stop` only sets `stop_request_pending`, and the worker
  makes the `loc_stop_fix` when it handles the reply. Nothing clears the flag. So a reply to a later
  request stops the fix once more, whatever session is on by then; and a session that is started
  while the stop is still deferred is stopped by it.

  The history numbers the calls and keeps the order of what matters here: a stop is asked for, a fix
  is started, a fix is stopped, with the calls the stop is due to.

  * `StopLog`, `StopLog.after` -- the history, and what a step adds to it;
  * `orderly` -- no reply for a stop that was carried out already, no start beside an open stop;
  * `StopInv`, `stop_leads_to_one_stop_fix`; `stopped_again` for a run that is not orderly.
-/
import Y210.Gps.Worker
import Y210.Lib.History
import Y210.Lib.Trace
import Y210.Lib.Indexed

namespace Y210.Gps.Engine

open Y210.Lib

/-! ## 1. The history -/

/-- What the history keeps: `loc_eng_stop` is called, by the framework or by `loc_eng_deinit`; a
    `loc_start_fix` succeeds; a `loc_stop_fix` is made, due to the calls named. -/
inductive StopEvent where
  | asked (call : Nat)
  | started
  | stopFix (causes : List Nat)
  deriving DecidableEq

/-- The history: `ids` numbers the calls under way; `deferred` are the stops that set
    `stop_request_pending`, `owed` those of them that are not carried out yet. -/
structure StopLog where
  next : Nat
  ids : List Nat
  owed : List Nat
  deferred : List Nat
  trace : List StopEvent
  deriving DecidableEq

def StopLog.init : StopLog := ⟨0, [], [], [], []⟩

def StopLog.write (g : StopLog) (e : StopEvent) : StopLog := { g with trace := g.trace ++ [e] }

/-- A call is under way. -/
def StopLog.begins (g : StopLog) (c : Call) : StopLog :=
  { g with
    next := g.next + 1
    ids := g.ids ++ [g.next]
    trace := g.trace ++ if c = .stop false then [.asked g.next] else [] }

def StopLog.opens (g : StopLog) : Option (Bool × Call) → StopLog
  | some (passes, c) => if passes then g.begins c else g
  | none => g

/-- The call `n` goes on from where it stands. -/
def StopLog.goesOn (g : StopLog) (s : State) (ok : Bool) (n : Nat) : Call → StopLog
  | .stop _ =>
    if s.data.agpsRequestPending then
      { g with owed := g.owed ++ [n], deferred := g.deferred ++ [n] }
    else g
  | .stopFix _ => g.write (.stopFix [n])
  | .start => if ok then g.write .started else g
  | .deinit => if s.data.inited && s.data.navigating then g.write (.asked n) else g
  | _ => g

/-- The call `k` stands elsewhere, or has returned. -/
def StopLog.resume (g : StopLog) (k : Nat) : Option Call → StopLog
  | some _ => g
  | none => { g with ids := g.ids.eraseIdx k }

/-- The worker's `loc_stop_fix` is due to the stops that are owed, or, when none is, to those that
    set the flag it found. -/
def StopLog.works (g : StopLog) (s : State) : StopLog :=
  if s.pc = .stop ∧ s.data.stopRequestPending = true then
    { g.write (.stopFix (if g.owed = [] then g.deferred else g.owed)) with owed := [] }
  else g

/-- **What a step adds to the history.** -/
def StopLog.after (s : State) (a : Act) (_ : State) (g : StopLog) : StopLog :=
  match a with
  | .work => g.works s
  | .proceed k ok =>
    match s.calls[k]?, g.ids[k]? with
    | some c, some n => (g.goesOn s ok n c).resume k (proceed s ok c).2
    | _, _ => g
  | .injectXtraData data _ => if data = [] then g else g.begins .xtraTest
  | a => g.opens (a.opens s.data)

/-! ## 2. What is claimed of a history -/

/-- The calls that led to a `loc_stop_fix`, as often as they did. -/
def caused (trace : List StopEvent) : List Nat :=
  trace.flatMap fun
    | .stopFix causes => causes
    | _ => []

/-- The stop `n` was asked for, and no fix was started since. -/
def Fresh (trace : List StopEvent) (n : Nat) : Prop :=
  ∃ before after, trace = before ++ .asked n :: after ∧ .started ∉ after

/-- Every `loc_stop_fix` is due to a stop that was asked for after the fix was started. -/
def Lawful (trace : List StopEvent) : Prop :=
  ∀ before causes after, trace = before ++ .stopFix causes :: after → ∃ n ∈ causes, Fresh before n

section Traces

variable {t l : List StopEvent} {n : Nat}

theorem caused_append (t l : List StopEvent) : caused (t ++ l) = caused t ++ caused l :=
  List.flatMap_append

theorem caused_stopFix (causes : List Nat) : caused [.stopFix causes] = causes :=
  List.append_nil _

theorem Fresh.append (h : Fresh t n) (hl : .started ∉ l) : Fresh (t ++ l) n := by
  obtain ⟨before, after, rfl, hafter⟩ := h
  refine ⟨before, after ++ l, by rw [List.append_assoc, List.cons_append], ?_⟩
  rw [List.mem_append]
  exact not_or.mpr ⟨hafter, hl⟩

theorem fresh_asked (t : List StopEvent) (n : Nat) : Fresh (t ++ [.asked n]) n :=
  ⟨t, [], rfl, List.not_mem_nil⟩

theorem Lawful.append (h : Lawful t) (hl : ∀ causes, .stopFix causes ∉ l) : Lawful (t ++ l) := by
  intro before causes after heq
  rcases split_append heq with ⟨rest, ht, _⟩ | hmem
  · exact h before causes rest ht
  · exact absurd hmem (hl causes)

theorem Lawful.stopFix {causes : List Nat} (h : Lawful t) (hn : n ∈ causes) (hf : Fresh t n) :
    Lawful (t ++ [.stopFix causes]) := by
  intro before causes' after heq
  rcases List.eq_nil_or_concat after with rfl | ⟨rest, e, rfl⟩
  · obtain ⟨hbefore, hlast⟩ := List.append_inj' heq rfl
    cases hlast
    exact ⟨n, hn, hbefore ▸ hf⟩
  · rw [List.concat_eq_append, ← List.cons_append, ← List.append_assoc] at heq
    exact h before causes' rest (List.append_inj' heq rfl).1

end Traces

/-! ## 3. The invariant -/

/-- The call is in a `loc_eng_stop` that has neither been deferred nor made its `loc_stop_fix`. -/
def Call.stopping : Call → Bool
  | .stop _ | .stopFix _ => true
  | _ => false

/-- The call is in such a `loc_eng_stop`, or may yet come to one. -/
def Call.mayStop : Call → Bool
  | .stop _ | .stopFix _ | .deinit => true
  | _ => false

/-- **The steps of an orderly run**: a fix is started only when no stop is under way or deferred,
    and a reply that finds `stop_request_pending` set finds a stop that is still owed. -/
def orderly (x : State × StopLog) : Act → Bool
  | .proceed k ok => decide (x.1.calls[k]? = some .start → ok = true →
      x.2.owed = [] ∧ ∀ c ∈ x.1.calls, c.stopping = false)
  | .work => decide (x.1.pc = .stop → x.1.data.stopRequestPending = true → x.2.owed ≠ [])
  | _ => true

def StopLog.Spent (g : StopLog) (n : Nat) : Prop := n ∈ g.owed ++ caused g.trace

/-- What holds of the stops that were deferred or carried out. -/
structure StopLog.Sound (g : StopLog) : Prop where
  owed : ∀ n ∈ g.owed, Fresh g.trace n
  once : (g.owed ++ caused g.trace).Nodup
  lawful : Lawful g.trace

/-- **The invariant of an orderly run.** -/
structure StopInv (s : State) (g : StopLog) : Prop where
  sound : g.Sound
  length : g.ids.length = s.calls.length
  distinct : g.ids.Nodup
  known : ∀ n ∈ g.ids, n < g.next
  spent : ∀ n, g.Spent n → n < g.next
  fresh : ∀ (k : Nat) (c : Call) (n : Nat), s.calls[k]? = some c → g.ids[k]? = some n →
    c.stopping = true → Fresh g.trace n
  unspent : ∀ (k : Nat) (c : Call) (n : Nat), s.calls[k]? = some c → g.ids[k]? = some n →
    c.mayStop = true → ¬ g.Spent n

section Resume

variable {s s1 : State} {g g' : StopLog} {k n : Nat} {c : Call} {next : Option Call}

theorem resume_trace (g : StopLog) (k : Nat) (next : Option Call) :
    (g.resume k next).trace = g.trace ∧ (g.resume k next).owed = g.owed ∧
      (g.resume k next).next = g.next := by
  cases next <;> exact ⟨rfl, rfl, rfl⟩

theorem resume_spent (g : StopLog) (k : Nat) (next : Option Call) (n : Nat) :
    (g.resume k next).Spent n ↔ g.Spent n := by
  obtain ⟨htrace, howed, _⟩ := resume_trace g k next
  rw [StopLog.Spent, htrace, howed, StopLog.Spent]

theorem StopLog.Sound.resume (h : g.Sound) (k : Nat) (next : Option Call) :
    (g.resume k next).Sound := by
  obtain ⟨htrace, howed, _⟩ := resume_trace g k next
  refine ⟨?_, ?_, ?_⟩
  · rw [htrace, howed]
    exact h.owed
  · rw [htrace, howed]
    exact h.once
  · rw [htrace]
    exact h.lawful

/-- The calls after one of them went on are those that stood beside it, and itself. -/
theorem resume_entry (hcalls : s1.calls = s.calls) (hk : s.calls[k]? = some c) {m : Nat} {c' : Call}
    {n' : Nat} (hc : (s1.resume k next).calls[m]? = some c')
    (hn : (g.resume k next).ids[m]? = some n') :
    (∃ m', m' ≠ k ∧ s.calls[m']? = some c' ∧ g.ids[m']? = some n') ∨
      next = some c' ∧ g.ids[k]? = some n' := by
  cases next with
  | some d =>
      have hc' : (s.calls.set k d)[m]? = some c' := hcalls ▸ hc
      rcases getElem?_set_cases hk hc' with ⟨rfl, rfl⟩ | ⟨hne, hm⟩
      · exact Or.inr ⟨rfl, hn⟩
      · exact Or.inl ⟨m, hne, hm, hn⟩
  | none =>
      have hc' : (s.calls.eraseIdx k)[m]? = some c' := hcalls ▸ hc
      have hn' : (g.ids.eraseIdx k)[m]? = some n' := hn
      rw [List.getElem?_eraseIdx] at hc' hn'
      by_cases hlt : m < k
      · rw [if_pos hlt] at hc' hn'
        exact Or.inl ⟨m, by omega, hc', hn'⟩
      · rw [if_neg hlt] at hc' hn'
        exact Or.inl ⟨m + 1, by omega, hc', hn'⟩

theorem resume_length (hcalls : s1.calls = s.calls) (h : g.ids.length = s.calls.length) :
    (g.resume k next).ids.length = (s1.resume k next).calls.length := by
  cases next with
  | some d =>
      show g.ids.length = (s1.calls.set k d).length
      rw [List.length_set, hcalls, h]
  | none =>
      show (g.ids.eraseIdx k).length = (s1.calls.eraseIdx k).length
      rw [List.length_eraseIdx, List.length_eraseIdx, hcalls, h]

theorem resume_sublist (g : StopLog) (k : Nat) (next : Option Call) :
    (g.resume k next).ids.Sublist g.ids := by
  cases next with
  | some d => exact List.Sublist.refl _
  | none => exact List.eraseIdx_sublist ..

/-- **A call goes on**: what it adds to the spent stops is its own number, and the other stops stay
    fresh. -/
theorem StopInv.resume (h : StopInv s g) (hk : s.calls[k]? = some c) (hn : g.ids[k]? = some n)
    (hcalls : s1.calls = s.calls) (hids : g'.ids = g.ids) (hnext : g'.next = g.next)
    (hsound : g'.Sound) (hspent : ∀ m, g'.Spent m → g.Spent m ∨ m = n)
    (hfresh : ∀ (j : Nat) (d : Call) (m : Nat), s.calls[j]? = some d → d.stopping = true →
      Fresh g.trace m → Fresh g'.trace m)
    (hgo : ∀ d, next = some d → (d.stopping = true → Fresh g'.trace n) ∧
      (d.mayStop = true → ¬ g'.Spent n)) :
    StopInv (s1.resume k next) (g'.resume k next) := by
  have hother : ∀ {j m : Nat}, j ≠ k → g.ids[j]? = some m → m ≠ n := by
    rintro j m hne hj rfl
    exact hne (index_unique h.distinct hj hn)
  have hsub := resume_sublist g' k next
  rw [hids] at hsub
  have hnext' : (g'.resume k next).next = g.next := (resume_trace g' k next).2.2.trans hnext
  refine ⟨hsound.resume k next, resume_length hcalls (hids ▸ h.length), h.distinct.sublist hsub,
    fun m hm => ?_, fun m hm => ?_, fun m c' n' hc' hn' hstop => ?_, fun m c' n' hc' hn' hmay => ?_⟩
  · rw [hnext']
    exact h.known m (hsub.subset hm)
  · rw [hnext']
    rcases hspent m ((resume_spent g' k next m).mp hm) with hm | rfl
    · exact h.spent m hm
    · exact h.known m (List.mem_of_getElem? hn)
  · rw [(resume_trace g' k next).1]
    rcases resume_entry hcalls hk hc' hn' with ⟨j, _, hj, hjn⟩ | ⟨hd, hkn⟩
    · rw [hids] at hjn
      exact hfresh j c' n' hj hstop (h.fresh j c' n' hj hjn hstop)
    · rw [hids, hn] at hkn
      cases hkn
      exact (hgo c' hd).1 hstop
  · rw [resume_spent]
    rcases resume_entry hcalls hk hc' hn' with ⟨j, hne, hj, hjn⟩ | ⟨hd, hkn⟩
    · rw [hids] at hjn
      intro hs
      rcases hspent n' hs with hs | heq
      · exact h.unspent j c' n' hj hjn hmay hs
      · exact hother hne hjn heq
    · rw [hids, hn] at hkn
      cases hkn
      exact (hgo c' hd).2 hmay

end Resume

/-! ## 4. Steps -/

section Steps

variable {s s1 s' : State} {g : StopLog} {k n : Nat} {c : Call} {ok : Bool}

theorem mayStop_of_stopping (h : c.stopping = true) : c.mayStop = true := by
  cases c <;> first | rfl | cases h

theorem returns_not_mayStop (closing : Bool) :
    ∀ d, returns closing = some d → d.mayStop = false := by
  intro d hd
  cases closing <;> cases hd
  rfl

/-- The call of a stop that is spent goes on to something else. -/
theorem goes_elsewhere {next : Option Call} {g' : StopLog}
    (hgo : ∀ d, next = some d → d.mayStop = false) : ∀ d, next = some d →
      (d.stopping = true → Fresh g'.trace n) ∧ (d.mayStop = true → ¬ g'.Spent n) := by
  intro d hd
  refine ⟨fun hs => ?_, fun hm => ?_⟩
  · have hm := mayStop_of_stopping hs
    rw [hgo d hd] at hm
    cases hm
  · rw [hgo d hd] at hm
    cases hm

/-- Nothing that matters here. -/
theorem StopInv.plain {next : Option Call} (h : StopInv s g) (hk : s.calls[k]? = some c)
    (hn : g.ids[k]? = some n) (hcalls : s1.calls = s.calls)
    (hgo : ∀ d, next = some d → d.mayStop = false) :
    StopInv (s1.resume k next) (g.resume k next) :=
  h.resume hk hn hcalls rfl rfl h.sound (fun _ => Or.inl) (fun _ _ _ _ _ hf => hf)
    (goes_elsewhere hgo)

/-- A stop is deferred. -/
theorem StopInv.defers {closing : Bool} (h : StopInv s g) (hk : s.calls[k]? = some (.stop closing))
    (hn : g.ids[k]? = some n) (hcalls : s1.calls = s.calls) :
    StopInv (s1.resume k (returns closing))
      ({ g with owed := g.owed ++ [n], deferred := g.deferred ++ [n] }.resume k
        (returns closing)) := by
  have hfresh := h.fresh k _ n hk hn rfl
  have hnot := h.unspent k _ n hk hn rfl
  have hlist : g.owed ++ [n] ++ caused g.trace = g.owed ++ n :: caused g.trace :=
    List.append_assoc ..
  refine h.resume hk hn hcalls rfl rfl ⟨fun m hm => ?_, ?_, h.sound.lawful⟩ (fun m hm => ?_)
    (fun _ _ _ _ _ hf => hf) (goes_elsewhere (returns_not_mayStop closing))
  · rcases List.mem_append.mp hm with hm | hm
    · exact h.sound.owed m hm
    · rw [List.mem_singleton.mp hm]
      exact hfresh
  · show (g.owed ++ [n] ++ caused g.trace).Nodup
    rw [hlist]
    exact List.nodup_middle.mpr (List.nodup_cons.mpr ⟨hnot, h.sound.once⟩)
  · have hm' : m ∈ g.owed ++ n :: caused g.trace := hlist ▸ hm
    rcases List.mem_cons.mp (List.perm_middle.mem_iff.mp hm') with rfl | hm'
    · exact Or.inr rfl
    · exact Or.inl hm'

/-- A stop makes its `loc_stop_fix` at once. -/
theorem StopInv.stops {closing : Bool} {next : Option Call} (h : StopInv s g)
    (hk : s.calls[k]? = some (.stopFix closing)) (hn : g.ids[k]? = some n)
    (hcalls : s1.calls = s.calls) (hgo : ∀ d, next = some d → d.mayStop = false) :
    StopInv (s1.resume k next) ((g.write (.stopFix [n])).resume k next) := by
  have hfresh := h.fresh k _ n hk hn rfl
  have hnot := h.unspent k _ n hk hn rfl
  have hkeep : ∀ m, Fresh g.trace m → Fresh (g.write (.stopFix [n])).trace m :=
    fun m hm => hm.append (by simp)
  have hlist : g.owed ++ caused (g.write (.stopFix [n])).trace =
      (g.owed ++ caused g.trace) ++ n :: [] := by
    show g.owed ++ caused (g.trace ++ [.stopFix [n]]) = _
    rw [caused_append, caused_stopFix, ← List.append_assoc]
  refine h.resume hk hn hcalls rfl rfl
    ⟨fun m hm => hkeep m (h.sound.owed m hm), ?_, h.sound.lawful.stopFix (by simp) hfresh⟩
    (fun m hm => ?_) (fun _ _ m _ _ hf => hkeep m hf) (goes_elsewhere hgo)
  · show (g.owed ++ caused (g.write (.stopFix [n])).trace).Nodup
    rw [hlist]
    refine List.nodup_middle.mpr (List.nodup_cons.mpr ?_)
    rw [List.append_nil]
    exact ⟨hnot, h.sound.once⟩
  · have hm' : m ∈ (g.owed ++ caused g.trace) ++ n :: [] := hlist ▸ hm
    rcases List.mem_append.mp hm' with hm' | hm'
    · exact Or.inl hm'
    · exact Or.inr (List.mem_singleton.mp hm')

/-- An entry is written that is no `loc_stop_fix`. -/
theorem caused_write {e : StopEvent} (he : ∀ causes, e ≠ .stopFix causes) :
    caused (g.write e).trace = caused g.trace := by
  show caused (g.trace ++ [e]) = _
  rw [caused_append]
  cases e with
  | stopFix causes => exact absurd rfl (he causes)
  | asked m => exact List.append_nil _
  | started => exact List.append_nil _

theorem spent_write {e : StopEvent} (he : ∀ causes, e ≠ .stopFix causes) (m : Nat) :
    (g.write e).Spent m ↔ g.Spent m := by
  rw [StopLog.Spent, caused_write he, StopLog.Spent]
  rfl

theorem StopLog.Sound.write (h : g.Sound) {e : StopEvent} (he : ∀ causes, e ≠ .stopFix causes)
    (hkeep : ∀ m ∈ g.owed, Fresh (g.write e).trace m) : (g.write e).Sound := by
  refine ⟨hkeep, ?_, h.lawful.append fun causes hm => ?_⟩
  · rw [caused_write he]
    exact h.once
  · exact he causes (List.mem_singleton.mp hm).symm

/-- A fix is started when no stop is under way and none is owed. -/
theorem StopInv.starts {next : Option Call} (h : StopInv s g) (hk : s.calls[k]? = some c)
    (hn : g.ids[k]? = some n) (hcalls : s1.calls = s.calls) (howed : g.owed = [])
    (hnone : ∀ c ∈ s.calls, c.stopping = false) (hgo : ∀ d, next = some d → d.mayStop = false) :
    StopInv (s1.resume k next) ((g.write .started).resume k next) := by
  have he : ∀ causes, StopEvent.started ≠ .stopFix causes := fun _ h => (by cases h)
  refine h.resume hk hn hcalls rfl rfl (h.sound.write he fun m hm => ?_)
    (fun m hm => Or.inl ((spent_write he m).mp hm)) (fun j d m hj hs => ?_) (goes_elsewhere hgo)
  · rw [howed] at hm
    cases hm
  · rw [hnone d (List.mem_of_getElem? hj)] at hs
    cases hs

/-- `loc_eng_deinit` calls `loc_eng_stop`. -/
theorem StopInv.asks (h : StopInv s g) (hk : s.calls[k]? = some .deinit) (hn : g.ids[k]? = some n)
    (hcalls : s1.calls = s.calls) :
    StopInv (s1.resume k (some (.stop true)))
      ((g.write (.asked n)).resume k (some (.stop true))) := by
  have he : ∀ causes, StopEvent.asked n ≠ .stopFix causes := fun _ h => (by cases h)
  have hkeep : ∀ m, Fresh g.trace m → Fresh (g.write (.asked n)).trace m :=
    fun m hm => hm.append (by simp)
  refine h.resume hk hn hcalls rfl rfl (h.sound.write he fun m hm => hkeep m (h.sound.owed m hm))
    (fun m hm => Or.inl ((spent_write he m).mp hm)) (fun _ _ m _ _ hf => hkeep m hf)
    fun d hd => ⟨fun _ => fresh_asked g.trace n, fun _ hs => ?_⟩
  exact h.unspent k _ n hk hn rfl ((spent_write he n).mp hs)

/-- **The steps of a call.** -/
theorem StopInv.proceed (h : StopInv s g) (hk : s.calls[k]? = some c) (hn : g.ids[k]? = some n)
    (ho : orderly (s, g) (.proceed k ok) = true) :
    StopInv ((proceed s ok c).1.resume k (proceed s ok c).2)
      ((g.goesOn s ok n c).resume k (proceed s ok c).2) := by
  have hcalls := proceed_calls s ok c
  cases c with
  | stop closing =>
      unfold Engine.proceed StopLog.goesOn
      dsimp only
      cases hp : s.data.agpsRequestPending with
      | true => exact h.defers hk hn rfl
      | false =>
          refine h.resume hk hn rfl rfl rfl h.sound (fun _ => Or.inl) (fun _ _ _ _ _ hf => hf)
            fun d hd => ⟨fun _ => h.fresh k _ n hk hn rfl, fun _ => h.unspent k _ n hk hn rfl⟩
  | stopFix closing =>
      refine h.stops hk hn hcalls fun d hd => ?_
      cases ok with
      | true => cases hd; rfl
      | false => exact returns_not_mayStop closing d hd
  | start =>
      cases ok with
      | true =>
          obtain ⟨howed, hnone⟩ := of_decide_eq_true ho hk rfl
          exact h.starts hk hn hcalls howed hnone fun d hd => by cases hd; rfl
      | false => exact h.plain hk hn hcalls fun d hd => by cases hd
  | deinit =>
      unfold Engine.proceed StopLog.goesOn
      dsimp only
      cases hi : s.data.inited with
      | true =>
          cases hnav : s.data.navigating with
          | true => exact h.asks hk hn rfl
          | false => exact h.plain hk hn rfl fun d hd => by cases hd; rfl
      | false => exact h.plain hk hn rfl fun d hd => by cases hd; rfl
  | stopped closing => exact h.plain hk hn hcalls (returns_not_mayStop closing)
  | xtraTest =>
      refine h.plain hk hn hcalls fun d hd => ?_
      unfold Engine.proceed at hd
      dsimp only at hd
      split at hd <;> cases hd
      rfl
  | unset | close | down => exact h.plain hk hn hcalls fun d hd => by cases hd; rfl
  | event e => exact h.plain hk hn hcalls fun d hd => by cases hd
  | deleteAidingData f => exact h.plain hk hn hcalls fun d hd => by cases hd
  | dataConnOpen apn => exact h.plain hk hn hcalls fun d hd => by cases hd
  | started | muteOneSession | dataConnClosed | dataConnFailed | xtraSignal | quit =>
      exact h.plain hk hn hcalls fun d hd => by cases hd

theorem begins_entry (hlen : g.ids.length = s.calls.length) {m : Nat} {c' : Call} {n' : Nat}
    (hc : (s.calls ++ [c])[m]? = some c') (hn : (g.ids ++ [g.next])[m]? = some n') :
    (s.calls[m]? = some c' ∧ g.ids[m]? = some n') ∨ (c' = c ∧ n' = g.next) := by
  rcases getElem?_concat_cases hc with hc | ⟨hm, rfl⟩
  · rcases getElem?_concat_cases hn with hn | ⟨hm, rfl⟩
    · exact Or.inl ⟨hc, hn⟩
    · have hlt := (List.getElem?_eq_some_iff.mp hc).1
      omega
  · rcases getElem?_concat_cases hn with hn | ⟨_, rfl⟩
    · have hlt := (List.getElem?_eq_some_iff.mp hn).1
      omega
    · exact Or.inr ⟨rfl, rfl⟩

/-- What is written when a call begins is at most that a stop is asked for. -/
theorem begins_quiet (g : StopLog) (c : Call) :
    ∃ l, (g.begins c).trace = g.trace ++ l ∧ .started ∉ l ∧ (∀ causes, .stopFix causes ∉ l) ∧
      caused l = [] := by
  by_cases hc : c = .stop false
  · refine ⟨[.asked g.next], ?_, by simp, by simp, rfl⟩
    rw [StopLog.begins, if_pos hc]
  · refine ⟨[], ?_, by simp, by simp, rfl⟩
    rw [StopLog.begins, if_neg hc]

/-- A call is under way; a `loc_eng_stop` begins as one that the framework made. -/
theorem StopInv.begins (h : StopInv s g) (hcalls : s1.calls = s.calls ++ [c])
    (hc : c.stopping = true → c = .stop false) : StopInv s1 (g.begins c) := by
  obtain ⟨l, htrace, hstarted, hstop, hcaused⟩ := begins_quiet g c
  have hkeep : ∀ m, Fresh g.trace m → Fresh (g.begins c).trace m := by
    intro m hm
    rw [htrace]
    exact hm.append hstarted
  have hspent : ∀ m, (g.begins c).Spent m ↔ g.Spent m := by
    intro m
    rw [StopLog.Spent, htrace, caused_append, hcaused, List.append_nil, StopLog.Spent]
    rfl
  have hnew : ¬ g.Spent g.next := fun hs => Nat.lt_irrefl _ (h.spent _ hs)
  refine ⟨⟨fun m hm => hkeep m (h.sound.owed m hm), ?_, ?_⟩, ?_, ?_, fun m hm => ?_, fun m hm => ?_,
    fun m c' n' hc' hn' hs => ?_, fun m c' n' hc' hn' hm => ?_⟩
  · rw [htrace, caused_append, hcaused, List.append_nil]
    exact h.sound.once
  · rw [htrace]
    exact h.sound.lawful.append hstop
  · rw [hcalls, List.length_append, ← h.length]
    exact List.length_append ..
  · refine List.nodup_middle.mpr (List.nodup_cons.mpr ?_)
    rw [List.append_nil]
    exact ⟨fun hm => Nat.lt_irrefl _ (h.known _ hm), h.distinct⟩
  · rcases List.mem_append.mp hm with hm | hm
    · exact Nat.lt_succ_of_lt (h.known m hm)
    · rw [List.mem_singleton.mp hm]
      exact Nat.lt_succ_self _
  · exact Nat.lt_succ_of_lt (h.spent m ((hspent m).mp hm))
  · rw [hcalls] at hc'
    rcases begins_entry h.length hc' hn' with ⟨hc', hn'⟩ | ⟨rfl, rfl⟩
    · exact hkeep n' (h.fresh m c' n' hc' hn' hs)
    · rw [StopLog.begins, if_pos (hc hs)]
      exact fresh_asked g.trace g.next
  · rw [hcalls] at hc'
    rw [hspent]
    rcases begins_entry h.length hc' hn' with ⟨hc', hn'⟩ | ⟨rfl, rfl⟩
    · exact h.unspent m c' n' hc' hn' hm
    · exact hnew

/-- The calls and the history are left alone. -/
theorem StopInv.same (h : StopInv s g) (hcalls : s'.calls = s.calls) : StopInv s' g := by
  refine ⟨h.sound, ?_, h.distinct, h.known, h.spent, ?_, ?_⟩
  · rw [hcalls]
    exact h.length
  · rw [hcalls]
    exact h.fresh
  · rw [hcalls]
    exact h.unspent

/-- **The worker carries out what is owed**, once. -/
theorem StopInv.works (h : StopInv s g) (hcalls : s'.calls = s.calls)
    (ho : orderly (s, g) .work = true) : StopInv s' (g.works s) := by
  unfold StopLog.works
  split
  · rename_i hstop
    have howed : g.owed ≠ [] := of_decide_eq_true ho hstop.1 hstop.2
    rw [if_neg howed]
    have hkeep : ∀ m, Fresh g.trace m → Fresh (g.write (.stopFix g.owed)).trace m :=
      fun m hm => hm.append (by simp)
    have hcaused : caused (g.write (.stopFix g.owed)).trace = caused g.trace ++ g.owed := by
      show caused (g.trace ++ [.stopFix g.owed]) = _
      rw [caused_append, caused_stopFix]
    have hspent : ∀ m, m ∈ [] ++ caused (g.write (.stopFix g.owed)).trace → g.Spent m := by
      intro m hm
      rw [hcaused] at hm
      exact List.perm_append_comm.mem_iff.mp hm
    obtain ⟨n, hn⟩ := List.exists_mem_of_ne_nil _ howed
    refine ⟨⟨fun m hm => absurd hm List.not_mem_nil, ?_, ?_⟩, ?_, h.distinct, h.known,
      fun m hm => h.spent m (hspent m hm), fun m c n hc hn hs => ?_, fun m c n hc hn hm hs => ?_⟩
    · show ([] ++ caused (g.write (.stopFix g.owed)).trace).Nodup
      rw [hcaused, List.nil_append]
      exact List.nodup_append_comm.mp h.sound.once
    · exact h.sound.lawful.stopFix hn (h.sound.owed n hn)
    · rw [hcalls]
      exact h.length
    · rw [hcalls] at hc
      exact hkeep n (h.fresh m c n hc hn hs)
    · rw [hcalls] at hc
      exact h.unspent m c n hc hn hm (hspent n hs)
  · exact h.same hcalls

theorem work_calls (hw : Work s s') : s'.calls = s.calls := by
  cases hw with
  | quits hcomes _ | takes hcomes _ => cases hcomes <;> rfl
  | _ => rfl

theorem opens_stopping {a : Act} {passes : Bool} (h : a.opens s.data = some (passes, c)) :
    c.stopping = true → c = .stop false := by
  intro hs
  cases a <;> cases h <;> first | rfl | cases hs

/-- **Every orderly step keeps the invariant.** -/
theorem StopInv.step {a : Act} (h : StopInv s g) (ho : orderly (s, g) a = true) (hs : Step s a s') :
    StopInv s' (g.after s a s') := by
  cases hs with
  | opens _ passes c hopens =>
      have hafter : g.after s a (s.call passes c) = g.opens (a.opens s.data) := by
        cases a <;> first | rfl | cases hopens
      rw [hafter, hopens]
      cases passes with
      | true => exact h.begins rfl (opens_stopping hopens)
      | false => exact h
  | agpsInit => exact h.same rfl
  | xtraInit => exact h.same rfl
  | noData malloc => exact h
  | buffers data hne =>
      rw [StopLog.after, if_neg hne]
      exact h.begins rfl fun hs => by cases hs
  | noMemory data hne =>
      rw [StopLog.after, if_neg hne]
      exact h.begins rfl fun hs => by cases hs
  | proceeds k ok c hk =>
      have hlt : k < g.ids.length := by
        rw [h.length]
        exact (List.getElem?_eq_some_iff.mp hk).1
      have hn := List.getElem?_eq_getElem hlt
      rw [StopLog.after, hk, hn]
      exact h.proceed hk hn ho
  | spurious hpc => exact h.same rfl
  | works hw => exact h.works (work_calls hw) ho

end Steps

/-! ## 5. The log -/

def StopEvent.isStopFix : StopEvent → Bool
  | .stopFix _ => true
  | _ => false

/-- How many `loc_stop_fix` the history has. -/
def StopLog.stops (g : StopLog) : Nat := g.trace.countP StopEvent.isStopFix

section Log

variable {s s' : State} {g : StopLog} {a : Act}

theorem stops_write (g : StopLog) (e : StopEvent) :
    (g.write e).stops = g.stops + if e.isStopFix then 1 else 0 := by
  show (g.trace ++ [e]).countP StopEvent.isStopFix = _
  rw [List.countP_append, List.countP_singleton]
  rfl

theorem stops_begins (g : StopLog) (c : Call) : (g.begins c).stops = g.stops := by
  obtain ⟨l, htrace, _, hstop, _⟩ := begins_quiet g c
  have hl : l.countP StopEvent.isStopFix = 0 := by
    refine List.countP_eq_zero.mpr fun e he => ?_
    cases e with
    | stopFix causes => exact absurd he (hstop causes)
    | asked n => simp [StopEvent.isStopFix]
    | started => simp [StopEvent.isStopFix]
  rw [StopLog.stops, htrace, List.countP_append, hl]
  rfl

theorem stops_goesOn (g : StopLog) (s : State) (ok : Bool) (n : Nat) (c : Call) :
    (g.goesOn s ok n c).stops = g.stops + (s.callSends c).count .stopFix := by
  cases c with
  | stop closing =>
      rw [StopLog.goesOn]
      split <;> rfl
  | stopFix closing => exact stops_write g _
  | start =>
      cases ok with
      | true => exact stops_write g _
      | false => rfl
  | deinit =>
      rw [StopLog.goesOn]
      split
      · exact stops_write g _
      · rfl
  | close =>
      rw [State.callSends]
      split <;> rfl
  | _ => rfl

theorem stopFix_workSends (s : State) : s.workSends.count .stopFix =
    if s.pc = .stop ∧ s.data.stopRequestPending = true then 1 else 0 := by
  cases hpc : s.pc with
  | stop =>
      rw [State.workSends, hpc]
      cases s.data.stopRequestPending <;> rfl
  | xtraInject data =>
      rw [State.workSends, hpc]
      cases data <;> rfl
  | dataConn =>
      rw [State.workSends, hpc]
      show s.serverStatus.count .stopFix = 0
      unfold State.serverStatus
      split
      · rfl
      · split
        · rfl
        · split
          · split <;> rfl
          · rfl
  | _ => rw [State.workSends, hpc]; rfl

theorem stops_works (g : StopLog) (s : State) :
    (g.works s).stops = g.stops + s.workSends.count .stopFix := by
  rw [stopFix_workSends, StopLog.works]
  split
  · exact stops_write g _
  · rfl

theorem stops_after (hlen : g.ids.length = s.calls.length) (hs : Step s a s') :
    (g.after s a s').stops = g.stops + (s.sends a).count .stopFix := by
  cases hs with
  | opens _ passes c hopens =>
      have hafter : g.after s a (s.call passes c) = g.opens (a.opens s.data) ∧ s.sends a = [] := by
        cases a <;> first | exact ⟨rfl, rfl⟩ | cases hopens
      rw [hafter.1, hafter.2, hopens]
      cases passes with
      | true => exact stops_begins g c
      | false => rfl
  | agpsInit | xtraInit | noData _ | spurious _ => rfl
  | buffers data hne =>
      rw [StopLog.after, if_neg hne]
      exact stops_begins g _
  | noMemory data hne =>
      rw [StopLog.after, if_neg hne]
      exact stops_begins g _
  | proceeds k ok c hk =>
      have hlt : k < g.ids.length := by
        rw [hlen]
        exact (List.getElem?_eq_some_iff.mp hk).1
      rw [StopLog.after, hk, List.getElem?_eq_getElem hlt, State.sends, hk]
      have hresume := (resume_trace (g.goesOn s ok g.ids[k] c) k (proceed s ok c).2).1
      exact (congrArg (List.countP StopEvent.isStopFix) hresume).trans (stops_goesOn g s ok _ c)
  | works hw => exact stops_works g s

end Log

/-! ## 6. Results -/

theorem stopInv_init (clientHandle : Int) (statusCb : Bool) :
    StopInv (init clientHandle statusCb) StopLog.init := by
  have hlawful : Lawful [] := by
    intro before causes after h
    cases before <;> cases h
  exact ⟨⟨fun _ hn => (by cases hn), List.nodup_nil, hlawful⟩, rfl, List.nodup_nil,
    fun _ hn => (by cases hn), fun _ hn => (by cases hn), fun _ _ _ hc => (by cases hc),
    fun _ _ _ hc => (by cases hc)⟩

/-- **Each stop leads to one `loc_stop_fix` at most**, and none hits a fix that was started after
    the stop: in every orderly run no call is the cause of two `loc_stop_fix`, every `loc_stop_fix`
    has a cause that was asked for after the last fix was started, and the history has every
    `loc_stop_fix` that was made. -/
theorem stop_leads_to_one_stop_fix {clientHandle : Int} {statusCb : Bool} {s : State} {g : StopLog}
    (hr : Reach (tracked step StopLog.after) (fun x a => orderly x a = true)
      (init clientHandle statusCb, StopLog.init) (s, g)) :
    (caused g.trace).Nodup ∧
      (∀ before causes after, g.trace = before ++ .stopFix causes :: after →
        ∃ n ∈ causes, Fresh before n) ∧
      g.stops = s.log.count .stopFix := by
  have h : StopInv s g ∧ g.stops = s.sent.count .stopFix := by
    refine hr.inv (I := fun x => StopInv x.1 x.2 ∧ x.2.stops = x.1.sent.count .stopFix)
      ⟨stopInv_init clientHandle statusCb, rfl⟩ fun x a x' hi ho hs => ?_
    obtain ⟨hstep, hafter⟩ := tracked_eq_some hs
    have hcases := step_cases hstep
    rw [hafter]
    refine ⟨hi.1.step ho hcases, ?_⟩
    rw [stops_after hi.1.length hcases, hi.2, step_sends hcases, List.count_append]
  refine ⟨(List.nodup_append.mp h.1.sound.once).2.1, h.1.sound.lawful, ?_⟩
  rw [h.2]
  exact List.count_filter rfl

/-- The modem asks for a data connection. -/
def openEvent (connHandle : Int) : Act :=
  .event 1 locationServerRequest ⟨0, .other, .other, .openReq connHandle⟩

/-- A stop that is deferred is carried out with the reply; the next session has its own stop. -/
theorem stop_leads_to_one_stop_fix_deferred :
    ∃ x, Reach (tracked step StopLog.after) (fun x a => orderly x a = true)
        (init 1 true, StopLog.init) x ∧
      x.2.trace = [.asked 1, .stopFix [1], .started, .asked 4, .stopFix [4]] ∧
      (caused x.2.trace).Nodup ∧ x.1.log.count .stopFix = 2 := by
  have hrun : runTest (tracked step StopLog.after) orderly (init 1 true, StopLog.init)
      (List.flatten [[openEvent 7, .proceed 0 true], List.replicate 10 .work,
        [.stop, .proceed 0 true, .dataConnOpen none, .proceed 0 true], List.replicate 8 .work,
        [.start, .proceed 0 true, .proceed 0 true, .stop, .proceed 0 true, .proceed 0 true]])
      (fun x => decide (x.2.trace =
        [.asked 1, .stopFix [1], .started, .asked 4, .stopFix [4]])) = true := by
    decide
  obtain ⟨⟨s, g⟩, hr, hp⟩ := reach_of_runTest hrun
  have htrace : g.trace = _ := of_decide_eq_true hp
  obtain ⟨honce, _, hlog⟩ := stop_leads_to_one_stop_fix hr
  refine ⟨(s, g), hr, htrace, honce, ?_⟩
  rw [← hlog, StopLog.stops, htrace]
  rfl

/-- **A fix stopped by an old stop.** The stop 1 is deferred and carried out with the reply to the
    first request; a fix is started; the reply to the second request stops it, though nobody asked
    for it. -/
theorem stopped_again :
    ∃ x, Reach (tracked step StopLog.after) Always (init 1 true, StopLog.init) x ∧
      x.2.trace = [.asked 1, .stopFix [1], .started, .stopFix [1]] ∧
      x.1.log.count .stopFix = 2 := by
  have hrun : runTest (tracked step StopLog.after) (fun _ _ => true) (init 1 true, StopLog.init)
      (List.flatten [[openEvent 7, .proceed 0 true], List.replicate 10 .work,
        [.stop, .proceed 0 true, .dataConnOpen none, .proceed 0 true], List.replicate 8 .work,
        [.start, .proceed 0 true, .proceed 0 true, openEvent 7, .proceed 0 true],
        List.replicate 10 .work, [.dataConnOpen none, .proceed 0 true], List.replicate 7 .work])
      (fun x => decide (x.2.trace = [.asked 1, .stopFix [1], .started, .stopFix [1]] ∧
        x.1.log.count .stopFix = 2)) = true := by
    decide
  obtain ⟨x, hr, hp⟩ := reach_of_runTest hrun
  obtain ⟨htrace, hlog⟩ := of_decide_eq_true hp
  exact ⟨x, hr.always, htrace, hlog⟩

end Y210.Gps.Engine

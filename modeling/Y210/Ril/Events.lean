/-
  File:      Y210/Ril/Events.lean
  Subject:   THE EVENT TABLES OF LIBRIL (ril_event.cpp): a table of watched descriptors, and two
             rings of `ril_event`s in memory, the timers and the events about to be called.

  The functions are the critical sections of the source: each runs under `listMutex`, or touches
  only what no other thread does. A `none` is a null or dangling pointer that was followed. Times
  are in microseconds; `timercmp` on normalised `timeval`s is the order of those.

  * `Events` -- the file's global state; `timerAdd`, `processTimeouts`, `processReadReadies`,
    `takePending`, `eventAdd`, `eventDel`, `eventSet`;
  * `Rings` -- the two rings hold these events, and `Watching` -- the table, `readFds` and `nfds`
    agree;
  * one lemma for each function: it has a result, and what the rings and the table are then.
-/
import Y210.Lib.Indexed
import Y210.Lib.Ring

namespace Y210.Ril

open Y210.Lib

/-! ## 1. State -/

/-- `struct ril_event` without its links; `func` stands for the function and its parameter. -/
structure RilEvent (φ : Type) where
  fd : Int
  index : Int
  persist : Bool
  timeout : Nat
  func : Option φ

/-- `MAX_FD_EVENTS`. -/
abbrev maxFdEvents : Nat := 8

/-- The addresses of `timer_list` and `pending_list`. -/
abbrev timerList : Nat := 0
abbrev pendingList : Nat := 1

structure Events (φ : Type) where
  mem : Cells (RilEvent φ)
  readFds : Int → Bool
  nfds : Int
  watchTable : Fin maxFdEvents → Option Nat

namespace Events

variable {φ : Type}

/-- `init_list`. -/
def initList (list : Nat) : Node (RilEvent φ) :=
  ⟨⟨-1, 0, false, 0, none⟩, some list, some list⟩

/-- `ril_event_init`, in a program with `n` static events. -/
def eventInit (n : Nat) : Events φ where
  mem := some (initList timerList) :: some (initList pendingList) ::
    List.replicate n (some ⟨⟨0, 0, false, 0, none⟩, none, none⟩)
  readFds := fun _ => false
  nfds := 0
  watchTable := fun _ => none

/-- `ev->timeout`. -/
def timeoutOf (m : Cells (RilEvent φ)) (ev : Nat) : Nat := ((m.val ev).map RilEvent.timeout).getD 0

/-- What `ril_event_set` writes. -/
def fresh (fd : Int) (persist : Bool) (func : φ) : RilEvent φ := ⟨fd, -1, persist, 0, some func⟩

def eventSet (s : Events φ) (ev : Nat) (fd : Int) (persist : Bool) (func : φ) :
    Option (Events φ) := do
  return { s with mem := ← s.mem.modify ev fun _ => ⟨fresh fd persist func, none, none⟩ }

/-- `malloc` at `ev`, and `ril_event_set` for a timer. -/
def timerNew (s : Events φ) (ev : Nat) (func : φ) : Option (Events φ) := do
  return { s with mem := ← s.mem.alloc ev (fresh (-1) false func) }

/-- The loop of `removeWatch` for the highest descriptor left. -/
def highest (m : Cells (RilEvent φ)) (table : Fin maxFdEvents → Option Nat) : Option Int :=
  (List.finRange maxFdEvents).foldlM (fun n i =>
    match table i with
    | none => some n
    | some rev => (m.val rev).map fun e => if e.fd > n then e.fd else n) 0

/-- `nfds` after `fd` is no longer waited for. -/
def nfdsWithout (m : Cells (RilEvent φ)) (table : Fin maxFdEvents → Option Nat) (fd nfds : Int) :
    Option Int :=
  if fd + 1 = nfds then (highest m table).map (· + 1) else some nfds

def removeWatch (s : Events φ) (ev : Nat) (index : Fin maxFdEvents) : Option (Events φ) := do
  let e ← s.mem.val ev
  let table := Function.update s.watchTable index none
  let m ← s.mem.store ev { e with index := -1 }
  let nfds ← nfdsWithout m table e.fd s.nfds
  return ⟨m, Function.update s.readFds e.fd false, nfds, table⟩

/-- The loop of `processTimeouts`, at `tev`. -/
def expire (now : Nat) : Nat → Nat → Cells (RilEvent φ) → Option (Cells (RilEvent φ))
  | 0, _, _ => none
  | fuel + 1, tev, m =>
    if tev != timerList && decide (timeoutOf m tev < now) then do
      let next ← m.next tev
      let m ← m.removeFromList tev
      let m ← m.addToList tev pendingList
      expire now fuel next m
    else some m

def processTimeouts (s : Events φ) (now : Nat) : Option (Events φ) := do
  let tev ← s.mem.next timerList
  return { s with mem := ← expire now s.mem.length tev s.mem }

/-- A ready event becomes pending, and leaves the table unless it persists. -/
def makePending (s : Events φ) (rev : Nat) (i : Fin maxFdEvents) (persist : Bool) :
    Option (Events φ) := do
  let m ← s.mem.addToList rev pendingList
  if persist then some { s with mem := m } else removeWatch { s with mem := m } rev i

/-- The loop of `processReadReadies`, over the rest of the table. -/
def readies (rfds : Int → Bool) : List (Fin maxFdEvents) → Nat → Events φ → Option (Events φ)
  | [], _, s => some s
  | _ :: _, 0, s => some s
  | i :: is, n + 1, s =>
    match s.watchTable i with
    | none => readies rfds is (n + 1) s
    | some rev => do
      let e ← s.mem.val rev
      if rfds e.fd then (s.makePending rev i e.persist).bind (readies rfds is n)
      else readies rfds is (n + 1) s

def processReadReadies (s : Events φ) (rfds : Int → Bool) (n : Nat) : Option (Events φ) :=
  readies rfds (List.finRange maxFdEvents) n s

/-- One turn of the loop of `firePending`: the event is taken out, and the next one noted. -/
def takePending (s : Events φ) (ev : Nat) : Option (Events φ × Nat) := do
  let next ← s.mem.next ev
  return ({ s with mem := ← s.mem.removeFromList ev }, next)

/-- `ril_event_add`; in a full table the event is dropped. -/
def eventAdd (s : Events φ) (ev : Nat) : Option (Events φ) :=
  match firstIdx fun i => (s.watchTable i).isNone with
  | none => some s
  | some i => do
    let e ← s.mem.val ev
    let m ← s.mem.store ev { e with index := (i : Nat) }
    return {
      mem := m
      readFds := Function.update s.readFds e.fd true
      nfds := if e.fd ≥ s.nfds then e.fd + 1 else s.nfds
      watchTable := Function.update s.watchTable i (some ev) }

/-- `ril_timer_add` at time `now`. -/
def timerAdd (s : Events φ) (ev tv now : Nat) : Option (Events φ) := do
  let list ← s.mem.next timerList
  let e ← s.mem.val ev
  let m ← s.mem.store ev { e with fd := -1, timeout := now + tv }
  let list ← m.walkWhile (fun a => decide (timeoutOf m a < timeoutOf m ev)) timerList m.length list
  return { s with mem := ← m.addToList ev list }

/-- `ril_event_del`, and whether it released `listMutex`: it does not when the event's index is
    not one of the table. -/
def eventDel (s : Events φ) (ev : Nat) : Option (Events φ × Bool) := do
  let e ← s.mem.val ev
  if h : 0 ≤ e.index ∧ e.index < maxFdEvents then
    return (← s.removeWatch ev ⟨e.index.toNat, by omega⟩, true)
  else return (s, false)

/-! ## 2. The rings -/

/-- **The rings hold these events**, and no event is in both. -/
structure Rings (m : Cells (RilEvent φ)) (ts ps : List Nat) : Prop where
  timers : Ring m timerList ts
  pending : Ring m pendingList ps
  apart : ∀ a ∈ timerList :: ts, a ∉ pendingList :: ps

section RingsLemmas

variable {s : Events φ} {m m' : Cells (RilEvent φ)} {ts ps : List Nat} {ev : Nat}

/-- An event in no ring. -/
def Loose (ts ps : List Nat) (ev : Nat) : Prop := ev ∉ timerList :: ts ∧ ev ∉ pendingList :: ps

theorem Rings.congr (h : Rings m ts ps) (hnext : ∀ a, ¬ Loose ts ps a → m'.next a = m.next a)
    (hprev : ∀ a, ¬ Loose ts ps a → m'.prev a = m.prev a) : Rings m' ts ps where
  timers := h.timers.frame (fun c hc => hnext c fun hl => hl.1 hc) fun c hc =>
    hprev c fun hl => hl.1 hc
  pending := h.pending.frame (fun c hc => hnext c fun hl => hl.2 hc) fun c hc =>
    hprev c fun hl => hl.2 hc
  apart := h.apart

/-- A write to an event in no ring. -/
theorem Rings.update (h : Rings m ts ps) (hev : Loose ts ps ev) {x y : Option Nat}
    (hnext : m'.next = Function.update m.next ev x)
    (hprev : m'.prev = Function.update m.prev ev y) :
    Rings m' ts ps := by
  refine h.congr (fun a ha => ?_) fun a ha => ?_
  · rw [hnext, Function.update_of_ne]
    rintro rfl
    exact ha hev
  · rw [hprev, Function.update_of_ne]
    rintro rfl
    exact ha hev

/-- An event in no ring comes to the end of the pending ones. -/
theorem Rings.push (h : Rings m ts ps) (hev : Loose ts ps ev) {e : RilEvent φ}
    (hv : m.val ev = some e) :
    ∃ m', m.addToList ev pendingList = some m' ∧ Rings m' ts (ps ++ [ev]) ∧ m'.val = m.val ∧
      m'.length = m.length := by
  have hring : Ring m pendingList (ps ++ []) := by rw [List.append_nil]; exact h.pending
  have hnot : ev ∉ pendingList :: (ps ++ []) := by rw [List.append_nil]; exact hev.2
  obtain ⟨m', hm, hr, hval, hlen, hframe⟩ := hring.addToList hnot hv
  have hout : ∀ c ∈ timerList :: ts, c ∉ ev :: pendingList :: (ps ++ []) := by
    intro c hc hmem
    rw [List.append_nil] at hmem
    rcases List.mem_cons.mp hmem with rfl | hmem
    · exact hev.1 hc
    · exact h.apart c hc hmem
  refine ⟨m', hm, ⟨h.timers.frame (fun c hc => (hframe c (hout c hc)).1) fun c hc =>
    (hframe c (hout c hc)).2, hr, fun c hc hmem => ?_⟩, hval, hlen⟩
  refine hout c hc ?_
  simp only [List.mem_cons, List.mem_append, List.not_mem_nil, or_false] at hmem ⊢
  tauto

/-- The first timer is taken out. -/
theorem Rings.popTimer (h : Rings m (ev :: ts) ps) :
    ∃ m', m.removeFromList ev = some m' ∧ Rings m' ts ps ∧ m'.val = m.val ∧
      m'.length = m.length ∧ m.next ev = some (ts.headD timerList) ∧ Loose ts ps ev := by
  have hring : Ring m timerList ([] ++ ev :: ts) := h.timers
  obtain ⟨m', hm, hr, hval, hlen, hnext, hframe⟩ := hring.removeFromList
  have hnd := h.timers.nodup
  simp only [List.nodup_cons, List.mem_cons, not_or] at hnd
  have hout : ∀ c ∈ pendingList :: ps, c ∉ timerList :: ([] ++ ev :: ts) :=
    fun c hc hmem => h.apart c hmem hc
  refine ⟨m', hm, ⟨hr, h.pending.frame (fun c hc => (hframe c (hout c hc)).1) fun c hc =>
    (hframe c (hout c hc)).2, fun c hc => h.apart c ?_⟩, hval, hlen, hnext, ?_,
    h.apart ev (by simp)⟩
  · simp only [List.mem_cons] at hc ⊢
    tauto
  · simp only [List.mem_cons, not_or]
    exact ⟨Ne.symm hnd.1.1, hnd.2.1⟩

/-- The first pending event is taken out. -/
theorem Rings.popPending (h : Rings m ts (ev :: ps)) :
    ∃ m', m.removeFromList ev = some m' ∧ Rings m' ts ps ∧ m'.val = m.val ∧
      m.next ev = some (ps.headD pendingList) ∧ Loose ts ps ev := by
  have hring : Ring m pendingList ([] ++ ev :: ps) := h.pending
  obtain ⟨m', hm, hr, hval, -, hnext, hframe⟩ := hring.removeFromList
  have hnd := h.pending.nodup
  simp only [List.nodup_cons, List.mem_cons, not_or] at hnd
  have hev : ev ∉ timerList :: ts := fun hc => h.apart ev hc (by simp)
  have hout : ∀ c ∈ timerList :: ts, c ∉ pendingList :: ([] ++ ev :: ps) := fun c hc => h.apart c hc
  refine ⟨m', hm, ⟨h.timers.frame (fun c hc => (hframe c (hout c hc)).1) fun c hc =>
    (hframe c (hout c hc)).2, hr, fun c hc hmem => h.apart c hc ?_⟩, hval, hnext, hev, ?_⟩
  · simp only [List.mem_cons] at hmem ⊢
    tauto
  · simp only [List.mem_cons, not_or]
    exact ⟨Ne.symm hnd.1.1, hnd.2.1⟩

/-- **`processTimeouts`**: the timers that are due, up to the first that is not, go to the end of
    the pending events in their order. -/
theorem expire_spec (now : Nat) {fuel : Nat} (h : Rings m ts ps) (hfuel : ts.length < fuel) :
    ∃ m', expire now fuel (ts.headD timerList) m = some m' ∧ m'.val = m.val ∧
      Rings m' (ts.dropWhile fun a => decide (timeoutOf m a < now))
        (ps ++ ts.takeWhile fun a => decide (timeoutOf m a < now)) := by
  induction ts generalizing m ps fuel with
  | nil =>
      obtain ⟨fuel, rfl⟩ : ∃ k, fuel = k + 1 := ⟨fuel - 1, by simp at hfuel; omega⟩
      exact ⟨m, by simp [expire], rfl, by simpa using h⟩
  | cons t ts ih =>
      obtain ⟨fuel, rfl⟩ : ∃ k, fuel = k + 1 := ⟨fuel - 1, by simp at hfuel; omega⟩
      have hne : t ≠ timerList := by
        have hnd := h.timers.nodup
        simp only [List.nodup_cons, List.mem_cons, not_or] at hnd
        exact Ne.symm hnd.1.1
      by_cases hdue : timeoutOf m t < now
      · obtain ⟨m₁, h₁, hr₁, hv₁, -, hnext, hloose⟩ := h.popTimer
        obtain ⟨e, he⟩ := h.timers.live (c := t) (by simp)
        obtain ⟨m₂, h₂, hr₂, hv₂, -⟩ := hr₁.push hloose (by rw [hv₁]; exact he)
        have hval : m₂.val = m.val := hv₂.trans hv₁
        obtain ⟨m', hm', hv', hr'⟩ := ih hr₂ (by simpa using hfuel)
        refine ⟨m', ?_, hv'.trans hval, ?_⟩
        · show expire now (fuel + 1) t m = some m'
          simp only [expire, Option.bind_eq_bind]
          rw [if_pos (by simp [hne, hdue]), hnext, Option.bind_some, h₁, Option.bind_some, h₂,
            Option.bind_some, hm']
        · have hto : ∀ a, timeoutOf m₂ a = timeoutOf m a := fun a => by simp [timeoutOf, hval]
          simp only [hto] at hr'
          simpa [List.dropWhile_cons, List.takeWhile_cons, hdue] using hr'
      · refine ⟨m, ?_, rfl, ?_⟩
        · show expire now (fuel + 1) t m = some m
          simp only [expire]
          rw [if_neg (by simp [hdue])]
        · simpa [List.dropWhile_cons, List.takeWhile_cons, hdue] using h

theorem processTimeouts_spec (now : Nat) (h : Rings s.mem ts ps) :
    ∃ m', s.processTimeouts now = some { s with mem := m' } ∧ m'.val = s.mem.val ∧
      Rings m' (ts.dropWhile fun a => decide (timeoutOf s.mem a < now))
        (ps ++ ts.takeWhile fun a => decide (timeoutOf s.mem a < now)) := by
  obtain ⟨m', hm', hval, hr⟩ := expire_spec now h h.timers.length_lt
  refine ⟨m', ?_, hval, hr⟩
  simp only [processTimeouts, Option.bind_eq_bind]
  rw [h.timers.next_head, Option.bind_some, hm']
  rfl

theorem takePending_spec (h : Rings s.mem ts (ev :: ps)) :
    ∃ m', s.takePending ev = some ({ s with mem := m' }, ps.headD pendingList) ∧
      m'.val = s.mem.val ∧ Rings m' ts ps ∧ Loose ts ps ev := by
  obtain ⟨m', hm, hr, hval, hnext, hloose⟩ := h.popPending
  refine ⟨m', ?_, hval, hr, hloose⟩
  simp only [takePending, Option.bind_eq_bind]
  rw [hnext, Option.bind_some, hm]
  rfl

/-- **`ril_timer_add`**: the timer comes before the first that is not due earlier. -/
theorem timerAdd_spec (h : Rings s.mem ts ps) (hev : Loose ts ps ev) {e : RilEvent φ}
    (hv : s.mem.val ev = some e) (tv now : Nat) :
    ∃ m', s.timerAdd ev tv now = some { s with mem := m' } ∧
      m'.val = Function.update s.mem.val ev (some { e with fd := -1, timeout := now + tv }) ∧
      Rings m' ((ts.takeWhile fun a => decide (timeoutOf s.mem a < now + tv)) ++
        ev :: ts.dropWhile fun a => decide (timeoutOf s.mem a < now + tv)) ps := by
  obtain ⟨m₁, h₁, hlen, hreads⟩ := Cells.store_spec hv { e with fd := -1, timeout := now + tv }
  have hr₁ : Rings m₁ ts ps :=
    h.congr (fun a _ => by rw [hreads.next]) fun a _ => by rw [hreads.prev]
  have hto : ∀ a ∈ ts, timeoutOf m₁ a = timeoutOf s.mem a := by
    intro a ha
    have hne : a ≠ ev := by
      rintro rfl
      exact hev.1 (List.mem_cons_of_mem _ ha)
    simp [timeoutOf, hreads.val, hne]
  have hnew : timeoutOf m₁ ev = now + tv := by simp [timeoutOf, hreads.val]
  let p : Nat → Bool := fun a => decide (timeoutOf m₁ a < timeoutOf m₁ ev)
  let q : Nat → Bool := fun a => decide (timeoutOf s.mem a < now + tv)
  have hpq : ∀ a ∈ ts, p a = q a := fun a ha => by simp only [p, q, hto a ha, hnew]
  have hdrop : ts.dropWhile p = ts.dropWhile q := dropWhile_congr hpq
  have hsplit : ts.takeWhile q ++ ts.dropWhile q = ts := List.takeWhile_append_dropWhile
  have hring : Ring m₁ timerList (ts.takeWhile q ++ ts.dropWhile q) := by
    rw [hsplit]; exact hr₁.timers
  have hnot : ev ∉ timerList :: (ts.takeWhile q ++ ts.dropWhile q) := by rw [hsplit]; exact hev.1
  have hv₁ : m₁.val ev = some { e with fd := -1, timeout := now + tv } := by
    rw [hreads.val, Function.update_self]
  obtain ⟨m₂, h₂, hr₂, hval₂, -, hframe⟩ := hring.addToList hnot hv₁
  rw [hsplit] at hframe
  have hout : ∀ c ∈ pendingList :: ps, c ∉ ev :: timerList :: ts := by
    intro c hc hmem
    rcases List.mem_cons.mp hmem with rfl | hmem
    · exact hev.2 hc
    · exact h.apart c hmem hc
  refine ⟨m₂, ?_, hval₂.trans hreads.val, hr₂, ?_, fun c hc hmem => ?_⟩
  · simp only [timerAdd, Option.bind_eq_bind]
    rw [h.timers.next_head, Option.bind_some, hv, Option.bind_some, h₁, Option.bind_some,
      hr₁.timers.walkWhile p, Option.bind_some, hdrop, h₂]
    rfl
  · exact hr₁.pending.frame (fun c hc => (hframe c (hout c hc)).1) fun c hc =>
      (hframe c (hout c hc)).2
  · refine hout c hmem ?_
    have hmid : c ∈ ts.takeWhile q ++ ts.dropWhile q → c ∈ ts := fun hc => hsplit ▸ hc
    simp only [List.mem_cons, List.mem_append] at hc hmid ⊢
    tauto

end RingsLemmas

/-! ## 3. The table -/

/-- **The table, `readFds` and `nfds` agree**: an event knows its entry, its descriptor is waited
    for and below `nfds`, nothing else is waited for, and no two events have one descriptor. -/
structure Watching (s : Events φ) : Prop where
  entry : ∀ {i ev}, s.watchTable i = some ev → ∃ e, s.mem.val ev = some e ∧
    e.index = (i : Nat) ∧ 0 ≤ e.fd ∧ s.readFds e.fd = true ∧ e.fd < s.nfds
  only : ∀ {fd}, s.readFds fd = true →
    ∃ i ev e, s.watchTable i = some ev ∧ s.mem.val ev = some e ∧ e.fd = fd
  distinct : ∀ {i j ev ev' e e'}, s.watchTable i = some ev → s.watchTable j = some ev' →
    s.mem.val ev = some e → s.mem.val ev' = some e' → e.fd = e'.fd → i = j

/-- The event is in the table. -/
def Watched (s : Events φ) (ev : Nat) : Prop := ∃ i, s.watchTable i = some ev

/-- From `s` to `s'` only the index of `ev` changed in memory. -/
structure Reindexed (s s' : Events φ) (ev : Nat) : Prop where
  next : s'.mem.next = s.mem.next
  prev : s'.mem.prev = s.mem.prev
  others : ∀ a, a ≠ ev → s'.mem.val a = s.mem.val a
  same : ∃ j, s'.mem.val ev = (s.mem.val ev).map fun e => { e with index := j }

/-- From `m` to `m'` at most indices changed. -/
def Alike (m m' : Cells (RilEvent φ)) : Prop :=
  ∀ a, (m'.val a).map (fun e => { e with index := 0 }) =
    (m.val a).map fun e => { e with index := 0 }

section TableLemmas

variable {s : Events φ} {ev : Nat} {e : RilEvent φ} {i : Fin maxFdEvents}

theorem Alike.of_val {m m' : Cells (RilEvent φ)} (h : m'.val = m.val) : Alike m m' := by
  intro a
  rw [h]

theorem Alike.trans {m₁ m₂ m₃ : Cells (RilEvent φ)} (h₁ : Alike m₁ m₂) (h₂ : Alike m₂ m₃) :
    Alike m₁ m₃ := fun a => (h₂ a).trans (h₁ a)

theorem Alike.val {m m' : Cells (RilEvent φ)} (h : Alike m m') (hv : m.val ev = some e) :
    ∃ j, m'.val ev = some { e with index := j } := by
  have ha := h ev
  rw [hv] at ha
  obtain ⟨e', he', heq⟩ := Option.map_eq_some_iff.mp ha
  refine ⟨e'.index, he'.trans (congrArg some ?_)⟩
  cases e
  cases e'
  simp_all

theorem Alike.symm {m m' : Cells (RilEvent φ)} (h : Alike m m') : Alike m' m := fun a => (h a).symm

theorem Reindexed.rings {s' : Events φ} {ts ps : List Nat} (h : Reindexed s s' ev)
    (hr : Rings s.mem ts ps) : Rings s'.mem ts ps :=
  hr.congr (fun a _ => by rw [h.next]) fun a _ => by rw [h.prev]

theorem Reindexed.alike {s' : Events φ} (h : Reindexed s s' ev) : Alike s.mem s'.mem := by
  intro a
  by_cases ha : a = ev
  · subst ha
    obtain ⟨j, hj⟩ := h.same
    rw [hj]
    cases s.mem.val a <;> rfl
  · rw [h.others a ha]

/-- Memory changed, but not the events in the table. -/
theorem Watching.congr (h : Watching s) {m : Cells (RilEvent φ)}
    (hval : ∀ a, s.Watched a → m.val a = s.mem.val a) : Watching { s with mem := m } where
  entry := by
    intro i ev hi
    rw [hval ev ⟨i, hi⟩]
    exact h.entry hi
  only := by
    intro fd hfd
    obtain ⟨i, ev, e, hi, hv, he⟩ := h.only hfd
    exact ⟨i, ev, e, hi, (hval ev ⟨i, hi⟩).trans hv, he⟩
  distinct := by
    intro i j ev ev' e e' hi hj hv hv' he
    rw [hval ev ⟨i, hi⟩] at hv
    rw [hval ev' ⟨j, hj⟩] at hv'
    exact h.distinct hi hj hv hv' he

/-- An event has one entry. -/
theorem Watching.inj (h : Watching s) {j : Fin maxFdEvents} (hi : s.watchTable i = some ev)
    (hj : s.watchTable j = some ev) : i = j := by
  obtain ⟨e, hv, -⟩ := h.entry hi
  exact h.distinct hi hj hv hv rfl

theorem Watching.not_watched (h : Watching s) (hv : s.mem.val ev = some e)
    (hnew : s.readFds e.fd = false) : ¬ s.Watched ev := by
  rintro ⟨i, hi⟩
  obtain ⟨e', hv', -, -, hread, -⟩ := h.entry hi
  obtain rfl : e = e' := Option.some.inj (hv.symm.trans hv')
  rw [hnew] at hread
  cases hread

/-- **`ril_event_add`** with a free entry and a descriptor that is not waited for yet. -/
theorem eventAdd_spec (h : Watching s) (hv : s.mem.val ev = some e) (hfd : 0 ≤ e.fd)
    (hnew : s.readFds e.fd = false) (hfree : ∃ i, s.watchTable i = none) :
    ∃ s', s.eventAdd ev = some s' ∧ Watching s' ∧ Reindexed s s' ev ∧
      ∀ x, s'.Watched x ↔ x = ev ∨ s.Watched x := by
  have hnot := h.not_watched hv hnew
  cases hidx : firstIdx fun i => (s.watchTable i).isNone with
  | none =>
      obtain ⟨i, hi⟩ := hfree
      have := firstIdx_none hidx i
      simp [hi] at this
  | some i =>
      have hi : s.watchTable i = none := by simpa using firstIdx_some hidx
      obtain ⟨m, hm, -, hreads⟩ := Cells.store_spec hv { e with index := (i : Nat) }
      have hself : m.val ev = some { e with index := (i : Nat) } := by
        rw [hreads.val, Function.update_self]
      have hother : ∀ a, a ≠ ev → m.val a = s.mem.val a := fun a ha => by
        rw [hreads.val, Function.update_of_ne ha]
      have hentry : ∀ {j x}, Function.update s.watchTable i (some ev) j = some x →
          (j = i ∧ x = ev) ∨ (j ≠ i ∧ x ≠ ev ∧ s.watchTable j = some x) := by
        intro j x hj
        by_cases hji : j = i
        · subst hji
          rw [Function.update_self] at hj
          exact Or.inl ⟨rfl, (Option.some.inj hj).symm⟩
        · rw [Function.update_of_ne hji] at hj
          exact Or.inr ⟨hji, fun hx => hnot ⟨j, hx ▸ hj⟩, hj⟩
      have hkeep : ∀ {j x}, s.watchTable j = some x →
          Function.update s.watchTable i (some ev) j = some x := by
        intro j x hj
        rw [Function.update_of_ne, hj]
        rintro rfl
        rw [hi] at hj
        cases hj
      refine ⟨_, by simp only [eventAdd, hidx, hv, hm, Option.bind_eq_bind, Option.bind_some]; rfl,
        ⟨?_, ?_, ?_⟩, ⟨hreads.next, hreads.prev, hother, (i : Nat), ?_⟩, ?_⟩
      · intro j x hj
        rcases hentry hj with ⟨rfl, rfl⟩ | ⟨-, hx, hj⟩
        · refine ⟨_, hself, rfl, hfd, by simp, ?_⟩
          show e.fd < if e.fd ≥ s.nfds then e.fd + 1 else s.nfds
          split <;> omega
        · obtain ⟨e', hv', hidx', hfd', hread, hlt⟩ := h.entry hj
          refine ⟨e', (hother x hx).trans hv', hidx', hfd', ?_, ?_⟩
          · show Function.update s.readFds e.fd true e'.fd = true
            by_cases hee : e'.fd = e.fd
            · rw [hee, Function.update_self]
            · rw [Function.update_of_ne hee, hread]
          · show e'.fd < if e.fd ≥ s.nfds then e.fd + 1 else s.nfds
            split <;> omega
      · intro fd hread
        have hread : Function.update s.readFds e.fd true fd = true := hread
        by_cases hee : fd = e.fd
        · exact ⟨i, ev, _, by simp, hself, hee.symm⟩
        · rw [Function.update_of_ne hee] at hread
          obtain ⟨j, x, e', hj, hv', he⟩ := h.only hread
          have hx : x ≠ ev := fun hx => hnot ⟨j, hx ▸ hj⟩
          exact ⟨j, x, e', hkeep hj, (hother x hx).trans hv', he⟩
      · -- a descriptor of the table is waited for, and that of `ev` is not
        have hold : ∀ {j x e'}, x ≠ ev → s.watchTable j = some x → m.val x = some e' →
            e'.fd ≠ e.fd := by
          intro j x e' hx hj hv' he
          obtain ⟨e'', hv'', -, -, hread, -⟩ := h.entry hj
          obtain rfl : e' = e'' := Option.some.inj (hv'.symm.trans ((hother x hx).trans hv''))
          rw [he, hnew] at hread
          cases hread
        intro j k x y e₁ e₂ hj hk h₁ h₂ he
        rcases hentry hj with ⟨rfl, rfl⟩ | ⟨-, hx, hj'⟩ <;>
          rcases hentry hk with ⟨rfl, rfl⟩ | ⟨-, hy, hk'⟩
        · rfl
        · obtain rfl := Option.some.inj (hself.symm.trans h₁)
          exact absurd he.symm (hold hy hk' h₂)
        · obtain rfl := Option.some.inj (hself.symm.trans h₂)
          exact absurd he (hold hx hj' h₁)
        · exact h.distinct hj' hk' ((hother x hx).symm.trans h₁) ((hother y hy).symm.trans h₂) he
      · rw [hself, hv]
        rfl
      · intro x
        constructor
        · rintro ⟨j, hj⟩
          rcases hentry hj with ⟨-, hx⟩ | ⟨-, -, hj⟩
          · exact Or.inl hx
          · exact Or.inr ⟨j, hj⟩
        · rintro (rfl | ⟨j, hj⟩)
          · exact ⟨i, by simp⟩
          · exact ⟨j, hkeep hj⟩

/-- **`ril_event_set`** on an event that is in no ring and not in the table. -/
theorem eventSet_spec {ts ps : List Nat} (h : Watching s) (hr : Rings s.mem ts ps)
    (hl : Loose ts ps ev) (hnot : ¬ s.Watched ev) (hv : s.mem.val ev = some e) (fd : Int)
    (persist : Bool) (func : φ) :
    ∃ m, s.eventSet ev fd persist func = some { s with mem := m } ∧
      Watching { s with mem := m } ∧ Rings m ts ps ∧
      m.val = Function.update s.mem.val ev (some (fresh fd persist func)) := by
  obtain ⟨m, x, hm, hx, -, hnode⟩ := Cells.modify_spec hv
    fun _ => ⟨fresh fd persist func, none, none⟩
  have hval : m.val = Function.update s.mem.val ev (some (fresh fd persist func)) := by
    funext c
    by_cases hc : c = ev <;> simp [Cells.val, hnode, hc]
  have hnext : m.next = Function.update s.mem.next ev none := by
    funext c
    by_cases hc : c = ev <;> simp [Cells.next, hnode, hc]
  have hprev : m.prev = Function.update s.mem.prev ev none := by
    funext c
    by_cases hc : c = ev <;> simp [Cells.prev, hnode, hc]
  refine ⟨m, by simp [eventSet, hm], h.congr fun a ha => ?_, hr.update hl hnext hprev, hval⟩
  rw [hval, Function.update_of_ne]
  rintro rfl
  exact hnot ha

/-- `malloc` gives memory that is in no ring and not in the table. -/
theorem timerNew_spec {ts ps : List Nat} (h : Watching s) (hr : Rings s.mem ts ps)
    (hv : s.mem.val ev = none) (func : φ) :
    ∃ m, s.timerNew ev func = some { s with mem := m } ∧ Watching { s with mem := m } ∧
      Rings m ts ps ∧ Loose ts ps ev ∧
      m.val = Function.update s.mem.val ev (some (fresh (-1) false func)) := by
  obtain ⟨m, hm, hreads⟩ := Cells.alloc_spec hv (fresh (-1) false func)
  have hl : Loose ts ps ev := by
    constructor
    · intro hc
      obtain ⟨w, hw⟩ := hr.timers.live hc
      rw [hv] at hw
      cases hw
    · intro hc
      obtain ⟨w, hw⟩ := hr.pending.live hc
      rw [hv] at hw
      cases hw
  refine ⟨m, by simp [timerNew, hm], h.congr fun a ha => ?_, hr.update hl hreads.next hreads.prev,
    hl, hreads.val⟩
  rw [hreads.val, Function.update_of_ne]
  rintro rfl
  obtain ⟨i, hi⟩ := ha
  obtain ⟨w, hw, -⟩ := h.entry hi
  rw [hv] at hw
  cases hw

/-- The loop over a part of the table finds a number that is at least every descriptor there. -/
theorem highest_fold {m : Cells (RilEvent φ)} {table : Fin maxFdEvents → Option Nat}
    (hlive : ∀ i ev, table i = some ev → ∃ e, m.val ev = some e) (is : List (Fin maxFdEvents))
    (n : Int) :
    ∃ k, is.foldlM (fun n i =>
        match table i with
        | none => some n
        | some rev => (m.val rev).map fun e => if e.fd > n then e.fd else n) n = some k ∧ n ≤ k ∧
      ∀ i ∈ is, ∀ ev e, table i = some ev → m.val ev = some e → e.fd ≤ k := by
  induction is generalizing n with
  | nil => exact ⟨n, rfl, Int.le_refl n, fun i hi => absurd hi List.not_mem_nil⟩
  | cons i is ih =>
      cases hi : table i with
      | none =>
          obtain ⟨k, hk, hle, hall⟩ := ih n
          refine ⟨k, by simpa [List.foldlM_cons, hi] using hk, hle, fun j hj ev e hev hv => ?_⟩
          rcases List.mem_cons.mp hj with rfl | hj
          · rw [hi] at hev
            cases hev
          · exact hall j hj ev e hev hv
      | some rev =>
          obtain ⟨e₀, he₀⟩ := hlive i rev hi
          obtain ⟨k, hk, hle, hall⟩ := ih (if e₀.fd > n then e₀.fd else n)
          have hle' : n ≤ k ∧ e₀.fd ≤ k := by split at hle <;> omega
          refine ⟨k, by simpa [List.foldlM_cons, hi, he₀] using hk, hle'.1,
            fun j hj ev e hev hv => ?_⟩
          rcases List.mem_cons.mp hj with rfl | hj
          · obtain rfl : rev = ev := Option.some.inj (hi.symm.trans hev)
            obtain rfl : e₀ = e := Option.some.inj (he₀.symm.trans hv)
            exact hle'.2
          · exact hall j hj ev e hev hv

/-- **`removeWatch`** of an event in the table. -/
theorem removeWatch_spec (h : Watching s) (hi : s.watchTable i = some ev)
    (hv : s.mem.val ev = some e) :
    ∃ s', s.removeWatch ev i = some s' ∧ Watching s' ∧ Reindexed s s' ev ∧
      s'.watchTable = Function.update s.watchTable i none := by
  obtain ⟨m, hm, -, hreads⟩ := Cells.store_spec hv { e with index := -1 }
  have hother : ∀ a, a ≠ ev → m.val a = s.mem.val a := fun a ha => by
    rw [hreads.val, Function.update_of_ne ha]
  have hentry : ∀ {j x}, Function.update s.watchTable i none j = some x →
      j ≠ i ∧ x ≠ ev ∧ s.watchTable j = some x := by
    intro j x hj
    by_cases hji : j = i
    · subst hji
      rw [Function.update_self] at hj
      cases hj
    · rw [Function.update_of_ne hji] at hj
      refine ⟨hji, ?_, hj⟩
      rintro rfl
      exact hji (h.inj hj hi)
  have hlive : ∀ j x, Function.update s.watchTable i none j = some x → ∃ e, m.val x = some e := by
    intro j x hj
    obtain ⟨-, hx, hj⟩ := hentry hj
    obtain ⟨e', hv', -⟩ := h.entry hj
    exact ⟨e', (hother x hx).trans hv'⟩
  obtain ⟨k, hk, -, hall⟩ := highest_fold hlive (List.finRange maxFdEvents) 0
  -- whichever way `nfds` goes, it stays above the descriptors that are left
  obtain ⟨nfds, hnfds, habove⟩ :
      ∃ n, nfdsWithout m (Function.update s.watchTable i none) e.fd s.nfds = some n ∧
        ∀ j x e', Function.update s.watchTable i none j = some x → m.val x = some e' →
          e'.fd < n := by
    unfold nfdsWithout
    by_cases heq : e.fd + 1 = s.nfds
    · refine ⟨k + 1, by rw [if_pos heq, highest, hk]; rfl, fun j x e' hj hv' => ?_⟩
      have := hall j (List.mem_finRange j) x e' hj hv'
      omega
    · refine ⟨s.nfds, by rw [if_neg heq], fun j x e' hj hv' => ?_⟩
      obtain ⟨-, hx, hj⟩ := hentry hj
      obtain ⟨e'', hv'', -, -, -, hlt⟩ := h.entry hj
      obtain rfl : e' = e'' := Option.some.inj (hv'.symm.trans ((hother x hx).trans hv''))
      exact hlt
  refine ⟨⟨m, Function.update s.readFds e.fd false, nfds, Function.update s.watchTable i none⟩, ?_,
    ⟨?_, ?_, ?_⟩, ⟨hreads.next, hreads.prev, hother, -1, ?_⟩, rfl⟩
  · simp only [removeWatch, Option.bind_eq_bind]
    rw [hv, Option.bind_some, hm, Option.bind_some, hnfds]
    rfl
  · intro j x hj
    have hlt := fun e' => habove j x e' hj
    obtain ⟨hji, hx, hj⟩ := hentry hj
    obtain ⟨e', hv', hidx, hfd, hread, -⟩ := h.entry hj
    have hv'' : m.val x = some e' := (hother x hx).trans hv'
    refine ⟨e', hv'', hidx, hfd, ?_, hlt e' hv''⟩
    show Function.update s.readFds e.fd false e'.fd = true
    rw [Function.update_of_ne, hread]
    exact fun he => hji (h.distinct hj hi hv' hv he)
  · intro fd hread
    have hread : Function.update s.readFds e.fd false fd = true := hread
    have hne : fd ≠ e.fd := by
      rintro rfl
      rw [Function.update_self] at hread
      cases hread
    rw [Function.update_of_ne hne] at hread
    obtain ⟨j, x, e', hj, hv', he⟩ := h.only hread
    have hx : x ≠ ev := by
      rintro rfl
      obtain rfl : e' = e := Option.some.inj (hv'.symm.trans hv)
      exact hne he.symm
    have hji : j ≠ i := by
      rintro rfl
      exact hx (Option.some.inj (hj.symm.trans hi))
    refine ⟨j, x, e', ?_, (hother x hx).trans hv', he⟩
    show Function.update s.watchTable i none j = some x
    rw [Function.update_of_ne hji, hj]
  · intro j k x y e₁ e₂ hj hk h₁ h₂ he
    obtain ⟨-, hx, hj⟩ := hentry hj
    obtain ⟨-, hy, hk⟩ := hentry hk
    exact h.distinct hj hk ((hother x hx).symm.trans h₁) ((hother y hy).symm.trans h₂) he
  · rw [hreads.val, Function.update_self, hv]
    rfl

theorem watched_remove (h : Watching s) (hi : s.watchTable i = some ev) {s' : Events φ}
    (htab : s'.watchTable = Function.update s.watchTable i none) (x : Nat) :
    s'.Watched x ↔ x ≠ ev ∧ s.Watched x := by
  simp only [Watched, htab]
  constructor
  · rintro ⟨j, hj⟩
    by_cases hji : j = i
    · subst hji
      rw [Function.update_self] at hj
      cases hj
    · rw [Function.update_of_ne hji] at hj
      refine ⟨?_, j, hj⟩
      rintro rfl
      exact hji (h.inj hj hi)
  · rintro ⟨hx, j, hj⟩
    have hji : j ≠ i := by
      rintro rfl
      exact hx (Option.some.inj (hj.symm.trans hi))
    exact ⟨j, by rw [Function.update_of_ne hji, hj]⟩

/-- **`ril_event_del`** of an event in the table releases the mutex. -/
theorem eventDel_spec (h : Watching s) (hw : s.Watched ev) (hv : s.mem.val ev = some e) :
    ∃ s', s.eventDel ev = some (s', true) ∧ Watching s' ∧ Reindexed s s' ev ∧
      ∀ x, s'.Watched x ↔ x ≠ ev ∧ s.Watched x := by
  obtain ⟨i, hi⟩ := hw
  obtain ⟨e', hv', hidx, -⟩ := h.entry hi
  obtain rfl : e = e' := Option.some.inj (hv.symm.trans hv')
  obtain ⟨s', hs', hw', hre, htab⟩ := removeWatch_spec h hi hv
  refine ⟨s', ?_, hw', hre, watched_remove h hi htab⟩
  have hrange : 0 ≤ e.index ∧ e.index < maxFdEvents := by
    have := i.isLt
    omega
  have hfin : (⟨e.index.toNat, by omega⟩ : Fin maxFdEvents) = i := by
    apply Fin.ext
    simp [hidx]
  simp only [eventDel, Option.bind_eq_bind]
  rw [hv, Option.bind_some, dif_pos hrange, hfin, hs']
  rfl

/-- The event is watched once only. -/
def Once (m : Cells (RilEvent φ)) (x : Nat) : Prop := ∃ e, m.val x = some e ∧ e.persist = false

theorem Alike.once {m m' : Cells (RilEvent φ)} (h : Alike m m') {x : Nat} :
    Once m' x ↔ Once m x := by
  constructor
  · rintro ⟨e, hv, hp⟩
    obtain ⟨j, hj⟩ := h.symm.val hv
    exact ⟨_, hj, hp⟩
  · rintro ⟨e, hv, hp⟩
    obtain ⟨j, hj⟩ := h.val hv
    exact ⟨_, hj, hp⟩

/-- **What a part of `processReadReadies` does**: from `s` to `s'` it made the events `rs` pending,
    which come from the entries `is`; those that do not persist left the table. -/
structure Readied (is : List (Fin maxFdEvents)) (ts ps rs : List Nat) (s s' : Events φ) :
    Prop where
  watching : Watching s'
  rings : Rings s'.mem ts (ps ++ rs)
  alike : Alike s.mem s'.mem
  entry : ∀ x ∈ rs, ∃ i ∈ is, s.watchTable i = some x
  table : ∀ j, j ∉ is → s'.watchTable j = s.watchTable j
  watched : ∀ x, s'.Watched x ↔ s.Watched x ∧ ¬ (x ∈ rs ∧ Once s.mem x)

section Readies

variable {rfds : Int → Bool} {is : List (Fin maxFdEvents)} {ts ps : List Nat}

theorem Readied.refl (h : Watching s) (hr : Rings s.mem ts ps) : Readied is ts ps [] s s where
  watching := h
  rings := by simpa using hr
  alike := Alike.of_val rfl
  entry := by simp
  table := fun _ _ => rfl
  watched := by simp

/-- A ready event of the table becomes pending. -/
theorem makePending_spec (h : Watching s) (hr : Rings s.mem ts ps) (hi : s.watchTable i = some ev)
    (hv : s.mem.val ev = some e) (hl : Loose ts ps ev) :
    ∃ s', s.makePending ev i e.persist = some s' ∧ Readied [i] ts ps [ev] s s' := by
  obtain ⟨m, hm, hrm, hval, -⟩ := hr.push hl hv
  have hw : Watching { s with mem := m } := h.congr fun a _ => by rw [hval]
  have honce : Once s.mem ev ↔ e.persist = false := by simp [Once, hv]
  have hentry : ∀ x ∈ [ev], ∃ j ∈ [i], s.watchTable j = some x := fun x hx =>
    ⟨i, by simp, by rw [List.mem_singleton.mp hx]; exact hi⟩
  cases hp : e.persist with
  | true =>
      refine ⟨{ s with mem := m }, by simp [makePending, hm], hw, hrm, Alike.of_val hval, hentry,
        fun _ _ => rfl, fun x => ?_⟩
      rw [hp] at honce
      simp only [Watched, List.mem_singleton]
      refine (and_iff_left ?_).symm
      rintro ⟨rfl, hx⟩
      cases honce.mp hx
  | false =>
      obtain ⟨s', hs', hw', hre, htab⟩ := removeWatch_spec (s := { s with mem := m }) hw hi
        (by rw [hval]; exact hv)
      refine ⟨s', by simpa [makePending, hm] using hs', hw', hre.rings hrm,
        (Alike.of_val hval).trans hre.alike, hentry, fun j hj => ?_, fun x => ?_⟩
      · rw [htab, Function.update_of_ne fun he => hj (by simp [he])]
      · rw [watched_remove hw hi htab x, List.mem_singleton]
        refine ⟨fun hx => ⟨hx.2, fun hc => hx.1 hc.1⟩, fun hx => ⟨fun he => hx.2 ⟨he, ?_⟩, hx.1⟩⟩
        rw [he]
        exact honce.mpr hp

/-- One entry, and then the rest. -/
theorem Readied.trans {s₁ s₂ : Events φ} {rs : List Nat} (hi : i ∉ is)
    (h₁ : Readied [i] ts ps [ev] s s₁) (h₂ : Readied is ts (ps ++ [ev]) rs s₁ s₂) :
    Readied (i :: is) ts ps (ev :: rs) s s₂ where
  watching := h₂.watching
  rings := by simpa using h₂.rings
  alike := h₁.alike.trans h₂.alike
  entry := by
    intro x hx
    rcases List.mem_cons.mp hx with rfl | hx
    · obtain ⟨j, hj, htab⟩ := h₁.entry x (by simp)
      exact ⟨j, by simp_all, htab⟩
    · obtain ⟨j, hj, htab⟩ := h₂.entry x hx
      have hji : j ∉ [i] := fun hji => hi (List.mem_singleton.mp hji ▸ hj)
      exact ⟨j, List.mem_cons_of_mem _ hj, (h₁.table j hji).symm.trans htab⟩
  table := by
    intro j hj
    simp only [List.mem_cons, not_or] at hj
    exact (h₂.table j hj.2).trans (h₁.table j (by simp [hj.1]))
  watched := by
    intro x
    rw [h₂.watched x, h₁.watched x, h₁.alike.once, List.mem_singleton, List.mem_cons]
    tauto

theorem Readied.skip {s' : Events φ} {rs : List Nat} (h : Readied is ts ps rs s s') :
    Readied (i :: is) ts ps rs s s' where
  watching := h.watching
  rings := h.rings
  alike := h.alike
  entry := by
    intro x hx
    obtain ⟨j, hj, htab⟩ := h.entry x hx
    exact ⟨j, List.mem_cons_of_mem _ hj, htab⟩
  table := fun j hj => h.table j fun hc => hj (List.mem_cons_of_mem _ hc)
  watched := h.watched

/-- **`processReadReadies`**, on a part of the table whose events are in no ring. -/
theorem readies_spec (hnd : is.Nodup) (n : Nat) (h : Watching s) (hr : Rings s.mem ts ps)
    (hloose : ∀ i ∈ is, ∀ ev, s.watchTable i = some ev → Loose ts ps ev) :
    ∃ s' rs, readies rfds is n s = some s' ∧ Readied is ts ps rs s s' := by
  induction is generalizing s ps n with
  | nil => exact ⟨s, [], rfl, Readied.refl h hr⟩
  | cons i is ih =>
      obtain ⟨hi, hnd⟩ := List.nodup_cons.mp hnd
      have hloose' := fun j hj => hloose j (List.mem_cons_of_mem _ hj)
      cases n with
      | zero => exact ⟨s, [], rfl, Readied.refl h hr⟩
      | succ n =>
          have hskip : ∃ s' rs, readies rfds is (n + 1) s = some s' ∧
              Readied (i :: is) ts ps rs s s' := by
            obtain ⟨s', rs, hs', hrd⟩ := ih hnd (n + 1) h hr hloose'
            exact ⟨s', rs, hs', hrd.skip⟩
          cases htab : s.watchTable i with
          | none => simpa only [readies, htab] using hskip
          | some rev =>
              obtain ⟨e, hv, -⟩ := h.entry htab
              cases hready : rfds e.fd with
              | false => simpa [readies, htab, hv, hready] using hskip
              | true =>
                  obtain ⟨s₁, hs₁, hrd₁⟩ :=
                    makePending_spec h hr htab hv (hloose i (by simp) rev htab)
                  -- the events behind this entry are not the one that is pending now
                  have hloose₁ : ∀ j ∈ is, ∀ x, s₁.watchTable j = some x →
                      Loose ts (ps ++ [rev]) x := by
                    intro j hj x hx
                    have hji : j ≠ i := fun hji => hi (hji ▸ hj)
                    rw [hrd₁.table j (by simpa using hji)] at hx
                    have hl := hloose' j hj x hx
                    refine ⟨hl.1, fun hmem => ?_⟩
                    simp only [List.mem_cons, List.mem_append, List.not_mem_nil, or_false] at hmem
                    rcases hmem with hmem | hmem | hmem
                    · exact hl.2 (by simp [hmem])
                    · exact hl.2 (List.mem_cons_of_mem _ hmem)
                    · exact hji (h.inj hx (hmem ▸ htab))
                  obtain ⟨s', rs, hs', hrd⟩ := ih hnd n hrd₁.watching hrd₁.rings hloose₁
                  refine ⟨s', rev :: rs, ?_, hrd₁.trans hi hrd⟩
                  simp [readies, htab, hv, hready, hs₁, hs']

end Readies

end TableLemmas

end Events

end Y210.Ril

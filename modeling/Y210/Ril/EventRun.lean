/-
  File:      Y210/Ril/EventRun.lean
  Subject:   RILD'S EVENT THREAD OVER WHOLE RUNS: its timers are an agenda, it serves one socket at
             a time, and no wake-up is lost.

  * `Inv.step` -- every step keeps the invariant and is a step of the agenda;
  * `timed_callbacks`, `event_thread_safe`, `no_lost_wakeup` -- what holds in every interleaving.
-/
import Y210.Ril.EventLoop

namespace Y210.Ril.Loop

open Y210.Lib Events

/-! ## 1. Every step keeps the invariant and is a step of the agenda -/

/-- From `s` to `s'` the invariant is kept, and the timers move as an agenda does. -/
def Keeps (fds : Fds) (s s' : State) (ts ps : List Nat) : Prop :=
  ∃ ts' ps', Inv fds s' ts' ps' ∧ Agenda.Step (agenda s ts ps) (agenda s' ts' ps')

section Steps

variable {fds : Fds} {s s' : State} {ts ps : List Nat}

theorem Keeps.stay (h : Inv fds s' ts ps) (hag : agenda s' ts ps = agenda s ts ps) :
    Keeps fds s s' ts ps :=
  ⟨ts, ps, h, hag ▸ .stay _⟩

/-- The event thread goes on, and nothing else changes. -/
theorem Inv.goto {pc pc' : Pc} (h : Inv fds s ts ps) (hpc : s.pc = pc)
    (hq : queue pc' ps = queue pc ps) (hs : pc'.started = pc.started) (ht : pc'.taken = pc.taken)
    (hat : At fds { s with pc := pc' } ts ps) : Keeps fds s { s with pc := pc' } ts ps := by
  subst hpc
  refine Keeps.stay (h.stage rfl rfl hq hs ?_ hat) rfl
  exact h.cmd.congr Iff.rfl (Alike.of_val rfl) ht rfl rfl

/-- With a timed callback more, and memory `m`. -/
def requestedWith (s : State) (m : Cells (RilEvent Handler)) (tv : Nat) : State :=
  { s with
    ev := { s.ev with mem := m }
    requested := s.requested ++ [(s.requested.length, s.now + tv)] }

/-- **A timed callback is asked for**, by any thread. -/
theorem Inv.request (h : Inv fds s ts ps) {a : Nat} (ha : s.ev.mem.val a = none) (tv : Nat) :
    ∃ m' ts', requestTimer s a tv =
        (requestedWith s m' tv) ∧
      Inv fds (requestedWith s m' tv) ts' ps ∧
      Agenda.Step (agenda s ts ps)
        (agenda (requestedWith s m' tv) ts' ps) ∧
      (∀ x, x ∈ ts' ↔ x = a ∨ x ∈ ts) ∧ ∀ x, x ≠ a → m'.val x = s.ev.mem.val x := by
  obtain ⟨m₁, hm₁, hw₁, hr₁, hl, hval₁⟩ :=
    timerNew_spec h.base.watching h.base.rings ha (.timer s.requested.length)
  have hself₁ : m₁.val a = some (fresh (-1) false (.timer s.requested.length)) := by
    rw [hval₁, Function.update_self]
  obtain ⟨m₂, hm₂, hval₂, hr₂⟩ :=
    timerAdd_spec (s := { s.ev with mem := m₁ }) hr₁ hl hself₁ tv s.now
  have hother : ∀ x, x ≠ a → m₂.val x = s.ev.mem.val x := by
    intro x hx
    rw [hval₂, Function.update_of_ne hx]
    show m₁.val x = _
    rw [hval₁, Function.update_of_ne hx]
  have hself : m₂.val a = some { fresh (-1) false (Handler.timer s.requested.length) with
      timeout := s.now + tv } := by
    rw [hval₂, Function.update_self]
    rfl
  have hlive : ∀ x, s.ev.mem.val x ≠ none → m₂.val x = s.ev.mem.val x := by
    intro x hx
    refine hother x ?_
    rintro rfl
    exact hx ha
  have hts : ∀ x ∈ ts, m₂.val x = s.ev.mem.val x := fun x hx => hlive x (h.base.timer x hx).live
  let p : Nat → Bool := fun x => decide (timeoutOf m₁ x < s.now + tv)
  have hsplit : ts.takeWhile p ++ ts.dropWhile p = ts := List.takeWhile_append_dropWhile
  have hmem : ∀ x, x ∈ ts.takeWhile p ++ a :: ts.dropWhile p ↔ x = a ∨ x ∈ ts := by
    intro x
    have hx : x ∈ ts ↔ x ∈ ts.takeWhile p ∨ x ∈ ts.dropWhile p := by
      rw [← List.mem_append, hsplit]
    rw [hx, List.mem_append, List.mem_cons]
    tauto
  have htimer : ∀ x ∈ ts, IsTimer m₂ x := fun x hx => (h.base.timer x hx).of_val (hts x hx)
  refine ⟨m₂, _, ?_, ⟨⟨hr₂, h.base.watching.congr fun x hx =>
    hlive x (h.base.watched x hx).live, ?_, ?_, ?_, ?_⟩, ?_, h.wake, h.conn, ?_, ?_⟩, ?_, hmem,
    hother⟩
  · rw [requestTimer, hm₁, Option.bind_some, hm₂]
    rfl
  · intro x h₁ h₂
    obtain ⟨e, he⟩ := h.base.static x h₁ h₂
    exact ⟨e, (hlive x (by rw [he]; exact Option.some_ne_none e)).trans he⟩
  · intro x hx
    rcases (hmem x).mp hx with rfl | hx
    · exact ⟨h.base.six_le ha, _, _, hself, rfl⟩
    · exact htimer x hx
  · intro x hx
    exact (h.base.queued x hx).imp (fun ht => ht.of_val (hlive x ht.live)) fun ht =>
      ht.of_val (hlive x ht.live)
  · exact fun x hx => (h.base.watched x hx).of_val (hlive x (h.base.watched x hx).live)
  · exact fun hr => (h.listenSet hr).of_val (hlive _ (h.listenSet hr).live)
  · refine ⟨h.cmd.1, fun e hw hv => h.cmd.2 e hw ?_⟩
    exact (hlive _ (h.base.watched _ hw).live).symm.trans hv
  · refine h.here.congr rfl (fun x hx => ?_) (fun x hx => (hmem x).mpr (Or.inr hx))
      (fun x hx hm => ((hmem x).mp hm).resolve_left ?_) rfl rfl
    · exact hlive x ((h.base.queued x hx).elim IsTimer.live IsStatic.live)
    · rintro rfl
      exact (h.base.queued x hx).elim IsTimer.live IsStatic.live ha
  · have hp : ∀ x ∈ ts, p x = decide (timeoutOf m₂ x < s.now + tv) := by
      intro x hx
      have hxa : x ≠ a := by
        rintro rfl
        exact (h.base.timer x hx).live ha
      simp only [p, timeoutOf, hts x hx, hval₁, Function.update_of_ne hxa]
    have hentry : entry m₂ a = some (s.requested.length, s.now + tv) := by
      simp [entry, hself, fresh]
    have hwait : entries m₂ ts = entries s.ev.mem ts :=
      entries_congr fun x hx => entry_of_val (hts x hx)
    have hdue : entries m₂ ps = entries s.ev.mem ps := by
      refine entries_congr fun x hx => entry_of_val (hlive x ?_)
      exact (h.base.queued x (mem_queue hx)).elim IsTimer.live IsStatic.live
    have hstep := Agenda.Step.add (agenda s ts ps) s.requested.length tv
    have heq : agenda (requestedWith s m₂ tv)
        (ts.takeWhile p ++ a :: ts.dropWhile p) ps =
        (agenda s ts ps).put s.requested.length tv := by
      simp only [agenda, Agenda.put, requestedWith, hdue, Agenda.mk.injEq, true_and, and_true]
      rw [takeWhile_congr hp, dropWhile_congr hp, ← hwait, ← (entries_span htimer _).1,
        ← (entries_span htimer _).2]
      simp [entries, hentry]
    rw [heq]
    exact hstep

/-- `processTimeouts`. -/
theorem Inv.timeouts (h : Inv fds s ts ps) {rfds : Int → Bool} {n : Nat}
    (hpc : s.pc = .timeouts rfds n) :
    Keeps fds s (withEv s (.readies rfds n) (s.ev.processTimeouts s.now)) ts ps := by
  obtain ⟨-, hwake, hconn, hat⟩ := h.at hpc
  obtain rfl : ps = [] := hat
  obtain ⟨m, hm, hval, hr⟩ := processTimeouts_spec s.now h.base.rings
  rw [hm]
  let p : Nat → Bool := fun a => decide (timeoutOf s.ev.mem a < s.now)
  have hsub : ∀ a ∈ ts.takeWhile p, a ∈ ts := fun a ha => (List.takeWhile_prefix p).subset ha
  have hsix : ∀ a ∈ ts.takeWhile p, 6 ≤ a := fun a ha => (h.base.timer a (hsub a ha)).1
  have hent : ∀ as : List Nat, entries m as = entries s.ev.mem as := fun as =>
    entries_congr fun a _ => entry_of_val (by rw [hval])
  rw [List.nil_append] at hr
  have hal : Alike s.ev.mem m := Alike.of_val hval
  have hout : ∀ x, x < 6 → x ∉ ts.takeWhile p := fun x hx hmem => by
    have := hsix x hmem
    omega
  refine ⟨ts.dropWhile p, ts.takeWhile p, ⟨?_, fun hreg => (h.listenSet hreg).alike hal, hwake, ?_,
    h.cmd.congr Iff.rfl hal (by rw [hpc]; rfl) rfl rfl, hsix⟩, ?_⟩
  · exact h.base.relink hval hr (fun a ha => (List.dropWhile_suffix p).subset ha) fun a ha =>
      Or.inr (hsub a ha)
  · refine hconn.requeue ⟨fun hm => absurd hm (hout _ (by decide)), fun hm => ?_⟩
      (fun hm => absurd hm (hout _ (by decide))) fun hm => absurd hm (hout _ (by decide))
    cases hm
  · have hstep := Agenda.Step.expire (agenda s ts [])
    have heq : agenda (withEv s (.readies rfds n) (some { s.ev with mem := m })) (ts.dropWhile p)
        (ts.takeWhile p) = (agenda s ts []).expire := by
      simp only [agenda, Agenda.expire, withEv, hent]
      rw [(entries_span h.base.timer _).1, (entries_span h.base.timer _).2]
      rfl
    rw [heq]
    exact hstep

/-- Events whose descriptors are ready are queued behind timers; only the listening socket's leaves
    the table. -/
theorem Conn.readied {watched watched' : Nat → Prop} {q rs : List Nat} {registered : Nat}
    (h : Conn watched q registered) (hq : ∀ x, x < 6 → x ∉ q) (hrs : ∀ a ∈ rs, watched a)
    (hwat : ∀ a, a ≠ listenEvent → (watched' a ↔ watched a))
    (hlis : watched' listenEvent ↔ watched listenEvent ∧ listenEvent ∉ rs) :
    Conn watched' (q ++ rs) registered := by
  have hmem : ∀ x, x < 6 → (x ∈ q ++ rs ↔ x ∈ rs) := by
    intro x hx
    rw [List.mem_append]
    exact or_iff_right (hq x hx)
  have h2 := hwat commandsEvent (by decide)
  have h5 := hwat debugEvent (by decide)
  refine ⟨fun hw => ?_, fun hm => ?_, fun hm => ?_, fun hr => ?_, fun hr => ?_, fun hd => ?_⟩
  · rw [hmem _ (by decide), h2]
    exact ⟨(hlis.mp hw).2, (h.listen (hlis.mp hw).1).2⟩
  · rw [hmem _ (by decide)] at hm
    rw [h2]
    exact (h.listen (hrs _ hm)).2
  · rw [hmem _ (by decide)] at hm
    rw [h2]
    exact hrs _ hm
  · rw [hmem _ (by decide), h2, hlis]
    rcases h.served hr with hw | hm | hw
    · by_cases hmr : listenEvent ∈ rs
      · exact Or.inr (Or.inl hmr)
      · exact Or.inl ⟨hw, hmr⟩
    · exact absurd hm (hq _ (by decide))
    · exact Or.inr (Or.inr hw)
  · rw [hmem _ (by decide), h2, hlis]
    have hn := h.none hr
    exact ⟨fun hw => hn.1 hw.1, fun hm => hn.1 (hrs _ hm), hn.2.2⟩
  · rw [hmem _ (by decide), h5] at hd
    exact h.debug (Or.inl (hd.elim id (hrs _)))

/-- `processReadReadies`: only the listening socket's event leaves the table. -/
theorem Inv.readies (h : Inv fds s ts ps) {rfds : Int → Bool} {n : Nat}
    (hpc : s.pc = .readies rfds n) :
    Keeps fds s (withEv s .fire (s.ev.processReadReadies rfds n)) ts ps := by
  obtain ⟨hbase, hwake, hconn, hat⟩ := h.at hpc
  have hsix : ∀ a ∈ ps, 6 ≤ a := hat
  have hout : ∀ x, x < 6 → x ∉ ps := fun x hx hmem => by
    have := hsix x hmem
    omega
  have hloose : ∀ i ∈ List.finRange maxFdEvents, ∀ ev, s.ev.watchTable i = some ev →
      Loose ts ps ev := by
    intro i _ ev hi
    have hr := (h.base.watched ev ⟨i, hi⟩).range
    exact h.base.loose hr (hout ev hr.2)
  have hspec : ∃ ev' rs, Events.readies rfds (List.finRange maxFdEvents) n s.ev = some ev' ∧
      Readied (List.finRange maxFdEvents) ts ps rs s.ev ev' :=
    readies_spec (List.nodup_finRange maxFdEvents) n h.base.watching h.base.rings hloose
  obtain ⟨ev', rs, hev', hrd⟩ := hspec
  have hrs : ∀ a ∈ rs, s.ev.Watched a := by
    intro a ha
    obtain ⟨i, -, hi⟩ := hrd.entry a ha
    exact ⟨i, hi⟩
  have honce : ∀ {a}, s.ev.Watched a → (Once s.ev.mem a ↔ a = listenEvent) := by
    intro a ha
    obtain ⟨e, he, hk⟩ := h.base.watched a ha
    have : Once s.ev.mem a ↔ e.persist = false := by simp [Once, he]
    rw [this]
    exact hk.once
  have hwat : ∀ a, a ≠ listenEvent → (ev'.Watched a ↔ s.ev.Watched a) := by
    intro a ha
    rw [hrd.watched a]
    exact ⟨fun hw => hw.1, fun hw => ⟨hw, fun hc => ha ((honce hw).mp hc.2)⟩⟩
  have hlis : ev'.Watched listenEvent ↔ s.ev.Watched listenEvent ∧ listenEvent ∉ rs := by
    rw [hrd.watched]
    exact ⟨fun hw => ⟨hw.1, fun hm => hw.2 ⟨hm, (honce hw.1).mpr rfl⟩⟩, fun hw =>
      ⟨hw.1, fun hc => hw.2 hc.1⟩⟩
  rw [processReadReadies, hev']
  refine ⟨ts, ps ++ rs, ⟨?_, fun hreg => (h.listenSet hreg).alike hrd.alike, ?_, ?_,
    h.cmd.congr (hwat _ (by decide)) hrd.alike (by rw [hpc]; rfl) rfl rfl, trivial⟩, ?_⟩
  · refine hbase.alike hrd.watching hrd.alike (fun y hy => ((hrd.watched y).mp hy).1) hrd.rings
      (fun _ ha => ha) fun a ha => ?_
    rcases List.mem_append.mp ha with ha | ha
    · exact Or.inl ha
    · exact Or.inr (Or.inr (hrs a ha))
  · exact (hwat wakeupEvent (by decide)).trans hwake
  · exact hconn.readied hout hrs hwat hlis
  · have heq : agenda (withEv s .fire (some ev')) ts (ps ++ rs) = agenda s ts ps := by
      have hnil : entries ev'.mem rs = [] := by
        refine List.filterMap_eq_nil_iff.mpr fun a ha => ?_
        exact entry_static ((h.base.watched a (hrs a ha)).alike hrd.alike)
      have hent : ∀ as : List Nat, entries ev'.mem as = entries s.ev.mem as := fun as =>
        entries_congr fun a _ => entry_alike hrd.alike a
      have happ : entries ev'.mem (ps ++ rs) = entries s.ev.mem ps := by
        rw [← hent ps]
        simpa [entries] using hnil
      simp only [agenda, withEv, happ, hent]
    rw [heq]
    exact .stay _

/-- The next pending event is called. -/
theorem Inv.takeNext (h : Inv fds s ts ps) {ev : Nat} (hpc : s.pc = .firing ev)
    (hne : ev ≠ pendingList) : Keeps fds s (callNext s ev) ts ps := by
  obtain ⟨hbase, hwake, hconn, hat⟩ := h.at hpc
  cases ps with
  | nil => exact absurd hat hne
  | cons p ps =>
      obtain rfl : ev = p := hat
      obtain ⟨m, hm, hval, hr, hl⟩ := takePending_spec h.base.rings
      have hkind := hbase.queued ev (by simp [queue])
      obtain ⟨e, he, func, hf⟩ : ∃ e, s.ev.mem.val ev = some e ∧ ∃ func, e.func = some func := by
        rcases hkind with ht | hs
        · obtain ⟨-, e, id, he, hf⟩ := ht
          exact ⟨e, he, _, hf⟩
        · obtain ⟨e, he, hk⟩ := hs
          exact ⟨e, he, hk.func⟩
      have he' : m.val ev = some e := by rw [hval, he]
      have hal : Alike s.ev.mem m := Alike.of_val hval
      have hent : ∀ as : List Nat, entries m as = entries s.ev.mem as := fun as =>
        entries_congr fun a _ => entry_of_val (by rw [hval])
      have hcall : callNext s ev = { s with
          ev := { s.ev with mem := m }
          pc := .call ev e.fd func (ps.headD pendingList)
          fired := firedWith s e.timeout func } := by
        simp only [callNext, hm, he', hf]
      rw [hcall]
      refine ⟨ts, ps, ⟨?_, fun hreg => (h.listenSet hreg).alike hal, hwake, hconn,
        h.cmd.congr Iff.rfl hal (by rw [hpc]; rfl) rfl rfl, rfl, hl, e, he', rfl, hf⟩, ?_⟩
      · exact hbase.relink hval hr (fun _ ha => ha) fun a ha => Or.inl ha
      · cases func with
        | timer id =>
            have hentry : entry s.ev.mem ev = some (id, e.timeout) := by simp [entry, he, hf]
            have hdue : (agenda s ts (ev :: ps)).due = (id, e.timeout) :: entries s.ev.mem ps := by
              simp [agenda, entries, hentry]
            have hstep := Agenda.Step.act _ _ _ hdue
            simpa only [agenda, hent, firedWith] using hstep
        | _ =>
            have hentry : entry s.ev.mem ev = none := by simp [entry, he, hf]
            have hdue : entries s.ev.mem (ev :: ps) = entries s.ev.mem ps := by
              simp [entries, hentry]
            simp only [agenda, hent, hdue, firedWith]
            exact .stay _

/-- What is being called, and what that says of it. -/
theorem Inv.calling (h : Inv fds s ts ps) {ev next : Nat} {fd : Int} {func : Handler}
    (hpc : s.pc = .call ev fd func next) :
    next = ps.headD pendingList ∧ Loose ts ps ev ∧
      ((6 ≤ ev ∧ ∃ id, func = .timer id) ∨ ∃ p, Kind fds ev fd p (some func)) := by
  obtain ⟨hbase, -, -, hnext, hl, e, he, rfl, hf⟩ := h.at hpc
  refine ⟨hnext, hl, ?_⟩
  rcases hbase.queued ev List.mem_cons_self with ht | ⟨e', he', hk⟩
  · obtain ⟨id, hid⟩ := ht.func he
    exact Or.inl ⟨ht.1, id, Option.some.inj (hf.symm.trans hid)⟩
  · obtain rfl : e = e' := Option.some.inj (he.symm.trans he')
    exact Or.inr ⟨e.persist, hf ▸ hk⟩

theorem Inv.not_listen (h : Inv fds s ts ps) {ev next : Nat} {fd : Int} {func : Handler}
    (hpc : s.pc = .call ev fd func next) (hf : func ≠ .listen) : ev ≠ listenEvent := by
  rintro rfl
  rcases (h.calling hpc).2.2 with ⟨hsix, -⟩ | ⟨p, hk⟩
  · exact absurd hsix (by decide)
  · cases hk
    exact hf rfl

/-- A callback ends that changed nothing in the tables. -/
theorem Inv.leaves (h : Inv fds s ts ps) {ev next : Nat} {fd : Int} {func : Handler}
    (hpc : s.pc = .call ev fd func next) (hf : func ≠ .listen) (hev : s'.ev = s.ev)
    (hreg : s'.registered = s.registered) (hq : queue s'.pc ps = ps)
    (hst : s'.pc.started = true) (hcmd : CmdFd s') (hat : At fds s' ts ps) : Inv fds s' ts ps where
  base := by
    rw [hev, hq]
    exact h.base.relink rfl h.base.rings (fun _ ha => ha) fun a ha => Or.inl (mem_queue ha)
  listenSet := by
    rw [hev, hreg]
    exact h.listenSet
  wake := by
    rw [hev, hst]
    exact (h.at hpc).2.1
  conn := by
    rw [hev, hq, hreg]
    exact (h.at hpc).2.2.1.drop (h.not_listen hpc hf)
  cmd := hcmd
  here := hat

/-- And goes on with the next one. -/
theorem Inv.returns (h : Inv fds s ts ps) {ev next : Nat} {fd : Int} {func : Handler}
    (hpc : s.pc = .call ev fd func next) (hf : func ≠ .listen) :
    Inv fds { s with pc := .firing next } ts ps :=
  h.leaves hpc hf rfl rfl rfl rfl
    (h.cmd.congr Iff.rfl (Alike.of_val rfl) (by rw [hpc]; rfl) rfl rfl) (h.calling hpc).1

/-- `userTimerCallback` frees the timer. -/
theorem Inv.timerDone (h : Inv fds s ts ps) {ev next id : Nat} {fd : Int}
    (hpc : s.pc = .call ev fd (.timer id) next) :
    Keeps fds s { s with ev := { s.ev with mem := s.ev.mem.free ev }, pc := .firing next }
      ts ps := by
  obtain ⟨hnext, hl, hkind⟩ := h.calling hpc
  have hsix : 6 ≤ ev := by
    rcases hkind with ⟨hsix, -⟩ | ⟨p, hk⟩
    · exact hsix
    · cases hk
  have hreads := Cells.free_spec s.ev.mem ev
  have hother : ∀ a, a ≠ ev → (s.ev.mem.free ev).val a = s.ev.mem.val a := fun a ha => by
    rw [hreads.val, Function.update_of_ne ha]
  have hts : ∀ a ∈ ts, a ≠ ev := by
    rintro a ha rfl
    exact hl.1 (List.mem_cons_of_mem _ ha)
  have hps : ∀ a ∈ ps, a ≠ ev := by
    rintro a ha rfl
    exact hl.2 (List.mem_cons_of_mem _ ha)
  have hstatic : ∀ a, a < 6 → a ≠ ev := fun a ha he => by omega
  have hwat : ∀ a, s.ev.Watched a → a ≠ ev := fun a ha =>
    hstatic a (h.base.watched a ha).range.2
  obtain ⟨hbase, hwake, hconn, -⟩ := h.at hpc
  refine Keeps.stay ⟨⟨h.base.rings.update hl hreads.next hreads.prev,
    h.base.watching.congr fun a ha => hother a (hwat a ha), ?_, ?_, ?_, ?_⟩, ?_, hwake, ?_, ?_,
    hnext⟩ ?_
  · intro a h₁ h₂
    obtain ⟨e, he⟩ := h.base.static a h₁ h₂
    exact ⟨e, (hother a (hstatic a h₂)).trans he⟩
  · exact fun a ha => (h.base.timer a ha).of_val (hother a (hts a ha))
  · intro a ha
    have hv := hother a (hps a ha)
    exact (hbase.queued a (List.mem_cons_of_mem _ ha)).imp
      (fun ht => ht.of_val hv) fun hs => hs.of_val hv
  · exact fun a ha => (h.base.watched a ha).of_val (hother a (hwat a ha))
  · exact fun hreg => (h.listenSet hreg).of_val (hother _ (hstatic _ (by decide)))
  · exact hconn.drop (hstatic _ (by decide)).symm
  · refine ⟨fun hw _ => h.cmd.1 hw (by rw [hpc]; rfl), fun e hw hv => h.cmd.2 e hw ?_⟩
    exact (hother _ (hstatic _ (by decide))).symm.trans hv
  · have hent : ∀ as : List Nat, (∀ a ∈ as, a ≠ ev) →
        entries (s.ev.mem.free ev) as = entries s.ev.mem as := fun as has =>
      entries_congr fun a ha => entry_of_val (hother a (has a ha))
    simp only [agenda, hent ts hts, hent ps hps]

/-- The timers are as before when only a static event was set or added. -/
theorem Added.agenda {ev' : Events Handler} {x : Nat} {fd : Int}
    (ha : Added fds s.ev ev' ts ps x fd) (h : Inv fds s ts ps) (hp : x ∉ ps) (hev : s'.ev = ev')
    (hnow : s'.now = s.now) (hfired : s'.fired = s.fired) (hreq : s'.requested = s.requested) :
    agenda s' ts ps = agenda s ts ps := by
  have hts : entries ev'.mem ts = entries s.ev.mem ts :=
    entries_congr fun a hm => entry_of_val (ha.others a (ha.ne_timer (h.base.timer a hm)))
  have hps : entries ev'.mem ps = entries s.ev.mem ps := by
    refine entries_congr fun a hm => entry_of_val (ha.others a ?_)
    rintro rfl
    exact hp hm
  simp only [Loop.agenda, hev, hnow, hfired, hreq, hts, hps]

/-- `RIL_register` adds the listening socket. -/
theorem Inv.registerListen (h : Inv fds s ts ps) (hreg : s.registered = 0) {o : Nat} :
    Keeps fds s { withEv s s.pc (Loop.setAdd s.ev listenEvent fds.listen false .listen) with
      registered := 1, owed := o } ts ps := by
  obtain ⟨hn₁, hn₂, hn₃⟩ := h.conn.none hreg
  have hps : listenEvent ∉ ps := fun hm => hn₂ (mem_queue hm)
  obtain ⟨ev', hev', ha⟩ := h.base.setAdd Kind.listen hn₁ hps
  rw [hev']
  have h2 := ha.watched_ne (show commandsEvent ≠ listenEvent by decide)
  have h3 := ha.watched_ne (show wakeupEvent ≠ listenEvent by decide)
  have h4 : ev'.Watched listenEvent := (ha.watched _).mpr (Or.inl rfl)
  have h5 := ha.watched_ne (show debugEvent ≠ listenEvent by decide)
  refine Keeps.stay ⟨h.base.added ha fun _ hm => hm, fun _ => ha.isStatic, h3.trans h.wake, ?_,
    h.cmd.added ha (by decide) rfl rfl rfl rfl, ?_⟩ (ha.agenda h hps rfl rfl rfl rfl)
  · refine ⟨fun _ => ⟨hn₂, fun hw => hn₃ (h2.mp hw)⟩, fun hm => absurd hm hn₂, fun hm => ?_,
      fun _ => Or.inl h4, fun hr => (by cases hr), fun hd => ?_⟩
    · exact h2.mpr (h.conn.commands hm)
    · have := h.conn.debug (hd.imp h5.mp id)
      omega
  · refine h.here.congr rfl (fun a hm => ha.others a ?_) (fun _ hm => hm) (fun _ _ hm => hm) rfl rfl
    rintro rfl
    exact hn₂ hm

/-- `RIL_register` adds the debug socket. -/
theorem Inv.registerDebug (h : Inv fds s ts ps) (hreg : s.registered = 1) {o : Nat} :
    Keeps fds s { withEv s s.pc (Loop.setAdd s.ev debugEvent fds.debug true .debug) with
      registered := 2, owed := o } ts ps := by
  have hnew : ¬ (s.ev.Watched debugEvent ∨ debugEvent ∈ queue s.pc ps) := fun hd => by
    have := h.conn.debug hd
    omega
  rw [not_or] at hnew
  have hps : debugEvent ∉ ps := fun hm => hnew.2 (mem_queue hm)
  obtain ⟨ev', hev', ha⟩ := h.base.setAdd Kind.debug hnew.1 hps
  rw [hev']
  have h2 := ha.watched_ne (show commandsEvent ≠ debugEvent by decide)
  have h3 := ha.watched_ne (show wakeupEvent ≠ debugEvent by decide)
  have h4 := ha.watched_ne (show listenEvent ≠ debugEvent by decide)
  refine Keeps.stay ⟨h.base.added ha fun _ hm => hm,
    fun _ => ha.keeps (h.listenSet (by omega)), h3.trans h.wake, ?_,
    h.cmd.added ha (by decide) rfl rfl rfl rfl, ?_⟩ (ha.agenda h hps rfl rfl rfl rfl)
  · refine ⟨fun hw => ?_, fun hm => ?_, fun hm => ?_, fun _ => ?_, fun hr => (by cases hr),
      fun _ => Nat.le_refl 2⟩
    · exact (h.conn.listen (h4.mp hw)).imp_right (not_congr h2).mpr
    · exact (not_congr h2).mpr (h.conn.queued hm)
    · exact h2.mpr (h.conn.commands hm)
    · exact (h.conn.served (by omega)).imp h4.mpr (Or.imp_right h2.mpr)
  · refine h.here.congr rfl (fun a hm => ha.others a ?_) (fun _ hm => hm) (fun _ _ hm => hm) rfl rfl
    rintro rfl
    exact hnew.2 hm

/-- The event thread adds the wake-up pipe and enters its loop. -/
theorem Inv.boot (h : Inv fds s ts ps) (hpc : s.pc = .piped) :
    Keeps fds s (withEv s .top (Loop.setAdd s.ev wakeupEvent fds.wakeup true .wakeup)) ts ps := by
  obtain ⟨hbase, hwake, hconn, hat⟩ := h.at hpc
  obtain rfl : ps = [] := hat
  have hnot : ¬ s.ev.Watched wakeupEvent := fun hw => by cases hwake.mp hw
  obtain ⟨ev', hev', ha⟩ := h.base.setAdd Kind.wakeup hnot List.not_mem_nil
  rw [hev']
  refine Keeps.stay ⟨hbase.added ha fun _ hm => hm, fun hreg => ha.keeps (h.listenSet hreg), ?_, ?_,
    h.cmd.added ha (by decide) rfl (by rw [hpc]; rfl) rfl rfl, rfl⟩
    (ha.agenda h List.not_mem_nil rfl rfl rfl rfl)
  · exact iff_of_true ((ha.watched _).mpr (Or.inl rfl)) rfl
  · exact hconn.congr (ha.watched_ne (by decide)) (ha.watched_ne (by decide))
      (ha.watched_ne (by decide)).mp

/-- What `listenCallback` finds when it is called. -/
theorem Inv.listening (h : Inv fds s ts ps) {ev next : Nat} {fd : Int}
    (hpc : s.pc = .call ev fd .listen next) :
    queue s.pc ps = listenEvent :: ps ∧ fd = fds.listen ∧ listenEvent ∉ ps ∧
      ¬ s.ev.Watched commandsEvent ∧ s.fdCommand < 0 ∧ s.dead = none := by
  obtain ⟨-, hl, hkind⟩ := h.calling hpc
  have hev : ev = listenEvent ∧ fd = fds.listen := by
    rcases hkind with ⟨-, id, hid⟩ | ⟨p, hk⟩
    · cases hid
    · cases hk
      exact ⟨rfl, rfl⟩
  obtain ⟨rfl, rfl⟩ := hev
  have hq : queue s.pc ps = listenEvent :: ps := by
    rw [hpc]
    rfl
  have h2 : ¬ s.ev.Watched commandsEvent := h.conn.queued (hq ▸ List.mem_cons_self)
  exact ⟨hq, rfl, fun hm => hl.2 (List.mem_cons_of_mem _ hm), h2, h.cmd.1 h2 (by rw [hpc]; rfl)⟩

/-- `accept` fails. -/
theorem Inv.acceptNone (h : Inv fds s ts ps) {ev next : Nat} {fd : Int}
    (hpc : s.pc = .call ev fd .listen next) :
    Inv fds { s with pc := .relisten next, fdCommand := -1 } ts ps := by
  obtain ⟨hq, -, h4, h2, -, hdead⟩ := h.listening hpc
  refine h.stage rfl rfl hq.symm (by rw [hpc]; rfl)
    ⟨fun _ _ => ⟨?_, hdead⟩, fun e hw => absurd hw h2⟩ ⟨(h.calling hpc).1, h4⟩
  exact (by decide : (-1 : Int) < 0)

/-- `accept` gives a connection. -/
theorem Inv.accept (h : Inv fds s ts ps) {ev next : Nat} {fd f : Int}
    (hpc : s.pc = .call ev fd .listen next) (hf : newFd fds f = true) :
    Inv fds { s with pc := .accepted next, fdCommand := f } ts ps := by
  obtain ⟨hq, -, h4, h2, -, hdead⟩ := h.listening hpc
  exact h.stage rfl rfl hq.symm (by rw [hpc]; rfl)
    ⟨fun _ ht => (by cases ht), fun e hw => absurd hw h2⟩
    ⟨(h.calling hpc).1, h4, hf, Or.inl hdead⟩

/-- The peer is not the phone process. -/
theorem Inv.refuse (h : Inv fds s ts ps) {next : Nat} (hpc : s.pc = .accepted next) :
    Inv fds { s with pc := .relisten next, fdCommand := -1, dead := none } ts ps := by
  obtain ⟨-, -, hconn, hat⟩ := h.at hpc
  have h2 : ¬ s.ev.Watched commandsEvent := hconn.queued List.mem_cons_self
  refine h.stage rfl rfl (by rw [hpc]; rfl) (by rw [hpc]; rfl)
    ⟨fun _ _ => ⟨?_, rfl⟩, fun e hw => absurd hw h2⟩ ⟨hat.1, hat.2.1⟩
  exact (by decide : (-1 : Int) < 0)

/-- The connection comes into the table. -/
theorem Inv.connect (h : Inv fds s ts ps) {next : Nat} (hpc : s.pc = .accepted next) :
    Keeps fds s (acceptCommands s next) ts ps := by
  obtain ⟨hbase, hwake, hconn, hnext, h4ps, hnew, hdead⟩ := h.at hpc
  have hin : listenEvent ∈ queue (.accepted next) ps := List.mem_cons_self
  have h4 : ¬ s.ev.Watched listenEvent := fun hw => (hconn.listen hw).1 hin
  have h2 := hconn.queued hin
  have h2ps : commandsEvent ∉ ps := fun hm => h2 (hconn.commands (List.mem_cons_of_mem _ hm))
  obtain ⟨ev', hev', ha⟩ := hbase.setAdd (Kind.commands hnew) h2 h2ps
  rw [acceptCommands, hev']
  have hw3 := ha.watched_ne (show wakeupEvent ≠ commandsEvent by decide)
  have hw4 := ha.watched_ne (show listenEvent ≠ commandsEvent by decide)
  have hw5 := ha.watched_ne (show debugEvent ≠ commandsEvent by decide)
  have hw2 : ev'.Watched commandsEvent := (ha.watched _).mpr (Or.inl rfl)
  refine Keeps.stay ⟨hbase.added ha fun a hm => List.mem_cons_of_mem _ hm,
    fun hreg => ha.keeps (h.listenSet hreg), hw3.trans hwake, ?_, ?_, hnext⟩
    (ha.agenda h h2ps rfl rfl rfl rfl)
  · show Conn ev'.Watched ps s.registered
    refine ⟨fun hw => absurd (hw4.mp hw) h4, fun hm => absurd hm h4ps, fun _ => hw2,
      fun _ => Or.inr (Or.inr hw2), fun hr => absurd hin (hconn.none hr).2.1, fun hd => ?_⟩
    exact hconn.debug (hd.imp hw5.mp (List.mem_cons_of_mem _))
  · refine ⟨fun hw => absurd hw2 hw, fun e _ hv => Or.inl ?_⟩
    obtain ⟨e', he', hfd', -⟩ := ha.event
    obtain rfl : e = e' := Option.some.inj (hv.symm.trans he')
    rw [hfd']
    exact ⟨rfl, hdead⟩

/-- The listening socket comes back into the table. -/
theorem Inv.relisten (h : Inv fds s ts ps) {next : Nat} (hpc : s.pc = .relisten next) :
    Keeps fds s (withEv s (.firing next) (s.ev.eventAdd listenEvent)) ts ps := by
  obtain ⟨hbase, hwake, hconn, hnext, h4ps⟩ := h.at hpc
  have hin : listenEvent ∈ queue (.relisten next) ps := List.mem_cons_self
  have h4 : ¬ s.ev.Watched listenEvent := fun hw => (hconn.listen hw).1 hin
  have h2 := hconn.queued hin
  have h2ps : commandsEvent ∉ ps := fun hm => h2 (hconn.commands (List.mem_cons_of_mem _ hm))
  have hreg : 1 ≤ s.registered := by
    by_contra hlt
    exact (hconn.none (by omega)).2.1 hin
  obtain ⟨ev', fd', hev', ha⟩ := hbase.eventAdd (h.listenSet hreg) h4
  rw [hev']
  have hw2 := ha.watched_ne (show commandsEvent ≠ listenEvent by decide)
  have hw3 := ha.watched_ne (show wakeupEvent ≠ listenEvent by decide)
  have hw5 := ha.watched_ne (show debugEvent ≠ listenEvent by decide)
  refine Keeps.stay ⟨hbase.added ha fun a hm => List.mem_cons_of_mem _ hm,
    fun _ => ha.isStatic, hw3.trans hwake, ?_,
    h.cmd.added ha (by decide) rfl (by rw [hpc]; rfl) rfl rfl, hnext⟩
    (ha.agenda h h4ps rfl rfl rfl rfl)
  show Conn ev'.Watched ps s.registered
  refine ⟨fun _ => ⟨h4ps, fun hw => h2 (hw2.mp hw)⟩, fun hm => absurd hm h4ps,
    fun hm => absurd hm h2ps, fun _ => Or.inl ((ha.watched _).mpr (Or.inl rfl)), fun hr => ?_,
    fun hd => hconn.debug (hd.imp hw5.mp (List.mem_cons_of_mem _))⟩
  omega

/-- What `processCommandsCallback` was called for. -/
theorem Inv.reading (h : Inv fds s ts ps) {ev next : Nat} {fd : Int}
    (hpc : s.pc = .call ev fd .commands next) :
    queue s.pc ps = commandsEvent :: ps ∧ commandsEvent ∉ ps ∧ s.ev.Watched commandsEvent ∧
      ∃ e, s.ev.mem.val commandsEvent = some e ∧ e.fd = fd := by
  obtain ⟨-, -, -, -, hl, e, he, hfd, -⟩ := h.at hpc
  obtain rfl : ev = commandsEvent := by
    rcases (h.calling hpc).2.2 with ⟨-, id, hid⟩ | ⟨p, hk⟩
    · cases hid
    · cases hk
      rfl
  have hq : queue s.pc ps = commandsEvent :: ps := by
    rw [hpc]
    rfl
  exact ⟨hq, fun hm => hl.2 (List.mem_cons_of_mem _ hm),
    h.conn.commands (hq ▸ List.mem_cons_self), e, he, hfd⟩

/-- The end of stream: the command socket is closed. -/
theorem Inv.closing (h : Inv fds s ts ps) {ev next : Nat} {fd : Int}
    (hpc : s.pc = .call ev fd .commands next) (hfd : fd = s.fdCommand) :
    Inv fds { s with pc := .closing next, fdCommand := -1, dead := some s.fdCommand } ts ps := by
  obtain ⟨hq, h2ps, h2, e, he, hefd⟩ := h.reading hpc
  have hneg : (-1 : Int) < 0 := by decide
  refine h.stage rfl rfl hq.symm (by rw [hpc]; rfl)
    ⟨fun hw => absurd h2 hw, fun e' _ he' => Or.inr ⟨hneg, ?_⟩⟩ ⟨(h.calling hpc).1, h2ps, hneg⟩
  obtain rfl : e = e' := Option.some.inj (he.symm.trans he')
  exact congrArg some (hefd.trans hfd).symm

/-- And its event leaves the table. -/
theorem Inv.unwatch (h : Inv fds s ts ps) {next : Nat} (hpc : s.pc = .closing next) :
    Keeps fds s (closeCommands s next) ts ps := by
  obtain ⟨hbase, hwake, hconn, hnext, h2ps, hneg⟩ := h.at hpc
  have h2 := hconn.commands List.mem_cons_self
  have h4 : ¬ s.ev.Watched listenEvent := fun hw => (hconn.listen hw).2 h2
  have h4ps : listenEvent ∉ ps := fun hm => hconn.queued (List.mem_cons_of_mem _ hm) h2
  have hreg : 1 ≤ s.registered := by
    by_contra hlt
    exact (hconn.none (by omega)).2.2 h2
  obtain ⟨e, he, -⟩ := h.base.watched _ h2
  obtain ⟨ev', hev', hw', hre, hwat⟩ := eventDel_spec h.base.watching h2 he
  have hclose :
      closeCommands s next = { s with ev := ev', pc := .relisten next, dead := none } := by
    simp only [closeCommands, hev']
  rw [hclose]
  have hstatic : IsStatic fds ev'.mem listenEvent := (h.listenSet hreg).alike hre.alike
  have hbase' : Base fds ev' (queue (.closing next) ps) ts ps :=
    hbase.alike hw' hre.alike (fun y hy => ((hwat y).mp hy).2) (hre.rings h.base.rings)
      (fun _ ha => ha) fun a ha => Or.inl ha
  have hw2 : ¬ ev'.Watched commandsEvent := fun hw => ((hwat _).mp hw).1 rfl
  have hw : ∀ y, y ≠ commandsEvent → (ev'.Watched y ↔ s.ev.Watched y) := by
    intro y hy
    rw [hwat]
    exact and_iff_right hy
  have hin : listenEvent ∈ listenEvent :: ps := List.mem_cons_self
  refine Keeps.stay ⟨hbase'.requeue fun a ha => ?_, fun _ => hstatic,
    (hw _ (by decide)).trans hwake, ?_, ⟨fun _ _ => ⟨hneg, rfl⟩, fun e hc => absurd hc hw2⟩,
    hnext, h4ps⟩ ?_
  · rcases List.mem_cons.mp ha with rfl | ha
    · exact Or.inr hstatic
    · exact Or.inl (List.mem_cons_of_mem _ ha)
  · show Conn ev'.Watched (listenEvent :: ps) s.registered
    refine ⟨fun hl => absurd ((hw _ (by decide)).mp hl) h4, fun _ => hw2, fun hm => ?_,
      fun _ => Or.inr (Or.inl hin), fun hr => ?_, fun hd => ?_⟩
    · rcases List.mem_cons.mp hm with hm | hm
      · cases hm
      · exact absurd hm h2ps
    · omega
    · refine hconn.debug (hd.imp (hw _ (by decide)).mp fun hm => ?_)
      rcases List.mem_cons.mp hm with hm | hm
      · cases hm
      · exact List.mem_cons_of_mem _ hm
  · have hent : ∀ as : List Nat, entries ev'.mem as = entries s.ev.mem as := fun as =>
      entries_congr fun a _ => entry_alike hre.alike a
    simp only [agenda, hent]

/-- A failed write closes the command socket. -/
theorem Inv.writeError (h : Inv fds s ts ps) (hfd : ¬ s.fdCommand < 0) :
    Inv fds { s with dead := some s.fdCommand } ts ps where
  base := h.base
  listenSet := h.listenSet
  wake := h.wake
  conn := h.conn
  cmd := by
    refine ⟨fun hw ht => absurd (h.cmd.1 hw ht).1 hfd, fun e hw hv => Or.inl ?_⟩
    rcases h.cmd.2 e hw hv with ⟨heq, -⟩ | ⟨hlt, -⟩
    · exact ⟨heq, Or.inr (congrArg some heq)⟩
    · exact absurd hlt hfd
  here := by
    have hat := h.here
    unfold At at hat ⊢
    cases hpc : s.pc with
    | aborted =>
        rw [hpc] at hat
        exact absurd hat.2 hfd
    | accepted next =>
        rw [hpc] at hat
        exact ⟨hat.1, hat.2.1, hat.2.2.1, Or.inr rfl⟩
    | crashed =>
        rw [hpc] at hat
        exact hat
    | _ => simp only [hpc] at hat ⊢ <;> first | exact hat | rfl

/-- The debug port's radio-off closes the command socket, and leaves its event in the table. -/
theorem Inv.radioOff (h : Inv fds s ts ps) {ev next : Nat} {fd : Int}
    (hpc : s.pc = .call ev fd .debug next) (hfd : 0 ≤ s.fdCommand) :
    Inv fds { s with pc := .firing next, fdCommand := -1, dead := some s.fdCommand } ts ps := by
  refine h.leaves hpc (by decide) rfl rfl rfl rfl ⟨fun hw _ => ?_, fun e hw hv =>
    Or.inr ⟨show (-1 : Int) < 0 by decide, ?_⟩⟩ (h.calling hpc).1
  · have := (h.cmd.1 hw (by rw [hpc]; rfl)).1
    omega
  · rcases h.cmd.2 e hw hv with ⟨heq, -⟩ | ⟨hlt, -⟩
    · exact congrArg some heq
    · omega

/-- **Every step keeps the invariant and is a step of the agenda.** -/
theorem Inv.step {a : Act} (h : Inv fds s ts ps) (hs : step fds s a = some s') :
    Keeps fds s s' ts ps := by
  cases a <;> simp only [Loop.step] at hs
  case tick d =>
    cases hs
    exact ⟨ts, ps, h.congr rfl rfl rfl rfl rfl, .tick (agenda s ts ps) d⟩
  case request a tv =>
    split at hs
    · cases hs
    · rename_i ha
      cases hs
      obtain ⟨m, ts', heq, hinv, hag, -⟩ := h.request ha tv
      rw [heq]
      exact ⟨ts', ps, hinv.congr rfl rfl rfl rfl rfl, hag⟩
  case trigger =>
    split at hs
    · cases hs
    · split at hs <;> cases hs <;> exact Keeps.stay (h.congr rfl rfl rfl rfl rfl) rfl
  case register =>
    split at hs
    · rename_i hreg
      cases hs
      exact h.registerListen hreg
    · rename_i hreg
      cases hs
      exact h.registerDebug hreg
    · cases hs
  case writeError =>
    split at hs
    · cases hs
    · rename_i hfd
      cases hs
      exact Keeps.stay (h.writeError hfd) rfl
  case pipe =>
    split at hs
    · rename_i hpc
      cases hs
      exact h.goto hpc rfl rfl rfl (h.at hpc).2.2.2
    · cases hs
  case boot =>
    split at hs
    · rename_i hpc
      cases hs
      exact h.boot hpc
    · cases hs
  case copy =>
    split at hs
    · rename_i hpc
      cases hs
      exact h.goto hpc rfl rfl rfl (h.at hpc).2.2.2
    · cases hs
  case readHead =>
    split at hs
    · rename_i rfds hpc
      rw [h.base.rings.timers.next_head] at hs
      cases hs
      exact h.goto hpc rfl rfl rfl ⟨(h.at hpc).2.2.2, headD_mem ts _⟩
    · cases hs
  case nextTimeout =>
    split at hs
    · rename_i rfds tev hpc
      obtain ⟨-, -, -, hat, htev⟩ := h.at hpc
      obtain ⟨e, he⟩ := h.base.rings.timers.live htev
      rw [he] at hs
      cases hs
      exact h.goto hpc rfl rfl rfl hat
    · cases hs
  case enter reused =>
    split at hs
    · rename_i rfds wait since hpc
      split at hs
      · rename_i hdead
        cases hs
        refine h.goto hpc rfl rfl rfl ?_
        show s.dead.isSome = true
        cases hd : s.dead with
        | none => rw [hd] at hdead; cases hdead.1
        | some _ => rfl
      · cases hs
        exact h.goto hpc rfl rfl rfl (h.at hpc).2.2.2
    · cases hs
  case eintr =>
    split at hs
    · rename_i hpc
      cases hs
      exact h.goto hpc rfl rfl rfl (h.at hpc).2.2.2
    · cases hs
  case ready l =>
    split at hs
    · rename_i hpc
      split at hs
      · cases hs
        exact h.goto hpc rfl rfl rfl (h.at hpc).2.2.2
      · cases hs
    · cases hs
  case timeouts =>
    split at hs
    · rename_i hpc
      cases hs
      exact h.timeouts hpc
    · cases hs
  case readies =>
    split at hs
    · rename_i hpc
      cases hs
      exact h.readies hpc
    · cases hs
  case fire =>
    split at hs
    · rename_i hpc
      rw [h.base.rings.pending.next_head] at hs
      cases hs
      exact h.goto hpc rfl rfl rfl rfl
    · cases hs
  case takeNext =>
    split at hs
    · rename_i ev hpc
      split at hs
      · rename_i hend
        cases hs
        have hat : ev = ps.headD pendingList := (h.at hpc).2.2.2
        have hnil : ps = [] := by
          cases ps with
          | nil => rfl
          | cons p ps =>
              have hnd := h.base.rings.pending.nodup
              simp only [List.headD_cons] at hat
              simp [← hat, hend] at hnd
        exact h.goto hpc rfl rfl rfl hnil
      · rename_i hne
        cases hs
        exact h.takeNext hpc hne
    · cases hs
  case callbackRequest a tv =>
    split at hs
    · rename_i ha
      cases hs
      obtain ⟨m, ts', heq, hinv, hag, -⟩ := h.request ha tv
      rw [heq]
      exact ⟨ts', ps, hinv, hag⟩
    · cases hs
  case timerDone =>
    split at hs
    · rename_i hpc
      cases hs
      exact h.timerDone hpc
    · cases hs
  case drain =>
    split at hs
    · rename_i ev fd next hpc
      split at hs
      · cases hs
        exact Keeps.stay (h.returns hpc (by decide)) rfl
      · cases hs
        exact Keeps.stay (h.congr rfl rfl rfl rfl rfl) rfl
    · cases hs
  case accept r =>
    split at hs
    · rename_i ev fd next hpc
      obtain ⟨-, hlisten, -, -, hneg, -⟩ := h.listening hpc
      rw [if_neg (by omega)] at hs
      cases r with
      | none =>
          cases hs
          exact Keeps.stay (h.acceptNone hpc) rfl
      | some f =>
          obtain ⟨hf, hs⟩ := Option.ite_none_right_eq_some.mp hs
          cases hs
          exact Keeps.stay (h.accept hpc hf) rfl
    · cases hs
  case refuse =>
    split at hs
    · rename_i hpc
      cases hs
      exact Keeps.stay (h.refuse hpc) rfl
    · cases hs
  case connect =>
    split at hs
    · rename_i hpc
      cases hs
      exact h.connect hpc
    · cases hs
  case ret =>
    split at hs
    · rename_i next hpc
      cases hs
      exact h.goto hpc rfl rfl rfl (h.at hpc).2.2.2
    · cases hs
  case commands closed =>
    split at hs
    · rename_i ev fd next hpc
      obtain ⟨-, -, hwat, e, he, hfd⟩ := h.reading hpc
      split at hs
      · rename_i hne
        cases hs
        have hoff : s.fdCommand < 0 ∧ s.dead = some e.fd := by
          rcases h.cmd.2 e hwat he with ⟨heq, -⟩ | hoff
          · exact absurd (hfd.symm.trans heq.symm) hne
          · exact hoff
        have hat : At fds { s with pc := .aborted } ts ps := ⟨by rw [hoff.2]; rfl, hoff.1⟩
        have hcmd : CmdFd { s with pc := .aborted } :=
          h.cmd.congr Iff.rfl (Alike.of_val rfl) (by rw [hpc]; rfl) rfl rfl
        exact Keeps.stay (h.leaves hpc (by decide) rfl rfl rfl rfl hcmd hat) rfl
      · rename_i heq
        split at hs
        · cases hs
          exact Keeps.stay (h.closing hpc (not_not.mp heq)) rfl
        · cases hs
          exact Keeps.stay (h.returns hpc (by decide)) rfl
    · cases hs
  case unwatch =>
    split at hs
    · rename_i hpc
      cases hs
      exact h.unwatch hpc
    · cases hs
  case relisten =>
    split at hs
    · rename_i hpc
      cases hs
      exact h.relisten hpc
    · cases hs
  case debug off =>
    split at hs
    · rename_i ev fd next hpc
      split at hs
      · rename_i hoff
        cases hs
        exact Keeps.stay (h.radioOff hpc hoff.2) rfl
      · cases hs
        exact Keeps.stay (h.returns hpc (by decide)) rfl
    · cases hs

end Steps

/-! ## 2. Runs -/

/-- The timers, and the events about to be called, as they stand in memory. -/
def waiting (s : State) : List Nat := s.ev.mem.ring timerList
def pending (s : State) : List Nat := s.ev.mem.ring pendingList

section Runs

variable {fds : Fds} {s : State}

theorem inv_init (fds : Fds) : Inv fds init [] [] := by
  have hnone : ∀ a, ¬ init.ev.Watched a := by
    rintro a ⟨i, hi⟩
    cases hi
  have hring : ∀ h, h = timerList ∨ h = pendingList → Ring init.ev.mem h [] := by
    rintro h (rfl | rfl) <;> exact ⟨by simp, rfl, rfl⟩
  refine ⟨⟨⟨hring _ (Or.inl rfl), hring _ (Or.inr rfl), by decide⟩, ⟨?_, ?_, ?_⟩, ?_, ?_, ?_, ?_⟩,
    ?_, ?_, ?_, ?_, rfl⟩
  · intro i ev hi
    cases hi
  · intro fd hfd
    cases hfd
  · intro i j ev ev' e e' hi
    cases hi
  · intro a h₁ h₂
    obtain rfl | rfl | rfl | rfl : a = 2 ∨ a = 3 ∨ a = 4 ∨ a = 5 := by omega
    all_goals exact ⟨_, rfl⟩
  · intro a ha
    cases ha
  · intro a ha
    cases ha
  · exact fun a ha => absurd ha (hnone a)
  · intro hr
    cases hr
  · exact iff_of_false (hnone _) (by decide)
  · refine ⟨fun hw => absurd hw (hnone _), fun hm => ?_, fun hm => ?_, fun hr => ?_, fun _ => ?_,
      fun hd => ?_⟩
    · cases hm
    · cases hm
    · cases hr
    · exact ⟨hnone _, List.not_mem_nil, hnone _⟩
    · rcases hd with hd | hd
      · exact absurd hd (hnone _)
      · cases hd
  · exact ⟨fun _ _ => ⟨by decide, rfl⟩, fun e hw => absurd hw (hnone _)⟩

/-- **The invariant in every reached state**, together with the law of the agenda. -/
theorem inv_of_reach (h : Reach (step fds) Always init s) :
    Inv fds s (waiting s) (pending s) ∧ (agenda s (waiting s) (pending s)).Kept := by
  have hex : ∃ ts ps, Inv fds s ts ps ∧ (agenda s ts ps).Kept := by
    refine h.inv (I := fun s => ∃ ts ps, Inv fds s ts ps ∧ (agenda s ts ps).Kept)
      ⟨[], [], inv_init fds, Agenda.kept_empty 0⟩ ?_
    rintro s a s' ⟨ts, ps, hinv, hkept⟩ - hs
    obtain ⟨ts', ps', hinv', hag⟩ := hinv.step hs
    exact ⟨ts', ps', hinv', hkept.step hag⟩
  obtain ⟨ts, ps, hinv, hkept⟩ := hex
  have hts : waiting s = ts := hinv.base.rings.timers.ring_eq
  have hps : pending s = ps := hinv.base.rings.pending.ring_eq
  rw [hts, hps]
  exact ⟨hinv, hkept⟩

/-- **The timed callbacks of a whole run**, whichever threads asked for them and however the steps
    interleave: they are called in the order of the times they are due at, none before its time,
    and every one that was asked for was called once, or is due, or waits. -/
theorem timed_callbacks (h : Reach (step fds) Always init s) :
    (s.fired.map Done.due).Pairwise (· ≤ ·) ∧ (∀ c ∈ s.fired, c.due < c.time) ∧
      (s.fired.map Done.entry ++
        (entries s.ev.mem (pending s) ++ entries s.ev.mem (waiting s))).Perm s.requested := by
  obtain ⟨-, hkept⟩ := inv_of_reach h
  have hsorted := hkept.sorted
  simp only [Agenda.times, List.pairwise_append] at hsorted
  exact ⟨hsorted.1, fun c hc => (hkept.done c hc).1, hkept.once⟩

/-- Descriptors as a kernel could have given them. -/
def someFds : Fds := ⟨10, 11, 12, by decide, by decide⟩

/-- Two timed callbacks, the later one asked for first. -/
def twoTimers : List Act :=
  [.register, .pipe, .boot, .request 6 50, .request 7 20, .trigger, .copy, .readHead, .nextTimeout,
    .enter false, .tick 60, .ready [], .timeouts, .readies, .fire, .takeNext, .timerDone, .takeNext,
    .timerDone, .takeNext]

theorem timed_callbacks_run : ∃ s, s.fired.map Done.what = [1, 0] ∧
    (s.fired.map Done.due).Pairwise (· ≤ ·) ∧ (∀ c ∈ s.fired, c.due < c.time) ∧
      (s.fired.map Done.entry ++
        (entries s.ev.mem (pending s) ++ entries s.ev.mem (waiting s))).Perm s.requested := by
  have hrun : runTest (step someFds) (fun _ _ => true) init twoTimers
      (fun s => decide (s.fired.map Done.what = [1, 0])) = true := by
    decide +kernel
  obtain ⟨s, hr, hp⟩ := reach_of_runTest hrun
  exact ⟨s, of_decide_eq_true hp, timed_callbacks hr.always⟩

theorem accepted_of_taken {pc : Pc} (h : pc.taken = true) : ∃ next, pc = .accepted next := by
  cases pc <;> cases h
  exact ⟨_, rfl⟩

/-- The server listens: its socket is waited for, or the callback is about to be called, or a
    callback runs that will have one of the two server sockets waited for. -/
def Listening (s : State) : Prop :=
  s.ev.Watched listenEvent ∨ listenEvent ∈ queue s.pc (pending s)

/-- The command socket is waited for. -/
def Connected (s : State) : Prop := s.ev.Watched commandsEvent

/-- A closed command socket is waited for, outside of `listenCallback`. -/
theorem Inv.waits_closed {ts ps : List Nat} (h : Inv fds s ts ps) (hdead : s.dead.isSome = true)
    (ht : s.pc.taken = false) :
    Connected s ∧ ∃ e, s.ev.mem.val commandsEvent = some e ∧ s.dead = some e.fd := by
  have hsome : s.dead ≠ none := Option.isSome_iff_ne_none.mp hdead
  by_cases hw : s.ev.Watched commandsEvent
  · obtain ⟨e, he, -⟩ := h.base.watched _ hw
    refine ⟨hw, e, he, ?_⟩
    rcases h.cmd.2 e hw he with ⟨-, hd⟩ | ⟨-, hd⟩
    · exact hd.resolve_left hsome
    · exact hd
  · exact absurd (h.cmd.1 hw ht).2 hsome

/-- **The event thread in every interleaving**: it follows no null or dangling pointer and leaves
    no mutex locked; once the sockets are registered it listens or is connected, never both; while
    `s_fdCommand` is set it is connected and waits for it, or `listenCallback` has stored what
    `accept` gave and not come to `ril_event_add`; and if it has stopped, it waits for a command
    socket that was closed. -/
theorem event_thread_safe (h : Reach (step fds) Always init s) :
    s.pc ≠ .crashed ∧ (1 ≤ s.registered → (Listening s ↔ ¬ Connected s)) ∧
      (0 ≤ s.fdCommand → (∃ next, s.pc = .accepted next) ∨ Connected s ∧
        ∃ e, s.ev.mem.val commandsEvent = some e ∧ e.fd = s.fdCommand) ∧
      (s.pc = .returned ∨ s.pc = .aborted → Connected s ∧
        ∃ e, s.ev.mem.val commandsEvent = some e ∧ s.dead = some e.fd) := by
  obtain ⟨hinv, -⟩ := inv_of_reach h
  refine ⟨fun hpc => ?_, fun hr => ⟨?_, fun hc => ?_⟩, fun hfd => ?_, ?_⟩
  · have hat := hinv.here
    rw [At, hpc] at hat
    exact hat
  · rintro (hw | hm)
    · exact (hinv.conn.listen hw).2
    · exact hinv.conn.queued hm
  · rcases hinv.conn.served hr with hw | hm | hw
    · exact Or.inl hw
    · exact Or.inr hm
    · exact absurd hw hc
  · by_cases hw : s.ev.Watched commandsEvent
    · obtain ⟨e, he, -⟩ := hinv.base.watched _ hw
      refine Or.inr ⟨hw, e, he, ?_⟩
      rcases hinv.cmd.2 e hw he with ⟨heq, -⟩ | ⟨hlt, -⟩
      · exact heq.symm
      · omega
    · refine Or.inl (accepted_of_taken ?_)
      by_contra ht
      have := (hinv.cmd.1 hw (Bool.not_eq_true _ ▸ ht)).1
      omega
  · have hat := hinv.here
    rintro (hpc | hpc) <;> rw [At, hpc] at hat
    · exact hinv.waits_closed hat (by rw [hpc]; rfl)
    · exact hinv.waits_closed hat.1 (by rw [hpc]; rfl)

/-- A client connects; then the debug port's radio-off closes its socket, and the next `select`
    fails. -/
def connected : List Act :=
  [.pipe, .boot, .register, .register, .copy, .readHead, .nextTimeout, .enter false, .ready [11],
    .timeouts, .readies, .fire, .takeNext, .accept (some 13), .connect, .ret, .takeNext]

def radioOff : List Act :=
  [.copy, .readHead, .nextTimeout, .enter false, .ready [12], .timeouts, .readies, .fire, .takeNext,
    .debug true, .takeNext, .copy, .readHead, .nextTimeout, .enter false]

theorem event_thread_safe_connected : ∃ s, s.fdCommand = 13 ∧ Connected s ∧ ¬ Listening s := by
  have hrun : runTest (step someFds) (fun _ _ => true) init connected
      (fun s => decide (s.fdCommand = 13 ∧ 1 ≤ s.registered ∧ s.pc.taken = false)) = true := by
    decide +kernel
  obtain ⟨s, hr, hp⟩ := reach_of_runTest hrun
  obtain ⟨hfd, hreg, htaken⟩ := of_decide_eq_true hp
  obtain ⟨-, hone, hcmd, -⟩ := event_thread_safe hr.always
  obtain ⟨next, hpc⟩ | ⟨hconn, -⟩ := hcmd (by omega)
  · rw [hpc] at htaken
    cases htaken
  · exact ⟨s, hfd, hconn, fun hl => (hone hreg).mp hl hconn⟩

/-- The loop does end that way. -/
example : ∃ s, Reach (step someFds) Always init s ∧ s.dead = some 13 ∧
    (match s.pc with | .returned => True | _ => False) := by
  have hrun : runTest (step someFds) (fun _ _ => true) init (connected ++ radioOff)
      (fun s => s.dead == some 13 && (match s.pc with | .returned => true | _ => false)) =
        true := by
    decide +kernel
  obtain ⟨s, hr, hp⟩ := reach_of_runTest hrun
  obtain ⟨hd, hpc⟩ := Bool.and_eq_true_iff.mp hp
  refine ⟨s, hr.always, by simpa using hd, ?_⟩
  cases hs : s.pc <;> simp_all

end Runs

/-! ## 3. No lost wake-up -/

/-- A byte is in the wake-up pipe, or a thread is about to write one. -/
def Signalled (s : State) : Prop := 0 < s.pipe + s.owed

/-- The event thread's copy of `readFds` has the wake-up pipe, and everything there is to wait for
    unless it will be woken. -/
def Seen (fds : Fds) (s : State) (rfds : Int → Bool) : Prop :=
  rfds fds.wakeup = true ∧ (Signalled s ∨ ∀ fd, s.ev.readFds fd = true → rfds fd = true)

/-- It has asked to sleep no longer than until the timer is due, counted from `since`, or not at
    all. -/
def Asked (s : State) (wait : Option Nat) (since : Nat) (t : Nat) : Prop :=
  ∃ w, wait = some w ∧ (since + w ≤ timeoutOf s.ev.mem t ∨ w = 0)

/-- It sleeps no longer than until `late` after the timer is due, or until now. -/
def Within (s : State) (wake : Option Nat) (late : Nat) (t : Nat) : Prop :=
  ∃ u, wake = some u ∧ (u ≤ timeoutOf s.ev.mem t + late ∨ u ≤ s.now)

/-- What the event thread knows on its way into `select`. -/
def Awake (fds : Fds) (s : State) : Prop :=
  match s.pc with
  | .copied rfds => Seen fds s rfds
  | .head rfds tev => Seen fds s rfds ∧ (Signalled s ∨ ∀ t ∈ waiting s,
      tev ≠ timerList ∧ timeoutOf s.ev.mem tev ≤ timeoutOf s.ev.mem t)
  | .timed rfds wait since => since ≤ s.now ∧ Seen fds s rfds ∧
      (Signalled s ∨ ∀ t ∈ waiting s, Asked s wait since t)
  | .select rfds wake late => Seen fds s rfds ∧
      (Signalled s ∨ ∀ t ∈ waiting s, Within s wake late t)
  | _ => True

/-- On its way into `select`, or there. -/
def Pc.entering : Pc → Bool
  | .copied _ | .head _ _ | .timed _ _ _ | .select _ _ _ => true
  | _ => false

section Wakeups

variable {fds : Fds} {s s' : State}

theorem awake_elsewhere (h : s.pc.entering = false) : Awake fds s := by
  unfold Awake
  cases hpc : s.pc with
  | copied _ => rw [hpc] at h; cases h
  | head _ _ => rw [hpc] at h; cases h
  | timed _ _ _ => rw [hpc] at h; cases h
  | select _ _ _ => rw [hpc] at h; cases h
  | _ => trivial

theorem entering_of_calling {pc : Pc} (h : pc.calling = true) : pc.entering = false := by
  cases pc <;> first | rfl | cases h

theorem withEv_entering {pc : Pc} (h : pc.entering = false) (o : Option (Events Handler)) :
    (withEv s pc o).pc.entering = false := by
  cases o with
  | none => rfl
  | some ev => exact h

/-- Another thread changed the tables and owes a byte, or changed nothing but the time. -/
theorem Awake.other (h : Awake fds s) (hpc : s'.pc = s.pc) (hnow : s.now ≤ s'.now)
    (hsig : Signalled s' ∨ (s'.ev = s.ev ∧ (Signalled s → Signalled s'))) : Awake fds s' := by
  have hseen : ∀ {rfds}, Seen fds s rfds → Seen fds s' rfds := by
    rintro rfds ⟨hw, hor⟩
    refine ⟨hw, ?_⟩
    rcases hsig with hsig | ⟨hev, hsig⟩
    · exact Or.inl hsig
    · rw [hev]
      exact hor.imp hsig id
  have hrest : ∀ {P P' : Prop}, (s'.ev = s.ev → P → P') →
      Signalled s ∨ P → Signalled s' ∨ P' := by
    intro P P' hP hor
    rcases hsig with hsig | ⟨hev, hsig⟩
    · exact Or.inl hsig
    · exact hor.imp hsig (hP hev)
  unfold Awake at h ⊢
  rw [hpc]
  cases hs : s.pc with
  | copied rfds =>
      rw [hs] at h
      exact hseen h
  | head rfds tev =>
      rw [hs] at h
      refine ⟨hseen h.1, hrest (fun hev hP => ?_) h.2⟩
      rw [waiting, hev]
      exact hP
  | timed rfds wait since =>
      rw [hs] at h
      refine ⟨Nat.le_trans h.1 hnow, hseen h.2.1, hrest (fun hev hP => ?_) h.2.2⟩
      simp only [waiting, Asked, hev]
      exact hP
  | select rfds wake late =>
      rw [hs] at h
      refine ⟨hseen h.1, hrest (fun hev hP t ht => ?_) h.2⟩
      rw [waiting, hev] at ht
      obtain ⟨u, hu, hle⟩ := hP t ht
      rw [← hev] at hle
      exact ⟨u, hu, hle.imp id fun hle => Nat.le_trans hle hnow⟩
  | _ => trivial

/-- A server socket is registered: new tables and a byte owed. -/
theorem Awake.registers (h : Awake fds s) (o : Option (Events Handler)) (n : Nat) :
    Awake fds { withEv s s.pc o with registered := n, owed := s.owed + 1 } := by
  cases o with
  | none => exact awake_elsewhere rfl
  | some ev =>
      have hsig : 0 < s.pipe + (s.owed + 1) := by omega
      exact h.other rfl (Nat.le_refl _) (Or.inl hsig)

/-- The first timer is due no later than the others. -/
theorem head_first {ts ps : List Nat} (h : Inv fds s ts ps) (hk : (agenda s ts ps).Kept) :
    ∀ t ∈ ts, ts.headD timerList ≠ timerList ∧
      timeoutOf s.ev.mem (ts.headD timerList) ≤ timeoutOf s.ev.mem t := by
  have hsorted := hk.waiting_sorted
  simp only [agenda, entries_times h.base.timer] at hsorted
  cases ts with
  | nil => simp
  | cons x xs =>
      rw [List.map_cons, List.pairwise_cons] at hsorted
      intro t ht
      refine ⟨fun hx => ?_, ?_⟩
      · have hsix := (h.base.timer x (by simp)).1
        rw [show x = timerList from hx] at hsix
        exact absurd hsix (by decide)
      · rcases List.mem_cons.mp ht with rfl | ht
        · exact Nat.le_refl _
        · exact hsorted.1 _ (List.mem_map_of_mem ht)

/-- The event thread's actions that do not take it on its way into `select`. -/
def Act.away : Act → Bool
  | .tick _ | .request _ _ | .trigger | .register | .writeError => false
  | .copy | .readHead | .nextTimeout | .enter _ => false
  | _ => true

theorem step_elsewhere {a : Act} (hs : step fds s a = some s') (ha : a.away = true) :
    s'.pc.entering = false := by
  cases a with
  | tick _ | request _ _ | trigger | register | writeError => cases ha
  | copy | readHead | nextTimeout | enter _ => cases ha
  | takeNext =>
      simp only [Loop.step] at hs
      split at hs
      · split at hs
        · cases hs
          rfl
        · cases hs
          unfold callNext
          repeat' split
          all_goals rfl
      · cases hs
  | callbackRequest a tv =>
      simp only [Loop.step] at hs
      split at hs
      · rename_i hcalling _
        cases hs
        exact withEv_entering (entering_of_calling hcalling) _
      · cases hs
  | drain =>
      simp only [Loop.step] at hs
      split at hs
      · rename_i hpc
        split at hs <;> cases hs
        · rfl
        · rw [hpc]
          rfl
      · cases hs
  | unwatch =>
      simp only [Loop.step] at hs
      split at hs
      · cases hs
        unfold closeCommands
        split <;> rfl
      · cases hs
  | _ =>
      simp only [Loop.step] at hs
      repeat' split at hs
      all_goals cases hs
      all_goals first | rfl | exact withEv_entering rfl _

theorem Awake.step {a : Act} (hinv : Inv fds s (waiting s) (pending s))
    (hkept : (agenda s (waiting s) (pending s)).Kept) (h : Awake fds s)
    (hs : step fds s a = some s') : Awake fds s' := by
  cases a with
  | tick d =>
      cases hs
      exact h.other rfl (Nat.le_add_right _ _) (Or.inr ⟨rfl, id⟩)
  | request a tv =>
      simp only [Loop.step] at hs
      split at hs
      · cases hs
      · rename_i ha
        cases hs
        obtain ⟨m, -, heq, -⟩ := hinv.request ha tv
        rw [heq]
        refine h.other rfl (Nat.le_refl _) (Or.inl ?_)
        exact Nat.lt_of_lt_of_le (Nat.succ_pos s.owed) (Nat.le_add_left _ _)
  | trigger =>
      simp only [Loop.step] at hs
      split at hs
      · cases hs
      · rename_i howed
        split at hs
        · rename_i hpc
          cases hs
          unfold Awake
          rw [hpc]
          trivial
        · cases hs
          refine h.other rfl (Nat.le_refl _) (Or.inr ⟨rfl, fun hsig => ?_⟩)
          simp only [Signalled] at hsig ⊢
          omega
  | register =>
      simp only [Loop.step] at hs
      split at hs
      · cases hs
        exact h.registers _ 1
      · cases hs
        exact h.registers _ 2
      · cases hs
  | writeError =>
      simp only [Loop.step] at hs
      split at hs
      · cases hs
      · cases hs
        exact h.other rfl (Nat.le_refl _) (Or.inr ⟨rfl, id⟩)
  | copy =>
      simp only [Loop.step] at hs
      split at hs
      · rename_i hpc
        cases hs
        have hwake := hinv.wake
        rw [hpc] at hwake
        obtain ⟨i, hi⟩ := hwake.mpr rfl
        obtain ⟨e, he, -, -, hread, -⟩ := hinv.base.watching.entry hi
        obtain ⟨e', he', hk⟩ := hinv.base.watched _ ⟨i, hi⟩
        obtain rfl : e = e' := Option.some.inj (he.symm.trans he')
        have hfd : e.fd = fds.wakeup := by
          generalize e.fd = fd, e.persist = p, e.func = f at hk
          cases hk
          rfl
        exact ⟨hfd ▸ hread, Or.inr fun _ hfd => hfd⟩
      · cases hs
  | readHead =>
      simp only [Loop.step] at hs
      split at hs
      · rename_i rfds hpc
        rw [hinv.base.rings.timers.next_head] at hs
        cases hs
        have hseen : Seen fds s rfds := by simpa [Awake, hpc] using h
        have hfirst := head_first hinv hkept
        exact ⟨hseen, Or.inr hfirst⟩
      · cases hs
  | nextTimeout =>
      simp only [Loop.step] at hs
      split at hs
      · rename_i rfds tev hpc
        split at hs
        · cases hs
          exact awake_elsewhere rfl
        · cases hs
          have hhead : Seen fds s rfds ∧ (Signalled s ∨ ∀ t ∈ waiting s,
              tev ≠ timerList ∧ timeoutOf s.ev.mem tev ≤ timeoutOf s.ev.mem t) := by
            simpa [Awake, hpc] using h
          refine ⟨Nat.le_refl _, hhead.1, hhead.2.imp id fun hall t ht => ?_⟩
          obtain ⟨hne, hle⟩ := hall t ht
          refine ⟨timeoutOf s.ev.mem tev - s.now, by rw [nextTimeout, if_neg hne], ?_⟩
          show s.now + _ ≤ timeoutOf s.ev.mem t ∨ _
          omega
      · cases hs
  | enter reused =>
      simp only [Loop.step] at hs
      split at hs
      · rename_i rfds wait since hpc
        split at hs
        · cases hs
          exact awake_elsewhere rfl
        · cases hs
          have htimed : since ≤ s.now ∧ Seen fds s rfds ∧
              (Signalled s ∨ ∀ t ∈ waiting s, Asked s wait since t) := by
            simpa [Awake, hpc] using h
          refine ⟨htimed.2.1, htimed.2.2.imp id fun hall t ht => ?_⟩
          -- what was asked for is counted from now on
          obtain ⟨w, rfl, hle⟩ := hall t ht
          refine ⟨s.now + w, rfl, ?_⟩
          show s.now + w ≤ timeoutOf s.ev.mem t + (s.now - since) ∨ s.now + w ≤ s.now
          have := htimed.1
          omega
      · cases hs
  | _ => exact awake_elsewhere (step_elsewhere hs rfl)

/-- **No wake-up is lost.** Whenever the event thread sleeps in `select`, it waits for the wake-up
    pipe; and either a byte is in that pipe or on its way, or it waits for every descriptor in the
    table and will wake by the time any timer is due, put off by the time that passed between
    `calcNextTimeout` and `select`. -/
theorem no_lost_wakeup (h : Reach (step fds) Always init s) {rfds : Int → Bool} {wake : Option Nat}
    {late : Nat} (hpc : s.pc = .select rfds wake late) :
    rfds fds.wakeup = true ∧ (0 < s.pipe + s.owed ∨
      ((∀ fd, s.ev.readFds fd = true → rfds fd = true) ∧
        ∀ t ∈ waiting s, ∃ u, wake = some u ∧
          (u ≤ timeoutOf s.ev.mem t + late ∨ u ≤ s.now))) := by
  have hawake : Awake fds s := by
    refine h.invOn (J := fun s => Inv fds s (waiting s) (pending s) ∧
      (agenda s (waiting s) (pending s)).Kept) (fun _ => inv_of_reach)
      (awake_elsewhere rfl) ?_
    rintro s a s' ⟨hinv, hkept⟩ hs - hstep
    exact hs.step hinv hkept hstep
  unfold Awake at hawake
  rw [hpc] at hawake
  obtain ⟨⟨hw, hseen⟩, hwithin⟩ := hawake
  refine ⟨hw, ?_⟩
  by_cases hsig : Signalled s
  · exact Or.inl hsig
  · exact Or.inr ⟨hseen.resolve_left hsig, hwithin.resolve_left hsig⟩

/-- The time-out the event thread sleeps with, and how late it went to sleep, if it sleeps. -/
def sleepsFor : Pc → Option (Option Nat × Nat)
  | .select _ wake late => some (wake, late)
  | _ => none

theorem select_of_sleepsFor {pc : Pc} {wake : Option Nat} {late : Nat}
    (h : sleepsFor pc = some (wake, late)) : ∃ rfds, pc = .select rfds wake late := by
  cases pc <;> cases h
  exact ⟨_, rfl⟩

/-- Two timers wait while the event thread sleeps, which was held up for 3 before it slept. -/
theorem no_lost_wakeup_late : ∃ s rfds, s.pc = .select rfds (some 23) 3 ∧ waiting s = [7, 6] ∧
    rfds 10 = true ∧ ∀ t ∈ waiting s, 23 ≤ timeoutOf s.ev.mem t + 3 ∨ 23 ≤ s.now := by
  have hrun : runTest (step someFds) (fun _ _ => true) init
      [.pipe, .boot, .request 6 50, .request 7 20, .copy, .readHead, .nextTimeout, .trigger,
        .trigger, .enter false, .ready [10], .timeouts, .readies, .fire, .takeNext, .drain, .drain,
        .takeNext, .copy, .readHead, .nextTimeout, .tick 3, .enter false]
      (fun s => decide (waiting s = [7, 6] ∧ s.pipe + s.owed = 0) &&
        sleepsFor s.pc == some (some 23, 3)) = true := by
    decide +kernel
  obtain ⟨s, hr, hp⟩ := reach_of_runTest hrun
  obtain ⟨hw, hpc⟩ := Bool.and_eq_true_iff.mp hp
  obtain ⟨hwait, hquiet⟩ := of_decide_eq_true hw
  obtain ⟨rfds, hs⟩ := select_of_sleepsFor (eq_of_beq hpc)
  obtain ⟨hread, hsig | ⟨-, hall⟩⟩ := no_lost_wakeup hr.always hs
  · omega
  · refine ⟨s, rfds, hs, hwait, hread, fun t ht => ?_⟩
    obtain ⟨u, hu, hle⟩ := hall t ht
    cases hu
    exact hle

end Wakeups

end Y210.Ril.Loop

/-
  File:      Y210/Ril/Lifetime.lean
  Subject:   HOW LONG THE BLOB'S PARAMETERS LIVE: qcril reads them from its own thread after
             `onRequest` returned, so what the shim hands it has to stay until the completion.

  * `Live` -- what holds of an issue's block along a run, `live_inv`;
  * `params_live_until_completion` -- in a run whose PIN and SIM I/O requests are all copied, the
    parameters of every GET_IMSI, SIM_IO and PIN request stay as they were handed over;
  * `pin_without_aid_dangles` -- a PIN request before the first card status is not copied.
-/
import Y210.Ril.Pending

namespace Y210.Ril

open Y210.Lib

/-- The kinds whose parameters the shim copies. -/
def copiedKind (request : RilRequest) : Bool :=
  decide (request = .getImsi ∨ request = .simIo ∨ pinRequestStrings request ≠ 0)

/-- **The steps that lead to a copy**: a PIN request that carries strings carries as many as the
    shim expects and finds the AID known, and `malloc` gives the block of a PIN or SIM I/O
    request. Nothing is asked of a GET_IMSI, which has no parameters of its own. -/
def copied (s : State) : Act → Bool
  | .guard n =>
    s.issues[n]?.all fun i => i.data.all fun d =>
      pinRequestStrings i.request == 0 ||
        (d.datalen == pinRequestStrings i.request * sizeofPtr && s.aid.isSome)
  | .build n ok => ok || s.issues[n]?.all fun i => i.request == .getImsi
  | _ => true

/-! ## 1. The invariant -/

/-- What holds of issue `n` and its block: libril dispatched it as its table says; a kind the shim
    copies goes on with a block or without parameters; the pointer handed over is `dataPtr`; and
    until the completion is through, the block holds what it held when it was handed over. -/
structure Live (mem : Block → Option Args) (n : Nat) (i : Issue) : Prop where
  disp : dispatches i.request i.data = true
  copy : copiedKind i.request = true → i.stage.owned = none →
    i.stage = .entered ∨ i.stage = .guarded ∨ i.data = none
  ptr : ∀ {owned slot ptr args returned cb}, i.stage = .sent owned slot ptr args returned cb →
    ptr = dataPtr n i.data owned
  alive : i.stage.cb.isDone = false → ∀ b, i.stage.owned = some b →
    ∃ a, mem b = some a ∧ ∀ {owned slot ptr args returned cb},
      i.stage = .sent owned slot ptr args returned cb → args = some a

section Frames

variable {mem mem' : Block → Option Args} {n : Nat} {i : Issue}

/-- Another issue's step does not touch the block. -/
theorem Live.frame (h : Live mem n i) (hok : IssueOk n i)
    (hmem : mem' (.shim n) = mem (.shim n)) : Live mem' n i where
  disp := h.disp
  copy := h.copy
  ptr := h.ptr
  alive := by
    intro hdone b hb
    obtain ⟨a, ha, hargs⟩ := h.alive hdone b hb
    obtain rfl := hok.owned b hb
    exact ⟨a, hmem.trans ha, hargs⟩

/-- Behind the guard, a request of a copied kind that has no block has no data either. -/
theorem Live.data_none (h : Live mem n i) (hk : copiedKind i.request = true)
    (hown : i.stage.owned = none) (hentered : i.stage ≠ .entered) (hguarded : i.stage ≠ .guarded) :
    i.data = none :=
  ((h.copy hk hown).resolve_left hentered).resolve_left hguarded

/-- A step of the blob's completion, or libril's return, keeps the block until the end. -/
theorem Live.sent (h : Live mem n i) (hok : IssueOk n i) {owned : Option Block}
    {slot : Option (Fin maxPending)} {ptr : Option Block} {args : Option Args}
    {returned returned' : Bool} {cb cb' : CbPc}
    (hst : i.stage = .sent owned slot ptr args returned cb)
    (hdone : cb'.isDone = false → cb.isDone = false ∧ mem' (.shim n) = mem (.shim n)) :
    Live mem' n { i with stage := .sent owned slot ptr args returned' cb' } where
  disp := h.disp
  copy := by
    intro hk hown
    have hown' : i.stage.owned = none := by rw [hst]; exact hown
    exact Or.inr (Or.inr (h.data_none hk hown' (by rw [hst]; simp) (by rw [hst]; simp)))
  ptr := by
    intro _ _ _ _ _ _ he
    cases he
    exact h.ptr hst
  alive := by
    intro hnot b hb
    obtain ⟨hcb, hmem⟩ := hdone hnot
    have hb' : i.stage.owned = some b := by rw [hst]; exact hb
    obtain ⟨a, ha, hargs⟩ := h.alive (by rw [hst]; exact hcb) b hb'
    obtain rfl := hok.owned b hb'
    refine ⟨a, hmem.trans ha, ?_⟩
    intro _ _ _ _ _ _ he
    cases he
    exact hargs hst

/-- A stage before the blob has the request. -/
theorem Live.early {st : Stage} (hd : dispatches i.request i.data = true)
    (hnot : ∀ owned slot ptr args returned cb, st ≠ .sent owned slot ptr args returned cb)
    (hcopy : copiedKind i.request = true → st.owned = none →
      st = .entered ∨ st = .guarded ∨ i.data = none)
    (halive : ∀ b, st.owned = some b → ∃ a, mem b = some a) :
    Live mem n { i with stage := st } where
  disp := hd
  copy := hcopy
  ptr := fun he => absurd he (hnot _ _ _ _ _ _)
  alive := by
    intro _ b hb
    obtain ⟨a, ha⟩ := halive b hb
    exact ⟨a, ha, fun he => absurd he (hnot _ _ _ _ _ _)⟩

/-- The request gets its place in the table, or none. -/
theorem Live.add (h : Live mem n i) {owned : Option Block} (hst : i.stage = .built owned)
    (slot : Option (Fin maxPending)) : Live mem n { i with stage := .added owned slot } := by
  refine Live.early h.disp (fun _ _ _ _ _ _ e => by cases e) (fun hk hown => ?_) fun b hb => ?_
  · have hown' : i.stage.owned = none := by rw [hst]; exact hown
    exact Or.inr (Or.inr (h.data_none hk hown' (by rw [hst]; simp) (by rw [hst]; simp)))
  · obtain ⟨a, ha, _⟩ := h.alive (by rw [hst]; rfl) b (by rw [hst]; exact hb)
    exact ⟨a, ha⟩

end Frames

/-- **The invariant of the run.** -/
structure AllLive (s : State) : Prop where
  live : ∀ {n : Nat} {i : Issue}, s.issues[n]? = some i → Live s.mem n i

section Steps

variable {s s' : State} {n : Nat} {i x : Issue}

theorem AllLive.move (h : AllLive s) (hl : Ledger s) (hi : s.issues[n]? = some i)
    (hissues : s'.issues = s.issues.set n x)
    (hmem : ∀ m, m ≠ n → s'.mem (.shim m) = s.mem (.shim m)) (hx : Live s'.mem n x) :
    AllLive s' := by
  refine ⟨fun {m k} hk => ?_⟩
  rw [hissues] at hk
  rcases getElem?_set_cases hi hk with ⟨rfl, rfl⟩ | ⟨hmn, hold⟩
  · exact hx
  · exact (h.live hold).frame (hl.issue hold) (hmem m hmn)

theorem AllLive.dispatch (h : AllLive s) (hl : Ledger s) {t : Nat} {request : RilRequest}
    {data : Option Args} (hd : dispatches request data = true) :
    AllLive (dispatchStep s t request data) := by
  refine ⟨fun {m k} hk => ?_⟩
  rcases getElem?_concat_cases hk with hold | ⟨_, rfl⟩
  · refine (h.live hold).frame (hl.issue hold) ?_
    cases data with
    | none => rfl
    | some d =>
        have hne : Block.shim m ≠ .libril s.issues.length := fun e => by cases e
        exact Function.update_of_ne hne (some d) s.mem
  · exact Live.early (i := ⟨t, request, data, .entered⟩) hd (fun _ _ _ _ _ _ e => by cases e)
      (fun _ _ => Or.inl rfl) (fun b hb => by cases hb)

/-- The head of the switch, for a step that meets the condition: a kind the shim copies goes to
    the allocation, unless it has no parameters. -/
theorem switchHead_copied {request : RilRequest} {data : Option Args} {aid : Option CStr}
    (hk : copiedKind request = true) (hd : dispatches request data = true)
    (hc : (data.all fun d => pinRequestStrings request == 0 ||
      (d.datalen == pinRequestStrings request * sizeofPtr && aid.isSome)) = true) :
    switchHead request data aid = .guarded ∨ data = none := by
  cases data with
  | none => exact Or.inr rfl
  | some d =>
      left
      cases request with
      | getSimStatus | setupDataCall | dataCallList | other code =>
          simp [copiedKind, pinRequestStrings] at hk
      | getImsi => cases hd
      | simIo =>
          cases d with
          | simIo io => rfl
          | _ => cases hd
      | _ =>
          simp [pinRequestStrings] at hc
          simp [switchHead, pinRequestStrings, hc]

theorem AllLive.guard (h : AllLive s) (hl : Ledger s) (hi : s.issues[n]? = some i)
    (hc : copied s (.guard n) = true) :
    AllLive (s.put n i (switchHead i.request i.data s.aid)) := by
  have hlive := h.live hi
  have hcases := switchHead_cases i.request i.data s.aid
  obtain ⟨_, howned, _⟩ := switchHead_slot i.request i.data s.aid
  refine h.move hl hi rfl (fun _ _ => rfl)
    (Live.early hlive.disp ?_ (fun hk _ => ?_) fun b hb => ?_)
  · intro _ _ _ _ _ _ he
    rw [he] at hcases
    rcases hcases with e | e | e <;> cases e
  · have hcond : (i.data.all fun d => pinRequestStrings i.request == 0 ||
        (d.datalen == pinRequestStrings i.request * sizeofPtr && s.aid.isSome)) = true := by
      simpa only [copied, hi, Option.all_some] using hc
    exact Or.inr (switchHead_copied hk hlive.disp hcond)
  · rw [howned] at hb
    cases hb

/-- A step of the completion that touches no block. -/
theorem AllLive.callback (h : AllLive s) (hl : Ledger s) (hi : s.issues[n]? = some i)
    {owned : Option Block} {slot : Option (Fin maxPending)} {ptr : Option Block}
    {args : Option Args} {returned : Bool} {cb cb' : CbPc}
    (hst : i.stage = .sent owned slot ptr args returned cb)
    (hissues : s'.issues =
      s.issues.set n { i with stage := .sent owned slot ptr args returned cb' })
    (hmem : s'.mem = s.mem) (hdone : cb'.isDone = false → cb.isDone = false) : AllLive s' :=
  h.move hl hi hissues (fun _ _ => by rw [hmem])
    ((h.live hi).sent (hl.issue hi) hst fun hd => ⟨hdone hd, by rw [hmem]⟩)

/-- **The blocks along a step that meets the condition.** -/
theorem AllLive.step {a : Act} (h : AllLive s) (hl : Ledger s) (hc : copied s a = true)
    (hs : Step s a s') : AllLive s' := by
  cases hs with
  | dispatch _ _ hd => exact h.dispatch hl hd
  | guard hi hst => exact h.guard hl hi hc
  | @build n i hi hst =>
      refine h.move hl hi rfl (fun m hmn => ?_) (Live.early (h.live hi).disp
        (fun _ _ _ _ _ _ e => by cases e) (fun _ e => by cases e) fun b hb => ?_)
      · exact Function.update_of_ne (fun e => hmn (Block.shim.inj e)) _ _
      · cases hb
        exact ⟨_, Function.update_self ..⟩
  | @buildFail n i hi hst =>
      have himsi : i.request = .getImsi := by
        simpa [copied, hi] using hc
      refine h.move hl hi rfl (fun _ _ => rfl)
        (Live.early (h.live hi).disp (fun _ _ _ _ _ _ e => by cases e) (fun _ _ => ?_)
          fun b hb => by cases hb)
      have hd := (h.live hi).disp
      rw [himsi] at hd
      exact Or.inr (Or.inr (Option.isNone_iff_eq_none.mp hd))
  | @add n i owned hi hst =>
      unfold addStep
      cases s.freeSlot with
      | some j => exact h.move hl hi rfl (fun _ _ => rfl) ((h.live hi).add hst (some j))
      | none => exact h.move hl hi rfl (fun _ _ => rfl) ((h.live hi).add hst none)
  | @hand n i owned slot hi hst =>
      refine h.move hl hi rfl (fun _ _ => rfl) ⟨(h.live hi).disp, ?_, ?_, ?_⟩
      · intro hk hown
        have hown' : i.stage.owned = none := by rw [hst]; exact hown
        have hnone := (h.live hi).data_none hk hown' (by rw [hst]; simp) (by rw [hst]; simp)
        exact Or.inr (Or.inr hnone)
      · intro _ _ _ _ _ _ he
        cases he
        rfl
      · intro _ b hb
        obtain rfl : owned = some b := hb
        obtain ⟨a, ha, _⟩ := (h.live hi).alive (by rw [hst]; rfl) b (by rw [hst]; rfl)
        refine ⟨a, ha, ?_⟩
        intro _ _ _ _ _ _ he
        cases he
        exact ha
  | @ret n i owned slot ptr args cb hi hst =>
      have hshim : ∀ m, Block.shim m ≠ .libril n := fun _ e => by cases e
      exact h.move hl hi rfl (fun m _ => Function.update_of_ne (hshim m) none s.mem)
        ((h.live hi).sent (hl.issue hi) hst fun hd =>
          ⟨hd, Function.update_of_ne (hshim n) none s.mem⟩)
  | complete hi hst | learn hi hst | answer hi hst =>
      exact h.callback hl hi hst rfl rfl fun _ => rfl
  | @take n i owned slot ptr args returned c hi hst =>
      unfold takeStep
      cases s.slotOf i.t with
      | some j => exact h.callback hl hi hst rfl rfl fun _ => rfl
      | none => exact h.callback hl hi hst rfl rfl fun _ => rfl
  | @release n i owned slot ptr args returned c o hi hst =>
      unfold releaseStep
      cases o with
      | none => exact h.callback hl hi hst rfl rfl fun hd => absurd hd Bool.noConfusion
      | some b =>
          have hcar : some b = i.stage.keptOwned := by
            have := (hl.issue hi).carries
            rw [hst] at this ⊢
            exact this
          obtain ⟨_, _, hb⟩ := Option.bind_eq_some_iff.mp hcar.symm
          obtain rfl := (hl.issue hi).owned b hb
          exact h.move hl hi rfl
            (fun m hmn => Function.update_of_ne (fun e => hmn (Block.shim.inj e)) _ _)
            ((h.live hi).sent (hl.issue hi) hst fun hd => absurd hd Bool.noConfusion)

end Steps

theorem allLive_init : AllLive init := ⟨fun h => by cases h⟩

theorem live_inv {s : State} (hr : Reach step (fun s a => copied s a = true) init s) :
    AllLive s :=
  hr.invOn (J := Ledger) (fun _ h => (shim_inv h.always).2) allLive_init
    fun _ _ _ hl h hc hs => h.step hl hc (step_sound hs)

/-! ## 2. The parameters of a request -/

/-- **The parameters live until the completion.** In every run whose steps meet the condition, as
    long as the blob did not complete a GET_IMSI, SIM_IO or PIN request, what it was handed is
    allocated and holds what it held when it was handed over; libril may be back by then. -/
theorem params_live_until_completion {s : State}
    (hr : Reach step (fun s a => copied s a = true) init s) {n : Nat} {i : Issue}
    (hi : s.issues[n]? = some i) (hk : copiedKind i.request = true) {owned : Option Block}
    {slot : Option (Fin maxPending)} {ptr : Option Block} {args : Option Args} {returned : Bool}
    (hst : i.stage = .sent owned slot ptr args returned .idle) :
    ∀ b, ptr = some b → ∃ a, args = some a ∧ s.mem b = some a := by
  intro b hb
  have hlive := (live_inv hr).live hi
  have hptr := hlive.ptr hst
  cases howned : owned with
  | some b' =>
      rw [hb, howned] at hptr
      cases hptr
      obtain ⟨a, ha, hargs⟩ := hlive.alive (by rw [hst]; rfl) b (by rw [hst]; exact howned)
      exact ⟨a, hargs hst, ha⟩
  | none =>
      -- without a block the request has no parameters, so it was handed NULL
      rcases hlive.copy hk (by rw [hst]; exact howned) with e | e | e
      · rw [hst] at e; cases e
      · rw [hst] at e; cases e
      · rw [hb, howned, e] at hptr
        cases hptr

/-- What the blob was handed for a request it did not complete, and whether libril's dispatch
    function is back. -/
def Stage.handed : Stage → Option (Option Block × Option Args × Bool)
  | .sent _ _ ptr args returned .idle => some (ptr, args, returned)
  | _ => none

theorem Stage.sent_of_handed {st : Stage} {ptr : Option Block} {args : Option Args}
    {returned : Bool} (h : st.handed = some (ptr, args, returned)) :
    ∃ owned slot, st = .sent owned slot ptr args returned .idle := by
  unfold Stage.handed at h
  split at h
  · cases h
    exact ⟨_, _, rfl⟩
  · cases h

def pinDigits : CStr := ['1', '2', '3', '4']

/-- A card whose application 0 is the GSM one. -/
def gsmCard : BlobMem :=
  { emptyCard with card :=
    ⟨1, 0, 0, 0, 0, 1, Vector.replicate _ { AppStatus.zero with aidPtr := some ['A', '0'] }⟩ }

/-- A card status, then a PIN; libril's dispatch function is back. -/
def pinRun : List Act :=
  sendPlain 1 .getSimStatus 0 ++ completeAll 0 ⟨0, some gsmCard, 280⟩ ++
    [.dispatch 2 .enterSimPin (some (.strings [some pinDigits])), .guard 1, .build 1 true, .add 1,
      .hand 1, .ret 1]

theorem params_live_until_completion_pin :
    ∃ s, Reach step (fun s a => copied s a = true) init s ∧
      s.mem (.shim 1) = some (.strings [some pinDigits, some ['A', '0']]) := by
  have hrun : runTest step copied init pinRun (fun s => s.issues[1]?.any fun i =>
      copiedKind i.request && decide (i.stage.handed = some
        (some (.shim 1), some (.strings [some pinDigits, some ['A', '0']]), true))) = true := by
    decide +kernel
  obtain ⟨s, hr, hp⟩ := reach_of_runTest hrun
  cases hi : s.issues[1]? with
  | none => rw [hi] at hp; cases hp
  | some i =>
      rw [hi, Option.any_some, Bool.and_eq_true] at hp
      obtain ⟨owned, slot, hst⟩ := Stage.sent_of_handed (of_decide_eq_true hp.2)
      obtain ⟨a, ha, hmem⟩ := params_live_until_completion hr hi hp.1 hst _ rfl
      cases ha
      exact ⟨s, hr, hmem⟩

/-- **A PIN before the first card status**: the blob holds libril's own pointer, and what it points
    to is freed although the request is not completed. -/
theorem pin_without_aid_dangles :
    ∃ s i owned slot args returned, Reach step Always init s ∧ s.issues[0]? = some i ∧
      i.request = .enterSimPin ∧ i.stage = .sent owned slot (some (.libril 0)) args returned .idle ∧
      args = some (.strings [some pinDigits]) ∧ s.mem (.libril 0) = none := by
  have hrun : runTest step (fun _ _ => true) init
      [.dispatch 1 .enterSimPin (some (.strings [some pinDigits])), .guard 0, .add 0, .hand 0,
        .ret 0] (fun s => decide (s.mem (.libril 0) = none) && s.issues[0]?.any fun i =>
      decide (i.request = .enterSimPin) && decide (i.stage.handed = some
        (some (.libril 0), some (.strings [some pinDigits]), true))) = true := by
    decide +kernel
  obtain ⟨s, hr, hp⟩ := reach_of_runTest hrun
  obtain ⟨hmem, hp⟩ := Bool.and_eq_true_iff.mp hp
  cases hi : s.issues[0]? with
  | none => rw [hi] at hp; cases hp
  | some i =>
      rw [hi, Option.any_some, Bool.and_eq_true] at hp
      obtain ⟨owned, slot, hst⟩ := Stage.sent_of_handed (of_decide_eq_true hp.2)
      exact ⟨s, i, owned, slot, _, _, hr.always, hi, of_decide_eq_true hp.1, hst, rfl,
        of_decide_eq_true hmem⟩

end Y210.Ril

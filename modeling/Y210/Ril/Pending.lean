/-
  File:      Y210/Ril/Pending.lean
  Subject:   THE PENDING TABLE OVER WHOLE RUNS: every entry of `s_pending` belongs to one request
             the blob has not completed, so a completion takes back what its own request stored.

  * `Table` -- the invariant of the table, `Table.step`;
  * `Ledger` -- what was answered and freed for an issue follows from its stage, `Ledger.step`;
  * `table_full_iff` -- `pendingAdd` finds no entry exactly when 64 other requests hold them;
  * `completion_answered_once_freed_once` -- the law of a completion.
-/
import Y210.Ril.Shim

namespace Y210.Ril

open Y210.Lib

/-! ## 1. The table -/

/-- **The invariant of the table.** Tokens in flight are distinct, an issue still waiting for its
    completion finds its own entry in its slot, and an entry in use is that of such an issue. -/
structure Table (issues : List Issue) (pending : Fin maxPending → Pending) : Prop where
  token : ∀ {n : Nat} {i : Issue}, issues[n]? = some i → i.t ≠ 0
  distinct : ∀ {n m : Nat} {i k : Issue}, issues[n]? = some i → issues[m]? = some k →
    i.stage.cb.isOpen = true → k.stage.cb.isOpen = true → i.t = k.t → n = m
  inSlot : ∀ {n : Nat} {i : Issue} {j : Fin maxPending}, issues[n]? = some i →
    i.stage.slot = some j → i.stage.cb.waiting = true →
    pending j = ⟨i.t, i.request, i.stage.owned⟩
  ofSlot : ∀ {j : Fin maxPending}, (pending j).t ≠ 0 →
    ∃ (n : Nat) (i : Issue), issues[n]? = some i ∧ i.stage.slot = some j ∧ i.stage.cb.waiting = true

theorem CbPc.isOpen_of_waiting {cb : CbPc} (h : cb.waiting = true) : cb.isOpen = true := by
  cases cb <;> first | rfl | cases h

section TableSteps

variable {l : List Issue} {p : Fin maxPending → Pending} {n : Nat} {i : Issue}

/-- Two issues in flight with one token are one issue, also after one of them moved on. -/
theorem Table.distinct_set (h : Table l p) (hi : l[n]? = some i) {st : Stage}
    (hopen : st.cb.isOpen = true → i.stage.cb.isOpen = true) {m m' : Nat} {k k' : Issue}
    (hk : (l.set n { i with stage := st })[m]? = some k)
    (hk' : (l.set n { i with stage := st })[m']? = some k') (ho : k.stage.cb.isOpen = true)
    (ho' : k'.stage.cb.isOpen = true) (ht : k.t = k'.t) : m = m' := by
  rcases getElem?_set_cases hi hk with ⟨rfl, rfl⟩ | ⟨_, hl⟩ <;>
    rcases getElem?_set_cases hi hk' with ⟨rfl, rfl⟩ | ⟨_, hl'⟩
  · rfl
  · exact h.distinct hi hl' (hopen ho) ho' ht
  · exact h.distinct hl hi ho (hopen ho') ht
  · exact h.distinct hl hl' ho ho' ht

theorem Table.token_set (h : Table l p) (hi : l[n]? = some i) {st : Stage} {m : Nat} {k : Issue}
    (hk : (l.set n { i with stage := st })[m]? = some k) : k.t ≠ 0 := by
  rcases getElem?_set_cases hi hk with ⟨rfl, rfl⟩ | ⟨_, hl⟩
  · show i.t ≠ 0
    exact h.token hi
  · exact h.token hl

/-- A step of an issue that does not touch the table. -/
theorem Table.put (h : Table l p) (hi : l[n]? = some i) {st : Stage}
    (hslot : st.slot = i.stage.slot) (hopen : st.cb.isOpen = true → i.stage.cb.isOpen = true)
    (hwait : i.stage.slot ≠ none → st.cb.waiting = i.stage.cb.waiting ∧ st.owned = i.stage.owned) :
    Table (l.set n { i with stage := st }) p where
  token := h.token_set hi
  distinct := h.distinct_set hi hopen
  inSlot := by
    intro m k j hk hj hw
    rcases getElem?_set_cases hi hk with ⟨rfl, rfl⟩ | ⟨_, hl⟩
    · have hj' : i.stage.slot = some j := hslot ▸ hj
      obtain ⟨hwst, host⟩ := hwait (by rw [hj']; exact Option.some_ne_none j)
      have := h.inSlot hi hj' (hwst ▸ hw)
      rw [this, ← host]
    · exact h.inSlot hl hj hw
  ofSlot := by
    intro j hj
    obtain ⟨m, k, hk, hkj, hkw⟩ := h.ofSlot hj
    by_cases hmn : m = n
    · subst hmn
      obtain rfl : i = k := Option.some.inj (hi.symm.trans hk)
      obtain ⟨hwst, _⟩ := hwait (by rw [hkj]; exact Option.some_ne_none j)
      exact ⟨m, _, getElem?_set_at _ hi, hslot.trans hkj, hwst.trans hkw⟩
    · exact ⟨m, k, (getElem?_set_off _ hmn).trans hk, hkj, hkw⟩

/-- `pendingAdd` writes a free entry. -/
theorem Table.add (h : Table l p) (hi : l[n]? = some i) {owned : Option Block}
    (hst : i.stage = .built owned) {j : Fin maxPending} (hj : (p j).t = 0) :
    Table (l.set n { i with stage := .added owned (some j) })
      (Function.update p j ⟨i.t, i.request, owned⟩) where
  token := h.token_set hi
  distinct := h.distinct_set hi fun _ => by rw [hst]; rfl
  inSlot := by
    intro m k j' hk hj' hw
    rcases getElem?_set_cases hi hk with ⟨rfl, rfl⟩ | ⟨_, hl⟩
    · obtain rfl : j = j' := Option.some.inj hj'
      rw [Function.update_self]
      rfl
    · -- an entry in use is not the free one
      have hp := h.inSlot hl hj' hw
      have hne : j' ≠ j := by
        rintro rfl
        rw [hp] at hj
        exact h.token hl hj
      rw [Function.update_of_ne hne, hp]
  ofSlot := by
    intro j' hj'
    by_cases hne : j' = j
    · subst hne
      exact ⟨n, _, getElem?_set_at _ hi, rfl, rfl⟩
    · rw [Function.update_of_ne hne] at hj'
      obtain ⟨m, k, hk, hkj, hkw⟩ := h.ofSlot hj'
      have hmn : m ≠ n := by
        rintro rfl
        obtain rfl : i = k := Option.some.inj (hi.symm.trans hk)
        rw [hst] at hkj
        cases hkj
      exact ⟨m, k, (getElem?_set_off _ hmn).trans hk, hkj, hkw⟩

/-- The entry a completion finds is its own request's. -/
theorem Table.found (h : Table l p) (hi : l[n]? = some i) (hw : i.stage.cb.waiting = true)
    {j : Fin maxPending} (hj : (p j).t = i.t) :
    i.stage.slot = some j ∧ p j = ⟨i.t, i.request, i.stage.owned⟩ := by
  obtain ⟨m, k, hk, hkj, hkw⟩ := h.ofSlot (fun h0 => h.token hi (hj ▸ h0))
  have hp := h.inSlot hk hkj hkw
  have ht : k.t = i.t := by rw [hp] at hj; exact hj
  obtain rfl := h.distinct hk hi (CbPc.isOpen_of_waiting hkw) (CbPc.isOpen_of_waiting hw) ht
  obtain rfl : i = k := Option.some.inj (hi.symm.trans hk)
  exact ⟨hkj, hp⟩

/-- `pendingTake` clears the entry it found. -/
theorem Table.take (h : Table l p) (hi : l[n]? = some i) (hw : i.stage.cb.waiting = true)
    {st : Stage} (hst : st.cb.waiting = false) {j : Fin maxPending} (hj : (p j).t = i.t) :
    Table (l.set n { i with stage := st }) (Function.update p j { p j with t := 0 }) where
  token := h.token_set hi
  distinct := h.distinct_set hi fun _ => CbPc.isOpen_of_waiting hw
  inSlot := by
    intro m k j' hk hj' hkw
    rcases getElem?_set_cases hi hk with ⟨rfl, rfl⟩ | ⟨hmn, hl⟩
    · rw [show st.cb.waiting = true from hkw] at hst
      cases hst
    · have hp := h.inSlot hl hj' hkw
      have hne : j' ≠ j := by
        rintro rfl
        have ht : k.t = i.t := by rw [hp] at hj; exact hj
        exact hmn (h.distinct hl hi (CbPc.isOpen_of_waiting hkw) (CbPc.isOpen_of_waiting hw) ht)
      rw [Function.update_of_ne hne, hp]
  ofSlot := by
    intro j' hj'
    have hne : j' ≠ j := by
      rintro rfl
      rw [Function.update_self] at hj'
      exact hj' rfl
    rw [Function.update_of_ne hne] at hj'
    obtain ⟨m, k, hk, hkj, hkw⟩ := h.ofSlot hj'
    have hmn : m ≠ n := by
      rintro rfl
      obtain rfl : i = k := Option.some.inj (hi.symm.trans hk)
      rw [(h.found hi hw hj).1] at hkj
      exact hne (Option.some.inj hkj).symm
    exact ⟨m, k, (getElem?_set_off _ hmn).trans hk, hkj, hkw⟩

/-- A new issue has a token nobody in flight has, and no entry. -/
theorem Table.dispatch (h : Table l p) {t : Nat} {request : RilRequest} {data : Option Args}
    (ht : t ≠ 0) (hfree : (l.all fun i => !(i.t == t && i.stage.cb.isOpen)) = true) :
    Table (l ++ [⟨t, request, data, .entered⟩]) p := by
  have hother : ∀ {m : Nat} {k : Issue}, l[m]? = some k → k.stage.cb.isOpen = true → k.t ≠ t := by
    intro m k hk ho hkt
    have := List.all_eq_true.mp hfree k (List.mem_of_getElem? hk)
    rw [ho, hkt] at this
    simp at this
  refine ⟨?_, ?_, ?_, ?_⟩
  · intro m k hk
    rcases getElem?_concat_cases hk with hk | ⟨_, rfl⟩
    · exact h.token hk
    · exact ht
  · intro m m' k k' hk hk' ho ho' hkt
    rcases getElem?_concat_cases hk with hk | ⟨rfl, rfl⟩ <;>
      rcases getElem?_concat_cases hk' with hk' | ⟨rfl, rfl⟩
    · exact h.distinct hk hk' ho ho' hkt
    · exact absurd hkt (hother hk ho)
    · exact absurd hkt.symm (hother hk' ho')
    · rfl
  · intro m k j hk hj hw
    rcases getElem?_concat_cases hk with hk | ⟨_, rfl⟩
    · exact h.inSlot hk hj hw
    · cases hj
  · intro j hj
    obtain ⟨m, k, hk, hkj, hkw⟩ := h.ofSlot hj
    exact ⟨m, k, getElem?_concat_old _ hk, hkj, hkw⟩

end TableSteps

theorem switchHead_cases (request : RilRequest) (data : Option Args) (aid : Option CStr) :
    switchHead request data aid = .guarded ∨ switchHead request data aid = .built none ∨
      switchHead request data aid = .added none none := by
  unfold switchHead
  repeat' split
  all_goals first | exact Or.inl rfl | exact Or.inr (Or.inl rfl) | exact Or.inr (Or.inr rfl)

theorem switchHead_slot (request : RilRequest) (data : Option Args) (aid : Option CStr) :
    (switchHead request data aid).slot = none ∧ (switchHead request data aid).owned = none ∧
      (switchHead request data aid).cb = .idle := by
  rcases switchHead_cases request data aid with h | h | h <;> rw [h] <;> exact ⟨rfl, rfl, rfl⟩

section Steps

variable {s s' : State} {n : Nat} {i : Issue}

/-- A step of `shimOnRequest` before `pendingAdd`. -/
theorem Table.putEarly (h : Table s.issues s.pending) (hi : s.issues[n]? = some i) {st : Stage}
    (hnone : i.stage.slot = none) (hidle : i.stage.cb = .idle) (hslot : st.slot = none) :
    Table (s.put n i st).issues s.pending :=
  h.put hi (by rw [hslot, hnone]) (fun _ => by rw [hidle]; rfl) fun hne => absurd hnone hne

/-- A step of the blob's completion, `pendingTake` apart. -/
theorem Table.putSent (h : Table s.issues s.pending) (hi : s.issues[n]? = some i)
    {owned : Option Block} {slot : Option (Fin maxPending)} {ptr : Option Block}
    {args : Option Args} {returned returned' : Bool} {cb cb' : CbPc}
    (hst : i.stage = .sent owned slot ptr args returned cb)
    (hopen : cb'.isOpen = true → cb.isOpen = true) (hwait : cb'.waiting = cb.waiting) :
    Table (s.put n i (.sent owned slot ptr args returned' cb')).issues s.pending :=
  h.put hi (by rw [hst]; rfl) (by rw [hst]; exact hopen)
    fun _ => ⟨by rw [hst]; exact hwait, by rw [hst]; rfl⟩

/-- What `pendingTake` finds: the issue's own entry, nothing for an issue without one. -/
theorem Table.slotOf (h : Table s.issues s.pending) (hi : s.issues[n]? = some i)
    (hw : i.stage.cb.waiting = true) : s.slotOf i.t = i.stage.slot := by
  cases hf : s.slotOf i.t with
  | some j =>
      have hj : (s.pending j).t = i.t := by simpa using firstIdx_some hf
      exact (h.found hi hw hj).1.symm
  | none =>
      cases hslot : i.stage.slot with
      | none => rfl
      | some j =>
          have hne := firstIdx_none hf j
          rw [h.inSlot hi hslot hw] at hne
          simp at hne

/-- **The table along a step.** -/
theorem Table.step {a : Act} (h : Table s.issues s.pending) (hs : Step s a s') :
    Table s'.issues s'.pending := by
  cases hs with
  | dispatch ht hfree hd => exact h.dispatch ht hfree
  | guard hi hst =>
      exact h.putEarly hi (by rw [hst]; rfl) (by rw [hst]; rfl) (switchHead_slot _ _ _).1
  | build hi hst | buildFail hi hst =>
      exact h.putEarly hi (by rw [hst]; rfl) (by rw [hst]; rfl) rfl
  | @add n i owned hi hst =>
      unfold addStep
      cases hf : s.freeSlot with
      | some j => exact h.add hi hst (by simpa using firstIdx_some hf)
      | none => exact h.putEarly hi (by rw [hst]; rfl) (by rw [hst]; rfl) rfl
  | hand hi hst =>
      exact h.put hi (by rw [hst]; rfl) (fun _ => by rw [hst]; rfl)
        fun _ => ⟨by rw [hst]; rfl, by rw [hst]; rfl⟩
  | ret hi hst => exact h.putSent hi hst id rfl
  | complete hi hst | learn hi hst => exact h.putSent hi hst (fun _ => rfl) rfl
  | answer hi hst => exact h.putSent hi hst (fun h => by cases h) rfl
  | @take n i owned slot ptr args returned c hi hst =>
      have hw : i.stage.cb.waiting = true := by rw [hst]; rfl
      unfold takeStep
      cases hf : s.slotOf i.t with
      | some j => exact h.take hi hw rfl (by simpa using firstIdx_some hf)
      | none =>
          have hslot : i.stage.slot = none := by rw [← h.slotOf hi hw, hf]
          refine h.put hi (by rw [hst]; rfl) (fun _ => by rw [hst]; rfl) fun hne => ?_
          exact absurd hslot hne
  | @release n i owned slot ptr args returned c o hi hst =>
      unfold releaseStep
      cases o with
      | none => exact h.putSent hi hst id rfl
      | some b => exact h.putSent hi hst id rfl

end Steps

theorem table_init : Table init.issues init.pending where
  token := fun h => by cases h
  distinct := fun h => by cases h
  inSlot := fun h => by cases h
  ofSlot := fun h => absurd rfl h

/-! ## 2. The ledger of answers and frees -/

/-- What `pendingTake` gives back of the request: nothing without an entry. -/
def Issue.kept (i : Issue) : Option RilRequest := i.stage.slot.map fun _ => i.request

/-- What it gives back of the block. -/
def Stage.keptOwned (st : Stage) : Option Block := st.slot.bind fun _ => st.owned

/-- The calls libril got for issue `n`, which has token `t` and got `request` back. -/
def CbPc.answers (n t : Nat) (request : Option RilRequest) : CbPc → List Answer
  | .answered c _ | .done c => [⟨n, t, answerFor request c.e c.response c.responselen⟩]
  | _ => []

/-- The blocks freed for issue `n`, which got `owned` back. -/
def CbPc.frees (n : Nat) (owned : Option Block) : CbPc → List (Nat × Block)
  | .done _ => owned.toList.map fun b => (n, b)
  | _ => []

def Issue.answers (n : Nat) (i : Issue) : List Answer := i.stage.cb.answers n i.t i.kept

def Issue.frees (n : Nat) (i : Issue) : List (Nat × Block) := i.stage.cb.frees n i.stage.keptOwned

/-- The local variables of `shimOnRequestComplete` are what `pendingTake` gave back. -/
def CbPc.Carries (request : Option RilRequest) (owned : Option Block) : CbPc → Prop
  | .taken _ r o | .learned _ r o => r = request ∧ o = owned
  | .answered _ o => o = owned
  | _ => True

/-- What holds of issue `n` by itself: its block is its own, a kind the shim does not track has
    none, and its completion works with its own request and block. -/
structure IssueOk (n : Nat) (i : Issue) : Prop where
  owned : ∀ b, i.stage.owned = some b → b = .shim n
  plain : tracksKind i.request = false → i.stage.owned = none ∧ i.stage ≠ .guarded
  carries : i.stage.cb.Carries i.kept i.stage.keptOwned

/-- **The ledger**: what was answered and freed for an issue follows from its stage. -/
structure Ledger (s : State) : Prop where
  issue : ∀ {n : Nat} {i : Issue}, s.issues[n]? = some i → IssueOk n i
  answers : ∀ n, s.answers.filter (fun a => a.n == n) = (s.issues[n]?).elim [] (Issue.answers n)
  frees : ∀ n, s.frees.filter (fun f => f.1 == n) = (s.issues[n]?).elim [] (Issue.frees n)

/-- A log that grows by entries of `n` grows for `n` only. -/
theorem filter_append_of_key {α : Type} {key : α → Nat} {l new : List α} {n : Nat}
    (hnew : ∀ a ∈ new, key a = n) (m : Nat) :
    (l ++ new).filter (fun a => key a == m) =
      l.filter (fun a => key a == m) ++ (if m = n then new else []) := by
  rw [List.filter_append]
  congr 1
  split
  · rename_i hmn
    exact List.filter_eq_self.mpr fun a ha => by rw [hnew a ha, hmn]; exact beq_self_eq_true n
  · rename_i hmn
    refine List.filter_eq_nil_iff.mpr fun a ha => ?_
    rw [hnew a ha, beq_iff_eq]
    exact fun e => hmn e.symm

section LedgerSteps

variable {s s' : State} {n : Nat} {i x : Issue}

/-- One issue moves on, and the logs grow by what its new stage accounts for. -/
theorem Ledger.move (h : Ledger s) (hi : s.issues[n]? = some i) (hx : IssueOk n x)
    (hissues : s'.issues = s.issues.set n x) {A : List Answer} {F : List (Nat × Block)}
    (hA : s'.answers = s.answers ++ A) (hAn : ∀ a ∈ A, a.n = n)
    (hAx : x.answers n = i.answers n ++ A) (hF : s'.frees = s.frees ++ F)
    (hFn : ∀ f ∈ F, f.1 = n) (hFx : x.frees n = i.frees n ++ F) : Ledger s' where
  issue := by
    intro m k hk
    rw [hissues] at hk
    rcases getElem?_set_cases hi hk with ⟨rfl, rfl⟩ | ⟨_, hl⟩
    · exact hx
    · exact h.issue hl
  answers := by
    intro m
    rw [hA, filter_append_of_key hAn, h.answers, hissues]
    by_cases hmn : m = n
    · subst hmn
      rw [if_pos rfl, hi, getElem?_set_at x hi]
      exact hAx.symm
    · rw [if_neg hmn, getElem?_set_off x hmn, List.append_nil]
  frees := by
    intro m
    rw [hF, filter_append_of_key hFn, h.frees, hissues]
    by_cases hmn : m = n
    · subst hmn
      rw [if_pos rfl, hi, getElem?_set_at x hi]
      exact hFx.symm
    · rw [if_neg hmn, getElem?_set_off x hmn, List.append_nil]

/-- One issue moves on and nothing is logged. -/
theorem Ledger.silent (h : Ledger s) (hi : s.issues[n]? = some i) (hx : IssueOk n x)
    (hissues : s'.issues = s.issues.set n x) (hA : s'.answers = s.answers)
    (hF : s'.frees = s.frees) (hAx : x.answers n = i.answers n) (hFx : x.frees n = i.frees n) :
    Ledger s' :=
  h.move hi hx hissues (A := []) (F := []) (by rw [hA, List.append_nil]) (by simp)
    (by rw [hAx, List.append_nil]) (by rw [hF, List.append_nil]) (by simp)
    (by rw [hFx, List.append_nil])

theorem answers_of_idle (h : i.stage.cb = .idle) : i.answers n = [] := by
  rw [Issue.answers, h]
  rfl

theorem frees_of_idle (h : i.stage.cb = .idle) : i.frees n = [] := by
  rw [Issue.frees, h]
  rfl

/-- A step of `shimOnRequest`. -/
theorem Ledger.early (h : Ledger s) (hi : s.issues[n]? = some i) (hidle : i.stage.cb = .idle)
    {st : Stage} (hissues : s'.issues = s.issues.set n { i with stage := st })
    (hA : s'.answers = s.answers) (hF : s'.frees = s.frees) (hst : st.cb = .idle)
    (howned : ∀ b, st.owned = some b → b = .shim n)
    (hplain : tracksKind i.request = false → st.owned = none ∧ st ≠ .guarded) : Ledger s' := by
  refine h.silent hi ⟨howned, hplain, ?_⟩ hissues hA hF ?_ ?_
  · rw [show ({ i with stage := st } : Issue).stage.cb = .idle from hst]
    trivial
  · rw [answers_of_idle hidle, answers_of_idle (by exact hst)]
  · rw [frees_of_idle hidle, frees_of_idle (by exact hst)]

/-- A step of the blob's completion: the slot and the block of the issue stay what they are, so
    only the account of the completion itself changes. -/
theorem Ledger.sent (h : Ledger s) (hi : s.issues[n]? = some i) {owned : Option Block}
    {slot : Option (Fin maxPending)} {ptr : Option Block} {args : Option Args}
    {returned returned' : Bool} {cb cb' : CbPc}
    (hst : i.stage = .sent owned slot ptr args returned cb)
    (hissues : s'.issues =
      s.issues.set n { i with stage := .sent owned slot ptr args returned' cb' })
    {A : List Answer} {F : List (Nat × Block)} (hA : s'.answers = s.answers ++ A)
    (hAn : ∀ a ∈ A, a.n = n) (hF : s'.frees = s.frees ++ F) (hFn : ∀ f ∈ F, f.1 = n)
    (hcb : cb.Carries i.kept i.stage.keptOwned →
      cb'.Carries i.kept i.stage.keptOwned ∧
        cb'.answers n i.t i.kept = cb.answers n i.t i.kept ++ A ∧
        cb'.frees n i.stage.keptOwned = cb.frees n i.stage.keptOwned ++ F) : Ledger s' := by
  have hkept : ({ i with stage := .sent owned slot ptr args returned' cb' } : Issue).kept =
      i.kept := by
    rw [Issue.kept, Issue.kept, hst]
    rfl
  have hkeptOwned : (Stage.sent owned slot ptr args returned' cb').keptOwned =
      i.stage.keptOwned := by
    rw [Stage.keptOwned, Stage.keptOwned, hst]
    rfl
  have hcbOf : i.stage.cb = cb := by rw [hst]; rfl
  obtain ⟨hcar, hans, hfree⟩ := hcb (hcbOf ▸ (h.issue hi).carries)
  refine h.move hi ⟨fun b hb => ?_, fun hk => ⟨?_, fun e => by cases e⟩, ?_⟩ hissues hA hAn ?_
    hF hFn ?_
  · exact (h.issue hi).owned b (by rw [hst]; exact hb)
  · have := ((h.issue hi).plain hk).1
    rw [hst] at this
    exact this
  · rw [hkept, hkeptOwned]
    exact hcar
  · rw [Issue.answers, Issue.answers, hkept, hcbOf]
    exact hans
  · rw [Issue.frees, Issue.frees, hkeptOwned, hcbOf]
    exact hfree

/-- One that logs nothing. -/
theorem Ledger.quiet (h : Ledger s) (hi : s.issues[n]? = some i) {owned : Option Block}
    {slot : Option (Fin maxPending)} {ptr : Option Block} {args : Option Args}
    {returned returned' : Bool} {cb cb' : CbPc}
    (hst : i.stage = .sent owned slot ptr args returned cb)
    (hissues : s'.issues =
      s.issues.set n { i with stage := .sent owned slot ptr args returned' cb' })
    (hA : s'.answers = s.answers) (hF : s'.frees = s.frees)
    (hcb : cb.Carries i.kept i.stage.keptOwned →
      cb'.Carries i.kept i.stage.keptOwned ∧
        cb'.answers n i.t i.kept = cb.answers n i.t i.kept ∧
        cb'.frees n i.stage.keptOwned = cb.frees n i.stage.keptOwned) : Ledger s' := by
  refine h.sent hi hst hissues (A := []) (F := []) (by rw [hA, List.append_nil]) (by simp)
    (by rw [hF, List.append_nil]) (by simp) fun hc => ?_
  rw [List.append_nil, List.append_nil]
  exact hcb hc

theorem Ledger.dispatch (h : Ledger s) {t : Nat} {request : RilRequest} {data : Option Args} :
    Ledger (dispatchStep s t request data) := by
  have hnew : ∀ (m : Nat) {β : Type} (f : Issue → List β), f ⟨t, request, data, .entered⟩ = [] →
      ((s.issues ++ [⟨t, request, data, .entered⟩])[m]?).elim [] f =
        (s.issues[m]?).elim [] f := by
    intro m β f hf
    cases hm : (s.issues ++ [⟨t, request, data, .entered⟩])[m]? with
    | none =>
        have hlt := List.getElem?_eq_none_iff.mp hm
        rw [List.length_append] at hlt
        rw [List.getElem?_eq_none (by omega)]
    | some k =>
        rcases getElem?_concat_cases hm with hk | ⟨rfl, rfl⟩
        · rw [hk]
        · rw [List.getElem?_eq_none (Nat.le_refl _)]
          exact hf
  refine ⟨?_, fun m => ?_, fun m => ?_⟩
  · intro m k hk
    rcases getElem?_concat_cases hk with hk | ⟨_, rfl⟩
    · exact h.issue hk
    · exact ⟨fun b hb => (by cases hb), fun _ => ⟨rfl, fun e => by cases e⟩, trivial⟩
  · exact (h.answers m).trans (hnew m _ rfl).symm
  · exact (h.frees m).trans (hnew m _ rfl).symm

/-- **The ledger along a step.** -/
theorem Ledger.step {a : Act} (h : Ledger s) (ht : Table s.issues s.pending) (hs : Step s a s') :
    Ledger s' := by
  cases hs with
  | dispatch _ _ _ => exact h.dispatch
  | @guard n i hi hst =>
      obtain ⟨_, howned, hcb⟩ := switchHead_slot i.request i.data s.aid
      refine h.early hi (by rw [hst]; rfl) rfl rfl rfl hcb (fun b hb => ?_) fun hk => ⟨howned, ?_⟩
      · rw [howned] at hb
        cases hb
      · cases hreq : i.request with
        | other code => exact fun e => by cases e
        | _ => rw [hreq] at hk; cases hk
  | build hi hst =>
      exact h.early hi (by rw [hst]; rfl) rfl rfl rfl rfl (fun b hb => (Option.some.inj hb).symm)
        fun hk => absurd hst ((h.issue hi).plain hk).2
  | buildFail hi hst =>
      exact h.early hi (by rw [hst]; rfl) rfl rfl rfl rfl (fun b hb => by cases hb)
        fun hk => absurd hst ((h.issue hi).plain hk).2
  | @add n i owned hi hst =>
      have howned : ∀ b, owned = some b → b = .shim n := fun b hb =>
        (h.issue hi).owned b (by rw [hst]; exact hb)
      have hplain : ∀ slot, tracksKind i.request = false →
          (Stage.added owned slot).owned = none ∧ Stage.added owned slot ≠ .guarded := by
        intro slot hk
        have := ((h.issue hi).plain hk).1
        rw [hst] at this
        exact ⟨this, fun e => by cases e⟩
      unfold addStep
      cases s.freeSlot with
      | some j => exact h.early hi (by rw [hst]; rfl) rfl rfl rfl rfl howned (hplain _)
      | none => exact h.early hi (by rw [hst]; rfl) rfl rfl rfl rfl howned (hplain _)
  | hand hi hst =>
      refine h.early hi (by rw [hst]; rfl) rfl rfl rfl rfl
        (fun b hb => (h.issue hi).owned b (by rw [hst]; exact hb)) fun hk => ?_
      have := ((h.issue hi).plain hk).1
      rw [hst] at this
      exact ⟨this, fun e => by cases e⟩
  | ret hi hst =>
      exact h.quiet hi hst rfl rfl rfl fun hc => ⟨hc, rfl, rfl⟩
  | complete hi hst =>
      exact h.quiet hi hst rfl rfl rfl fun _ => ⟨trivial, rfl, rfl⟩
  | @take n i owned slot ptr args returned c hi hst =>
      have hw : i.stage.cb.waiting = true := by rw [hst]; rfl
      have hfind := ht.slotOf hi hw
      unfold takeStep
      cases hf : s.slotOf i.t with
      | some j =>
          rw [hf] at hfind
          have hp := ht.inSlot hi hfind.symm hw
          refine h.quiet hi hst rfl rfl rfl fun _ => ⟨?_, rfl, rfl⟩
          rw [hp, Issue.kept, Stage.keptOwned, ← hfind]
          exact ⟨rfl, rfl⟩
      | none =>
          rw [hf] at hfind
          refine h.quiet hi hst rfl rfl rfl fun _ => ⟨?_, rfl, rfl⟩
          rw [Issue.kept, Stage.keptOwned, ← hfind]
          exact ⟨rfl, rfl⟩
  | learn hi hst =>
      exact h.quiet hi hst rfl rfl rfl fun hc => ⟨hc, rfl, rfl⟩
  | answer hi hst =>
      refine h.sent hi hst rfl rfl (by simp) (List.append_nil _).symm (by simp) ?_
      rintro ⟨rfl, rfl⟩
      exact ⟨rfl, rfl, rfl⟩
  | @release n i owned slot ptr args returned c o hi hst =>
      unfold releaseStep
      cases o with
      | none =>
          refine h.quiet hi hst rfl rfl rfl fun hc => ⟨trivial, rfl, ?_⟩
          rw [← show none = i.stage.keptOwned from hc]
          rfl
      | some b =>
          refine h.sent hi hst rfl (List.append_nil _).symm (by simp) rfl (by simp) fun hc => ?_
          refine ⟨trivial, rfl, ?_⟩
          rw [← show some b = i.stage.keptOwned from hc]
          rfl

end LedgerSteps

theorem ledger_init : Ledger init where
  issue := fun h => by cases h
  answers := fun _ => rfl
  frees := fun _ => rfl

/-- **Both invariants hold in every run.** -/
theorem shim_inv {s : State} (hr : Reach step Always init s) :
    Table s.issues s.pending ∧ Ledger s :=
  hr.inv (I := fun s => Table s.issues s.pending ∧ Ledger s) ⟨table_init, ledger_init⟩
    fun _ _ _ h _ hs => ⟨h.1.step (step_sound hs), h.2.step h.1 (step_sound hs)⟩

/-! ## 3. The law of a completion -/

/-- A kind the shim does not track is forwarded as it is, tracked or not. -/
theorem answerFor_plain {request : RilRequest} (hk : tracksKind request = false) (e : Int)
    (response : Option BlobMem) (len : Nat) :
    answerFor (some request) e response len = answerFor none e response len := by
  cases request with
  | other code => cases response <;> simp [answerFor]
  | _ => cases hk

/-- Every `free` of the shim is of the block of the issue it is made for. -/
theorem Ledger.freed_own {s : State} (h : Ledger s) {n : Nat} {b : Block}
    (hf : (n, b) ∈ s.frees) : b = .shim n := by
  have hmem : (n, b) ∈ s.frees.filter fun f => f.1 == n :=
    List.mem_filter.mpr ⟨hf, beq_self_eq_true n⟩
  rw [h.frees] at hmem
  cases hi : s.issues[n]? with
  | none => rw [hi] at hmem; cases hmem
  | some i =>
      rw [hi] at hmem
      have hown : i.stage.keptOwned = some b := by
        rw [Option.elim_some, Issue.frees, CbPc.frees.eq_def] at hmem
        split at hmem
        · obtain ⟨b', hb', heq⟩ := List.mem_map.mp hmem
          cases heq
          exact Option.mem_toList.mp hb'
        · cases hmem
      obtain ⟨_, _, hb⟩ := Option.bind_eq_some_iff.mp hown
      exact (h.issue hi).owned b hb

theorem Ledger.freesOf_shim {s : State} (h : Ledger s) (n : Nat) :
    s.freesOf (.shim n) = s.frees.filter fun f => f.1 == n := by
  refine List.filter_congr fun f hf => ?_
  have hown : f.2 = .shim f.1 := h.freed_own hf
  rw [hown, Bool.eq_iff_iff, beq_iff_eq, beq_iff_eq, Block.shim.injEq]

section Progress

variable {s : State} {n : Nat} {i : Issue} {owned : Option Block}
  {slot : Option (Fin maxPending)} {ptr : Option Block} {args : Option Args} {returned : Bool}
  {c : Completion}

/-- The issue's own steps. -/
def ownSteps (n : Nat) : State → Act → Prop := fun _ a => a.issue = some n

/-- The issue's own steps alone lead to the end of its completion `c`. -/
def Finishes (s : State) (n t : Nat) (c : Completion) : Prop :=
  ∃ s' k, Reach step (ownSteps n) s s' ∧ s'.issues[n]? = some k ∧ k.t = t ∧ k.stage.cb = .done c

theorem Finishes.of_step {s1 : State} {a : Act} {t : Nat} (h : Finishes s1 n t c)
    (hi : s.issues[n]? = some i) (ha : a.issue = some n)
    (hs : stepOf s n i a i.stage = some s1) : Finishes s n t c := by
  obtain ⟨s', k, hreach, hk⟩ := h
  have hfirst : Reach step (ownSteps n) s s1 :=
    .next a .start ha ((step_of_issue ha hi).trans hs)
  exact ⟨s', k, hfirst.trans hreach, hk⟩

theorem put_at (hi : s.issues[n]? = some i) (st : Stage) :
    (s.put n i st).issues[n]? = some { i with stage := st } :=
  getElem?_set_at _ hi

theorem finishes_answered {o : Option Block} (hi : s.issues[n]? = some i)
    (hst : i.stage = .sent owned slot ptr args returned (.answered c o)) :
    Finishes s n i.t c := by
  refine Finishes.of_step ⟨_, { i with stage := .sent owned slot ptr args returned (.done c) },
    .start, ?_, rfl, rfl⟩ hi (a := .release n) rfl (by rw [hst]; rfl)
  unfold releaseStep
  cases o with
  | none => exact put_at hi _
  | some b => exact put_at hi _

theorem finishes_learned {request : Option RilRequest} {o : Option Block}
    (hi : s.issues[n]? = some i)
    (hst : i.stage = .sent owned slot ptr args returned (.learned c request o)) :
    Finishes s n i.t c := by
  refine Finishes.of_step ?_ hi (a := .answer n) rfl (by rw [hst]; rfl)
  exact finishes_answered (i := { i with stage := .sent owned slot ptr args returned _ })
    (put_at hi _) rfl

theorem finishes_taken {request : Option RilRequest} {o : Option Block}
    (hi : s.issues[n]? = some i)
    (hst : i.stage = .sent owned slot ptr args returned (.taken c request o)) :
    Finishes s n i.t c := by
  refine Finishes.of_step ?_ hi (a := .learn n true) rfl (by rw [hst]; rfl)
  exact finishes_learned (i := { i with stage := .sent owned slot ptr args returned _ })
    (put_at hi _) rfl

theorem finishes_entered (hi : s.issues[n]? = some i)
    (hst : i.stage = .sent owned slot ptr args returned (.entered c)) : Finishes s n i.t c := by
  refine Finishes.of_step ?_ hi (a := .take n) rfl (by rw [hst]; rfl)
  unfold takeStep
  cases s.slotOf i.t with
  | some j =>
      exact finishes_taken (i := { i with stage := .sent owned slot ptr args returned _ })
        (put_at hi _) rfl
  | none =>
      exact finishes_taken (i := { i with stage := .sent owned slot ptr args returned _ })
        (put_at hi _) rfl

/-- **A completion runs to its end by itself**, whatever the other requests do. -/
theorem finishes_of_completion (hi : s.issues[n]? = some i)
    (hc : i.stage.cb.completion = some c) : Finishes s n i.t c := by
  cases hst : i.stage with
  | sent owned slot ptr args returned cb =>
      rw [hst] at hc
      cases cb with
      | idle => cases hc
      | entered c' => cases hc; exact finishes_entered hi hst
      | taken c' r o => cases hc; exact finishes_taken hi hst
      | learned c' r o => cases hc; exact finishes_learned hi hst
      | answered c' o => cases hc; exact finishes_answered hi hst
      | done c' => cases hc; exact ⟨s, i, .start, hi, rfl, by rw [hst]; rfl⟩
  | _ => rw [hst] at hc; cases hc

end Progress

/-- **When the table is full**: `pendingAdd` finds no entry for issue `n` exactly when all 64 are
    those of other requests still waiting for their completion. -/
theorem table_full_iff {s s' : State} {n : Nat} (ht : Table s.issues s.pending)
    (hs : step s (.add n) = some s') :
    ∃ k, s'.issues[n]? = some k ∧ (k.stage.slot = none ↔
      ∀ j, ∃ (m : Nat) (x : Issue), m ≠ n ∧ s.issues[m]? = some x ∧ x.stage.slot = some j ∧
        x.stage.cb.waiting = true) := by
  cases step_sound hs with
  | @add n i owned hi hst =>
      unfold addStep
      cases hf : s.freeSlot with
      | some j =>
          refine ⟨_, put_at hi _, fun h => (by cases h), fun h => ?_⟩
          obtain ⟨m, x, _, hx, hxj, hxw⟩ := h j
          have hfree : (s.pending j).t = 0 := by simpa using firstIdx_some hf
          rw [ht.inSlot hx hxj hxw] at hfree
          exact absurd hfree (ht.token hx)
      | none =>
          refine ⟨_, put_at hi _, fun _ j => ?_, fun _ => rfl⟩
          have hused : (s.pending j).t ≠ 0 := by
            have := firstIdx_none hf j
            simpa using this
          obtain ⟨m, x, hx, hxj, hxw⟩ := ht.ofSlot hused
          refine ⟨m, x, ?_, hx, hxj, hxw⟩
          rintro rfl
          obtain rfl : i = x := Option.some.inj (hi.symm.trans hx)
          rw [hst] at hxj
          cases hxj

/-- The request that `answerFor` goes by: the issue's own, unless it has no entry. -/
theorem answerFor_kept (i : Issue) (c : Completion) :
    answerFor i.kept c.e c.response c.responselen =
      answerFor (if i.overflowed then none else some i.request) c.e c.response c.responselen := by
  unfold Issue.kept Issue.overflowed
  cases hk : tracksKind i.request with
  | false =>
      rw [Bool.false_and, if_neg Bool.false_ne_true, answerFor_plain hk]
      cases i.stage.slot with
      | none => rfl
      | some j => exact answerFor_plain hk _ _ _
  | true =>
      cases i.stage.slot with
      | none => rfl
      | some j => rfl

theorem keptOwned_of_tracked {n : Nat} {i : Issue} (hok : IssueOk n i)
    (hover : i.overflowed = false) : i.stage.keptOwned = i.stage.owned := by
  unfold Stage.keptOwned
  cases hslot : i.stage.slot with
  | some j => rfl
  | none =>
      have hk : tracksKind i.request = false := by
        rw [Issue.overflowed, hslot] at hover
        simpa using hover
      rw [(hok.plain hk).1]
      rfl

/-- **The law of a completion**, in every run and for every issue. Before libril's
    `OnRequestComplete` is called for it, there is no such call; afterwards exactly one, for its
    own token, translated by its own request, or forwarded as it is when `pendingAdd` found no
    entry. Its block is freed once, at the end of the completion and by nobody else, when it has an
    entry. A completion always comes to its end, and an entry is missing only when 64 other
    requests hold them all. -/
theorem completion_answered_once_freed_once {s : State} (hr : Reach step Always init s) {n : Nat}
    {i : Issue} (hi : s.issues[n]? = some i) :
    (i.stage.cb.isOpen = true → s.answersFor n = []) ∧
    (∀ c, i.stage.cb.completion = some c → i.stage.cb.isOpen = false →
      s.answersFor n = [⟨n, i.t, answerFor (if i.overflowed then none else some i.request)
        c.e c.response c.responselen⟩]) ∧
    (∀ b, i.stage.owned = some b →
      (i.stage.cb.isDone = false → s.freesOf b = []) ∧
      (i.stage.cb.isDone = true → i.overflowed = false → s.freesOf b = [(n, b)]) ∧
      ∀ f ∈ s.freesOf b, f.1 = n) ∧
    (∀ c, i.stage.cb.completion = some c → Finishes s n i.t c) ∧
    (∀ s', step s (.add n) = some s' → ∃ k, s'.issues[n]? = some k ∧ (k.stage.slot = none ↔
      ∀ j, ∃ (m : Nat) (x : Issue), m ≠ n ∧ s.issues[m]? = some x ∧ x.stage.slot = some j ∧
        x.stage.cb.waiting = true)) := by
  obtain ⟨ht, hl⟩ := shim_inv hr
  have hanswers : s.answersFor n = i.answers n := by
    rw [State.answersFor, hl.answers, hi]
    rfl
  have hok := hl.issue hi
  refine ⟨fun hopen => ?_, fun c hc hopen => ?_, fun b hb => ?_,
    fun c hc => finishes_of_completion hi hc, fun s' hs => table_full_iff ht hs⟩
  · rw [hanswers, Issue.answers]
    cases hcb : i.stage.cb <;> rw [hcb] at hopen <;> first | rfl | cases hopen
  · rw [hanswers, Issue.answers, ← answerFor_kept]
    cases hcb : i.stage.cb <;> rw [hcb] at hopen hc <;> first | (cases hc; rfl) | cases hopen
  · obtain rfl := hok.owned b hb
    have hfrees : s.freesOf (.shim n) = i.frees n := by
      rw [hl.freesOf_shim, hl.frees, hi]
      rfl
    refine ⟨fun hdone => ?_, fun hdone hover => ?_, fun f hf => ?_⟩
    · rw [hfrees, Issue.frees]
      cases hcb : i.stage.cb <;> rw [hcb] at hdone <;> first | rfl | cases hdone
    · rw [hfrees, Issue.frees, keptOwned_of_tracked hok hover, hb]
      cases hcb : i.stage.cb <;> rw [hcb] at hdone <;> first | rfl | cases hdone
    · rw [hl.freesOf_shim] at hf
      exact beq_iff_eq.mp (List.mem_filter.mp hf).2

/-- The steps of one request up to the blob, for a kind without a copy. -/
def sendPlain (t : Nat) (request : RilRequest) (n : Nat) : List Act :=
  [.dispatch t request none, .guard n, .add n, .hand n]

/-- The steps of its completion. -/
def completeAll (n : Nat) (c : Completion) : List Act :=
  [.complete n c, .take n, .learn n true, .answer n, .release n]

def emptyCard : BlobMem :=
  { card := ⟨0, 0, 0, 0, 0, 0, Vector.replicate _ AppStatus.zero⟩
    call := fun _ => ⟨0, 0, 0, none, none, none, none, none⟩ }

/-- A GET_IMSI with a copy, up to the blob. -/
def sendImsi (t n : Nat) : List Act :=
  [.dispatch t .getImsi none, .guard n, .build n true, .add n, .hand n]

theorem completion_answered_once_freed_once_imsi :
    ∃ s, Reach step Always init s ∧ (s.answersFor 0).length = 1 ∧
      s.freesOf (.shim 0) = [(0, .shim 0)] := by
  have hrun : runTest step (fun _ _ => true) init (sendImsi 1 0 ++ completeAll 0 ⟨0, none, 0⟩)
      (fun s => s.issues[0]?.any fun i => decide (i.stage.owned = some (.shim 0) ∧
        i.stage.cb.isDone = true ∧ i.stage.cb.isOpen = false ∧ i.overflowed = false ∧
        i.stage.cb.completion.isSome = true)) = true := by
    decide +kernel
  obtain ⟨s, hr, hp⟩ := reach_of_runTest hrun
  cases hi : s.issues[0]? with
  | none => rw [hi] at hp; cases hp
  | some i =>
      rw [hi] at hp
      obtain ⟨howned, hdone, hopen, hover, hsome⟩ := of_decide_eq_true hp
      obtain ⟨c, hc⟩ := Option.isSome_iff_exists.mp hsome
      obtain ⟨_, hanswers, hfrees, _, _⟩ := completion_answered_once_freed_once hr.always hi
      refine ⟨s, hr.always, ?_, (hfrees _ howned).2.1 hdone hover⟩
      rw [hanswers c hc hopen]
      rfl

/-- 64 requests in flight, then a GET_SIM_STATUS and a GET_IMSI that the blob completes. -/
def overflowRun : List Act :=
  ((List.range 64).flatMap fun n => sendPlain (n + 1) .dataCallList n) ++
    (sendPlain 65 .getSimStatus 64 ++ completeAll 64 ⟨0, some emptyCard, 280⟩) ++
    (sendImsi 66 65 ++ completeAll 65 ⟨0, none, 0⟩)

def Payload.isBlob : Payload → Bool
  | .blob _ => true
  | _ => false

/-- The status goes to libril as the blob sent it, and the IMSI request's block is never freed. -/
theorem overflow_untranslated_unfreed :
    ∃ s, Reach step Always init s ∧
      (s.answers.map fun a => (a.n, a.reply.payload.isBlob)) = [(64, true), (65, false)] ∧
      (s.issues[65]?.map fun i => (i.stage.owned, i.stage.cb.isDone)) =
        some (some (.shim 65), true) ∧ s.frees = [] := by
  have hrun : runTest step (fun _ _ => true) init overflowRun (fun s => decide (
      (s.answers.map fun a => (a.n, a.reply.payload.isBlob)) = [(64, true), (65, false)] ∧
      (s.issues[65]?.map fun i => (i.stage.owned, i.stage.cb.isDone)) =
        some (some (.shim 65), true) ∧ s.frees = [])) = true := by
    decide +kernel
  obtain ⟨s, hr, hp⟩ := reach_of_runTest hrun
  exact ⟨s, hr.always, of_decide_eq_true hp⟩

end Y210.Ril

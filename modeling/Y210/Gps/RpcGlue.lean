/-
  File:      Y210/Gps/RpcGlue.lean
  Subject:   THE CALLBACK TABLE of loc_api_rpc_glue.c: `loc_open`, `loc_close` and the dispatcher
             `rpc_loc_event_cb_f_type_svc`.

  A client gives `loc_open` a function; the function goes into the first free entry of a table of
  16, and the modem is told the entry's id. A callback of the modem comes back with the id, whose
  lower half is the index. What the RPCs answer is arbitrary, and so is the id that comes back.

  Beside the table a history has the clients that are open: a `loc_open` that returns a handle
  adds one, a `loc_close` takes away those with its handle.

  * `locOpen`, `locClose`, `dispatch` -- the code;
  * `Registered` -- an entry with a function is the entry of an open client, and no two entries
    have the same handle;
  * `usual` -- the steps the table stands: no RPC that fails after it claimed an entry, handles
    that are valid and not in use, no id for the entry behind the last;
  * `callback_reaches_open_client` -- in every run of such steps a callback reaches an open client,
    and a `loc_open` that fails leaves the table;
  * `failed_open_stays_registered` -- the entry nobody owns, and the call through the entry behind
    the last.
-/
import Mathlib.Data.BitVec
import Mathlib.Logic.Function.Basic
import Mathlib.Tactic.Common
import Y210.Lib.History
import Y210.Lib.Indexed

namespace Y210.Gps.RpcGlue

open Y210.Lib

/-! ## 1. The table -/

/-- `RPC_LOC_CLIENT_HANDLE_INVALID` and `RPC_LOC_API_RPC_FAILURE`. -/
def handleInvalid : Int := -1

def rpcFailure : Int := -1234

theorem handleInvalid_neg : ¬ 0 ≤ handleInvalid := by decide

theorem rpcFailure_neg : ¬ 0 ≤ rpcFailure := by decide

/-- A callback function, by its address; `NULL` is `none`. -/
abbrev Func := Option Nat

/-- `loc_glue_cb_entry_s_type`. -/
structure Entry where
  cbId : BitVec 32
  cbFunc : Func
  handle : Int
  deriving DecidableEq

/-- `loc_glue_callback_table`, whether `loc_api_clnt` is there, and the word that stands where the
    function of a 17th entry would be. -/
structure State where
  clnt : Bool
  table : Fin 16 → Entry
  behind : Func
  deriving DecidableEq

def State.put (s : State) (i : Fin 16) (e : Entry) : State :=
  { s with table := Function.update s.table i e }

/-- `loc_api_glue_init`; `created` is whether `clnt_create` succeeds. -/
def glueInit (s : State) (pid : BitVec 32) (created : Bool) : State :=
  if s.clnt then s
  else
    { s with
      clnt := created
      table := fun i =>
        { cbId := BitVec.ofNat 32 i ||| (pid <<< 16), cbFunc := none, handle := -1 } }

/-- The entry `loc_open` uses: the one that has the function, or else the first without one. -/
def slot (s : State) (f : Func) : Option (Fin 16) :=
  match firstIdx fun i => (s.table i).cbFunc == f with
  | some i => some i
  | none => firstIdx fun i => (s.table i).cbFunc == none

/-- `loc_open`, with the handle the RPC returns, or `none` where it fails. -/
def locOpen (s : State) (f : Func) (rpc : Option Int) : State × Int :=
  if s.clnt = false then (s, rpcFailure)
  else
    match slot s f with
    | none => (s, handleInvalid)
    | some i =>
      -- the entry is claimed before the call
      let s := s.put i { s.table i with cbFunc := f }
      match rpc with
      | none => (s, rpcFailure)
      | some h => (s.put i { s.table i with handle := h }, h)

/-- `loc_close`, with the result of the RPC, or `none` where it fails. -/
def locClose (s : State) (handle : Int) (rpc : Option Int) : State × Int :=
  if s.clnt = false then (s, rpcFailure)
  else
    let s :=
      match firstIdx fun i => (s.table i).handle == handle with
      | some i => s.put i { s.table i with cbFunc := none, handle := -1 }
      | none => s
    (s, rpc.getD rpcFailure)

/-- The function the dispatcher calls: of an entry, or of what stands behind the last. -/
inductive Called where
  | entry (i : Fin 16) (f : Nat)
  | outside (f : Nat)
  deriving DecidableEq

def index (cbId : BitVec 32) : Nat := (cbId &&& 0xFFFF).toNat

/-- `rpc_loc_event_cb_f_type_svc`: what it calls. -/
def dispatch (s : State) (cbId : BitVec 32) : Option Called :=
  -- `index > LOC_API_CB_MAX_CLIENTS` lets 16 pass
  if 16 < index cbId then none
  else if hlt : index cbId < 16 then (s.table ⟨index cbId, hlt⟩).cbFunc.map (.entry ⟨_, hlt⟩)
  else s.behind.map .outside

/-! ## 2. The machine -/

inductive Act where
  | init (pid : BitVec 32) (created : Bool)
  | locOpen (f : Func) (rpc : Option Int)
  | locClose (handle : Int) (rpc : Option Int)
  | dispatch (cbId : BitVec 32)
  deriving DecidableEq

def step (s : State) : Act → Option State
  | .init pid created => some (glueInit s pid created)
  | .locOpen f rpc => some (locOpen s f rpc).1
  | .locClose handle rpc => some (locClose s handle rpc).1
  | .dispatch _ => some s

/-- The clients that are open: the function, and the handle `loc_open` returned. -/
abbrev Clients := List (Func × Int)

def track (s : State) (a : Act) (_ : State) (clients : Clients) : Clients :=
  match a with
  | .locOpen f rpc =>
    if 0 ≤ (locOpen s f rpc).2 then (f, (locOpen s f rpc).2) :: clients else clients
  | .locClose handle _ => clients.filter fun c => c.2 != handle
  | _ => clients

/-- The globals at the start of the process, with any word behind the table. -/
def start (behind : Func) : State where
  clnt := false
  table := fun _ => { cbId := 0, cbFunc := none, handle := 0 }
  behind := behind

/-- **The condition on a step.** The RPC of a `loc_open` fails only for a function that has its
    entry already; a handle it returns is valid and stands in no other entry. The id of a callback
    is not that of a 17th entry, unless there is no function there. -/
def usual (s : State) : Act → Bool
  | .locOpen f rpc =>
    match slot s f, rpc with
    | none, _ => true
    | some i, none => (s.table i).cbFunc == f
    | some i, some h => decide (0 ≤ h) && decide (∀ j, j ≠ i → (s.table j).handle ≠ h)
  | .dispatch cbId => index cbId != 16 || s.behind == none
  | _ => true

/-! ## 3. Entries of open clients -/

/-- **The table and the open clients.** -/
structure Registered (s : State) (clients : Clients) : Prop where
  -- nobody is registered before the RPC client is there
  unready : s.clnt = false → ∀ i, (s.table i).cbFunc = none
  owned : ∀ i, (s.table i).cbFunc ≠ none → ((s.table i).cbFunc, (s.table i).handle) ∈ clients
  valid : ∀ i, (s.table i).cbFunc ≠ none → 0 ≤ (s.table i).handle
  distinct : ∀ i j, 0 ≤ (s.table i).handle → (s.table i).handle = (s.table j).handle →
    s.clnt = true → i = j

section Steps

variable {s : State} {clients : Clients} {f : Func} {rpc : Option Int} {i : Fin 16}

theorem put_table_self (s : State) (i : Fin 16) (e : Entry) : (s.put i e).table i = e := by
  simp [State.put]

theorem put_table_ne {j : Fin 16} (s : State) (e : Entry) (h : j ≠ i) :
    (s.put i e).table j = s.table j := by
  simp [State.put, h]

theorem put_put (s : State) (i : Fin 16) (e e' : Entry) : (s.put i e).put i e' = s.put i e' := by
  simp [State.put]

theorem put_same (s : State) (i : Fin 16) : s.put i (s.table i) = s := by
  simp [State.put]

theorem Registered.start (behind : Func) : Registered (start behind) [] where
  unready := fun _ _ => rfl
  owned := fun _ h => absurd rfl h
  valid := fun _ h => absurd rfl h
  distinct := nofun

theorem Registered.init (h : Registered s clients) (pid : BitVec 32) (created : Bool) :
    Registered (glueInit s pid created) clients := by
  unfold glueInit
  split
  · exact h
  · exact {
      unready := fun _ _ => rfl
      owned := fun _ hf => absurd rfl hf
      valid := fun _ hf => absurd rfl hf
      distinct := fun _ _ h0 => absurd h0 handleInvalid_neg }

/-- What `loc_open` does: nothing; or an RPC for an entry, which fails or succeeds. -/
theorem locOpen_cases (s : State) (f : Func) (rpc : Option Int) :
    ((s.clnt = false ∨ slot s f = none) ∧ (locOpen s f rpc).1 = s ∧ (locOpen s f rpc).2 < 0) ∨
    ∃ i, s.clnt = true ∧ slot s f = some i ∧
      ((rpc = none ∧ locOpen s f rpc = (s.put i { s.table i with cbFunc := f }, rpcFailure)) ∨
        ∃ h, rpc = some h ∧
          locOpen s f rpc = (s.put i { s.table i with cbFunc := f, handle := h }, h)) := by
  unfold locOpen
  cases hc : s.clnt with
  | false => exact .inl ⟨.inl rfl, rfl, Int.not_le.mp rpcFailure_neg⟩
  | true =>
    rw [if_neg nofun]
    cases hslot : slot s f with
    | none => exact .inl ⟨.inr rfl, rfl, Int.not_le.mp handleInvalid_neg⟩
    | some i =>
      refine .inr ⟨i, rfl, rfl, ?_⟩
      cases rpc with
      | none => exact .inl ⟨rfl, rfl⟩
      | some h => exact .inr ⟨h, rfl, by simp only [put_put, put_table_self]⟩

/-- The entry of a function that has one is left as it is. -/
theorem put_found (hf : (s.table i).cbFunc = f) : s.put i { s.table i with cbFunc := f } = s := by
  rw [← hf]
  exact put_same s i

/-- A client is put into an entry of the table with a handle no other entry has. -/
theorem Registered.put (h : Registered s clients) {handle : Int} (hclnt : s.clnt = true)
    (hvalid : 0 ≤ handle) (hfresh : ∀ j, j ≠ i → (s.table j).handle ≠ handle) :
    Registered (s.put i { s.table i with cbFunc := f, handle := handle })
      ((f, handle) :: clients) where
  unready := fun hoff => absurd (hclnt.symm.trans hoff) nofun
  owned := fun j hj => by
    by_cases hji : j = i
    · subst hji
      rw [put_table_self]
      exact List.mem_cons_self
    · rw [put_table_ne _ _ hji] at hj ⊢
      exact List.mem_cons_of_mem _ (h.owned j hj)
  valid := fun j hj => by
    by_cases hji : j = i
    · subst hji
      rw [put_table_self]
      exact hvalid
    · rw [put_table_ne _ _ hji] at hj ⊢
      exact h.valid j hj
  distinct := fun j k h0 heq _ => by
    by_cases hji : j = i <;> by_cases hki : k = i
    · rw [hji, hki]
    · subst hji
      rw [put_table_self, put_table_ne _ _ hki] at heq
      exact absurd heq.symm (hfresh k hki)
    · subst hki
      rw [put_table_self, put_table_ne _ _ hji] at heq
      exact absurd heq (hfresh j hji)
    · rw [put_table_ne _ _ hji] at h0 heq
      rw [put_table_ne _ _ hki] at heq
      exact h.distinct j k h0 heq hclnt

theorem Registered.locOpen (h : Registered s clients) (hu : usual s (.locOpen f rpc) = true) :
    Registered (locOpen s f rpc).1 (track s (.locOpen f rpc) s clients) := by
  simp only [track]
  rcases locOpen_cases s f rpc with ⟨-, hs, hneg⟩ | ⟨i, hclnt, hslot, hans⟩
  · rw [if_neg (by omega), hs]
    exact h
  · simp only [usual, hslot] at hu
    rcases hans with ⟨rfl, hs⟩ | ⟨handle, rfl, hs⟩
    · rw [hs, if_neg rpcFailure_neg, put_found (by simpa using hu)]
      exact h
    · simp only [Bool.and_eq_true, decide_eq_true_eq] at hu
      rw [hs, if_pos hu.1]
      exact h.put hclnt hu.1 hu.2

/-- An entry that is given up: what is in the table is in the other entries. -/
theorem cleared_ne {j : Fin 16} {e : Entry} (hnone : e.cbFunc = none) (hneg : ¬ 0 ≤ e.handle)
    (h : ((s.put i e).table j).cbFunc ≠ none ∨ 0 ≤ ((s.put i e).table j).handle) : j ≠ i := by
  rintro rfl
  rw [put_table_self] at h
  exact h.elim (absurd hnone) hneg

theorem Registered.clear (h : Registered s clients) (hclnt : s.clnt = true) {e : Entry}
    (hnone : e.cbFunc = none) (hneg : ¬ 0 ≤ e.handle) :
    Registered (s.put i e) (clients.filter fun c => c.2 != (s.table i).handle) where
  unready := fun hoff => absurd (hclnt.symm.trans hoff) nofun
  owned := fun j hj => by
    have hji := cleared_ne hnone hneg (.inl hj)
    rw [put_table_ne _ _ hji] at hj ⊢
    refine List.mem_filter.mpr ⟨h.owned j hj, bne_iff_ne.mpr fun he => hji ?_⟩
    exact h.distinct j i (h.valid j hj) he hclnt
  valid := fun j hj => by
    have hji := cleared_ne hnone hneg (.inl hj)
    rw [put_table_ne _ _ hji] at hj ⊢
    exact h.valid j hj
  distinct := fun j k h0 heq _ => by
    have hji := cleared_ne hnone hneg (.inr h0)
    have hki := cleared_ne hnone hneg (.inr (heq ▸ h0))
    rw [put_table_ne _ _ hji] at h0 heq
    rw [put_table_ne _ _ hki] at heq
    exact h.distinct j k h0 heq hclnt

theorem Registered.locClose (h : Registered s clients) (handle : Int) (rpc : Option Int) :
    Registered (locClose s handle rpc).1 (track s (.locClose handle rpc) s clients) := by
  unfold RpcGlue.locClose
  simp only [track]
  cases hc : s.clnt with
  | false =>
    rw [if_pos rfl]
    exact {
      unready := h.unready
      owned := fun i hi => absurd (h.unready hc i) hi
      valid := h.valid
      distinct := h.distinct }
  | true =>
    rw [if_neg nofun]
    cases hfound : firstIdx fun i => (s.table i).handle == handle with
    | none =>
      have hnot : ∀ i, (s.table i).handle ≠ handle := fun i => by
        simpa using firstIdx_none hfound i
      exact {
        unready := h.unready
        owned := fun i hi => List.mem_filter.mpr ⟨h.owned i hi, bne_iff_ne.mpr (hnot i)⟩
        valid := h.valid
        distinct := h.distinct }
    | some k =>
      have hk : (s.table k).handle = handle := by simpa using firstIdx_some hfound
      rw [← hk]
      exact h.clear hc rfl handleInvalid_neg

end Steps

/-! ## 4. The runs -/

theorem registered_run {behind : Func} {x : State × Clients}
    (h : Reach (tracked step track) (fun x a => usual x.1 a = true) (start behind, []) x) :
    Registered x.1 x.2 := by
  refine h.inv (I := fun x => Registered x.1 x.2) (Registered.start behind) ?_
  intro x a ⟨s', clients'⟩ hi hu hs
  obtain ⟨hstep, htrack⟩ := tracked_eq_some hs
  dsimp only at hstep htrack ⊢
  rw [htrack]
  cases a with
  | init pid created =>
    cases hstep
    exact hi.init pid created
  | locOpen f rpc =>
    cases hstep
    exact hi.locOpen hu
  | locClose handle rpc =>
    cases hstep
    exact hi.locClose handle rpc
  | dispatch cbId =>
    cases hstep
    exact hi

/-- **A callback reaches an open client.** In every run of steps that meet the condition: a callback
    that meets it calls the function of an entry of the table that belongs to an open client, or
    none; and a `loc_open` that meets it and fails leaves the table as it was. -/
theorem callback_reaches_open_client (behind : Func) {x : State × Clients}
    (h : Reach (tracked step track) (fun x a => usual x.1 a = true) (start behind, []) x) :
    (∀ cbId c, usual x.1 (.dispatch cbId) = true → dispatch x.1 cbId = some c →
      ∃ i f, c = .entry i f ∧ (x.1.table i).cbFunc = some f ∧
        (some f, (x.1.table i).handle) ∈ x.2) ∧
    (∀ f rpc, usual x.1 (.locOpen f rpc) = true → (locOpen x.1 f rpc).2 < 0 →
      (locOpen x.1 f rpc).1.table = x.1.table) := by
  have hreg := registered_run h
  constructor
  · intro cbId c hu hc
    simp only [usual, Bool.or_eq_true, bne_iff_ne, beq_iff_eq] at hu
    unfold dispatch at hc
    split at hc
    · cases hc
    · split at hc
      · obtain ⟨f, hf, rfl⟩ := Option.map_eq_some_iff.mp hc
        have howned := hreg.owned _ (by rw [hf]; exact nofun)
        rw [hf] at howned
        exact ⟨_, f, rfl, hf, howned⟩
      · -- the 17th entry
        have hnone : x.1.behind = none := hu.resolve_left (by omega)
        rw [hnone] at hc
        cases hc
  · intro f rpc hu hneg
    rcases locOpen_cases x.1 f rpc with ⟨-, hs, -⟩ | ⟨i, -, hslot, ⟨rfl, hs⟩ | ⟨handle, rfl, hs⟩⟩
    · rw [hs]
    · simp only [usual, hslot] at hu
      rw [hs, put_found (by simpa using hu)]
    · simp only [usual, hslot, Bool.and_eq_true, decide_eq_true_eq] at hu
      rw [hs] at hneg
      exact absurd hu.1 (by simpa using hneg)

/-- One client is opened; its callback reaches it. -/
theorem callback_reaches_open_client_first :
    ∃ x, Reach (tracked step track) (fun x a => usual x.1 a = true) (start none, []) x ∧
      dispatch x.1 0 = some (.entry 0 7) ∧ (some 7, (x.1.table 0).handle) ∈ x.2 := by
  have htest : runTest (tracked step track) (fun x a => usual x.1 a) (start none, [])
      [.init 1 true, .locOpen (some 7) (some 3)]
      (fun x => dispatch x.1 0 == some (.entry 0 7)) = true := by decide
  obtain ⟨x, hx, hp⟩ := reach_of_runTest htest
  have hcall : dispatch x.1 0 = some (.entry 0 7) := by simpa using hp
  obtain ⟨i, f, hc, -, hmem⟩ := (callback_reaches_open_client none hx).1 0 _ rfl hcall
  cases hc
  exact ⟨x, hx, hcall, hmem⟩

/-- The RPC of the first `loc_open` fails: the function stays in the table, and callbacks for it are
    called although no client is open. And an id with 16 in its lower half calls what stands behind
    the table. -/
theorem failed_open_stays_registered :
    (∃ x, Reach (tracked step track) Always (start none, []) x ∧
      (locOpen x.1 (some 7) none).2 < 0 ∧ (locOpen x.1 (some 7) none).1.table ≠ x.1.table) ∧
    (∃ x, Reach (tracked step track) Always (start none, []) x ∧
      dispatch x.1 0 = some (.entry 0 7) ∧ x.2 = []) ∧
    ∃ x, Reach (tracked step track) Always (start (some 9), []) x ∧
      dispatch x.1 16 = some (.outside 9) := by
  have hopen : runTest (tracked step track) (fun _ _ => true) (start none, []) [.init 1 true]
      (fun x => decide ((locOpen x.1 (some 7) none).2 < 0 ∧
        (locOpen x.1 (some 7) none).1.table ≠ x.1.table)) = true := by decide
  have hcall : runTest (tracked step track) (fun _ _ => true) (start none, [])
      [.init 1 true, .locOpen (some 7) none]
      (fun x => decide (dispatch x.1 0 = some (.entry 0 7) ∧ x.2 = [])) = true := by decide
  refine ⟨?_, ?_, ⟨_, .start, rfl⟩⟩
  · obtain ⟨x, hx, hp⟩ := reach_of_runTest hopen
    exact ⟨x, hx.always, of_decide_eq_true hp⟩
  · obtain ⟨x, hx, hp⟩ := reach_of_runTest hcall
    exact ⟨x, hx.always, of_decide_eq_true hp⟩

end Y210.Gps.RpcGlue

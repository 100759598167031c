/-
  File:      Y210/Ril/Libril.lean
  Subject:   LIBRIL'S SIDE OF A RESPONSE (ril.cpp): which response function it runs, and on what
             payload, when the shim calls `OnRequestComplete` or `OnUnsolicitedResponse`.

  libril marshals every payload that is not NULL, "no matter success or not": the error code is
  never looked at, and a response function checks at most that the length is a multiple of some
  word size. So what keeps a struct of the blob away from a function that reads it in the older
  layout is the shim alone.

  `completion_in_layout_iff` and `unsol_in_layout_iff` say exactly when it does.
-/
import Y210.Ril.Translate

namespace Y210.Ril

/-! ## 1. Response functions -/

/-- The response functions of `s_commands` and `s_unsolResponses` that decode a struct the shim
    translates; the others are `otherFunction`. -/
inductive ResponseFunction where
  | responseSimStatus
  | responseStrings
  | responseDataCallList
  | otherFunction
  deriving DecidableEq, Repr

/-- The third column of ril_commands.h. -/
def responseFunction : RilRequest → ResponseFunction
  | .getSimStatus => .responseSimStatus
  | .setupDataCall => .responseStrings
  | .dataCallList => .responseDataCallList
  | _ => .otherFunction

/-- The number of rows of ril_unsol_commands.h. -/
def numUnsolResponses : Int := 31

def unsolResponseFunction (code : Int) : ResponseFunction :=
  if code = rilUnsolDataCallListChanged then .responseDataCallList else .otherFunction

/-- One run of a response function: its payload pointer and its length. -/
structure FunctionRun where
  fn : ResponseFunction
  payload : Payload
  len : Nat

/-- The fields of `RequestInfo` that `RIL_onRequestComplete` reads. -/
structure RequestInfo where
  request : RilRequest
  cancelled : Bool
  isLocal : Bool

/-- `RIL_onRequestComplete` of a pending request: the response functions it runs. -/
def rilOnRequestComplete (pRI : RequestInfo) (r : Reply) : List FunctionRun :=
  if pRI.isLocal then []
  else if pRI.cancelled then []
  else
    match r.payload with
    | .null => []
    | p => [⟨responseFunction pRI.request, p, r.len⟩]

/-- `RIL_onUnsolicitedResponse`: the response functions it runs; a NULL payload is not skipped. -/
def rilOnUnsolicitedResponse (registerCalled : Bool) (u : Unsol) : List FunctionRun :=
  if !registerCalled then []
  else
    let index := u.code - rilUnsolResponseBase
    if index < 0 ∨ index ≥ numUnsolResponses then []
    else [⟨unsolResponseFunction u.code, u.payload, u.len⟩]

/-- **The payload is none, or in the layout the function decodes**: a `RIL_CardStatus`, three
    strings, an array of `RIL_Data_Call_Response`. -/
def FunctionRun.InLayout (c : FunctionRun) : Prop :=
  match c.fn, c.payload with
  | _, .null => True
  | .responseSimStatus, .cardStatus _ => c.len = sizeofCardStatus
  | .responseStrings, .strings l => l.length = 3 ∧ c.len = 3 * sizeofPtr
  | .responseDataCallList, .dataCalls l => c.len = l.length * sizeofDataCall
  | _, _ => False

/-! ## 2. Completions -/

/-- The requests whose payload the shim translates. -/
inductive Translated where
  | getSimStatus
  | setupDataCall
  | dataCallList
  deriving DecidableEq, Repr

def Translated.toRequest : Translated → RilRequest
  | .getSimStatus => .getSimStatus
  | .setupDataCall => .setupDataCall
  | .dataCallList => .dataCallList

/-- The length at which the shim takes a payload for the blob's struct. -/
def Translated.Fits : Translated → Nat → Prop
  | .getSimStatus, len => len = sizeofCardStatusV6
  | .setupDataCall, len => len = sizeofDataCallQc
  | .dataCallList, len => len % sizeofDataCallQc = 0

/-- The two ways in which a completion of request `k` reaches libril without the blob's memory. -/
def Translated.Handled (k : Translated) (e : Int) (response : Option BlobMem) (len : Nat) : Prop :=
  response = none ∨ (e = rilESuccess ∧ k.Fits len)

theorem dataCallListToV4_none_iff (m : BlobMem) (len : Nat) :
    dataCallListToV4 m len = none ↔ len % sizeofDataCallQc ≠ 0 := by
  unfold dataCallListToV4
  split
  · rename_i h
    exact ⟨fun _ => h, fun _ => rfl⟩
  · rename_i h
    exact ⟨fun h' => (by cases h'), fun h' => absurd h' h⟩

/-- The list payload is NULL or a translated array, with the length of the array. -/
theorem listPayload_inLayout (l : List DataCall) :
    (FunctionRun.mk .responseDataCallList (listPayload l)
      (l.length * sizeofDataCall)).InLayout := by
  unfold listPayload
  split
  · trivial
  · rfl

/-- A call answered by `completeSetupDataCall` carries no payload or three strings. -/
theorem completeSetupDataCall_inLayout (e : Int) (dc : DataCallQc) :
    (FunctionRun.mk .responseStrings (completeSetupDataCall e dc).payload
      (completeSetupDataCall e dc).len).InLayout := by
  unfold completeSetupDataCall
  split
  · trivial
  · exact ⟨rfl, rfl⟩

/-- A handled completion gives libril no payload, or one in its layout. -/
theorem answerFor_inLayout (k : Translated) {e : Int} {response : Option BlobMem} {len : Nat}
    (h : k.Handled e response len) :
    (FunctionRun.mk (responseFunction k.toRequest)
      (answerFor (some k.toRequest) e response len).payload
      (answerFor (some k.toRequest) e response len).len).InLayout := by
  rcases h with rfl | ⟨rfl, hfit⟩
  · trivial
  · cases response with
    | none => trivial
    | some m =>
      cases k with
      | getSimStatus =>
          have hlen : len = sizeofCardStatusV6 := hfit
          simp only [answerFor, Translated.toRequest, hlen, ne_eq, not_true_eq_false, if_false,
            and_self, if_true]
          rfl
      | setupDataCall =>
          have hlen : len = sizeofDataCallQc := hfit
          simp only [answerFor, Translated.toRequest, hlen, ne_eq, not_true_eq_false, if_false,
            Option.some.injEq, reduceCtorEq, false_and, and_self, if_true]
          exact completeSetupDataCall_inLayout rilESuccess (m.call 0)
      | dataCallList =>
          have hlen : len % sizeofDataCallQc = 0 := hfit
          obtain ⟨l, hl⟩ : ∃ l, dataCallListToV4 m len = some l := by
            refine Option.ne_none_iff_exists'.mp fun hn => ?_
            exact (dataCallListToV4_none_iff m len).mp hn hlen
          simp only [answerFor, Translated.toRequest, ne_eq, not_true_eq_false, if_false,
            Option.some.injEq, reduceCtorEq, false_and, if_true, hl]
          exact listPayload_inLayout l

/-- A completion that is not handled is forwarded as the blob sent it. -/
theorem answerFor_forwarded (k : Translated) {e : Int} {m : BlobMem} {len : Nat}
    (h : ¬ k.Handled e (some m) len) :
    answerFor (some k.toRequest) e (some m) len = ⟨e, .blob m, len⟩ := by
  have h' : ¬ (e = rilESuccess ∧ k.Fits len) := fun hc => h (Or.inr hc)
  by_cases he : e = rilESuccess
  · have hfit : ¬ k.Fits len := fun hf => h' ⟨he, hf⟩
    cases k with
    | getSimStatus =>
        have hlen : ¬ len = sizeofCardStatusV6 := hfit
        simp [answerFor, Translated.toRequest, he, hlen]
    | setupDataCall =>
        have hlen : ¬ len = sizeofDataCallQc := hfit
        simp [answerFor, Translated.toRequest, he, hlen]
    | dataCallList =>
        have hl : dataCallListToV4 m len = none := (dataCallListToV4_none_iff m len).mpr hfit
        simp [answerFor, Translated.toRequest, he, hl]
  · simp [answerFor, he]

/-- **Completions**: libril decodes nothing that is still in the blob's layout exactly when the
    request is local or cancelled, or the blob sent no payload, or it reported success and the
    length is that of its struct. -/
theorem completion_in_layout_iff (k : Translated) (cancelled isLocal : Bool) (e : Int)
    (response : Option BlobMem) (len : Nat) :
    (∀ c ∈ rilOnRequestComplete ⟨k.toRequest, cancelled, isLocal⟩
        (answerFor (some k.toRequest) e response len), c.InLayout) ↔
      isLocal = true ∨ cancelled = true ∨ k.Handled e response len := by
  cases isLocal with
  | true => simp [rilOnRequestComplete]
  | false =>
    cases cancelled with
    | true => simp [rilOnRequestComplete]
    | false =>
      simp only [rilOnRequestComplete, Bool.false_eq_true, if_false, false_or]
      by_cases hh : k.Handled e response len
      · refine iff_of_true (fun c hc => ?_) hh
        have hin := answerFor_inLayout k hh
        split at hc
        · cases hc
        · rw [List.mem_singleton] at hc
          subst hc
          exact hin
      · refine iff_of_false (fun hall => ?_) hh
        cases response with
        | none => exact hh (Or.inl rfl)
        | some m =>
          rw [answerFor_forwarded k hh] at hall
          have hbad := hall ⟨responseFunction k.toRequest, .blob m, len⟩ List.mem_cons_self
          cases k <;> exact hbad

/-! ## 3. Unsolicited data call lists -/

/-- What libril runs for an `UNSOL_DATA_CALL_LIST_CHANGED` of the blob. -/
def unsolDataCallRuns (registerCalled : Bool) (data : Option BlobMem) (len : Nat) :
    List FunctionRun :=
  match shimOnUnsolicitedResponse rilUnsolDataCallListChanged data len with
  | some u => rilOnUnsolicitedResponse registerCalled u
  | none => []

theorem shimOnUnsolicited_list {m : BlobMem} {len : Nat} {l : List DataCall}
    (hl : dataCallListToV4 m len = some l) :
    shimOnUnsolicitedResponse rilUnsolDataCallListChanged (some m) len =
      some ⟨rilUnsolDataCallListChanged, listPayload l, l.length * sizeofDataCall⟩ := by
  simp [shimOnUnsolicitedResponse, hl]

theorem shimOnUnsolicited_raw {data : Option BlobMem} {len : Nat}
    (h : ∀ m, data = some m → dataCallListToV4 m len = none) :
    shimOnUnsolicitedResponse rilUnsolDataCallListChanged data len =
      some ⟨rilUnsolDataCallListChanged, .ofBlob data, len⟩ := by
  have hq : ¬ rilUnsolDataCallListChanged = qcUnsolDataNetworkStateChanged := by decide
  have hm : ¬ rilUnsolDataCallListChanged > rilUnsolResendIncallMute := by decide
  cases data with
  | none => simp only [shimOnUnsolicitedResponse, hq, hm, if_false]
  | some m => simp only [shimOnUnsolicitedResponse, h m rfl, if_true, hq, hm, if_false]

theorem rilOnUnsolicited_list (p : Payload) (len : Nat) :
    rilOnUnsolicitedResponse true ⟨rilUnsolDataCallListChanged, p, len⟩ =
      [⟨.responseDataCallList, p, len⟩] := by
  have hi : ¬ (rilUnsolDataCallListChanged - rilUnsolResponseBase < 0 ∨
      rilUnsolDataCallListChanged - rilUnsolResponseBase ≥ numUnsolResponses) := by decide
  simp only [rilOnUnsolicitedResponse, Bool.not_true, Bool.false_eq_true, if_false, hi,
    unsolResponseFunction, if_true]

theorem unsolDataCallRuns_of {data : Option BlobMem} {len len' : Nat} {p : Payload}
    (h : shimOnUnsolicitedResponse rilUnsolDataCallListChanged data len =
      some ⟨rilUnsolDataCallListChanged, p, len'⟩) :
    unsolDataCallRuns true data len = [⟨.responseDataCallList, p, len'⟩] := by
  unfold unsolDataCallRuns
  rw [h]
  exact rilOnUnsolicited_list p len'

/-- **Unsolicited lists**: the same for `UNSOL_DATA_CALL_LIST_CHANGED`, which has no error code. -/
theorem unsol_in_layout_iff (registerCalled : Bool) (data : Option BlobMem) (len : Nat) :
    (∀ c ∈ unsolDataCallRuns registerCalled data len, c.InLayout) ↔
      registerCalled = false ∨ data = none ∨ len % sizeofDataCallQc = 0 := by
  cases registerCalled with
  | false =>
    refine iff_of_true (fun c hc => ?_) (Or.inl rfl)
    unfold unsolDataCallRuns at hc
    split at hc <;> cases hc
  | true =>
    simp only [Bool.true_eq_false, false_or]
    cases data with
    | none =>
      refine iff_of_true (fun c hc => ?_) (Or.inl rfl)
      rw [unsolDataCallRuns_of (shimOnUnsolicited_raw fun m hm => by cases hm),
        List.mem_singleton] at hc
      subst hc
      trivial
    | some m =>
      by_cases hlen : len % sizeofDataCallQc = 0
      · obtain ⟨l, hl⟩ : ∃ l, dataCallListToV4 m len = some l :=
          Option.ne_none_iff_exists'.mp fun hn => (dataCallListToV4_none_iff m len).mp hn hlen
        refine iff_of_true (fun c hc => ?_) (Or.inr hlen)
        rw [unsolDataCallRuns_of (shimOnUnsolicited_list hl), List.mem_singleton] at hc
        subst hc
        exact listPayload_inLayout l
      · have hn : dataCallListToV4 m len = none := (dataCallListToV4_none_iff m len).mpr hlen
        refine iff_of_false (fun hall => ?_) (by simp [hlen])
        have hraw : ∀ m', some m = some m' → dataCallListToV4 m' len = none := by
          intro m' e
          cases e
          exact hn
        rw [unsolDataCallRuns_of (shimOnUnsolicited_raw hraw)] at hall
        exact hall _ List.mem_cons_self

/-! ## 4. Both together -/

/-- Every run of a response function that a translated request or an unsolicited list can cause,
    whatever the blob sends. -/
def NeverV6 : Prop :=
  (∀ (k : Translated) (cancelled isLocal : Bool) (e : Int) (response : Option BlobMem)
    (len : Nat), ∀ c ∈ rilOnRequestComplete ⟨k.toRequest, cancelled, isLocal⟩
      (answerFor (some k.toRequest) e response len), c.InLayout) ∧
  (∀ (registerCalled : Bool) (data : Option BlobMem) (len : Nat),
    ∀ c ∈ unsolDataCallRuns registerCalled data len, c.InLayout)

/-- **Exactly when libril is kept off the blob's layout**, for the three translated requests and
    for the unsolicited list. -/
theorem libril_given_its_layout_iff (k : Translated) (cancelled isLocal : Bool) (e : Int)
    (response : Option BlobMem) (len : Nat) (registerCalled : Bool) (data : Option BlobMem)
    (listLen : Nat) :
    ((∀ c ∈ rilOnRequestComplete ⟨k.toRequest, cancelled, isLocal⟩
        (answerFor (some k.toRequest) e response len), c.InLayout) ↔
      isLocal = true ∨ cancelled = true ∨ response = none ∨ (e = rilESuccess ∧ k.Fits len)) ∧
    ((∀ c ∈ unsolDataCallRuns registerCalled data listLen, c.InLayout) ↔
      registerCalled = false ∨ data = none ∨ listLen % sizeofDataCallQc = 0) :=
  ⟨completion_in_layout_iff k cancelled isLocal e response len,
    unsol_in_layout_iff registerCalled data listLen⟩

/-- A v6 data call of the blob, alone in its memory. -/
def someBlobMem : BlobMem where
  card := ⟨1, 0, 0, -1, -1, 1, Vector.replicate rilCardMaxApps AppStatus.zero⟩
  call := fun _ => ⟨0, 0, 2, some "IP".toList, some "rmnet0".toList, some "10.90.79.2/30".toList,
    none, none⟩

/-- A SETUP_DATA_CALL that fails and still carries the blob's 32-byte struct: libril reads it as
    an array of eight strings. -/
theorem failed_setup_reaches_responseStrings : ¬ NeverV6 := by
  intro h
  have hall := h.1 .setupDataCall false false rilEGenericFailure (some someBlobMem) sizeofDataCallQc
  have hiff := (completion_in_layout_iff .setupDataCall false false rilEGenericFailure
    (some someBlobMem) sizeofDataCallQc).mp hall
  rcases hiff with h1 | h1 | h1 | ⟨h1, _⟩
  · cases h1
  · cases h1
  · cases h1
  · exact absurd h1 (by decide)

end Y210.Ril

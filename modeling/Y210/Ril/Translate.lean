/-
  File:      Y210/Ril/Translate.lean
  Subject:   THE SHIM'S TRANSLATIONS (rilshim.c): what it makes of a payload of the blob before
             libril sees it, and the AID it remembers from a card status.

  * `aidUpdate`, `completeSimStatus` -- GET_SIM_STATUS, v6 to v5;
  * `completeSetupDataCall`, `dataCallListToV4` -- the two translations of a data call;
  * `answerFor` -- the branches of `shimOnRequestComplete` after `pendingTake`;
  * `shimOnUnsolicitedResponse` -- the unsolicited side.

  Log lines are left out. `strdup` is an argument: it fails when memory is short.
-/
import Y210.Ril.Layout

namespace Y210.Ril

/-! ## 1. The card status -/

/-- The clamping of `num_applications` in `completeSimStatus`. -/
def clampApps (n : Int) : Nat :=
  let n := if n < 0 then 0 else n
  let n := if n > rilCardMaxApps then (rilCardMaxApps : Int) else n
  n.toNat

theorem clampApps_eq (n : Int) : clampApps n = min (max n 0).toNat 8 := by
  unfold clampApps rilCardMaxApps
  dsimp only
  split_ifs <;> omega

theorem clampApps_le (n : Int) : clampApps n ≤ rilCardMaxApps := by
  rw [clampApps_eq]
  exact Nat.min_le_right _ _

/-- A SUBSCRIPTION_PERSO application whose check is still going on is shown as DETECTED. -/
def persoToDetected (app : AppStatus) : AppStatus :=
  if app.appState = appstateSubscriptionPerso ∧ app.persoSubstate ≤ persosubstateReady then
    { app with appState := appstateDetected }
  else app

/-- The application `idx` of the card, `none` outside the first `numApps`. -/
def appAt (v6 : CardStatusV6) (numApps : Nat) (idx : Int) : Option AppStatus :=
  if idx < 0 ∨ idx ≥ numApps then none else v6.applications.toList[idx.toNat]?

/-- `aidUpdate`: the new value of `s_aid`. Both early returns keep the old one. -/
def aidUpdate (strdup : CStr → Option CStr) (sAid : Option CStr) (v6 : CardStatusV6)
    (numApps : Nat) : Option CStr :=
  match appAt v6 numApps v6.gsmUmtsSubscriptionAppIndex.toInt with
  | none => sAid
  | some app =>
    match app.aidPtr with
    | none => sAid
    | some aid => if sAid = some aid then sAid else strdup aid

/-- `completeSimStatus`: the struct handed to libril. -/
def completeSimStatus (v6 : CardStatusV6) : CardStatus :=
  let n := clampApps v6.numApplications.toInt
  { cardState := v6.cardState
    universalPinState := v6.universalPinState
    gsmUmtsSubscriptionAppIndex := v6.gsmUmtsSubscriptionAppIndex
    cdmaSubscriptionAppIndex := v6.cdmaSubscriptionAppIndex
    numApplications := BitVec.ofNat 32 n
    applications := Vector.ofFn fun i =>
      if i.val < n then persoToDetected v6.applications[i] else AppStatus.zero }

/-! ## 2. Data calls -/

/-- `strcspn`: the length of the longest start of `s` free of the characters of `reject`. -/
def strcspn (s reject : CStr) : Nat := (s.takeWhile fun c => !reject.contains c).length

/-- `snprintf(buf, size, "%d", i)`: the decimal digits, cut to the buffer. -/
def snprintfD (size : Nat) (i : Int) : CStr := (toString i).toList.take (size - 1)

/-- The `ip` buffer of `completeSetupDataCall`, 64 bytes. -/
def setupIp (addresses : Option CStr) : CStr :=
  match addresses with
  | none => []
  | some a =>
    let len := strcspn a [' ', '/']
    let len := if len ≥ 64 then 64 - 1 else len
    a.take len

/-- `completeSetupDataCall`: a failed call is answered without a payload. -/
def completeSetupDataCall (e : Int) (dc : DataCallQc) : Reply :=
  if dc.status ≠ 0 then ⟨rilEGenericFailure, .null, 0⟩
  else ⟨e, .strings [some (snprintfD 12 dc.cid.toInt), dc.ifname, some (setupIp dc.addresses)],
    3 * sizeofPtr⟩

/-- One entry of the list handed to libril. -/
def dataCallToV4 (dc : DataCallQc) : DataCall :=
  ⟨dc.cid, dc.active, dc.type, none, dc.addresses⟩

/-- `dataCallListToV4`: `none` when the length is not that of an array of the blob's structs. The
    array is cut at `MAX_DATA_CALLS`. -/
def dataCallListToV4 (m : BlobMem) (datalen : Nat) : Option (List DataCall) :=
  if datalen % sizeofDataCallQc ≠ 0 then none
  else
    let n := datalen / sizeofDataCallQc
    let n := if n > maxDataCalls then maxDataCalls else n
    some ((List.range n).map fun i => dataCallToV4 (m.call i))

/-- `listlen ? list : NULL`. -/
def listPayload (l : List DataCall) : Payload := if l = [] then .null else .dataCalls l

/-! ## 3. Completions -/

/-- The body of `shimOnRequestComplete` after `pendingTake` returned `request` (`none` is its -1):
    the call it makes on libril. -/
def answerFor (request : Option RilRequest) (e : Int) (response : Option BlobMem)
    (responselen : Nat) : Reply :=
  match response with
  | none => ⟨e, .null, responselen⟩
  | some m =>
    if e ≠ rilESuccess then ⟨e, .blob m, responselen⟩
    else if request = some .getSimStatus ∧ responselen = sizeofCardStatusV6 then
      ⟨e, .cardStatus (completeSimStatus m.card), sizeofCardStatus⟩
    else if request = some .setupDataCall ∧ responselen = sizeofDataCallQc then
      completeSetupDataCall e (m.call 0)
    else
      match if request = some .dataCallList then dataCallListToV4 m responselen else none with
      | some l => ⟨e, listPayload l, l.length * sizeofDataCall⟩
      | none => ⟨e, .blob m, responselen⟩

/-- Whether that body runs `aidUpdate`. -/
def updatesAid (request : Option RilRequest) (e : Int) (responselen : Nat) : Bool :=
  decide (e = rilESuccess ∧ request = some .getSimStatus ∧ responselen = sizeofCardStatusV6)

/-- `s_aid` after that body. -/
def aidAfter (strdup : CStr → Option CStr) (sAid : Option CStr) (request : Option RilRequest)
    (e : Int) (response : Option BlobMem) (responselen : Nat) : Option CStr :=
  match response with
  | none => sAid
  | some m =>
    if updatesAid request e responselen then
      aidUpdate strdup sAid m.card (clampApps m.card.numApplications.toInt)
    else sAid

/-! ## 4. Unsolicited responses -/

/-- `RIL_UNSOL_RESPONSE_BASE`. -/
def rilUnsolResponseBase : Int := 1000

/-- `RIL_UNSOL_RESPONSE_NETWORK_STATE_CHANGED`. -/
def rilUnsolNetworkStateChanged : Int := 1002

/-- `RIL_UNSOL_DATA_CALL_LIST_CHANGED`. -/
def rilUnsolDataCallListChanged : Int := 1010

/-- `RIL_UNSOL_RESEND_INCALL_MUTE`, the last code GB's libril knows. -/
def rilUnsolResendIncallMute : Int := 1030

/-- `QC_UNSOL_DATA_NETWORK_STATE_CHANGED`. -/
def qcUnsolDataNetworkStateChanged : Int := 1037

/-- The arguments of one `OnUnsolicitedResponse` call. -/
structure Unsol where
  code : Int
  payload : Payload
  len : Nat

/-- `shimOnUnsolicitedResponse`: the call it makes on libril, `none` when it drops the code. -/
def shimOnUnsolicitedResponse (unsolResponse : Int) (data : Option BlobMem) (datalen : Nat) :
    Option Unsol :=
  match (match data with
    | some m => if unsolResponse = rilUnsolDataCallListChanged then dataCallListToV4 m datalen
      else none
    | none => none) with
  | some l => some ⟨unsolResponse, listPayload l, l.length * sizeofDataCall⟩
  | none =>
    if unsolResponse = qcUnsolDataNetworkStateChanged then
      some ⟨rilUnsolNetworkStateChanged, .null, 0⟩
    else if unsolResponse > rilUnsolResendIncallMute then none
    else some ⟨unsolResponse, .ofBlob data, datalen⟩

end Y210.Ril

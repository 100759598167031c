/-
  File:      Y210/Ril/CardStatus.lean
  Subject:   THE CARD STATUS FROM THE BLOB TO THE FRAMEWORK: the shim's translation, libril's
             `responseSimStatus` and the `responseIccCardStatus` of HuaweiQualcommRIL.java.

  The three agree on the order and the number of fields, so what the framework holds is what the
  blob sent, with the applications cut at eight and the going-on network lock check shown as
  DETECTED (`card_status_round_trip`). What they do not agree on is the AID: the Java side takes
  it from the LATEST status and forgets it when there is none, the shim keeps the last one it saw
  (`shim_aid_eq_mAid_iff`).

  Not in src/, so parameters here: the Parcel primitives (a `Wire`, whose law is that reading
  undoes writing) and the converters from an `int` of the parcel to the Java enums (`IccConv`;
  `none` is the RuntimeException an unknown value throws).
-/
import Mathlib.Data.List.Induction
import Y210.Lib.Wire
import Y210.Ril.Translate

namespace Y210.Ril

open Y210.Lib

/-! ## 1. libril's marshaller -/

section Marshal

variable {β : Type} (W : Wire β Word (Option CStr))

/-- One round of the loop of `responseSimStatus`. -/
def writeApp (app : AppStatus) : List β :=
  W.int app.appType ++ W.int app.appState ++ W.int app.persoSubstate ++ W.str app.aidPtr ++
    W.str app.appLabelPtr ++ W.int app.pin1Replaced ++ W.int app.pin1 ++ W.int app.pin2

/-- `responseSimStatus` on a `RIL_CardStatus`; `none` is `RIL_ERRNO_INVALID_RESPONSE`. The shim
    sends at most eight applications, so the loop stays inside the array. -/
def responseSimStatus (c : CardStatus) (responselen : Nat) : Option (List β) :=
  if responselen % sizeofPtr ≠ 0 then none
  else some (W.int c.cardState ++ W.int c.universalPinState ++
    W.int c.gsmUmtsSubscriptionAppIndex ++ W.int c.cdmaSubscriptionAppIndex ++
    W.int c.numApplications ++
    (c.applications.toList.take c.numApplications.toInt.toNat).flatMap (writeApp W))

/-- The payload part of the parcel libril sends for a `RIL_CardStatus`. -/
def simStatusParcel (r : Reply) : Option (List β) :=
  match r.payload with
  | .cardStatus c => responseSimStatus W c r.len
  | _ => none

end Marshal

/-! ## 2. The framework's unmarshaller -/

/-- The converters of `IccCardStatus` and `IccCardApplication`. -/
structure IccConv where
  CardState : Type
  PinState : Type
  AppType : Type
  AppState : Type
  PersoSubstate : Type
  setCardState : Word → Option CardState
  setUniversalPinState : Word → Option PinState
  appTypeFromRILInt : Word → Option AppType
  appStateFromRILInt : Word → Option AppState
  persoSubstateFromRILInt : Word → Option PersoSubstate

/-- `IccCardApplication`. -/
structure IccCardApplication (K : IccConv) where
  appType : K.AppType
  appState : K.AppState
  persoSubstate : K.PersoSubstate
  aid : Option CStr
  appLabel : Option CStr
  pin1Replaced : Word
  pin1 : Word
  pin2 : Word

/-- `IccCardStatus`. -/
structure IccCardStatus (K : IccConv) where
  cardState : K.CardState
  universalPinState : K.PinState
  gsmUmtsSubscriptionAppIndex : Word
  cdmaSubscriptionAppIndex : Word
  numApplications : Int
  applications : List (IccCardApplication K)

/-- `IccCardStatus.CARD_MAX_APPS`. -/
def iccCardMaxApps : Int := 8

/-- An application with its fields converted one by one. -/
def IccConv.application (K : IccConv) (app : AppStatus) : Option (IccCardApplication K) := do
  let appType ← K.appTypeFromRILInt app.appType
  let appState ← K.appStateFromRILInt app.appState
  let persoSubstate ← K.persoSubstateFromRILInt app.persoSubstate
  some ⟨appType, appState, persoSubstate, app.aidPtr, app.appLabelPtr, app.pin1Replaced, app.pin1,
    app.pin2⟩

section Unmarshal

variable {β : Type} (K : IccConv) (W : Wire β Word (Option CStr))

/-- One round of the loop of `responseIccCardStatus`. -/
def readApp (p : List β) : Option (IccCardApplication K × List β) := do
  let (appType, p) ← W.readInt p
  let appType ← K.appTypeFromRILInt appType
  let (appState, p) ← W.readInt p
  let appState ← K.appStateFromRILInt appState
  let (persoSubstate, p) ← W.readInt p
  let persoSubstate ← K.persoSubstateFromRILInt persoSubstate
  let (aid, p) ← W.readStr p
  let (appLabel, p) ← W.readStr p
  let (pin1Replaced, p) ← W.readInt p
  let (pin1, p) ← W.readInt p
  let (pin2, p) ← W.readInt p
  some (⟨appType, appState, persoSubstate, aid, appLabel, pin1Replaced, pin1, pin2⟩, p)

/-- The last lines of `responseIccCardStatus`: the AID of the application at the index of the
    phone's own kind, `none` (null) when the index is not one of the applications. -/
def mAidOf (cdmaPhone : Bool) (status : IccCardStatus K) : Option CStr :=
  let appIndex := if cdmaPhone then status.cdmaSubscriptionAppIndex.toInt
    else status.gsmUmtsSubscriptionAppIndex.toInt
  if appIndex ≥ 0 ∧ appIndex < status.numApplications then
    (status.applications[appIndex.toNat]?).bind (·.aid)
  else none

/-- `responseIccCardStatus`: the status it returns; `mAid` becomes `mAidOf` of it. -/
def responseIccCardStatus (p : List β) : Option (IccCardStatus K) := do
  let (cardState, p) ← W.readInt p
  let cardState ← K.setCardState cardState
  let (universalPinState, p) ← W.readInt p
  let universalPinState ← K.setUniversalPinState universalPinState
  let (gsm, p) ← W.readInt p
  let (cdma, p) ← W.readInt p
  let (num, p) ← W.readInt p
  let numApplications := if num.toInt > iccCardMaxApps then iccCardMaxApps else num.toInt
  let (applications, _) ← readMany (readApp K W) numApplications.toNat p
  some ⟨cardState, universalPinState, gsm, cdma, numApplications, applications⟩

end Unmarshal

/-! ## 3. Round trip -/

/-- The applications the framework is shown: the first `min (max n 0) 8`, in order. -/
def shownApps (v6 : CardStatusV6) : List AppStatus :=
  (v6.applications.toList.take (min (max v6.numApplications.toInt 0).toNat 8)).map persoToDetected

/-- The status the framework should hold for a card status of the blob. -/
def IccConv.status (K : IccConv) (v6 : CardStatusV6) : Option (IccCardStatus K) := do
  let cardState ← K.setCardState v6.cardState
  let universalPinState ← K.setUniversalPinState v6.universalPinState
  let applications ← (shownApps v6).mapM K.application
  some ⟨cardState, universalPinState, v6.gsmUmtsSubscriptionAppIndex, v6.cdmaSubscriptionAppIndex,
    applications.length, applications⟩

section RoundTrip

variable {β : Type} (K : IccConv) (W : Wire β Word (Option CStr))

/-- One application read back. -/
theorem readApp_writeApp (app : AppStatus) (r : List β) :
    readApp K W (writeApp W app ++ r) = (K.application app).map fun a => (a, r) := by
  simp only [readApp, writeApp, List.append_assoc, Wire.readInt_int, Wire.readStr_str,
    Option.bind_eq_bind, Option.bind_some, IccConv.application]
  cases K.appTypeFromRILInt app.appType with
  | none => rfl
  | some t =>
    cases K.appStateFromRILInt app.appState with
    | none => rfl
    | some st => cases K.persoSubstateFromRILInt app.persoSubstate <;> rfl

/-- What the shim puts into the array it sends, as far as it is sent. -/
theorem completeSimStatus_apps (v6 : CardStatusV6) :
    (completeSimStatus v6).applications.toList.take (clampApps v6.numApplications.toInt) =
      shownApps v6 := by
  unfold shownApps
  rw [← clampApps_eq]
  generalize hn : clampApps v6.numApplications.toInt = n
  refine List.ext_getElem (by simp) fun i h1 h2 => ?_
  have hi : i < n := by
    simp only [List.length_take] at h1
    omega
  simp [completeSimStatus, hn, hi]

theorem length_shownApps (v6 : CardStatusV6) :
    (shownApps v6).length = clampApps v6.numApplications.toInt := by
  have h := clampApps_le v6.numApplications.toInt
  rw [shownApps, ← clampApps_eq]
  simp only [List.length_map, List.length_take, Vector.length_toList]
  omega

theorem completeSimStatus_num (v6 : CardStatusV6) :
    (completeSimStatus v6).numApplications.toInt = clampApps v6.numApplications.toInt := by
  have h := clampApps_le v6.numApplications.toInt
  have hn : (completeSimStatus v6).numApplications =
      BitVec.ofNat 32 (clampApps v6.numApplications.toInt) := rfl
  unfold rilCardMaxApps at h
  rw [hn, BitVec.toInt_eq_toNat_of_lt (by rw [BitVec.toNat_ofNat]; omega), BitVec.toNat_ofNat,
    Nat.mod_eq_of_lt (by omega)]

/-- The parcel libril writes for the shim's struct. -/
theorem simStatusParcel_completed (m : BlobMem) :
    simStatusParcel W (answerFor (some .getSimStatus) rilESuccess (some m) sizeofCardStatusV6) =
      some (W.int m.card.cardState ++ W.int m.card.universalPinState ++
        W.int m.card.gsmUmtsSubscriptionAppIndex ++ W.int m.card.cdmaSubscriptionAppIndex ++
        W.int (completeSimStatus m.card).numApplications ++
        (shownApps m.card).flatMap (writeApp W)) := by
  have hpay : answerFor (some .getSimStatus) rilESuccess (some m) sizeofCardStatusV6 =
      ⟨rilESuccess, .cardStatus (completeSimStatus m.card), sizeofCardStatus⟩ := by
    simp [answerFor]
  rw [hpay]
  show responseSimStatus W (completeSimStatus m.card) sizeofCardStatus = _
  rw [responseSimStatus, if_neg (by decide), completeSimStatus_num, Int.toNat_natCast,
    completeSimStatus_apps]
  rfl

/-- What the framework decodes from libril's parcel when the blob answers a tracked GET_SIM_STATUS
    with success; `none` when a converter throws. -/
def frameworkStatus (m : BlobMem) : Option (IccCardStatus K) :=
  (simStatusParcel W (answerFor (some .getSimStatus) rilESuccess (some m) sizeofCardStatusV6)).bind
    (responseIccCardStatus K W)

/-- The decoded status as one equation: built field by field from what the blob sent. -/
theorem frameworkStatus_eq (m : BlobMem) : frameworkStatus K W m = K.status m.card := by
  rw [frameworkStatus, simStatusParcel_completed, Option.bind_some]
  have hlen := length_shownApps m.card
  have hle := clampApps_le m.card.numApplications.toInt
  unfold rilCardMaxApps at hle
  have hnum : (if (completeSimStatus m.card).numApplications.toInt > iccCardMaxApps then
      iccCardMaxApps else (completeSimStatus m.card).numApplications.toInt) =
        ((shownApps m.card).length : Int) := by
    rw [completeSimStatus_num, hlen, if_neg (by unfold iccCardMaxApps; omega)]
  have hloop := readMany_flatMap (readApp_writeApp K W) (shownApps m.card) []
  rw [List.append_nil] at hloop
  simp only [responseIccCardStatus, List.append_assoc, Wire.readInt_int, Option.bind_eq_bind,
    Option.bind_some, IccConv.status, hnum, Int.toNat_natCast, hloop]
  cases K.setCardState m.card.cardState with
  | none => rfl
  | some cs =>
    cases K.setUniversalPinState m.card.universalPinState with
    | none => rfl
    | some ps =>
      cases happs : (shownApps m.card).mapM K.application with
      | none => rfl
      | some as =>
        have hl : (shownApps m.card).length = as.length := (forall₂_of_mapM happs).length_eq
        simp [hl]

/-- The fields of a converted application, `app` being what the framework is shown. -/
theorem IccConv.application_eq_some {app : AppStatus} {ca : IccCardApplication K}
    (h : K.application app = some ca) :
    K.appTypeFromRILInt app.appType = some ca.appType ∧
      K.appStateFromRILInt app.appState = some ca.appState ∧
      K.persoSubstateFromRILInt app.persoSubstate = some ca.persoSubstate ∧
      ca.aid = app.aidPtr ∧ ca.appLabel = app.appLabelPtr ∧ ca.pin1Replaced = app.pin1Replaced ∧
      ca.pin1 = app.pin1 ∧ ca.pin2 = app.pin2 := by
  unfold IccConv.application at h
  obtain ⟨t, ht, h⟩ := Option.bind_eq_some_iff.mp h
  obtain ⟨st, hst, h⟩ := Option.bind_eq_some_iff.mp h
  obtain ⟨ps, hps, h⟩ := Option.bind_eq_some_iff.mp h
  cases h
  exact ⟨ht, hst, hps, rfl, rfl, rfl, rfl, rfl⟩

/-- The fields of a converted status. -/
theorem IccConv.status_eq_some {v6 : CardStatusV6} {st : IccCardStatus K}
    (h : K.status v6 = some st) :
    K.setCardState v6.cardState = some st.cardState ∧
      K.setUniversalPinState v6.universalPinState = some st.universalPinState ∧
      st.gsmUmtsSubscriptionAppIndex = v6.gsmUmtsSubscriptionAppIndex ∧
      st.cdmaSubscriptionAppIndex = v6.cdmaSubscriptionAppIndex ∧
      st.numApplications = st.applications.length ∧
      List.Forall₂ (fun app ca => K.application app = some ca) (shownApps v6) st.applications := by
  unfold IccConv.status at h
  obtain ⟨cs, hcs, h⟩ := Option.bind_eq_some_iff.mp h
  obtain ⟨ps, hps, h⟩ := Option.bind_eq_some_iff.mp h
  obtain ⟨as, has, h⟩ := Option.bind_eq_some_iff.mp h
  cases h
  exact ⟨hcs, hps, rfl, rfl, rfl, forall₂_of_mapM has⟩

theorem IccConv.status_isSome_iff (v6 : CardStatusV6) :
    (K.status v6).isSome = true ↔
      (K.setCardState v6.cardState).isSome = true ∧
        (K.setUniversalPinState v6.universalPinState).isSome = true ∧
        ∀ app ∈ shownApps v6, (K.application app).isSome = true := by
  rw [← mapM_isSome_iff, IccConv.status]
  cases K.setCardState v6.cardState with
  | none => simp
  | some cs =>
    cases K.setUniversalPinState v6.universalPinState with
    | none => simp
    | some ps => cases (shownApps v6).mapM K.application <;> simp

/-- **The round trip of the card status**, for every status of the blob. What the framework
    decodes has the blob's card and PIN state, both its indices, and in order exactly the first
    `min (max n 0) 8` applications, each field as the blob sent it except the state DETECTED of an
    application in SUBSCRIPTION_PERSO at most READY; and it decodes one exactly when its own
    converters accept those values. -/
theorem card_status_round_trip (m : BlobMem) :
    (∀ st, frameworkStatus K W m = some st →
      K.setCardState m.card.cardState = some st.cardState ∧
      K.setUniversalPinState m.card.universalPinState = some st.universalPinState ∧
      st.gsmUmtsSubscriptionAppIndex = m.card.gsmUmtsSubscriptionAppIndex ∧
      st.cdmaSubscriptionAppIndex = m.card.cdmaSubscriptionAppIndex ∧
      st.numApplications = min (max m.card.numApplications.toInt 0) 8 ∧
      st.applications.length = min (max m.card.numApplications.toInt 0).toNat 8 ∧
      ∀ (i : Nat) (app : AppStatus) (ca : IccCardApplication K),
        m.card.applications.toList[i]? = some app → st.applications[i]? = some ca →
          K.appTypeFromRILInt app.appType = some ca.appType ∧
          K.appStateFromRILInt
            (if app.appState = appstateSubscriptionPerso ∧ app.persoSubstate ≤ persosubstateReady
              then appstateDetected else app.appState) = some ca.appState ∧
          K.persoSubstateFromRILInt app.persoSubstate = some ca.persoSubstate ∧
          ca.aid = app.aidPtr ∧ ca.appLabel = app.appLabelPtr ∧
          ca.pin1Replaced = app.pin1Replaced ∧ ca.pin1 = app.pin1 ∧ ca.pin2 = app.pin2) ∧
    ((frameworkStatus K W m).isSome = true ↔
      (K.setCardState m.card.cardState).isSome = true ∧
        (K.setUniversalPinState m.card.universalPinState).isSome = true ∧
        ∀ app ∈ shownApps m.card, (K.application app).isSome = true) := by
  rw [frameworkStatus_eq]
  refine ⟨fun st hst => ?_, K.status_isSome_iff m.card⟩
  obtain ⟨hcs, hps, hgsm, hcdma, hnum, happs⟩ := K.status_eq_some hst
  have hlen : st.applications.length = min (max m.card.numApplications.toInt 0).toNat 8 := by
    rw [← happs.length_eq, length_shownApps, clampApps_eq]
  refine ⟨hcs, hps, hgsm, hcdma, by rw [hnum, hlen]; omega, hlen, fun i app ca happ hca => ?_⟩
  obtain ⟨hi, _⟩ := List.getElem?_eq_some_iff.mp hca
  -- position `i` of the decoded list is the conversion of position `i` of the shown one
  have hshown : (shownApps m.card)[i]? = some (persoToDetected app) := by
    rw [shownApps, List.getElem?_map, List.getElem?_take_of_lt (by omega), happ]
    rfl
  obtain ⟨hi', hget⟩ := List.getElem?_eq_some_iff.mp hshown
  have hconv : K.application (persoToDetected app) = some ca := by
    have h := happs.get hi' hi
    rw [List.getElem?_eq_some_iff] at hca
    obtain ⟨_, hca⟩ := hca
    simp only [List.get_eq_getElem, hget, hca] at h
    exact h
  have hfields := K.application_eq_some hconv
  unfold persoToDetected at hfields
  split at hfields <;> rename_i hp
  · rw [if_pos hp]; exact hfields
  · rw [if_neg hp]; exact hfields

end RoundTrip

/-! ## 4. The AID on the two sides -/

/-- The AID of the GSM application of a status: `none` when the index is not one of the
    applications, or the application has no AID. -/
def gsmAid (v6 : CardStatusV6) : Option CStr :=
  (appAt v6 (clampApps v6.numApplications.toInt) v6.gsmUmtsSubscriptionAppIndex.toInt).bind
    (·.aidPtr)

/-- `s_aid` after the completion of a GET_SIM_STATUS (memory not short). -/
def shimAidStep (sAid : Option CStr) (m : BlobMem) : Option CStr :=
  aidAfter some sAid (some .getSimStatus) rilESuccess (some m) sizeofCardStatusV6

/-- `s_aid` after a sequence of successful GET_SIM_STATUS responses. -/
def shimAid (h : List BlobMem) : Option CStr := h.foldl shimAidStep none

section Aid

variable {β : Type} (K : IccConv) (W : Wire β Word (Option CStr))

/-- `mAid` after the framework decoded the parcel of one response; an exception leaves it. -/
def mAidStep (mAid : Option CStr) (m : BlobMem) : Option CStr :=
  match frameworkStatus K W m with
  | some status => mAidOf K false status
  | none => mAid

/-- `mAid` of a GSM phone after the same sequence. -/
def mAid (h : List BlobMem) : Option CStr := h.foldl (mAidStep K W) none

/-- One response on the shim's side: a status without a GSM application changes nothing. -/
theorem shimAidStep_eq (sAid : Option CStr) (m : BlobMem) :
    shimAidStep sAid m = (gsmAid m.card).or sAid := by
  have hup : updatesAid (some .getSimStatus) rilESuccess sizeofCardStatusV6 = true := by decide
  simp only [shimAidStep, aidAfter, hup, if_true, aidUpdate, gsmAid]
  cases appAt m.card (clampApps m.card.numApplications.toInt)
      m.card.gsmUmtsSubscriptionAppIndex.toInt with
  | none => rfl
  | some app =>
    cases haid : app.aidPtr with
    | none => simp [haid]
    | some aid =>
      by_cases hs : sAid = some aid
      · simp [hs, haid]
      · simp [hs, haid]

/-- Converting applications keeps their AIDs. -/
theorem map_aid_of_conv {l : List AppStatus} {as : List (IccCardApplication K)}
    (h : List.Forall₂ (fun app ca => K.application app = some ca) l as) :
    as.map (·.aid) = l.map (·.aidPtr) := by
  induction h with
  | nil => rfl
  | cons ha _ ih => simp only [List.map_cons, ih, (K.application_eq_some ha).2.2.2.1]

/-- So does the shim's relabelling. -/
theorem map_aid_of_shown {v6 : CardStatusV6} {as : List (IccCardApplication K)}
    (h : List.Forall₂ (fun app ca => K.application app = some ca) (shownApps v6) as) :
    as.map (·.aid) =
      (v6.applications.toList.take (clampApps v6.numApplications.toInt)).map (·.aidPtr) := by
  have hkeep : ∀ app : AppStatus, (persoToDetected app).aidPtr = app.aidPtr := by
    intro app
    unfold persoToDetected
    split <;> rfl
  rw [map_aid_of_conv K h, shownApps, ← clampApps_eq, List.map_map]
  exact List.map_congr_left fun app _ => hkeep app

/-- The AID the framework takes from a decoded status is that of the blob's GSM application. -/
theorem mAidOf_status {v6 : CardStatusV6} {st : IccCardStatus K} (h : K.status v6 = some st) :
    mAidOf K false st = gsmAid v6 := by
  obtain ⟨_, _, hgsm, _, hnum, happs⟩ := K.status_eq_some h
  have hlen : st.applications.length = clampApps v6.numApplications.toInt := by
    rw [← happs.length_eq, length_shownApps]
  have hmap := map_aid_of_shown K happs
  unfold mAidOf gsmAid appAt
  simp only [Bool.false_eq_true, if_false, hgsm, hnum, hlen]
  generalize v6.gsmUmtsSubscriptionAppIndex.toInt = idx
  by_cases hidx : idx < 0 ∨ idx ≥ (clampApps v6.numApplications.toInt : Int)
  · rw [if_pos hidx, if_neg (by omega)]
    rfl
  · rw [if_neg hidx, if_pos (by omega)]
    have hlt : idx.toNat < clampApps v6.numApplications.toInt := by omega
    have hget := congrArg (fun l : List (Option CStr) => l[idx.toNat]?) hmap
    simp only [List.getElem?_map, List.getElem?_take_of_lt hlt] at hget
    cases h1 : st.applications[idx.toNat]? <;> cases h2 : v6.applications.toList[idx.toNat]? <;>
      simp_all

/-- One response on the framework's side: `mAid` is the AID of this status, or null. -/
theorem mAidStep_eq (mAid : Option CStr) (m : BlobMem) (h : (K.status m.card).isSome = true) :
    mAidStep K W mAid m = gsmAid m.card := by
  obtain ⟨st, hst⟩ := Option.isSome_iff_exists.mp h
  unfold mAidStep
  rw [frameworkStatus_eq, hst]
  exact mAidOf_status K hst

/-- The shim has no AID exactly when no status had one. -/
theorem shimAid_none_iff (h : List BlobMem) :
    shimAid h = none ↔ ∀ m ∈ h, gsmAid m.card = none := by
  induction h using List.reverseRecOn with
  | nil => simp [shimAid]
  | append_singleton l m ih =>
      have hs : shimAid (l ++ [m]) = (gsmAid m.card).or (shimAid l) := by
        rw [shimAid, List.foldl_append]
        exact shimAidStep_eq (shimAid l) m
      rw [hs, Option.or_eq_none_iff, ih]
      simp only [List.mem_append, List.mem_singleton]
      constructor
      · rintro ⟨hm, hl⟩ x (hx | rfl)
        · exact hl x hx
        · exact hm
      · intro hall
        exact ⟨hall m (Or.inr rfl), fun x hx => hall x (Or.inl hx)⟩

/-- **The shim's AID and the framework's.** After a sequence of statuses the framework decodes,
    they agree exactly when the latest status has a GSM application with an AID, or no status of
    the sequence had one. -/
theorem shim_aid_eq_mAid_iff (h : List BlobMem) (hK : ∀ m ∈ h, (K.status m.card).isSome = true) :
    shimAid h = mAid K W h ↔
      (∃ m, h.getLast? = some m ∧ (gsmAid m.card).isSome = true) ∨
        ∀ m ∈ h, gsmAid m.card = none := by
  rcases List.eq_nil_or_concat' h with rfl | ⟨l, m, rfl⟩
  · simp [shimAid, mAid]
  · have hs : shimAid (l ++ [m]) = (gsmAid m.card).or (shimAid l) := by
      rw [shimAid, List.foldl_append]
      exact shimAidStep_eq (shimAid l) m
    have hj : mAid K W (l ++ [m]) = gsmAid m.card := by
      rw [mAid, List.foldl_append]
      exact mAidStep_eq K W _ m (hK m (by simp))
    rw [hj]
    cases hm : gsmAid m.card with
    | some aid =>
        refine iff_of_true (by rw [hs, hm]; rfl) (Or.inl ⟨m, by simp, by simp [hm]⟩)
    | none =>
        rw [shimAid_none_iff]
        constructor
        · exact Or.inr
        · rintro (⟨x, hx, hsome⟩ | hall)
          · have hxm : x = m := by simpa using hx.symm
            rw [hxm, hm] at hsome
            cases hsome
          · exact hall

end Aid

/-! ## 5. A card that disappears -/

/-- A converter that accepts the enumerators `0 .. n - 1`, as those of GB do. -/
def below (n : Nat) (w : Word) : Option (Fin n) :=
  if h : w.toNat < n then some ⟨w.toNat, h⟩ else none

/-- The ranges of GB's enums. -/
def gbConv : IccConv :=
  ⟨Fin 3, Fin 6, Fin 5, Fin 6, Fin 25, below 3, below 6, below 5, below 6, below 25⟩

def usimApp : AppStatus := ⟨2, 5, 2, some "A0000000871002".toList, none, 0, 3, 1⟩

/-- A present card whose only application is a USIM. -/
def presentCard : BlobMem where
  card := ⟨1, 3, 0, -1, -1, 1,
    (Vector.replicate rilCardMaxApps AppStatus.zero).set 0 usimApp (by decide)⟩
  call := fun _ => ⟨0, 0, 0, none, none, none, none, none⟩

/-- No card, hence no application. -/
def absentCard : BlobMem where
  card := ⟨0, 0, -1, -1, -1, 0, Vector.replicate rilCardMaxApps AppStatus.zero⟩
  call := fun _ => ⟨0, 0, 0, none, none, none, none, none⟩

theorem shim_aid_eq_mAid_present :
    (∀ m ∈ [absentCard, presentCard], (gbConv.status m.card).isSome = true) ∧
      shimAid [absentCard, presentCard] =
        mAid gbConv (Wire.items Word (Option CStr)) [absentCard, presentCard] :=
  have hK : ∀ m ∈ [absentCard, presentCard], (gbConv.status m.card).isSome = true := by decide
  ⟨hK, (shim_aid_eq_mAid_iff gbConv (Wire.items Word (Option CStr)) _ hK).mpr
    (Or.inl ⟨presentCard, rfl, by decide⟩)⟩

/-- The card is taken out: the framework forgets the AID, the shim goes on attaching it. -/
theorem shim_keeps_aid_of_removed_card :
    (∀ m ∈ [presentCard, absentCard], (gbConv.status m.card).isSome = true) ∧
      ¬ shimAid [presentCard, absentCard] =
        mAid gbConv (Wire.items Word (Option CStr)) [presentCard, absentCard] := by
  decide

end Y210.Ril

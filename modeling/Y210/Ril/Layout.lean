/-
  File:      Y210/Ril/Layout.lean
  Subject:   THE DATA OF THE RADIO INTERFACE: the structs of the blob (RIL v6), the structs GB's
             libril reads (v4/v5), and the request codes the shim knows by name.

  A C string is the list of its characters up to the NUL, a `char *` an `Option` of it (`none` is
  NULL). An `int` or an enum is the 32-bit word it is stored in: an `int` is compared through
  `BitVec.toInt`, an enum without negative enumerators as the unsigned number it is. The sizes are
  those of the 32-bit ABI, as the comments of rilshim.c give them.
-/
import Mathlib.Data.List.Basic

namespace Y210.Ril

/-- The characters of a C string. -/
abbrev CStr := List Char

/-- A 32-bit word: an `int`, or a value of an enum type. -/
abbrev Word := BitVec 32

/-! ## 1. Requests -/

/-- The request codes rilshim.c names; every other code is `other`. -/
inductive RilRequest where
  | getSimStatus
  | enterSimPin
  | enterSimPuk
  | enterSimPin2
  | enterSimPuk2
  | changeSimPin
  | changeSimPin2
  | getImsi
  | setupDataCall
  | simIo
  | dataCallList
  | other (code : Nat)
  deriving DecidableEq, Repr

/-- `RIL_E_SUCCESS`. -/
def rilESuccess : Int := 0

/-- `RIL_E_GENERIC_FAILURE`. -/
def rilEGenericFailure : Int := 2

/-! ## 2. Card status -/

/-- `RIL_CARD_MAX_APPS`. -/
def rilCardMaxApps : Nat := 8

/-- `RIL_APPSTATE_DETECTED`. -/
def appstateDetected : Word := 1

/-- `RIL_APPSTATE_SUBSCRIPTION_PERSO`. -/
def appstateSubscriptionPerso : Word := 4

/-- `RIL_PERSOSUBSTATE_READY`. -/
def persosubstateReady : Word := 2

/-- `RIL_AppStatus`. -/
structure AppStatus where
  appType : Word
  appState : Word
  persoSubstate : Word
  aidPtr : Option CStr
  appLabelPtr : Option CStr
  pin1Replaced : Word
  pin1 : Word
  pin2 : Word
  deriving DecidableEq, Repr

/-- What `memset` leaves of an application. -/
def AppStatus.zero : AppStatus := ⟨0, 0, 0, none, none, 0, 0, 0⟩

/-- `RIL_CardStatus_v6`, the blob's. -/
structure CardStatusV6 where
  cardState : Word
  universalPinState : Word
  gsmUmtsSubscriptionAppIndex : Word
  cdmaSubscriptionAppIndex : Word
  imsSubscriptionAppIndex : Word
  numApplications : Word
  applications : Vector AppStatus rilCardMaxApps
  deriving DecidableEq, Repr

/-- `RIL_CardStatus`, libril's: no IMS index. -/
structure CardStatus where
  cardState : Word
  universalPinState : Word
  gsmUmtsSubscriptionAppIndex : Word
  cdmaSubscriptionAppIndex : Word
  numApplications : Word
  applications : Vector AppStatus rilCardMaxApps
  deriving DecidableEq, Repr

/-- `sizeof(RIL_CardStatus_v6)`. -/
def sizeofCardStatusV6 : Nat := 280

/-- `sizeof(RIL_CardStatus)`. -/
def sizeofCardStatus : Nat := 276

/-! ## 3. Data calls -/

/-- `MAX_DATA_CALLS`. -/
def maxDataCalls : Nat := 8

/-- `RIL_Data_Call_Response_qc`, the blob's. -/
structure DataCallQc where
  status : Word
  cid : Word
  active : Word
  type : Option CStr
  ifname : Option CStr
  addresses : Option CStr
  dnses : Option CStr
  gateways : Option CStr
  deriving DecidableEq, Repr

/-- `RIL_Data_Call_Response`, libril's. -/
structure DataCall where
  cid : Word
  active : Word
  type : Option CStr
  apn : Option CStr
  address : Option CStr
  deriving DecidableEq, Repr

/-- `sizeof(RIL_Data_Call_Response_qc)`. -/
def sizeofDataCallQc : Nat := 32

/-- `sizeof(RIL_Data_Call_Response)`. -/
def sizeofDataCall : Nat := 20

/-- `sizeof(char *)`. -/
def sizeofPtr : Nat := 4

/-! ## 4. Request parameters -/

/-- `RIL_SIM_IO`, libril's. -/
structure SimIo where
  command : Word
  fileid : Word
  path : Option CStr
  p1 : Word
  p2 : Word
  p3 : Word
  data : Option CStr
  pin2 : Option CStr
  deriving DecidableEq, Repr

/-- `RIL_SIM_IO_qc`, the blob's: a leading word and the AID. -/
structure SimIoQc where
  leading : Word
  command : Word
  fileid : Word
  path : Option CStr
  p1 : Word
  p2 : Word
  p3 : Word
  data : Option CStr
  pin2 : Option CStr
  aidPtr : Option CStr
  deriving DecidableEq, Repr

/-- What a parameter pointer of a request points to: an array of strings, a SIM I/O struct in one
    of the two layouts, or the parameters of a request the shim does not look at. -/
inductive Args where
  | strings (l : List (Option CStr))
  | simIo (io : SimIo)
  | simIoQc (io : SimIoQc)
  | rawArgs (bytes : List Nat)
  deriving DecidableEq, Repr

/-! ## 5. Response payloads -/

/-- The memory behind a response pointer of the blob, as the shim's casts read it: as one card
    status, and as an array of data calls. Nothing relates it to the length the blob passes. -/
structure BlobMem where
  card : CardStatusV6
  call : Nat → DataCallQc

/-- A payload pointer handed to libril: NULL, the blob's own memory, or one of the three structs
    the shim builds. -/
inductive Payload where
  | null
  | blob (m : BlobMem)
  | cardStatus (c : CardStatus)
  | strings (l : List (Option CStr))
  | dataCalls (l : List DataCall)

/-- The blob's response pointer as a payload. -/
def Payload.ofBlob : Option BlobMem → Payload
  | none => .null
  | some m => .blob m

/-- The arguments of one `OnRequestComplete` call: error code, payload pointer and length. -/
structure Reply where
  e : Int
  payload : Payload
  len : Nat

end Y210.Ril

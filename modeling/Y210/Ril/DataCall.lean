/-
  File:      Y210/Ril/DataCall.lean
  Subject:   ONE DATA CALL, SEEN TWICE: libril learns of a call through the answer to its
             SETUP_DATA_CALL and again through every list of calls. What it sees of the call's cid
             and address on the two paths, and which calls of a list it sees.

  * `listSeen_eq`, `unsolSeen_eq` -- both list paths show the first eight
    calls of the blob's list, in order;
  * `setup_ip_eq_address_iff` -- exactly which addresses survive the set-up path unchanged;
  * `data_call_paths_agree` -- the two paths together.
-/
import Mathlib.Data.List.TakeDrop
import Y210.Ril.Translate

namespace Y210.Ril

/-! ## 1. What libril sees of a call -/

/-- The cid, in decimal digits, and the IP address of a call. -/
structure SeenCall where
  cid : CStr
  ip : Option CStr
  deriving DecidableEq, Repr

/-- `%d` with room for every digit. -/
def decimal (i : Int) : CStr := (toString i).toList

/-- A set-up call: the strings of the answer are the cid, the interface and the address. -/
def seenThroughSetup (r : Reply) : Option SeenCall :=
  match r.payload with
  | .strings [some cid, _, ip] => some ⟨cid, ip⟩
  | _ => none

/-- A list of calls: no payload is the empty list. -/
def seenThroughList : Payload → Option (List SeenCall)
  | .null => some []
  | .dataCalls l => some (l.map fun d => ⟨decimal d.cid.toInt, d.address⟩)
  | _ => none

/-- The set-up answer for the call in `m`. -/
def setupAnswer (m : BlobMem) : Reply :=
  answerFor (some .setupDataCall) rilESuccess (some m) sizeofDataCallQc

/-- The calls libril sees when DATA_CALL_LIST is answered with the first `n` calls of `m`. -/
def listSeen (m : BlobMem) (n : Nat) : Option (List SeenCall) :=
  seenThroughList
    (answerFor (some .dataCallList) rilESuccess (some m) (n * sizeofDataCallQc)).payload

/-- The calls libril sees when the blob reports the same list on its own. -/
def unsolSeen (m : BlobMem) (n : Nat) : Option (List SeenCall) :=
  (shimOnUnsolicitedResponse rilUnsolDataCallListChanged (some m) (n * sizeofDataCallQc)).bind
    fun u => seenThroughList u.payload

/-! ## 2. The lists -/

/-- The calls the blob sent, as the list paths show them. -/
def rawSeen (m : BlobMem) (n : Nat) : List SeenCall :=
  (List.range n).map fun i => ⟨decimal (m.call i).cid.toInt, (m.call i).addresses⟩

theorem dataCallListToV4_mul (m : BlobMem) (n : Nat) :
    dataCallListToV4 m (n * sizeofDataCallQc) =
      some ((List.range (min n maxDataCalls)).map fun i => dataCallToV4 (m.call i)) := by
  have hmod : n * sizeofDataCallQc % sizeofDataCallQc = 0 := Nat.mul_mod_left _ _
  have hdiv : n * sizeofDataCallQc / sizeofDataCallQc = n :=
    Nat.mul_div_cancel _ (by decide)
  have hmin : (if n > maxDataCalls then maxDataCalls else n) = min n maxDataCalls := by
    split <;> omega
  unfold dataCallListToV4
  rw [if_neg (by rw [hmod]; exact fun h => h rfl), hdiv]
  show some ((List.range (if n > maxDataCalls then maxDataCalls else n)).map _) = _
  rw [hmin]

theorem seenThroughList_listPayload (l : List DataCall) :
    seenThroughList (listPayload l) =
      some (l.map fun d => ⟨decimal d.cid.toInt, d.address⟩) := by
  unfold listPayload
  split
  · rename_i h
    subst h
    rfl
  · rfl

theorem seen_dataCallToV4 (m : BlobMem) (n : Nat) :
    seenThroughList (listPayload
        ((List.range (min n maxDataCalls)).map fun i => dataCallToV4 (m.call i))) =
      some ((rawSeen m n).take maxDataCalls) := by
  rw [seenThroughList_listPayload, rawSeen, ← List.map_take, List.take_range, List.map_map,
    Nat.min_comm]
  rfl

/-- **DATA_CALL_LIST shows the first eight calls**, in order. -/
theorem listSeen_eq (m : BlobMem) (n : Nat) :
    listSeen m n = some ((rawSeen m n).take maxDataCalls) := by
  have hanswer : answerFor (some .dataCallList) rilESuccess (some m) (n * sizeofDataCallQc) =
      ⟨rilESuccess,
        listPayload ((List.range (min n maxDataCalls)).map fun i => dataCallToV4 (m.call i)),
        ((List.range (min n maxDataCalls)).map fun i => dataCallToV4 (m.call i)).length *
          sizeofDataCall⟩ := by
    simp [answerFor, dataCallListToV4_mul]
  rw [listSeen, hanswer]
  exact seen_dataCallToV4 m n

/-- **UNSOL_DATA_CALL_LIST_CHANGED shows the same calls.** -/
theorem unsolSeen_eq (m : BlobMem) (n : Nat) :
    unsolSeen m n = some ((rawSeen m n).take maxDataCalls) := by
  have hcall : shimOnUnsolicitedResponse rilUnsolDataCallListChanged (some m)
        (n * sizeofDataCallQc) =
      some ⟨rilUnsolDataCallListChanged,
        listPayload ((List.range (min n maxDataCalls)).map fun i => dataCallToV4 (m.call i)),
        ((List.range (min n maxDataCalls)).map fun i => dataCallToV4 (m.call i)).length *
          sizeofDataCall⟩ := by
    simp [shimOnUnsolicitedResponse, dataCallListToV4_mul]
  rw [unsolSeen, hcall]
  exact seen_dataCallToV4 m n

/-! ## 3. The set-up answer -/

/-- Eleven characters hold every 32-bit `int`, so the buffer of twelve never cuts the cid. -/
theorem length_decimal_le (w : Word) : (decimal w.toInt).length ≤ 11 := by
  have hlo : -2 ^ 31 ≤ w.toInt := BitVec.le_toInt w
  have hhi : w.toInt < 2 ^ 31 := BitVec.toInt_lt
  have hdigits : w.toInt.natAbs.repr.length ≤ 10 :=
    (Nat.length_repr_le_iff (by decide)).mpr (by omega)
  rw [decimal, String.length_toList, Int.toString_eq_repr, Int.repr_eq_if]
  split
  · have hpos : w.toInt.toNat = w.toInt.natAbs := by omega
    rw [hpos]
    omega
  · have hneg : (-w.toInt).toNat = w.toInt.natAbs := by omega
    have hsign : ("-" : String).length = 1 := rfl
    rw [hneg, String.length_append]
    omega

theorem snprintfD_cid (w : Word) : snprintfD 12 w.toInt = decimal w.toInt :=
  List.take_of_length_le (length_decimal_le w)

/-- **The set-up answer**: the cid in full, the address as the `ip` buffer holds it. -/
theorem seenThroughSetup_answer {m : BlobMem} (h : (m.call 0).status = 0) :
    seenThroughSetup (setupAnswer m) =
      some ⟨decimal (m.call 0).cid.toInt, some (setupIp (m.call 0).addresses)⟩ := by
  have hreq : ¬((some RilRequest.setupDataCall = some RilRequest.getSimStatus) ∧
      sizeofDataCallQc = sizeofCardStatusV6) := by decide
  unfold setupAnswer answerFor
  simp only [ne_eq, not_true_eq_false, if_false, if_neg hreq, and_self, if_true]
  rw [completeSetupDataCall, if_neg (fun hne => hne h), snprintfD_cid]
  rfl

/-! ## 4. Addresses -/

/-- One bare address that fits the buffer: no prefix length, no second address. -/
def PlainAddress (a : CStr) : Prop := ' ' ∉ a ∧ '/' ∉ a ∧ a.length < 64

instance (a : CStr) : Decidable (PlainAddress a) := inferInstanceAs (Decidable (_ ∧ _ ∧ _))

theorem strcspn_eq_length_iff (a : CStr) :
    strcspn a [' ', '/'] = a.length ↔ ' ' ∉ a ∧ '/' ∉ a := by
  unfold strcspn
  induction a with
  | nil => simp
  | cons c cs ih =>
      by_cases hc : c = ' ' ∨ c = '/'
      · have hstop : (!([' ', '/'] : CStr).contains c) = false := by
          rcases hc with rfl | rfl <;> decide
        rw [List.takeWhile_cons, hstop]
        rcases hc with rfl | rfl <;> simp
      · have hgo : (!([' ', '/'] : CStr).contains c) = true := by
          simpa [not_or] using hc
        rw [List.takeWhile_cons, hgo]
        simp only [not_or] at hc
        simp only [if_true, List.length_cons, Nat.add_right_cancel_iff, ih, List.mem_cons, not_or]
        exact ⟨fun h => ⟨⟨Ne.symm hc.1, h.1⟩, Ne.symm hc.2, h.2⟩,
          fun h => ⟨h.1.2, h.2.2⟩⟩

theorem strcspn_le (a reject : CStr) : strcspn a reject ≤ a.length :=
  (List.takeWhile_sublist _).length_le

/-- **Which addresses the set-up path keeps.** The buffer holds the blob's own string exactly for
    a plain address. -/
theorem setup_ip_eq_address_iff (addresses : Option CStr) :
    some (setupIp addresses) = addresses ↔ ∃ a, addresses = some a ∧ PlainAddress a := by
  cases addresses with
  | none => simp
  | some a =>
      have hle := strcspn_le a [' ', '/']
      have hiff := strcspn_eq_length_iff a
      have hlen : setupIp (some a) = a ↔ strcspn a [' ', '/'] = a.length ∧ a.length < 64 := by
        unfold setupIp
        dsimp only
        rw [List.take_eq_self_iff]
        split <;> omega
      constructor
      · intro h
        obtain ⟨hcspn, hshort⟩ := hlen.mp (Option.some.inj h)
        obtain ⟨hsp, hsl⟩ := hiff.mp hcspn
        exact ⟨a, rfl, hsp, hsl, hshort⟩
      · rintro ⟨_, ha, hsp, hsl, hshort⟩
        cases ha
        rw [hlen.mpr ⟨hiff.mpr ⟨hsp, hsl⟩, hshort⟩]

/-! ## 5. The two paths together -/

/-- **One call on the two paths.** For every list of `n` calls, both list paths show its first
    eight calls in order and one is missing exactly when there are more than eight. A shown call
    whose own set-up succeeded (the set-up answer in `ms` has its cid and address) has the cid of
    the set-up answer, and its address when that is a plain one. -/
theorem data_call_paths_agree (m : BlobMem) (n : Nat) :
    ∃ seen, listSeen m n = some seen ∧ unsolSeen m n = some seen ∧
      seen = (rawSeen m n).take 8 ∧ (seen = rawSeen m n ↔ n ≤ 8) ∧
      ∀ i, i < min n 8 → ∀ ms : BlobMem, (ms.call 0).status = 0 →
        (ms.call 0).cid = (m.call i).cid → (ms.call 0).addresses = (m.call i).addresses →
        ∃ s c, seenThroughSetup (setupAnswer ms) = some s ∧ seen[i]? = some c ∧ s.cid = c.cid ∧
          (∀ a, (m.call i).addresses = some a → PlainAddress a → s.ip = c.ip) := by
  refine ⟨(rawSeen m n).take 8, listSeen_eq m n, unsolSeen_eq m n, rfl, ?_, ?_⟩
  · rw [List.take_eq_self_iff, rawSeen, List.length_map, List.length_range]
  · intro i hi ms hstatus hcid haddr
    refine ⟨_, ⟨decimal (m.call i).cid.toInt, (m.call i).addresses⟩,
      seenThroughSetup_answer hstatus, ?_, ?_, ?_⟩
    · rw [List.getElem?_take_of_lt (by omega), rawSeen, List.getElem?_map,
        List.getElem?_range (by omega)]
      rfl
    · rw [hcid]
    · intro a ha hplain
      rw [haddr]
      exact (setup_ip_eq_address_iff _).mpr ⟨a, ha, hplain⟩

/-- A blob whose calls are numbered and all have the address `addresses`. -/
def callsAt (addresses : Option CStr) : BlobMem :=
  { card := ⟨0, 0, 0, 0, 0, 0, Vector.replicate _ AppStatus.zero⟩
    call := fun i => ⟨0, BitVec.ofNat 32 i, 2, none, none, addresses, none, none⟩ }

def plainIp : CStr := ['1', '0', '.', '0', '.', '0', '.', '7']

def prefixedIp : CStr := plainIp ++ ['/', '3', '0']

theorem data_call_paths_agree_one :
    ∃ s c, seenThroughSetup (setupAnswer (callsAt (some plainIp))) = some s ∧
      listSeen (callsAt (some plainIp)) 1 = some [c] ∧ s.cid = c.cid ∧ s.ip = c.ip := by
  obtain ⟨seen, hlist, -, -, hall, h⟩ := data_call_paths_agree (callsAt (some plainIp)) 1
  obtain ⟨s, c, hs, hc, hcid, hip⟩ := h 0 (by decide) (callsAt (some plainIp)) rfl rfl rfl
  refine ⟨s, c, hs, ?_, hcid, hip plainIp rfl (by decide)⟩
  have hone : seen = [⟨decimal 0, some plainIp⟩] := hall.mpr (by decide)
  rw [hlist, hone]
  rw [hone] at hc
  exact congrArg (fun x => some [x]) (Option.some.inj hc)

/-- Nine calls with a prefix length in their address: the ninth is not shown, and the first is
    shown with another address than its set-up answer had. -/
theorem nine_prefixed_calls_differ :
    (listSeen (callsAt (some prefixedIp)) 9).map List.length = some 8 ∧
      (unsolSeen (callsAt (some prefixedIp)) 9).map List.length = some 8 ∧
      seenThroughSetup (setupAnswer (callsAt (some prefixedIp))) = some ⟨['0'], some plainIp⟩ ∧
      (listSeen (callsAt (some prefixedIp)) 9).bind (fun l => l[0]?) =
        some ⟨['0'], some prefixedIp⟩ := by
  decide

end Y210.Ril

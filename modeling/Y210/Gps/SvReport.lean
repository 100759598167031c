/-
  File:      Y210/Gps/SvReport.lean
  Subject:   THE SATELLITE REPORT of the modem and what the framework is told of it
             (`loc_eng.cpp`, `loc_eng_report_sv`).

  * `svLoop` -- the loop over the entries, as many as `sv_count` says; a read behind the list and a
    shift by less than 0 or more than 31 have no result;
  * `Built` -- what holds after the first `n` entries, with one lemma for the next of them;
  * `exact_iff` -- the report is right for just those reports of the modem whose count its list
    covers, whose entries name their system, and whose GPS numbers fit in a mask.
-/
import Mathlib.Data.List.Basic

namespace Y210.Gps.Sv

/-! ## 1. The modem's report -/

inductive SvSystem
  | gps
  | galileo
  | sbas
  | compass
  | glonass
  | other
  deriving DecidableEq, Repr

inductive SvProcess
  | idle
  | search
  | track
  | other
  deriving DecidableEq, Repr

/-- `rpc_loc_sv_info_s_type`, the floats as their bits. -/
structure SvInfo where
  validMask : BitVec 32
  system : SvSystem
  prn : UInt8
  processStatus : SvProcess
  hasEph : Int
  hasAlm : Int
  elevation : BitVec 32
  azimuth : BitVec 32
  snr : BitVec 32
  deriving DecidableEq, Repr

/-- `rpc_loc_gnss_info_s_type`; `sv_list_len` is the length of the list. -/
structure GnssInfo where
  validMask : BitVec 32
  svCount : UInt16
  svList : List SvInfo
  deriving DecidableEq, Repr

/-- `mask & flag`, as a condition. -/
def has (mask flag : BitVec 32) : Bool := mask &&& flag != 0

def validSystem : BitVec 32 := 0x1
def validProcessStatus : BitVec 32 := 0x8
def validHasEph : BitVec 32 := 0x10
def validHasAlm : BitVec 32 := 0x20
def validElevation : BitVec 32 := 0x40
def validAzimuth : BitVec 32 := 0x80
def validSnr : BitVec 32 := 0x100
def validSvCount : BitVec 32 := 0x10
def validSvList : BitVec 32 := 0x20

/-- The masks of the status. -/
inductive Mask
  | ephemeris
  | almanac
  | usedInFix
  deriving DecidableEq, Repr

/-- The flag of an entry for a mask. -/
def SvInfo.carries (e : SvInfo) : Mask → Bool
  | .ephemeris => has e.validMask validHasEph && e.hasEph == 1
  | .almanac => has e.validMask validHasAlm && e.hasAlm == 1
  | .usedInFix => has e.validMask validProcessStatus && e.processStatus == .track

def SvInfo.isGps (e : SvInfo) : Bool := has e.validMask validSystem && e.system == .gps

/-! ## 2. The status -/

/-- `GpsSvInfo`, with the entry that it was made from, which the code does not keep. -/
structure SvSlot where
  size : Nat
  prn : Int
  snr : BitVec 32
  elevation : BitVec 32
  azimuth : BitVec 32
  source : Nat
  deriving DecidableEq, Repr

/-- `GpsSvStatus`; `num_svs` is the length of the list. -/
structure SvStatus where
  svList : List SvSlot := []
  ephemerisMask : BitVec 32 := 0
  almanacMask : BitVec 32 := 0
  usedInFixMask : BitVec 32 := 0
  deriving DecidableEq, Repr

def SvStatus.mask (status : SvStatus) : Mask → BitVec 32
  | .ephemeris => status.ephemerisMask
  | .almanac => status.almanacMask
  | .usedInFix => status.usedInFixMask

/-- `GPS_MAX_SVS` of `gps.h`. -/
def gpsMaxSvs : Nat := 32

/-- `sizeof(GpsSvStatus)`: 32 entries of 20 bytes, and five words. -/
def sizeofSvStatus : Nat := 660

/-- `if (…) mask |= (1 << (prn-1))`. -/
def setBit (mask : BitVec 32) (flag : Bool) (prn : UInt8) : Option (BitVec 32) :=
  if flag then
    if 1 ≤ prn.toNat ∧ prn.toNat ≤ 32 then some (mask ||| BitVec.twoPow 32 (prn.toNat - 1))
    else none
  else some mask

/-- A slot of an entry, with the size and the number that its system gives it. -/
def slot (i : Nat) (e : SvInfo) (size : Nat) (prn : Int) : SvSlot where
  size := size
  prn := prn
  snr := if has e.validMask validSnr then e.snr else 0
  elevation := if has e.validMask validElevation then e.elevation else 0
  azimuth := if has e.validMask validAzimuth then e.azimuth else 0
  source := i

/-- `sv_list[num_svs++]`. -/
def push (status : SvStatus) (s : SvSlot) : Option SvStatus :=
  if status.svList.length < gpsMaxSvs then some { status with svList := status.svList ++ [s] }
  else none

/-- One round of the loop. -/
def reportEntry (status : SvStatus) (i : Nat) (e : SvInfo) : Option SvStatus :=
  if has e.validMask validSystem then
    match e.system with
    | .gps => do
      let ephemeris ← setBit status.ephemerisMask (e.carries .ephemeris) e.prn
      let almanac ← setBit status.almanacMask (e.carries .almanac) e.prn
      let usedInFix ← setBit status.usedInFixMask (e.carries .usedInFix) e.prn
      push ⟨status.svList, ephemeris, almanac, usedInFix⟩ (slot i e sizeofSvStatus e.prn.toNat)
    | .sbas => push status (slot i e 0 (e.prn.toNat + 33 - 120))
    | .glonass => push status (slot i e 0 (e.prn.toNat + (65 - 1)))
    -- unsupported: `continue`
    | _ => some status
  else
    push status (slot i e 0 0)

/-- The loop, with the rounds that are left. -/
def svLoop (svList : List SvInfo) : Nat → Nat → SvStatus → Option SvStatus
  | 0, _, status => some status
  | n + 1, i, status => do
    let e ← svList[i]?
    let status ← reportEntry status i e
    svLoop svList n (i + 1) status

def numSvsMax (report : GnssInfo) : Nat :=
  if has report.validMask validSvCount then min report.svCount.toNat gpsMaxSvs else 0

def svStatus (report : GnssInfo) : Option SvStatus :=
  if has report.validMask validSvList then svLoop report.svList (numSvsMax report) 0 {}
  else some {}

/-- `loc_eng_report_sv`: the status that the callback is given, if there is one. -/
def locEngReportSv (callback : Bool) (report : GnssInfo) : Option (Option SvStatus) :=
  (svStatus report).map fun status =>
    if status.svList.length ≠ 0 ∧ callback then some status else none

/-! ## 3. A round -/

section Round

variable {status status' : SvStatus} {e : SvInfo} {i : Nat} {mask mask' : BitVec 32} {flag : Bool}

/-- The systems that are reported. -/
def SvInfo.Supported (e : SvInfo) : Prop :=
  has e.validMask validSystem = true ∧ (e.system = .gps ∨ e.system = .sbas ∨ e.system = .glonass)

instance (e : SvInfo) : Decidable e.Supported := inferInstanceAs (Decidable (_ ∧ _))

/-- The number the framework knows a satellite by. -/
def SvInfo.nmeaPrn (e : SvInfo) : Int :=
  match e.system with
  | .gps => e.prn.toNat
  | .sbas => e.prn.toNat + 33 - 120
  | _ => e.prn.toNat + (65 - 1)

/-- The slot of a supported entry. -/
def SvInfo.slot (e : SvInfo) (i : Nat) : SvSlot :=
  Sv.slot i e (if e.system = .gps then sizeofSvStatus else 0) e.nmeaPrn

/-- The bits of a GPS entry are in the masks. -/
def SvInfo.Fits (e : SvInfo) : Prop :=
  e.isGps = true → ∀ m, e.carries m = true → 1 ≤ e.prn.toNat ∧ e.prn.toNat ≤ 32

/-- The slot an entry gets, if any. -/
def entrySlot (i : Nat) (e : SvInfo) : Option SvSlot :=
  if has e.validMask validSystem then if e.Supported then some (e.slot i) else none
  else some (slot i e 0 0)

theorem entrySlot_supported (h : e.Supported) : entrySlot i e = some (e.slot i) := by
  rw [entrySlot, if_pos h.1, if_pos h]

theorem entrySlot_unnamed (h : ¬ has e.validMask validSystem = true) :
    entrySlot i e = some (slot i e 0 0) :=
  if_neg h

theorem entrySlot_source {s : SvSlot} (h : entrySlot i e = some s) : s.source = i := by
  unfold entrySlot at h
  split at h
  · split at h
    · cases h
      rfl
    · cases h
  · cases h
    rfl

theorem setBit_eq_some {prn : UInt8} (h : setBit mask flag prn = some mask') :
    (flag = true → 1 ≤ prn.toNat ∧ prn.toNat ≤ 32) ∧
      ∀ k, mask'.getLsbD k = (mask.getLsbD k || (flag && prn.toNat == k + 1)) := by
  unfold setBit at h
  split at h
  · next hflag =>
      split at h
      · next hprn =>
          cases h
          refine ⟨fun _ => hprn, fun k => ?_⟩
          have hsame : (prn.toNat - 1 = k) ↔ prn.toNat = k + 1 := by omega
          rw [BitVec.getLsbD_or, BitVec.getLsbD_twoPow, hflag, Bool.true_and,
            decide_eq_true (show prn.toNat - 1 < 32 by omega), Bool.true_and]
          simp only [hsame, beq_eq_decide]
      · cases h
  · next hflag =>
      cases h
      refine ⟨fun h => absurd h hflag, fun k => ?_⟩
      rw [eq_false_of_ne_true hflag, Bool.false_and, Bool.or_false]

theorem exists_setBit {prn : UInt8} (h : flag = true → 1 ≤ prn.toNat ∧ prn.toNat ≤ 32) :
    ∃ mask', setBit mask flag prn = some mask' := by
  unfold setBit
  split
  · next hflag => exact ⟨_, if_pos (h hflag)⟩
  · exact ⟨_, rfl⟩

/-- What a round does. -/
structure Added (status status' : SvStatus) (i : Nat) (e : SvInfo) : Prop where
  fits : e.Fits
  slots : status'.svList = status.svList ++ (entrySlot i e).toList
  masks : ∀ m k, (status'.mask m).getLsbD k =
    ((status.mask m).getLsbD k || (e.isGps && e.carries m && e.prn.toNat == k + 1))

theorem push_eq_some {s : SvSlot} (h : push status s = some status') :
    status'.svList = status.svList ++ [s] ∧ status'.mask = status.mask := by
  unfold push at h
  split at h
  · cases h
    exact ⟨rfl, funext fun m => by cases m <;> rfl⟩
  · cases h

theorem exists_push {s : SvSlot} (h : status.svList.length < gpsMaxSvs) :
    ∃ status', push status s = some status' :=
  ⟨_, if_pos h⟩

/-- A round for an entry that is not a GPS one. -/
theorem Added.of_not_gps (hgps : e.isGps = false)
    (hslots : status'.svList = status.svList ++ (entrySlot i e).toList)
    (hmasks : status'.mask = status.mask) : Added status status' i e where
  fits := fun h => by rw [hgps] at h; cases h
  slots := hslots
  masks := fun m k => by rw [hmasks, hgps, Bool.false_and, Bool.false_and, Bool.or_false]

/-- A round for an SBAS or GLONASS entry. -/
theorem Added.of_push {s : SvSlot} (hgps : e.isGps = false) (hsupported : e.Supported)
    (hslot : s = e.slot i) (h : push status s = some status') : Added status status' i e := by
  obtain ⟨hlist, hmask⟩ := push_eq_some h
  refine Added.of_not_gps hgps ?_ hmask
  rw [hlist, entrySlot_supported hsupported, hslot]
  rfl

theorem reportEntry_added (h : reportEntry status i e = some status') :
    Added status status' i e := by
  unfold reportEntry at h
  split at h
  · next hsystem =>
      split at h
      · next hgps =>
          have hsupported : e.Supported := ⟨hsystem, Or.inl hgps⟩
          simp only [Option.bind_eq_bind, Option.bind_eq_some_iff] at h
          obtain ⟨eph, heph, alm, halm, used, hused, hpush⟩ := h
          obtain ⟨hlist, hmask⟩ := push_eq_some hpush
          have hisGps : e.isGps = true := by rw [SvInfo.isGps, hsystem, hgps]; rfl
          refine ⟨fun _ m => ?_, ?_, fun m k => ?_⟩
          · cases m with
            | ephemeris => exact (setBit_eq_some heph).1
            | almanac => exact (setBit_eq_some halm).1
            | usedInFix => exact (setBit_eq_some hused).1
          · rw [hlist, entrySlot_supported hsupported, SvInfo.slot, SvInfo.nmeaPrn, if_pos hgps,
              hgps]
            rfl
          · rw [hmask, hisGps, Bool.true_and]
            cases m with
            | ephemeris => exact (setBit_eq_some heph).2 k
            | almanac => exact (setBit_eq_some halm).2 k
            | usedInFix => exact (setBit_eq_some hused).2 k
      · next hsbas =>
          refine Added.of_push ?_ ⟨hsystem, Or.inr (Or.inl hsbas)⟩ ?_ h
          · rw [SvInfo.isGps, hsbas]
            simp
          · rw [SvInfo.slot, SvInfo.nmeaPrn, hsbas]
            rfl
      · next hglonass =>
          refine Added.of_push ?_ ⟨hsystem, Or.inr (Or.inr hglonass)⟩ ?_ h
          · rw [SvInfo.isGps, hglonass]
            simp
          · rw [SvInfo.slot, SvInfo.nmeaPrn, hglonass]
            rfl
      · next hgps hsbas hglonass =>
          have hunsupported : ¬ e.Supported := fun h => h.2.elim hgps (·.elim hsbas hglonass)
          have hisGps : e.isGps = false := by
            rw [SvInfo.isGps, beq_false_of_ne hgps, Bool.and_false]
          cases h
          refine Added.of_not_gps hisGps ?_ rfl
          rw [entrySlot, if_pos hsystem, if_neg hunsupported]
          exact (List.append_nil _).symm
  · next hsystem =>
      obtain ⟨hlist, hmask⟩ := push_eq_some h
      refine Added.of_not_gps (by rw [SvInfo.isGps]; simp [hsystem]) ?_ hmask
      rw [hlist, entrySlot_unnamed hsystem]
      rfl

theorem exists_reportEntry (hfits : e.Fits) (hroom : status.svList.length < gpsMaxSvs) :
    ∃ status', reportEntry status i e = some status' := by
  unfold reportEntry
  split
  · next hsystem =>
      split
      · next hgps =>
          have hisGps : e.isGps = true := by rw [SvInfo.isGps, hsystem, hgps]; rfl
          have hbit : ∀ m mask, ∃ mask', setBit mask (e.carries m) e.prn = some mask' :=
            fun m _ => exists_setBit (hfits hisGps m)
          obtain ⟨eph, heph⟩ := hbit .ephemeris status.ephemerisMask
          obtain ⟨alm, halm⟩ := hbit .almanac status.almanacMask
          obtain ⟨used, hused⟩ := hbit .usedInFix status.usedInFixMask
          simp only [heph, halm, hused, Option.bind_eq_bind, Option.bind_some]
          exact exists_push hroom
      · exact exists_push hroom
      · exact exists_push hroom
      · exact ⟨_, rfl⟩
  · exact exists_push hroom

end Round

/-! ## 4. The loop -/

section Loop

variable {svList : List SvInfo} {n m : Nat} {status status' : SvStatus} {e : SvInfo}

/-- What holds after the first `n` entries. -/
structure Built (svList : List SvInfo) (n : Nat) (status : SvStatus) : Prop where
  read : ∀ i < n, ∃ e, svList[i]? = some e ∧ e.Fits
  bounded : status.svList.length ≤ n
  ordered : status.svList.Pairwise (·.source < ·.source)
  sound : ∀ s ∈ status.svList, s.source < n ∧
    ∃ e, svList[s.source]? = some e ∧ entrySlot s.source e = some s
  complete : ∀ i < n, ∀ e, svList[i]? = some e → ∀ s, entrySlot i e = some s → s ∈ status.svList
  masks : ∀ m k, (status.mask m).getLsbD k = true ↔ ∃ i < n, ∃ e, svList[i]? = some e ∧
    e.isGps = true ∧ e.carries m = true ∧ e.prn.toNat = k + 1

theorem Built.start : Built svList 0 {} where
  read := fun i hi => absurd hi (Nat.not_lt_zero i)
  bounded := Nat.le_refl 0
  ordered := List.Pairwise.nil
  sound := fun s hs => (List.not_mem_nil hs).elim
  complete := fun i hi => absurd hi (Nat.not_lt_zero i)
  masks := fun m k => by
    have hzero : (({} : SvStatus).mask m).getLsbD k = false := by
      cases m <;> exact BitVec.getLsbD_zero
    rw [hzero]
    exact ⟨fun h => absurd h Bool.false_ne_true, fun ⟨i, hi, _⟩ => absurd hi (Nat.not_lt_zero i)⟩

/-- **The next entry.** -/
theorem Built.add (hb : Built svList n status) (he : svList[n]? = some e)
    (ha : Added status status' n e) : Built svList (n + 1) status' where
  read := fun i hi => by
    rcases Nat.lt_succ_iff_lt_or_eq.mp hi with hi | rfl
    · exact hb.read i hi
    · exact ⟨e, he, ha.fits⟩
  bounded := by
    have hone : (entrySlot n e).toList.length ≤ 1 := by cases entrySlot n e <;> simp
    have hbounded := hb.bounded
    rw [ha.slots, List.length_append]
    omega
  ordered := by
    rw [ha.slots]
    refine List.pairwise_append.mpr ⟨hb.ordered, ?_, fun s hs t ht => ?_⟩
    · cases entrySlot n e <;> simp
    · rw [entrySlot_source (Option.mem_toList.mp ht)]
      exact (hb.sound s hs).1
  sound := fun s hs => by
    rw [ha.slots] at hs
    rcases List.mem_append.mp hs with hs | hs
    · obtain ⟨hlt, hsource⟩ := hb.sound s hs
      exact ⟨Nat.lt_succ_of_lt hlt, hsource⟩
    · have hslot : entrySlot n e = some s := Option.mem_toList.mp hs
      rw [entrySlot_source hslot]
      exact ⟨Nat.lt_succ_self n, e, he, hslot⟩
  complete := fun i hi e' he' s hs => by
    rw [ha.slots]
    rcases Nat.lt_succ_iff_lt_or_eq.mp hi with hi | rfl
    · exact List.mem_append_left _ (hb.complete i hi e' he' s hs)
    · rw [he] at he'
      cases he'
      exact List.mem_append_right _ (Option.mem_toList.mpr hs)
  masks := fun m k => by
    rw [ha.masks, Bool.or_eq_true, hb.masks, Bool.and_eq_true, Bool.and_eq_true, beq_iff_eq]
    constructor
    · rintro (⟨i, hi, h⟩ | ⟨⟨hgps, hflag⟩, hprn⟩)
      · exact ⟨i, Nat.lt_succ_of_lt hi, h⟩
      · exact ⟨n, Nat.lt_succ_self n, e, he, hgps, hflag, hprn⟩
    · rintro ⟨i, hi, e', he', hgps, hflag, hprn⟩
      rcases Nat.lt_succ_iff_lt_or_eq.mp hi with hi | rfl
      · exact Or.inl ⟨i, hi, e', he', hgps, hflag, hprn⟩
      · rw [he] at he'
        cases he'
        exact Or.inr ⟨⟨hgps, hflag⟩, hprn⟩

theorem Built.loop (hb : Built svList n status) (h : svLoop svList m n status = some status') :
    Built svList (n + m) status' := by
  induction m generalizing n status with
  | zero =>
      cases h
      exact hb
  | succ m ih =>
      simp only [svLoop, Option.bind_eq_bind, Option.bind_eq_some_iff] at h
      obtain ⟨e, he, next, hnext, hloop⟩ := h
      have hdone := ih (hb.add he (reportEntry_added hnext)) hloop
      rwa [Nat.add_right_comm, Nat.add_assoc] at hdone

/-- The loop comes to its end where every entry is there and its bits are in the masks. -/
theorem Built.exists_loop (hb : Built svList n status) (hroom : n + m ≤ gpsMaxSvs)
    (hread : ∀ i < n + m, ∃ e, svList[i]? = some e ∧ e.Fits) :
    ∃ status', svLoop svList m n status = some status' := by
  induction m generalizing n status with
  | zero => exact ⟨status, rfl⟩
  | succ m ih =>
      obtain ⟨e, he, hfits⟩ := hread n (by omega)
      have hlength := hb.bounded
      obtain ⟨next, hnext⟩ :=
        exists_reportEntry (i := n) hfits (show status.svList.length < gpsMaxSvs by omega)
      obtain ⟨status', hloop⟩ := ih (hb.add he (reportEntry_added hnext)) (by omega)
        (fun i hi => hread i (by omega))
      refine ⟨status', ?_⟩
      rw [svLoop, he, Option.bind_eq_bind, Option.bind_some, hnext, Option.bind_eq_bind,
        Option.bind_some, hloop]

end Loop

/-! ## 5. The report as a whole -/

/-- The status is an ordered selection of the GPS, SBAS and GLONASS entries of the report, of which
    there are not too many, with all of those that the count covers; and its masks have the bits of
    the GPS ones among them. -/
structure Selection (report : GnssInfo) (status : SvStatus) : Prop where
  bounded : status.svList.length ≤ gpsMaxSvs
  ordered : status.svList.Pairwise (·.source < ·.source)
  entries : ∀ s ∈ status.svList, ∃ e, report.svList[s.source]? = some e ∧ e.Supported ∧
    s = e.slot s.source
  complete : has report.validMask validSvList = true → has report.validMask validSvCount = true →
    ∀ i < 32, i < report.svCount.toNat → ∀ e, report.svList[i]? = some e → e.Supported →
      e.slot i ∈ status.svList
  masks : ∀ m p, 1 ≤ p → ((status.mask m).getLsbD (p - 1) = true ↔
    ∃ s ∈ status.svList, ∃ e, report.svList[s.source]? = some e ∧ e.isGps = true ∧
      e.prn.toNat = p ∧ e.carries m = true)

/-- The report is made without a read behind the list, and is such a selection. -/
def Exact (report : GnssInfo) : Prop :=
  ∃ status, svStatus report = some status ∧ Selection report status

/-- The list has every entry that the count announces, up to 32, each of them names its system, and
    the numbers of flagged GPS ones are from 1 to 32. -/
def Announced (report : GnssInfo) : Prop :=
  has report.validMask validSvList = true → has report.validMask validSvCount = true →
    ∀ i < 32, i < report.svCount.toNat →
      ∃ e, report.svList[i]? = some e ∧ has e.validMask validSystem = true ∧ e.Fits

theorem isGps_supported {e : SvInfo} (h : e.isGps = true) : e.Supported := by
  obtain ⟨hsystem, hgps⟩ := Bool.and_eq_true_iff.mp h
  exact ⟨hsystem, Or.inl (beq_iff_eq.mp hgps)⟩

/-- The rounds of the loop. -/
def rounds (report : GnssInfo) : Nat :=
  if has report.validMask validSvList then numSvsMax report else 0

theorem rounds_le (report : GnssInfo) : rounds report ≤ gpsMaxSvs := by
  unfold rounds numSvsMax
  split
  · split <;> omega
  · omega

theorem lt_rounds {report : GnssInfo} {i : Nat} :
    i < rounds report ↔ has report.validMask validSvList = true ∧
      has report.validMask validSvCount = true ∧ i < 32 ∧ i < report.svCount.toNat := by
  unfold rounds numSvsMax gpsMaxSvs
  by_cases hlist : has report.validMask validSvList = true
  · by_cases hcount : has report.validMask validSvCount = true
    · simp only [hlist, hcount, if_true, true_and]
      omega
    · simp [hlist, hcount]
  · simp [hlist]

theorem svStatus_eq (report : GnssInfo) :
    svStatus report = svLoop report.svList (rounds report) 0 {} := by
  unfold svStatus rounds
  split <;> rfl

theorem svStatus_built {report : GnssInfo} {status : SvStatus}
    (h : svStatus report = some status) : Built report.svList (rounds report) status := by
  rw [svStatus_eq] at h
  have hbuilt := Built.start.loop h
  rwa [Nat.zero_add] at hbuilt

theorem Announced.read {report : GnssInfo} (h : Announced report) {i : Nat}
    (hi : i < rounds report) :
    ∃ e, report.svList[i]? = some e ∧ has e.validMask validSystem = true ∧ e.Fits := by
  obtain ⟨hlist, hcount, hlt, hlt'⟩ := lt_rounds.mp hi
  exact h hlist hcount i hlt hlt'

theorem Announced.exists_svStatus {report : GnssInfo} (h : Announced report) :
    ∃ status, svStatus report = some status := by
  rw [svStatus_eq]
  refine Built.start.exists_loop ?_ (fun i hi => ?_)
  · rw [Nat.zero_add]
    exact rounds_le report
  · rw [Nat.zero_add] at hi
    obtain ⟨e, he, -, hfits⟩ := h.read hi
    exact ⟨e, he, hfits⟩

theorem Announced.selection {report : GnssInfo} {status : SvStatus} (h : Announced report)
    (hbuilt : Built report.svList (rounds report) status) : Selection report status where
  bounded := Nat.le_trans hbuilt.bounded (rounds_le report)
  ordered := hbuilt.ordered
  entries := fun s hs => by
    obtain ⟨hlt, e, he, hslot⟩ := hbuilt.sound s hs
    obtain ⟨e', he', hsystem, -⟩ := h.read hlt
    rw [he] at he'
    cases he'
    have hsupported : e.Supported := by
      by_contra hunsupported
      rw [entrySlot, if_pos hsystem, if_neg hunsupported] at hslot
      cases hslot
    rw [entrySlot_supported hsupported] at hslot
    exact ⟨e, he, hsupported, (Option.some.inj hslot).symm⟩
  complete := fun hlist hcount i hi hi' e he hsupported =>
    hbuilt.complete i (lt_rounds.mpr ⟨hlist, hcount, hi, hi'⟩) e he _
      (entrySlot_supported hsupported)
  masks := fun m p hp => by
    rw [hbuilt.masks, show p - 1 + 1 = p by omega]
    constructor
    · rintro ⟨i, hi, e, he, hgps, hflag, hprn⟩
      have hslot := entrySlot_supported (i := i) (isGps_supported hgps)
      exact ⟨e.slot i, hbuilt.complete i hi e he _ hslot, e, he, hgps, hprn, hflag⟩
    · rintro ⟨s, hs, e, he, hgps, hprn, hflag⟩
      exact ⟨s.source, (hbuilt.sound s hs).1, e, he, hgps, hflag, hprn⟩

/-- What the callback is given is such a selection, and it is not called for an empty one. -/
theorem Announced.callback {report : GnssInfo} {status : SvStatus} {given : Bool}
    (h : Announced report) (hcall : locEngReportSv given report = some (some status)) :
    Selection report status ∧ status.svList ≠ [] := by
  unfold locEngReportSv at hcall
  obtain ⟨told, htold, heq⟩ := Option.map_eq_some_iff.mp hcall
  split at heq
  · next hgiven =>
      cases heq
      exact ⟨h.selection (svStatus_built htold), List.ne_nil_of_length_pos (by omega)⟩
  · cases heq

/-- **The report is right just for the reports of the modem that keep to their count.** -/
theorem exact_iff (report : GnssInfo) : Exact report ↔ Announced report := by
  constructor
  · rintro ⟨status, hstatus, hselection⟩ hlist hcount i hi hi'
    have hbuilt := svStatus_built hstatus
    have hlt : i < rounds report := lt_rounds.mpr ⟨hlist, hcount, hi, hi'⟩
    obtain ⟨e, he, hfits⟩ := hbuilt.read i hlt
    refine ⟨e, he, ?_, hfits⟩
    -- an entry without a system has a slot too, which no supported entry is the source of
    by_contra hsystem
    have hmem := hbuilt.complete i hlt e he _ (entrySlot_unnamed hsystem)
    obtain ⟨e', he', hsupported, -⟩ := hselection.entries _ hmem
    rw [show (slot i e 0 0).source = i from rfl, he] at he'
    cases he'
    exact hsystem hsupported.1
  · intro h
    obtain ⟨status, hstatus⟩ := h.exists_svStatus
    exact ⟨status, hstatus, h.selection (svStatus_built hstatus)⟩

/-- A GPS entry with an ephemeris. -/
def gpsEntry (prn : UInt8) : SvInfo := ⟨0x13, .gps, prn, .idle, 1, 0, 0, 0, 0⟩

/-- A count of 2 and one entry: the second is read behind the list. -/
def shortList : GnssInfo := ⟨0x30, 2, [gpsEntry 7]⟩

/-- An entry that does not name its system: the framework is told of a satellite 0. -/
def unnamedSystem : GnssInfo := ⟨0x30, 1, [⟨0x102, .gps, 7, .idle, 0, 0, 0, 0, 41⟩]⟩

/-- A GPS number that no mask has a bit for. -/
def numberForty : GnssInfo := ⟨0x30, 1, [gpsEntry 40]⟩

theorem not_exact_of_none {report : GnssInfo} (h : svStatus report = none) : ¬ Exact report := by
  rintro ⟨status, hstatus, -⟩
  rw [h] at hstatus
  cases hstatus

theorem reports_not_exact :
    ¬ Exact shortList ∧ ¬ Exact unnamedSystem ∧ ¬ Exact numberForty := by
  refine ⟨not_exact_of_none (by decide), ?_, not_exact_of_none (by decide)⟩
  rintro ⟨status, hstatus, hselection⟩
  have htold : svStatus unnamedSystem = some { svList := [⟨0, 0, 41, 0, 0, 0⟩] } := by decide
  rw [htold] at hstatus
  cases hstatus
  obtain ⟨e, he, hsupported, -⟩ := hselection.entries _ (List.mem_singleton.mpr rfl)
  cases he
  exact absurd hsupported (by decide)

end Y210.Gps.Sv

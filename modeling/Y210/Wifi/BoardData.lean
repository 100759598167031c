/-
  File:      Y210/Wifi/BoardData.lean
  Subject:   THE BOARD DATA the AR6003 driver sends to the chip (`ar6000_drv.c`): the power
             correction of this unit, and the checksum behind it.

  * `boardSizes` -- how `ar6000_transfer_bin_file` divides the file;
  * `tuneEntry`, `calPowerTuned` -- the correction (`ar6000_cal_powerTuned`);
  * `power_tuned` -- what changes by it, and that the checksum is right after it.

  An access out of the file has no result.
-/
import Mathlib.Algebra.Group.Int.Defs
import Y210.Lib.Halfwords

namespace Y210.Wifi

open Y210.Lib

/-! ## 1. The driver's state, the sizes -/

inductive TargetType
  | ar6001
  | ar6002
  | ar6003
  | mckinley
  | other
  deriving DecidableEq, Repr

structure Softc where
  targetType : TargetType
  /-- `arVersion.target_ver == AR6003_REV2_VERSION`. -/
  rev2 : Bool
  /-- The module's parameter. -/
  needPowerTuned : Nat
  deriving DecidableEq, Repr

/-- `board_data_size` and `board_ext_data_size` for a file of `size` bytes. -/
def boardSizes (ar : Softc) (size : Nat) : Nat × Nat :=
  let board := match ar.targetType with
    | .ar6002 => 768
    | .ar6003 => 1024
    | _ => 0
  let ext := match ar.targetType with
    | .ar6003 => if ar.rev2 then 768 else 1024
    | _ => 0
  -- 1792 bytes for 2.1.1; a size below that of the board data gives 0
  if ext ≠ 0 ∧ size < board + ext then (board, size - board) else (board, ext)

theorem boardSizes_2048 {ar : Softc} (htype : ar.targetType = .ar6003) (hrev : ar.rev2 = false) :
    boardSizes ar 2048 = (1024, 1024) := by
  simp [boardSizes, htype, hrev]

/-! ## 2. The power correction -/

/-- An `int` stored in an `A_UCHAR`. -/
def uchar (n : Int) : UInt8 := UInt8.ofNat (n % 2 ^ 8).toNat

/-- `static const int entry[3]`. -/
def entry : Nat → Nat
  | 0 => 0x5f0
  | 1 => 0x5fe
  | _ => 0x60c

/-- `A_INT8 d[6]`, the first bytes of the file. -/
def tuning (file : List UInt8) (i : Nat) : Int := (byte file i).toInt8.toInt

/-- One round of the loop. -/
def tuneEntry (d : Nat → Int) (eeprom : List UInt8) (i : Nat) : Option (List UInt8) := do
  let e := entry i
  let e0 ← eeprom[e]?
  let eeprom ← setByte eeprom e (uchar (e0.toNat - d (2 * i)))
  let e1 ← eeprom[e + 1]?
  let eeprom ← setByte eeprom (e + 1) (uchar (e1.toNat - d (2 * i + 1)))
  let e4 ← eeprom[e + 4]?
  let e5 ← eeprom[e + 5]?
  putHalfword eeprom (e + 4) (BitVec.ofInt 16 ((halfword e4 e5).toNat + -5 * d (2 * i)))

/-- The entries and then the checksum of the extended data. -/
def applyTuning (d : Nat → Int) (eeprom : List UInt8) (boardSize extSize : Nat) :
    Option (List UInt8) := do
  let eeprom ← [0, 1, 2].foldlM (tuneEntry d) eeprom
  rechecksum (~~~ ·) eeprom boardSize ((extSize + 1) / 2) (boardSize + 0x2fe)

/-- `ar6000_cal_powerTuned`, with what the request for the file with the corrections gives. -/
def calPowerTuned (ar : Softc) (request : Option (List UInt8)) (eeprom : List UInt8)
    (size boardSize extSize : Nat) : Option (List UInt8) :=
  if ar.needPowerTuned = 0 ∨ ar.targetType ≠ .ar6003 ∨ size ≠ 2048 ∨
      boardSize + extSize ≠ 2048 then some eeprom
  else match request with
    | none => some eeprom
    | some file =>
      if file.length < 6 then some eeprom
      else applyTuning (tuning file) eeprom boardSize extSize

/-! ## 3. What a round changes -/

section Rounds

variable {d : Nat → Int} {before after eeprom : List UInt8} {i k : Nat}

theorem toNat_uchar (n : Int) : ((uchar n).toNat : Int) = n % 2 ^ 8 := by
  rw [uchar, UInt8.toNat_ofNat']
  omega

/-- A byte that no round for `i` writes. -/
def Apart (i k : Nat) : Prop :=
  k ≠ entry i ∧ k ≠ entry i + 1 ∧ k ≠ entry i + 4 ∧ k ≠ entry i + 5

/-- The 16-bit field at a byte. -/
def field (eeprom : List UInt8) (k : Nat) : Int :=
  (byte eeprom k).toNat + (byte eeprom (k + 1)).toNat * 2 ^ 8

/-- The entry `i` of `after` is that of `before`, corrected. -/
structure Corrected (d : Nat → Int) (before after : List UInt8) (i : Nat) : Prop where
  first : ((byte after (entry i)).toNat : Int) =
    ((byte before (entry i)).toNat - d (2 * i)) % 2 ^ 8
  second : ((byte after (entry i + 1)).toNat : Int) =
    ((byte before (entry i + 1)).toNat - d (2 * i + 1)) % 2 ^ 8
  word : field after (entry i + 4) = (field before (entry i + 4) - 5 * d (2 * i)) % 2 ^ 16

theorem field_eq_halfword (eeprom : List UInt8) (k : Nat) :
    field eeprom k = (halfword (byte eeprom k) (byte eeprom (k + 1))).toNat := by
  rw [toNat_halfword, field]
  omega

theorem field_setHalfword {v : BitVec 16} (h : k + 1 < eeprom.length) :
    field (setHalfword eeprom k v) k = v.toNat := by
  have hsecond : k + 1 < (eeprom.set k (lowByte v)).length := by rwa [List.length_set]
  rw [field_eq_halfword, setHalfword, byte_set_self hsecond,
    byte_set_of_ne (show k + 1 ≠ k by omega), byte_set_self (by omega),
    halfword_lowByte_highByte]

/-- **A round corrects its entry** and leaves the rest. -/
theorem tuneEntry_spec (h : entry i + 5 < eeprom.length) :
    ∃ after, tuneEntry d eeprom i = some after ∧ after.length = eeprom.length ∧
      Corrected d eeprom after i ∧ ∀ k, Apart i k → byte after k = byte eeprom k := by
  generalize hfirst : uchar ((byte eeprom (entry i)).toNat - d (2 * i)) = b₀
  generalize hsecond : uchar ((byte eeprom (entry i + 1)).toNat - d (2 * i + 1)) = b₁
  generalize hpair : (eeprom.set (entry i) b₀).set (entry i + 1) b₁ = pair
  have hlength : pair.length = eeprom.length := by
    rw [← hpair, List.length_set, List.length_set]
  have hrest : ∀ k, k ≠ entry i → k ≠ entry i + 1 → byte pair k = byte eeprom k := by
    intro k hk hk'
    rw [← hpair, byte_set_of_ne (Ne.symm hk'), byte_set_of_ne (Ne.symm hk)]
  have hnext : byte (eeprom.set (entry i) b₀) (entry i + 1) = byte eeprom (entry i + 1) :=
    byte_set_of_ne (by omega)
  have hfield : field pair (entry i + 4) = field eeprom (entry i + 4) := by
    rw [field, field, hrest _ (by omega) (by omega), hrest _ (by omega) (by omega)]
  refine ⟨setHalfword pair (entry i + 4)
    (BitVec.ofInt 16 (field pair (entry i + 4) + -5 * d (2 * i))), ?_, ?_, ?_, ?_⟩
  · simp only [tuneEntry, Option.bind_eq_bind]
    rw [getElem?_eq_byte (by omega), Option.bind_some, hfirst, setByte_eq (by omega),
      Option.bind_some, getElem?_eq_byte (by rw [List.length_set]; omega), Option.bind_some, hnext,
      hsecond, setByte_eq (by rw [List.length_set]; omega), Option.bind_some, hpair,
      getElem?_eq_byte (by omega), Option.bind_some, getElem?_eq_byte (by omega),
      Option.bind_some, ← field_eq_halfword, putHalfword_eq (by omega)]
  · rw [length_setHalfword, hlength]
  · constructor
    · rw [byte_setHalfword (by omega) (by omega), ← hpair, byte_set_of_ne (by omega),
        byte_set_self (by omega), ← hfirst, toNat_uchar]
    · rw [byte_setHalfword (by omega) (by omega), ← hpair,
        byte_set_self (by rw [List.length_set]; omega), ← hsecond, toNat_uchar]
    · rw [field_setHalfword (by omega), BitVec.toNat_ofInt, hfield]
      omega
  · intro k hk
    rw [byte_setHalfword hk.2.2.1 hk.2.2.2, hrest k hk.1 hk.2.1]

/-- Entries that do not overlap. -/
def Far (i j : Nat) : Prop := entry i + 6 ≤ entry j ∨ entry j + 6 ≤ entry i

instance : DecidableRel Far := fun i j =>
  inferInstanceAs (Decidable (entry i + 6 ≤ entry j ∨ entry j + 6 ≤ entry i))

theorem Far.apart {j : Nat} (h : Far i j) (hk : entry i ≤ k) (hk' : k < entry i + 6) :
    Apart j k := by
  unfold Far at h
  unfold Apart
  omega

theorem Corrected.congr {before' after' : List UInt8} (h : Corrected d before after i)
    (hbefore : ∀ k, entry i ≤ k → k < entry i + 6 → byte before' k = byte before k)
    (hafter : ∀ k, entry i ≤ k → k < entry i + 6 → byte after' k = byte after k) :
    Corrected d before' after' i := by
  have hfield : field before' (entry i + 4) = field before (entry i + 4) := by
    rw [field, field, hbefore _ (by omega) (by omega), hbefore _ (by omega) (by omega)]
  have hfield' : field after' (entry i + 4) = field after (entry i + 4) := by
    rw [field, field, hafter _ (by omega) (by omega), hafter _ (by omega) (by omega)]
  constructor
  · rw [hafter _ (by omega) (by omega), hbefore _ (by omega) (by omega), h.first]
  · rw [hafter _ (by omega) (by omega), hbefore _ (by omega) (by omega), h.second]
  · rw [hfield', hfield, h.word]

/-- **The loop corrects every entry** that it comes to, and leaves the rest. -/
theorem tune_run : ∀ (is : List Nat) (eeprom : List UInt8), is.Pairwise Far →
    (∀ i ∈ is, entry i + 5 < eeprom.length) →
    ∃ after, is.foldlM (tuneEntry d) eeprom = some after ∧ after.length = eeprom.length ∧
      (∀ i ∈ is, Corrected d eeprom after i) ∧
      ∀ k, (∀ i ∈ is, Apart i k) → byte after k = byte eeprom k
  | [], eeprom, _, _ => ⟨eeprom, rfl, rfl, fun _ hi => (List.not_mem_nil hi).elim, fun _ _ => rfl⟩
  | i :: is, eeprom, hfar, hroom => by
      obtain ⟨hfar, hfars⟩ := List.pairwise_cons.mp hfar
      obtain ⟨first, hfirst, hlength, hcorrected, hrest⟩ :=
        tuneEntry_spec (d := d) (hroom i List.mem_cons_self)
      obtain ⟨after, hafter, hlength', hcorrected', hrest'⟩ := tune_run is first hfars
        (fun j hj => by rw [hlength]; exact hroom j (List.mem_cons_of_mem i hj))
      refine ⟨after, ?_, hlength'.trans hlength, ?_, ?_⟩
      · rw [List.foldlM_cons, hfirst, Option.bind_eq_bind, Option.bind_some, hafter]
      · intro j hj
        rcases List.mem_cons.mp hj with rfl | hj
        · -- the later rounds leave the entry of the first
          refine hcorrected.congr (fun k _ _ => rfl) (fun k hk hk' => ?_)
          exact hrest' k (fun j' hj' => (hfar j' hj').apart hk hk')
        · refine (hcorrected' j hj).congr (fun k hk hk' => ?_) (fun k _ _ => rfl)
          exact (hrest k (Far.apart (hfar j hj).symm hk hk')).symm
      · intro k hk
        rw [hrest' k (fun j hj => hk j (List.mem_cons_of_mem i hj)),
          hrest k (hk i List.mem_cons_self)]

end Rounds

/-! ## 4. The correction as a whole -/

/-- The checksum's two bytes in a file of 1024 and 1024 bytes. -/
def checksumAt : Nat := 1024 + 0x2fe

/-- What the six corrections `d` make of a file of 1024 and 1024 bytes. -/
structure Tuned (d : Nat → Int) (before after : List UInt8) : Prop where
  length : after.length = 2048
  /-- The board data is as before. -/
  board : after.take 1024 = before.take 1024
  /-- The XOR of the words of the extended data. -/
  checksum : xorAll (halfwords (after.drop 1024)) = 0xFFFF#16
  entries : ∀ i < 3, Corrected d before after i
  rest : ∀ k, (∀ i < 3, Apart i k) → k ≠ checksumAt → k ≠ checksumAt + 1 →
    byte after k = byte before k

theorem take_eq_of_byte {before after : List UInt8} {n : Nat} (hbefore : n ≤ before.length)
    (hafter : n ≤ after.length) (h : ∀ k < n, byte after k = byte before k) :
    after.take n = before.take n := by
  refine List.ext_getElem? (fun k => ?_)
  rw [List.getElem?_take, List.getElem?_take]
  split
  · next hk => rw [getElem?_eq_byte (by omega), getElem?_eq_byte (by omega), h k hk]
  · rfl

theorem xor_all_ones (s : BitVec 16) : s ^^^ (0xFFFF#16 ^^^ s) = 0xFFFF#16 := by
  rw [BitVec.xor_comm, BitVec.xor_assoc, BitVec.xor_self, BitVec.xor_zero]

theorem xor_not_self (s : BitVec 16) : s ^^^ ~~~s = 0xFFFF#16 := by
  rw [BitVec.not_def]
  exact xor_all_ones s

theorem part_all {cells : List UInt8} (h : cells.length = 2048) :
    part cells 1024 512 = halfwords (cells.drop 1024) := by
  rw [part, List.take_of_length_le]
  rw [List.length_drop]
  omega

theorem entry_bounds (i : Nat) : 0x5f0 ≤ entry i ∧ entry i ≤ 0x60c := by
  unfold entry
  split <;> omega

theorem applyTuning_spec (d : Nat → Int) {eeprom : List UInt8} (hsize : eeprom.length = 2048) :
    ∃ after, applyTuning d eeprom 1024 1024 = some after ∧ Tuned d eeprom after := by
  have hfar : [0, 1, 2].Pairwise Far := by decide
  obtain ⟨tuned, htuned, hlength, hcorrected, hrest⟩ :=
    tune_run (d := d) [0, 1, 2] eeprom hfar (fun i _ => by have := entry_bounds i; omega)
  have hroom : 1024 + 2 * 512 ≤ tuned.length := by omega
  obtain ⟨after, hafter, hlength', hxor, hrest'⟩ :=
    rechecksum_spec xor_not_self (show 0x17f < 512 by omega) hroom
  have hentries : ∀ i ∈ [0, 1, 2], i < 3 := by decide
  refine ⟨after, ?_, hlength'.trans (hlength.trans hsize), ?_, ?_, ?_, ?_⟩
  · rw [applyTuning, htuned, Option.bind_eq_bind, Option.bind_some]
    exact hafter
  · refine take_eq_of_byte (by omega) (by omega) (fun k hk => ?_)
    rw [hrest' k (by omega) (by omega)]
    refine hrest k (fun i _ => ?_)
    have := entry_bounds i
    unfold Apart
    omega
  · rw [← part_all (by omega), hxor]
  · intro i hi
    have hmem : i ∈ [0, 1, 2] := by simp only [List.mem_cons]; omega
    refine (hcorrected i hmem).congr (fun k _ _ => rfl) (fun k hk hk' => ?_)
    have := entry_bounds i
    exact hrest' k (by omega) (by omega)
  · intro k hk hk' hk''
    rw [hrest' k hk' hk'', hrest k (fun i hi => hk i (hentries i hi))]

theorem calPowerTuned_eq {ar : Softc} {file : List UInt8} (eeprom : List UInt8)
    (hneed : ar.needPowerTuned ≠ 0) (htype : ar.targetType = .ar6003) (hfile : 6 ≤ file.length) :
    calPowerTuned ar (some file) eeprom 2048 1024 1024 =
      applyTuning (tuning file) eeprom 1024 1024 := by
  have hguard : ¬ (ar.needPowerTuned = 0 ∨ ar.targetType ≠ .ar6003 ∨ 2048 ≠ 2048 ∨
      1024 + 1024 ≠ 2048) := by
    simp [hneed, htype]
  simp only [calPowerTuned]
  rw [if_neg hguard, if_neg (by omega)]

/-- **The power correction**: for every board file of 1024 and 1024 bytes and every six corrections
    the three entries move by them, the XOR of the extended data becomes `0xFFFF`, and every other
    byte stays. -/
theorem power_tuned (ar : Softc) (eeprom file : List UInt8) (hneed : ar.needPowerTuned ≠ 0)
    (htype : ar.targetType = .ar6003) (hsize : eeprom.length = 2048) (hfile : 6 ≤ file.length) :
    ∃ after, calPowerTuned ar (some file) eeprom eeprom.length 1024 1024 = some after ∧
      Tuned (tuning file) eeprom after := by
  rw [hsize, calPowerTuned_eq eeprom hneed htype hfile]
  exact applyTuning_spec (tuning file) hsize

/-- The corrections of the unit in the notes, -2/6 -2/7 -2/5, on a file of zeros. -/
theorem power_tuned_unit :
    ∃ after, calPowerTuned ⟨.ar6003, false, 1⟩ (some [0xfe, 6, 0xfe, 7, 0xfe, 5])
        (List.replicate 2048 0) (List.replicate 2048 (0 : UInt8)).length 1024 1024 = some after ∧
      Tuned (tuning [0xfe, 6, 0xfe, 7, 0xfe, 5]) (List.replicate 2048 0) after :=
  power_tuned _ _ _ (by decide) rfl List.length_replicate (by decide)

end Y210.Wifi

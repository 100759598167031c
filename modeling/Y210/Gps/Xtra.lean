/-
  File:      Y210/Gps/Xtra.lean
  Subject:   THE XTRA DATA, injected into the modem in parts of 1024 bytes.

  The file has the length of an `int`. The loop of `qct_loc_eng_inject_xtra_data_one` counts its
  parts in 8 bits and the bytes that went in 16: behind 64 parts it starts again at the beginning of
  the file, and a file of more than 255 parts has no last one. What is handed over by the framework
  waits in a buffer until the worker takes it out.

  `rpc n` is whether the call number `n` succeeds.

  * `injectXtraDataOne`, `injectXtraData` -- the code, and with `injectXtraDataProxy` and
    `injectXtraDataInBuffer` the way to it;
  * `Delivered` -- what the modem should be sent;
  * `loop_sends`, `loop_endless` -- what it is sent, and a file too long for the counter;
  * `xtra_delivered_iff` -- the files that are delivered;
  * `xtra_file_too_long` -- two that are not.
-/
import Mathlib.Algebra.Group.Int.Defs
import Mathlib.Algebra.Group.Nat.Defs
import Y210.Lib.Slices

namespace Y210.Gps.Xtra

open Y210.Lib

/-! ## 1. The code -/

/-- `XTRA_BLOCK_SIZE`. -/
def blockSize : Nat := 1024

def EIO : Int := 5

/-- What one call carries, as `rpc_loc_predicted_orbits_data_s_type` has it; `waits` is a call of
    `loc_eng_ioctl`, which waits for the callback. -/
structure Part where
  totalSize : Nat
  totalParts : Nat
  part : Nat
  partLen : Nat
  data : List UInt8
  waits : Bool
  deriving DecidableEq

/-- `total_parts`, an `int`. -/
def totalParts (data : List UInt8) : Nat := (data.length - 1) / blockSize + 1

/-- `part_len`, in 16 bits. -/
def partLen (length lenInjected : Nat) : Nat :=
  if (blockSize : Int) > length - lenInjected then (((length - lenInjected : Int)) % 2 ^ 16).toNat
  else blockSize

/-- The part that one turn of the loop sends. -/
def fillPart (data : List UInt8) (part lenInjected : Nat) : Part where
  totalSize := data.length
  totalParts := totalParts data % 2 ^ 8
  part := part
  partLen := partLen data.length lenInjected
  data := (data.drop lenInjected).take (partLen data.length lenInjected)
  waits := decide (¬ part < totalParts data)

/-- The loop of `qct_loc_eng_inject_xtra_data_one`: what was sent, and `ret_val`. -/
def loop (data : List UInt8) (rpc : Nat → Bool) :
    Nat → Nat → Nat → List Part → Option (List Part × Int)
  | 0, _, _, _ => none
  | fuel + 1, part, lenInjected, sent =>
    if part ≤ totalParts data then
      let p := fillPart data part lenInjected
      let ok := rpc sent.length
      if part < totalParts data then
        if ok then
          loop data rpc fuel ((part + 1) % 2 ^ 8) ((lenInjected + p.partLen) % 2 ^ 16) (sent ++ [p])
        else some (sent ++ [p], EIO)
      else some (sent ++ [p], if ok then 0 else EIO)
    else some (sent, 0)

def injectXtraDataOne (data : List UInt8) (rpc : Nat → Bool) (fuel : Nat) (sent : List Part) :
    Option (List Part × Int) :=
  loop data rpc fuel 1 0 sent

/-- The tries that are left, with the `rc` of the last one. -/
def tryInject (data : List UInt8) (rpc : Nat → Bool) (fuel : Nat) :
    Nat → List Part → Int → Option (List Part × Int)
  | 0, sent, rc => some (sent, rc)
  | tries + 1, sent, _ => do
    let r ← injectXtraDataOne data rpc fuel sent
    if r.2 = 0 then some r else tryInject data rpc fuel tries r.1 r.2

/-- **`qct_loc_eng_inject_xtra_data`**: up to three tries. -/
def injectXtraData (data : List UInt8) (rpc : Nat → Bool) (fuel : Nat) :
    Option (List Part × Int) :=
  tryInject data rpc fuel 3 [] EIO

/-- `qct_loc_eng_inject_xtra_data_proxy`: the data is kept in a buffer, if there is memory for it.
    The buffer of the module is the first argument and the first result. -/
def injectXtraDataProxy (buffer : Option (List UInt8)) (malloc : Bool) :
    Option (List UInt8) → Option (List UInt8) × Int
  | none => (buffer, -1)
  | some data =>
    if data.length = 0 then (buffer, -1) else (if malloc then some data else buffer, 0)

/-- `loc_eng_inject_xtra_data_in_buffer`: the buffer is emptied, and what was in it injected. -/
def injectXtraDataInBuffer (buffer : Option (List UInt8)) (rpc : Nat → Bool) (fuel : Nat) :
    Option (Option (List UInt8) × List Part × Int) :=
  match buffer with
  | none => some (none, [], 0)
  | some data => do
    let r ← injectXtraData data rpc fuel
    return (none, r.1, if r.2 ≠ 0 then -1 else 0)

/-! ## 2. What the modem should be sent -/

/-- **The data is delivered**: in parts with the numbers from 1 on, of at most 1024 bytes, that are
    the data one after another, and only the last of them waits. -/
structure Delivered (data : List UInt8) (sent : List Part) : Prop where
  numbered : sent.map Part.part = List.range' 1 sent.length
  small : ∀ p ∈ sent, p.data.length ≤ 1024
  whole : sent.flatMap Part.data = data
  waiting : ∃ before last, sent = before ++ [last] ∧ last.waits = true ∧
    ∀ p ∈ before, p.waits = false

/-! ## 3. What it is sent -/

section Sends

variable {data : List UInt8} {rpc : Nat → Bool} {fuel k m part lenInjected : Nat}
  {sent : List Part}

/-- The part number `k`, counted from 0. -/
def piece (data : List UInt8) (k : Nat) : Part := fillPart data (k + 1) (1024 * k % 65536)

/-- The slice of the file a part carries: the counter of the bytes wraps behind 64 of them. -/
theorem piece_data (data : List UInt8) (k : Nat) :
    (piece data k).data = slice data 1024 (k % 64) := by
  have hoffset : 1024 * k % 65536 = 1024 * (k % 64) := by omega
  simp only [piece, fillPart, slice, hoffset, partLen, blockSize]
  split
  · -- the rest of the file is less than a block
    rename_i hshort
    by_cases hin : 1024 * (k % 64) ≤ data.length
    · have hlen : ((data.length - (1024 * (k % 64) : Nat) : Int) % 2 ^ 16).toNat =
          data.length - 1024 * (k % 64) := by
        omega
      rw [hlen, List.take_of_length_le (by simp), List.take_of_length_le]
      rw [List.length_drop]
      omega
    · rw [List.drop_of_length_le (by omega), List.take_nil, List.take_nil]
  · rfl

/-- A part that is not the last one is a full block. -/
theorem piece_partLen (hk : k + 1 < totalParts data) : (piece data k).partLen = 1024 := by
  unfold totalParts blockSize at hk
  have hlong : ¬ ((1024 : Nat) : Int) > data.length - (1024 * k % 65536 : Nat) := by omega
  exact if_neg hlong

theorem loop_next (hk : k + 1 < totalParts data) (hcount : k + 1 < 255) (hrpc : ∀ n, rpc n = true) :
    loop data rpc (fuel + 1) (k + 1) (1024 * k % 65536) sent =
      loop data rpc fuel (k + 2) (1024 * (k + 1) % 65536) (sent ++ [piece data k]) := by
  have hpart : (k + 1 + 1) % 2 ^ 8 = k + 2 := by omega
  have hbytes : (1024 * k % 65536 + (piece data k).partLen) % 2 ^ 16 = 1024 * (k + 1) % 65536 := by
    rw [piece_partLen hk]
    omega
  rw [loop, if_pos (by omega)]
  simp only [if_pos hk, hrpc, if_true, hpart]
  rw [← hbytes]
  rfl

/-- **A file of at most 255 parts** is sent part after part. -/
theorem loop_sends (hcount : totalParts data ≤ 255) (hrpc : ∀ n, rpc n = true) (hm : 0 < m)
    (hlast : k + m = totalParts data) (fuel : Nat) (sent : List Part) :
    loop data rpc fuel (k + 1) (1024 * k % 65536) sent =
      if m ≤ fuel then some (sent ++ (List.range' k m).map (piece data), 0) else none := by
  induction m generalizing k fuel sent with
  | zero => omega
  | succ m ih =>
      cases fuel with
      | zero => rw [if_neg (by omega), loop]
      | succ fuel =>
          rw [List.range'_succ, List.map_cons]
          cases m with
          | zero =>
              have hle : k + 1 ≤ totalParts data := by omega
              have hend : ¬ k + 1 < totalParts data := by omega
              rw [if_pos (by omega), loop, if_pos hle]
              simp only [if_neg hend, hrpc, if_true]
              rfl
          | succ m =>
              rw [loop_next (by omega) (by omega) hrpc, ih (k := k + 1) (by omega) (by omega)]
              simp

/-- **A file of more parts than the counter has numbers** is sent for ever. -/
theorem loop_endless (hcount : 255 < totalParts data) (hrpc : ∀ n, rpc n = true)
    (hpart : part ≤ 255) : loop data rpc fuel part lenInjected sent = none := by
  induction fuel generalizing part lenInjected sent with
  | zero => rfl
  | succ fuel ih =>
      have hlt : part < totalParts data := by omega
      rw [loop, if_pos (by omega)]
      simp only [if_pos hlt, hrpc, if_true]
      exact ih (by omega)

/-- The parts of a file. -/
def pieces (data : List UInt8) : List Part := (List.range (totalParts data)).map (piece data)

/-- **With calls that succeed** the first try sends the parts of the file, or never ends. -/
theorem injectXtraData_eq (data : List UInt8) (hrpc : ∀ n, rpc n = true) (fuel : Nat) :
    injectXtraData data rpc fuel =
      if totalParts data ≤ 255 ∧ totalParts data ≤ fuel then some (pieces data, 0) else none := by
  have hone : injectXtraDataOne data rpc fuel [] =
      if totalParts data ≤ 255 ∧ totalParts data ≤ fuel then some (pieces data, 0) else none := by
    unfold injectXtraDataOne
    rcases Nat.lt_or_ge 255 (totalParts data) with hcount | hcount
    · rw [loop_endless hcount hrpc (by omega), if_neg (by omega)]
    · have hpos : 0 < totalParts data := Nat.succ_pos _
      have hsends := loop_sends hcount hrpc hpos (Nat.zero_add _) fuel []
      simp only [Nat.zero_add, Nat.mul_zero, Nat.zero_mod, ← List.range_eq_range'] at hsends
      rw [hsends, List.nil_append]
      by_cases hfuel : totalParts data ≤ fuel
      · rw [if_pos hfuel, if_pos ⟨hcount, hfuel⟩]
        rfl
      · rw [if_neg hfuel, if_neg fun h => hfuel h.2]
  unfold injectXtraData tryInject
  rw [hone]
  split <;> rfl

/-! ## 4. The files that are delivered -/

theorem length_pieces (data : List UInt8) : (pieces data).length = totalParts data := by
  simp [pieces]

theorem pieces_numbered (data : List UInt8) :
    (pieces data).map Part.part = List.range' 1 (pieces data).length := by
  rw [length_pieces, List.range'_eq_map_range, pieces, List.map_map]
  refine List.map_congr_left fun k _ => ?_
  exact Nat.add_comm k 1

theorem pieces_small (data : List UInt8) : ∀ p ∈ pieces data, p.data.length ≤ 1024 := by
  intro p hp
  obtain ⟨k, -, rfl⟩ := List.mem_map.mp hp
  rw [piece_data]
  exact length_slice_le _ _ _

theorem pieces_waiting (data : List UInt8) :
    ∃ before last, pieces data = before ++ [last] ∧ last.waits = true ∧
      ∀ p ∈ before, p.waits = false := by
  obtain ⟨n, hn⟩ : ∃ n, totalParts data = n + 1 := ⟨_, rfl⟩
  refine ⟨(List.range n).map (piece data), piece data n, ?_, ?_, fun p hp => ?_⟩
  · rw [pieces, hn, List.range_succ, List.map_append]
    rfl
  · simp [piece, fillPart, hn]
  · obtain ⟨k, hk, rfl⟩ := List.mem_map.mp hp
    rw [List.mem_range] at hk
    simp [piece, fillPart, hn, hk]

theorem pieces_data (data : List UInt8) :
    (pieces data).flatMap Part.data =
      (List.range (totalParts data)).flatMap fun k => slice data 1024 (k % 64) := by
  rw [pieces, List.flatMap_map]
  simp only [piece_data]

/-- **The files that come out whole**: of at most 64 blocks, or of full blocks that repeat
    themselves every 64. -/
def Unwrapped (data : List UInt8) : Prop :=
  data.length ≤ 65536 ∨ data.length % 1024 = 0 ∧
    ∀ k < data.length / 1024, slice data 1024 (k % 64) = slice data 1024 k

theorem totalParts_le_iff (hpos : 0 < data.length) :
    totalParts data ≤ 255 ↔ data.length ≤ 255 * 1024 := by
  unfold totalParts blockSize
  omega

/-- A file of full blocks has as many parts. -/
theorem totalParts_eq (hpos : 0 < data.length) (hfull : data.length % 1024 = 0) :
    totalParts data = data.length / 1024 := by
  unfold totalParts blockSize
  omega

theorem pieces_whole_iff (hpos : 0 < data.length) :
    (pieces data).flatMap Part.data = data ↔ Unwrapped data := by
  rw [pieces_data]
  by_cases hshort : data.length ≤ 65536
  · -- the counter of the bytes does not wrap
    refine ⟨fun _ => .inl hshort, fun _ => ?_⟩
    have hcount : totalParts data ≤ 64 ∧ data.length ≤ 1024 * totalParts data := by
      unfold totalParts blockSize
      omega
    have hplain : ((List.range (totalParts data)).map fun k => slice data 1024 (k % 64)) =
        (List.range (totalParts data)).map (slice data 1024) := by
      refine List.map_congr_left fun k hk => ?_
      rw [List.mem_range] at hk
      rw [Nat.mod_eq_of_lt (by omega)]
    rw [List.flatMap_def, hplain, ← List.flatMap_def, flatMap_slice]
    exact List.take_of_length_le hcount.2
  · -- behind 64 parts every part is a full block from the beginning of the file
    have hfull : ∀ k < totalParts data, (slice data 1024 (k % 64)).length = 1024 := by
      intro k _
      rw [length_slice]
      omega
    constructor
    · intro h
      have hlength := length_slices hfull
      rw [h] at hlength
      have hblocks : data.length % 1024 = 0 := by omega
      exact .inr ⟨hblocks, (totalParts_eq hpos hblocks) ▸ (slices_eq_iff hlength hfull).mp h⟩
    · rintro (h | ⟨hblocks, h⟩)
      · omega
      · rw [← totalParts_eq hpos hblocks] at h
        have hcount := totalParts_eq hpos hblocks
        exact (slices_eq_iff (by omega) hfull).mpr h

theorem delivered_iff (hpos : 0 < data.length) :
    Delivered data (pieces data) ↔ Unwrapped data :=
  ⟨fun h => (pieces_whole_iff hpos).mp h.whole, fun h => ⟨pieces_numbered data, pieces_small data,
    (pieces_whole_iff hpos).mpr h, pieces_waiting data⟩⟩

end Sends

/-- **A file is delivered when and only when** it has at most 255 parts and comes out whole: with
    calls that succeed, `qct_loc_eng_inject_xtra_data` returns 0 having sent its parts. -/
theorem xtra_delivered_iff {data : List UInt8} (hpos : 0 < data.length) {rpc : Nat → Bool}
    (hrpc : ∀ n, rpc n = true) :
    (∃ fuel sent, injectXtraData data rpc fuel = some (sent, 0) ∧ Delivered data sent) ↔
      data.length ≤ 255 * 1024 ∧ Unwrapped data := by
  rw [← totalParts_le_iff hpos]
  constructor
  · rintro ⟨fuel, sent, hrun, hdelivered⟩
    rw [injectXtraData_eq data hrpc] at hrun
    split at hrun
    · rename_i hends
      cases hrun
      exact ⟨hends.1, (delivered_iff hpos).mp hdelivered⟩
    · cases hrun
  · rintro ⟨hcount, hunwrapped⟩
    refine ⟨totalParts data, pieces data, ?_, (delivered_iff hpos).mpr hunwrapped⟩
    rw [injectXtraData_eq data hrpc, if_pos ⟨hcount, Nat.le_refl _⟩]

/-- A file of a block and a half. -/
theorem xtra_delivered_iff_two :
    ∃ fuel sent, injectXtraData (List.replicate 1536 7) (fun _ => true) fuel = some (sent, 0) ∧
      Delivered (List.replicate 1536 7) sent := by
  have hlength : (List.replicate 1536 (7 : UInt8)).length = 1536 := List.length_replicate
  refine (xtra_delivered_iff (by rw [hlength]; decide) fun _ => rfl).mpr ⟨?_, .inl ?_⟩
  · rw [hlength]
    decide
  · rw [hlength]
    decide

/-- **What the framework handed over is what is injected**, and the buffer is empty then. -/
theorem proxied_delivered {data : List UInt8} (hpos : 0 < data.length)
    (hcount : data.length ≤ 65536) {rpc : Nat → Bool} (hrpc : ∀ n, rpc n = true)
    (buffer : Option (List UInt8)) :
    ∃ fuel sent, injectXtraDataInBuffer (injectXtraDataProxy buffer true (some data)).1 rpc fuel =
      some (none, sent, 0) ∧ Delivered data sent := by
  have hparts : totalParts data ≤ 255 := (totalParts_le_iff hpos).mpr (by omega)
  refine ⟨totalParts data, pieces data, ?_, (delivered_iff hpos).mpr (.inl hcount)⟩
  have hkept : (injectXtraDataProxy buffer true (some data)).1 = some data := by
    simp [injectXtraDataProxy, Nat.ne_of_gt hpos]
  simp [hkept, injectXtraDataInBuffer, injectXtraData_eq data hrpc, hparts]

/-- **Files that are too long**: of 64 KiB and a byte the first block is sent again in the place of
    the last byte, and a file of 256 KiB is sent for ever. -/
theorem xtra_file_too_long :
    (∃ sent, injectXtraData (List.replicate 65536 0 ++ [1]) (fun _ => true) 65 = some (sent, 0) ∧
      ¬ Delivered (List.replicate 65536 0 ++ [1]) sent) ∧
    ∀ fuel, injectXtraData (List.replicate 262144 0) (fun _ => true) fuel = none := by
  constructor
  · have hlength : (List.replicate 65536 (0 : UInt8) ++ [1]).length = 65537 := by
      rw [List.length_append, List.length_replicate]
      rfl
    have hcount : totalParts (List.replicate 65536 0 ++ [1]) = 65 := by
      rw [totalParts, hlength]
      rfl
    refine ⟨pieces (List.replicate 65536 0 ++ [1]), ?_, fun h => ?_⟩
    · rw [injectXtraData_eq _ fun _ => rfl, hcount]
      rfl
    · rcases (delivered_iff (by rw [hlength]; decide)).mp h with hshort | ⟨hfull, -⟩
      · rw [hlength] at hshort
        omega
      · rw [hlength] at hfull
        omega
  · intro fuel
    have hcount : totalParts (List.replicate 262144 0) = 256 := by
      rw [totalParts, List.length_replicate]
      rfl
    rw [injectXtraData_eq _ fun _ => rfl, hcount]
    exact if_neg (by omega)

end Y210.Gps.Xtra

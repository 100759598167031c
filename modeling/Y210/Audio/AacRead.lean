/-
  File:      Y210/Audio/AacRead.lean
  Subject:   READING FROM THE INPUT STREAM (`AudioHardware.cpp`, `AudioStreamInMSM72xx::read`), and
             the frames that it puts AAC data in.

  * `readLoop` -- the loop over the driver's answers, with the size field that AAC data has in
    front of each chunk; a store out of the buffer has no result;
  * `decode` -- how the layer above reads the buffer;
  * `framed_iff` -- the buffer decodes to the chunks of the driver, in just those calls in which no
    chunk comes after an `EAGAIN`: each `EAGAIN` moves the place of the next frame by its size
    field, and leaves a hole there.
-/
import Mathlib.Algebra.GroupWithZero.Nat
import Mathlib.Data.List.Basic
import Y210.Lib.Bytes
import Y210.Lib.Halfwords

namespace Y210.Audio.Aac

open Y210.Lib

/-! ## 1. The loop -/

/-- What `::read` on the driver gives. It fills what it was asked for at most; of a longer `data`
    it gives the beginning. -/
inductive Outcome
  | data (first : UInt8) (more : List UInt8)
  | zero
  | eagain
  | error
  deriving DecidableEq, Repr

/-- The call's variables, and the chunks that the driver delivered. -/
structure Rd where
  cells : List UInt8
  p : Nat
  count : Nat
  bytes : Nat
  firstread : Bool
  retryCount : Nat
  delivered : List (List UInt8)
  deriving DecidableEq, Repr

/-- `*frameSizePtr = bytesRead; (*frameCountPtr)++`. -/
def setFrame (cells : List UInt8) (frameSizePtr bytesRead : Nat) : Option (List UInt8) := do
  let cells ← store cells frameSizePtr (halfwordBytes (BitVec.ofNat 16 bytesRead))
  store cells 4 (halfwordBytes (halfword (byte cells 4) (byte cells 5) + 1#16))

/-- The driver's data, and for AAC its frame. -/
def storeChunk (aac : Bool) (cells : List UInt8) (frameSizePtr p : Nat) (chunk : List UInt8) :
    Option (List UInt8) := do
  let cells ← store cells p chunk
  if aac then setFrame cells frameSizePtr chunk.length else some cells

/-- What is returned at the end of the loop. -/
def result (aac : Bool) (size : Nat) (s : Rd) : Int × Rd := (if aac then size else s.bytes, s)

/-- The variables after a chunk. -/
def afterChunk (s : Rd) (cells : List UInt8) (p count : Nat) (chunk : List UInt8) : Rd where
  cells := cells
  p := p + chunk.length
  count := count - chunk.length
  bytes := s.bytes + chunk.length
  firstread := true
  retryCount := s.retryCount
  delivered := s.delivered ++ [chunk]

/-- The loop; after the last of the answers the driver gives 0. -/
def readLoop (aac : Bool) (size : Nat) : List Outcome → Rd → Option (Int × Rd)
  | [], s => some (result aac size s)
  | o :: os, s =>
    if s.count = 0 ∨ (aac = true ∧ s.count ≤ 2) then some (result aac size s)
    else
      let p := if aac then s.p + 2 else s.p
      let count := if aac then s.count - 2 else s.count
      match o with
      | .data first more =>
        let chunk := (first :: more).take count
        (storeChunk aac s.cells s.p p chunk).bind fun cells =>
          if s.firstread then readLoop aac size os (afterChunk s cells p count chunk)
          else some (result aac size (afterChunk s cells p count chunk))
      | .zero => some (result aac size { s with p := p, count := count })
      | .eagain =>
        readLoop aac size os { s with p := p, count := count, retryCount := s.retryCount + 1 }
      | .error => some (-1, { s with p := p, count := count })

/-- `0x51434F4D`. -/
def marker : BitVec 32 := 0x51434F4D

/-- `read` of a stream that is started, on a buffer of `size` bytes. -/
def read (aac : Bool) (firstread : Bool) (retryCount : Nat) (outcomes : List Outcome)
    (buffer : List UInt8) (size : Nat) : Option (Int × Rd) :=
  if aac then do
    let cells ← store buffer 0 (wordBytes marker)
    let cells ← store cells 4 (halfwordBytes 0#16)
    readLoop true size outcomes ⟨cells, 6, size - 6, 0, firstread, retryCount, []⟩
  else readLoop false size outcomes ⟨buffer, 0, size, 0, firstread, retryCount, []⟩

/-! ## 2. The format -/

/-- So many frames at the beginning of some bytes. -/
def decodeFrames : Nat → List UInt8 → Option (List (List UInt8))
  | 0, _ => some []
  | n + 1, lo :: hi :: rest =>
    if (halfword lo hi).toNat ≤ rest.length then
      (decodeFrames n (rest.drop (halfword lo hi).toNat)).map
        (rest.take (halfword lo hi).toNat :: ·)
    else none
  | _ + 1, _ => none

/-- The frames of a buffer with the marker. -/
def decode (cells : List UInt8) : Option (List (List UInt8)) :=
  if readWord cells 0 = some marker then
    decodeFrames (halfword (byte cells 4) (byte cells 5)).toNat (cells.drop 6)
  else none

def frame (chunk : List UInt8) : List UInt8 :=
  halfwordBytes (BitVec.ofNat 16 chunk.length) ++ chunk

def header (k : Nat) : List UInt8 := wordBytes marker ++ halfwordBytes (BitVec.ofNat 16 k)

variable {k n : Nat} {chunk rest body cells : List UInt8} {frames : List (List UInt8)}

theorem length_header (k : Nat) : (header k).length = 6 := rfl

theorem length_frame (chunk : List UInt8) : (frame chunk).length = 2 + chunk.length := by
  rw [frame, List.length_append]
  rfl

theorem decodeFrames_frame (hchunk : chunk.length < 2 ^ 16) :
    decodeFrames (n + 1) (frame chunk ++ rest) = (decodeFrames n rest).map (chunk :: ·) := by
  have hsize : (halfword (lowByte (BitVec.ofNat 16 chunk.length))
      (highByte (BitVec.ofNat 16 chunk.length))).toNat = chunk.length := by
    rw [halfword_lowByte_highByte, BitVec.toNat_ofNat, Nat.mod_eq_of_lt hchunk]
  have hroom : chunk.length ≤ (chunk ++ rest).length := by
    rw [List.length_append]
    omega
  rw [frame, halfwordBytes, List.append_assoc, List.cons_append, List.cons_append,
    List.nil_append, decodeFrames, hsize, if_pos hroom, List.drop_left, List.take_left]

/-- **Frames are read back**, and then what follows them. -/
theorem decodeFrames_append (hframes : ∀ c ∈ frames, c.length < 2 ^ 16) :
    decodeFrames (frames.length + n) (frames.flatMap frame ++ rest) =
      (decodeFrames n rest).map (frames ++ ·) := by
  induction frames with
  | nil => simp
  | cons c frames ih =>
      have hc : c.length < 2 ^ 16 := hframes c List.mem_cons_self
      have hrest := ih (fun c' hc' => hframes c' (List.mem_cons_of_mem c hc'))
      rw [List.length_cons, Nat.add_right_comm, List.flatMap_cons, List.append_assoc,
        decodeFrames_frame hc, hrest, Option.map_map]
      rfl

theorem decode_header (hk : k < 2 ^ 16) : decode (header k ++ rest) = decodeFrames k rest := by
  have hmarker : readWord (header k ++ rest) 0 = some marker := by
    rw [header, List.append_assoc, ← List.nil_append (wordBytes marker ++ _)]
    exact readWord_between rfl
  have hcount : (halfword (byte (header k ++ rest) 4) (byte (header k ++ rest) 5)).toNat = k := by
    have h : halfword (byte (header k ++ rest) 4) (byte (header k ++ rest) 5) =
        BitVec.ofNat 16 k := halfword_lowByte_highByte _
    rw [h, BitVec.toNat_ofNat, Nat.mod_eq_of_lt hk]
  rw [decode, if_pos hmarker, hcount]
  rfl

/-! ## 3. A round of the loop -/

section Rounds

variable {size : Nat} {s : Rd} {os : List Outcome} {first : UInt8} {more : List UInt8}

/-- The buffer in the loop: the header, what has been passed over, and the rest. -/
structure Laid (k : Nat) (body rest : List UInt8) (s : Rd) : Prop where
  cells : s.cells = header k ++ body ++ rest
  p : s.p = 6 + body.length
  count : s.count = rest.length
  few : k ≤ body.length
  small : 6 + body.length + rest.length < 2 ^ 16

/-- The size field, and one frame more in the header. -/
theorem setFrame_eq {field tail : List UInt8} {bytesRead : Nat} (hfield : field.length = 2) :
    setFrame (header k ++ body ++ field ++ tail) (6 + body.length) bytesRead =
      some (header (k + 1) ++
        (body ++ halfwordBytes (BitVec.ofNat 16 bytesRead) ++ tail)) := by
  generalize hvalue : halfwordBytes (BitVec.ofNat 16 bytesRead) = value
  have hlength : value.length = 2 := by rw [← hvalue]; rfl
  have hsize : store (header k ++ body ++ field ++ tail) (6 + body.length) value =
      some (header k ++ body ++ value ++ tail) := by
    refine store_between ?_ (hfield.trans hlength.symm)
    rw [List.length_append, length_header]
  -- the count is read back from the header
  have hcount : halfword (byte (header k ++ body ++ value ++ tail) 4)
      (byte (header k ++ body ++ value ++ tail) 5) + 1#16 = BitVec.ofNat 16 (k + 1) := by
    rw [BitVec.ofNat_add]
    exact congrArg (· + 1#16) (halfword_lowByte_highByte _)
  have hheader : header k ++ body ++ value ++ tail =
      wordBytes marker ++ halfwordBytes (BitVec.ofNat 16 k) ++ (body ++ value ++ tail) := by
    simp only [header, List.append_assoc]
  rw [setFrame, hvalue, hsize, Option.bind_eq_bind, Option.bind_some, hcount, hheader, header]
  exact store_between rfl rfl

/-- A chunk with its size field. -/
theorem Laid.storeChunk (h : Laid k body rest s) (hroom : 2 + chunk.length ≤ rest.length) :
    storeChunk true s.cells s.p (s.p + 2) chunk =
      some (header (k + 1) ++ (body ++ frame chunk) ++ rest.drop (2 + chunk.length)) := by
  obtain ⟨field, behind, hrest, hfield⟩ := exists_append (show 2 ≤ rest.length by omega)
  have hbehind : chunk.length ≤ behind.length := by
    rw [hrest, List.length_append] at hroom
    omega
  obtain ⟨here, after, hafter, hhere⟩ := exists_append hbehind
  have hdrop : rest.drop (2 + chunk.length) = after := by
    rw [hrest, hafter, ← hfield, ← hhere, ← List.length_append, ← List.append_assoc,
      List.drop_left]
  have hcells : s.cells = header k ++ body ++ field ++ here ++ after := by
    rw [h.cells, hrest, hafter]
    simp only [List.append_assoc]
  have hdata : store s.cells (s.p + 2) chunk =
      some (header k ++ body ++ field ++ chunk ++ after) := by
    rw [hcells]
    refine store_between ?_ hhere
    rw [List.length_append, List.length_append, length_header, h.p, hfield]
  have hassoc : header k ++ body ++ field ++ chunk ++ after =
      header k ++ body ++ field ++ (chunk ++ after) := List.append_assoc _ _ _
  rw [Aac.storeChunk, hdata, Option.bind_eq_bind, Option.bind_some, if_pos rfl, h.p, hassoc,
    setFrame_eq hfield, hdrop, frame]
  simp only [List.append_assoc]

theorem readLoop_stop (outcomes : List Outcome) (hcount : s.count ≤ 2) :
    readLoop true size outcomes s = some (result true size s) := by
  cases outcomes with
  | nil => rfl
  | cons o os => rw [readLoop, if_pos (Or.inr ⟨rfl, hcount⟩)]

theorem goes_on (hcount : 2 < s.count) : ¬ (s.count = 0 ∨ (true = true ∧ s.count ≤ 2)) := by
  omega

theorem readLoop_zero (hcount : 2 < s.count) :
    readLoop true size (.zero :: os) s =
      some (result true size { s with p := s.p + 2, count := s.count - 2 }) := by
  rw [readLoop, if_neg (goes_on hcount)]
  rfl

/-- **A round with data.** -/
theorem Laid.data (h : Laid k body rest s) (hcount : 2 < s.count) :
    ∃ s', readLoop true size (.data first more :: os) s =
        (if s.firstread then readLoop true size os s' else some (result true size s')) ∧
      Laid (k + 1) (body ++ frame ((first :: more).take (s.count - 2)))
        (rest.drop (2 + ((first :: more).take (s.count - 2)).length)) s' ∧
      s'.count = s.count - (2 + (more.length + 1)) ∧ s'.firstread = true ∧
      s'.delivered = s.delivered ++ [(first :: more).take (s.count - 2)] := by
  have hleft : s.count - 2 - ((first :: more).take (s.count - 2)).length =
      s.count - (2 + (more.length + 1)) := by
    rw [List.length_take, List.length_cons]
    omega
  generalize hchunk : (first :: more).take (s.count - 2) = chunk at hleft
  have hlength : chunk.length ≤ s.count - 2 := by
    rw [← hchunk, List.length_take]
    omega
  have hroom : 2 + chunk.length ≤ rest.length := by
    have hc := h.count
    omega
  refine ⟨afterChunk s
    (header (k + 1) ++ (body ++ frame chunk) ++ rest.drop (2 + chunk.length)) (s.p + 2)
    (s.count - 2) chunk, ?_, ?_, hleft, rfl, rfl⟩
  · rw [readLoop, if_neg (goes_on hcount)]
    simp only [if_true, hchunk]
    rw [h.storeChunk hroom, Option.bind_some]
  · have hp := h.p
    have hc := h.count
    have hfew := h.few
    have hsmall := h.small
    constructor
    · rfl
    · simp only [afterChunk, List.length_append, length_frame]
      omega
    · simp only [afterChunk, List.length_drop]
      omega
    · rw [List.length_append, length_frame]
      omega
    · rw [List.length_append, length_frame, List.length_drop]
      omega

/-- **A round with `EAGAIN`**: the size field stays as it is, and is passed over. -/
theorem Laid.eagain (h : Laid k body rest s) (hcount : 2 < s.count) :
    ∃ s', readLoop true size (.eagain :: os) s = readLoop true size os s' ∧
      Laid k (body ++ rest.take 2) (rest.drop 2) s' ∧ s'.cells = s.cells ∧
      s'.count = s.count - 2 ∧ s'.firstread = s.firstread ∧ s'.delivered = s.delivered := by
  refine ⟨{ s with p := s.p + 2, count := s.count - 2, retryCount := s.retryCount + 1 }, ?_, ?_,
    rfl, rfl, rfl, rfl⟩
  · rw [readLoop, if_neg (goes_on hcount)]
    rfl
  · have hp := h.p
    have hc := h.count
    have hfew := h.few
    have hsmall := h.small
    have htake : (rest.take 2).length = 2 := by
      rw [List.length_take]
      omega
    constructor
    · rw [h.cells, List.append_assoc, List.append_assoc, List.append_assoc, List.take_append_drop]
    · show s.p + 2 = _
      rw [List.length_append, htake]
      omega
    · show s.count - 2 = _
      rw [List.length_drop]
      omega
    · rw [List.length_append]
      omega
    · rw [List.length_append, htake, List.length_drop]
      omega

end Rounds

/-! ## 4. An `EAGAIN` before a chunk -/

section Gaps

variable {firstread : Bool} {room : Nat} {os : List Outcome} {first : UInt8} {more : List UInt8}

/-- The bytes of the buffer that a chunk needs. -/
def need (chunk : UInt8 × List UInt8) : Nat := 2 + (chunk.2.length + 1)

/-- Some `EAGAIN`s and then data, for which there is room. -/
def Stall (room : Nat) (os : List Outcome) : Prop :=
  ∃ (m : Nat) (chunk : UInt8 × List UInt8) (rest : List Outcome),
    os = List.replicate m .eagain ++ .data chunk.1 chunk.2 :: rest ∧ 2 * m + 2 < room

/-- Chunks, at least one `EAGAIN`, and then data again, for which there is room; the chunks before
    only if the stream's first read is over. -/
def Gap (firstread : Bool) (room : Nat) (os : List Outcome) : Prop :=
  ∃ (chunks : List (UInt8 × List UInt8)) (m : Nat) (chunk : UInt8 × List UInt8)
    (rest : List Outcome),
    os = chunks.map (fun c => .data c.1 c.2) ++
      (List.replicate m .eagain ++ .data chunk.1 chunk.2 :: rest) ∧
    0 < m ∧ (chunks.map need).sum + 2 * m + 2 < room ∧ (firstread = true ∨ chunks = [])

theorem stall_nil : ¬ Stall room [] := by
  rintro ⟨m, chunk, rest, hos, -⟩
  cases m <;> cases hos

theorem stall_data : Stall room (.data first more :: os) ↔ 2 < room := by
  constructor
  · rintro ⟨m, chunk, rest, hos, hroom⟩
    omega
  · intro hroom
    exact ⟨0, (first, more), os, rfl, hroom⟩

theorem stall_eagain : Stall room (.eagain :: os) ↔ Stall (room - 2) os := by
  constructor
  · rintro ⟨m, chunk, rest, hos, hroom⟩
    cases m with
    | zero => cases hos
    | succ m =>
        obtain ⟨-, hos⟩ := List.cons.inj hos
        exact ⟨m, chunk, rest, hos, by omega⟩
  · rintro ⟨m, chunk, rest, rfl, hroom⟩
    exact ⟨m + 1, chunk, rest, rfl, by omega⟩

theorem Stall.lt_room (h : Stall (room - 2) os) : 2 < room := by
  obtain ⟨m, _, _, _, hroom⟩ := h
  omega

theorem gap_nil : ¬ Gap firstread room [] := by
  rintro ⟨chunks, m, chunk, rest, hos, -⟩
  cases chunks with
  | nil => cases m <;> cases hos
  | cons c chunks => cases hos

theorem gap_data : Gap firstread room (.data first more :: os) ↔
    firstread = true ∧ Gap true (room - need (first, more)) os := by
  constructor
  · rintro ⟨chunks, m, chunk, rest, hos, hm, hroom, hfirst⟩
    cases chunks with
    | nil =>
        obtain ⟨m, rfl⟩ := Nat.exists_eq_succ_of_ne_zero (Nat.ne_of_gt hm)
        cases hos
    | cons c chunks =>
        obtain ⟨hc, hrest⟩ := List.cons.inj hos
        cases hc
        rw [List.map_cons, List.sum_cons] at hroom
        refine ⟨hfirst.resolve_right (List.cons_ne_nil c chunks), chunks, m, chunk, rest, hrest,
          hm, ?_, Or.inl rfl⟩
        have hneed : need (c.1, c.2) = need c := rfl
        omega
  · rintro ⟨hfirst, chunks, m, chunk, rest, rfl, hm, hroom, -⟩
    refine ⟨(first, more) :: chunks, m, chunk, rest, rfl, hm, ?_, Or.inl hfirst⟩
    rw [List.map_cons, List.sum_cons]
    omega

theorem gap_eagain : Gap firstread room (.eagain :: os) ↔ Stall (room - 2) os := by
  constructor
  · rintro ⟨chunks, m, chunk, rest, hos, hm, hroom, -⟩
    cases chunks with
    | nil =>
        obtain ⟨m, rfl⟩ := Nat.exists_eq_succ_of_ne_zero (Nat.ne_of_gt hm)
        obtain ⟨-, hos⟩ := List.cons.inj hos
        rw [List.map_nil, List.sum_nil] at hroom
        exact ⟨m, chunk, rest, hos, by omega⟩
    | cons c chunks => cases hos
  · rintro ⟨m, chunk, rest, rfl, hroom⟩
    refine ⟨[], m + 1, chunk, rest, rfl, Nat.succ_pos m, ?_, Or.inr rfl⟩
    rw [List.map_nil, List.sum_nil]
    omega

theorem stall_zero : ¬ Stall room (.zero :: os) := by
  rintro ⟨m, chunk, rest, hos, -⟩
  cases m <;> cases hos

theorem gap_zero : ¬ Gap firstread room (.zero :: os) := by
  rintro ⟨chunks, m, chunk, rest, hos, -⟩
  cases chunks with
  | nil => cases m <;> cases hos
  | cons c chunks => cases hos

end Gaps

/-! ## 5. Whole calls -/

section Calls

variable {size : Nat} {s : Rd} {os : List Outcome}

theorem length_le_flatMap {c : List UInt8} (hc : c ∈ frames) :
    c.length ≤ (frames.flatMap frame).length := by
  induction frames with
  | nil => cases hc
  | cons c' frames ih =>
      rw [List.flatMap_cons, List.length_append, length_frame]
      rcases List.mem_cons.mp hc with rfl | hc
      · omega
      · have hle := ih hc
        omega

theorem Laid.frames_small {tail : List UInt8} (h : Laid k (frames.flatMap frame ++ tail) rest s) :
    ∀ c ∈ frames, c.length < 2 ^ 16 := by
  intro c hc
  have hle := length_le_flatMap hc
  have hsmall := h.small
  rw [List.length_append] at hsmall
  omega

/-- The frames without a hole decode to themselves. -/
theorem Laid.decode (h : Laid frames.length (frames.flatMap frame) rest s) :
    decode s.cells = some frames := by
  have hk : frames.length < 2 ^ 16 := by
    have hfew := h.few
    have hsmall := h.small
    omega
  rw [← List.append_nil (frames.flatMap frame)] at h
  have hframes := h.frames_small
  rw [List.append_nil] at h
  rw [h.cells, List.append_assoc, decode_header hk]
  exact (decodeFrames_append (n := 0) hframes).trans (by simp [decodeFrames])

/-- No data comes any more: the buffer stays. -/
theorem Laid.stalled (h : Laid k body rest s) (hstall : ¬ Stall s.count os) :
    ∃ r, readLoop true size os s = some r ∧ r.2.cells = s.cells ∧
      r.2.delivered = s.delivered := by
  induction os generalizing body rest s with
  | nil => exact ⟨_, rfl, rfl, rfl⟩
  | cons o os ih =>
      rcases Nat.lt_or_ge 2 s.count with hcount | hcount
      · cases o with
        | data first more => exact absurd (stall_data.mpr hcount) hstall
        | eagain =>
            obtain ⟨s', hloop, hlaid, hcells, hcount', -, hdelivered⟩ := h.eagain hcount
            have hstall' : ¬ Stall s'.count os := by
              rw [hcount', ← stall_eagain]
              exact hstall
            obtain ⟨r, hr, hrcells, hrdelivered⟩ := ih hlaid hstall'
            exact ⟨r, hloop.trans hr, hrcells.trans hcells, hrdelivered.trans hdelivered⟩
        | zero => exact ⟨_, readLoop_zero hcount, rfl, rfl⟩
        | error => exact ⟨_, by rw [readLoop, if_neg (goes_on hcount)], rfl, rfl⟩
      · exact ⟨_, readLoop_stop _ hcount, rfl, rfl⟩

/-- A round with data behind frames without a hole: one frame more. -/
theorem Laid.dataFrames {first : UInt8} {more : List UInt8}
    (h : Laid frames.length (frames.flatMap frame) rest s) (hdelivered : s.delivered = frames)
    (hcount : 2 < s.count) :
    ∃ s' chunk m, readLoop true size (.data first more :: os) s =
        (if s.firstread then readLoop true size os s' else some (result true size s')) ∧
      Laid (frames ++ [chunk]).length ((frames ++ [chunk]).flatMap frame) (rest.drop m) s' ∧
      s'.count = s.count - need (first, more) ∧ s'.firstread = true ∧
      s'.delivered = frames ++ [chunk] := by
  obtain ⟨s', hloop, hlaid, hleft, hfirst, hdelivered'⟩ := h.data hcount
  refine ⟨s', (first :: more).take (s.count - 2),
    2 + ((first :: more).take (s.count - 2)).length, hloop, ?_, hleft, hfirst, ?_⟩
  · rw [List.length_append, List.length_singleton, List.flatMap_append, List.flatMap_singleton]
    exact hlaid
  · rw [hdelivered', hdelivered]

/-- **Without a gap the buffer decodes** to what was delivered. -/
theorem Laid.framed (h : Laid frames.length (frames.flatMap frame) rest s)
    (hdelivered : s.delivered = frames) (hgap : ¬ Gap s.firstread s.count os) :
    ∃ r, readLoop true size os s = some r ∧ Aac.decode r.2.cells = some r.2.delivered := by
  induction os generalizing frames rest s with
  | nil => exact ⟨_, rfl, h.decode.trans (congrArg some hdelivered.symm)⟩
  | cons o os ih =>
      have hdecode := h.decode.trans (congrArg some hdelivered.symm)
      rcases Nat.lt_or_ge 2 s.count with hcount | hcount
      · cases o with
        | data first more =>
            obtain ⟨s', chunk, m, hloop, hlaid, hleft, hfirst, hdelivered'⟩ :=
              h.dataFrames hdelivered hcount
            rw [hloop]
            split
            · next hsecond =>
                refine ih hlaid hdelivered' (fun hgap' => hgap (gap_data.mpr ⟨hsecond, ?_⟩))
                rwa [hfirst, hleft] at hgap'
            · exact ⟨_, rfl, hlaid.decode.trans (congrArg some hdelivered'.symm)⟩
        | eagain =>
            rw [gap_eagain] at hgap
            obtain ⟨s', hloop, hlaid, hcells, hcount', -, hdelivered'⟩ := h.eagain hcount
            rw [← hcount'] at hgap
            obtain ⟨r, hr, hrcells, hrdelivered⟩ := hlaid.stalled hgap
            refine ⟨r, hloop.trans hr, ?_⟩
            rw [hrcells, hcells, hrdelivered, hdelivered']
            exact hdecode
        | zero => exact ⟨_, readLoop_zero hcount, hdecode⟩
        | error => exact ⟨_, by rw [readLoop, if_neg (goes_on hcount)], hdecode⟩
      · exact ⟨_, readLoop_stop _ hcount, hdecode⟩

/-- A hole behind some frames, and more frames counted than there are before it. -/
def Holed (frames : List (List UInt8)) (s : Rd) : Prop :=
  ∃ k tail rest, Laid k (frames.flatMap frame ++ 0 :: 0 :: tail) rest s ∧ frames.length < k ∧
    ∃ c more, c ≠ [] ∧ s.delivered = frames ++ c :: more

/-- **A buffer with a hole does not decode** to what was delivered: the hole is read as a frame of
    size 0. -/
theorem Holed.decode (h : Holed frames s) : Aac.decode s.cells ≠ some s.delivered := by
  obtain ⟨k, tail, rest, hlaid, hk, c, more, hc, hdelivered⟩ := h
  have hsmall : k < 2 ^ 16 := by
    have hfew := hlaid.few
    have hsmall := hlaid.small
    omega
  obtain ⟨n, rfl⟩ : ∃ n, k = frames.length + (n + 1) := ⟨k - frames.length - 1, by omega⟩
  have hzero : (halfword 0 0).toNat = 0 := by decide
  have hframes : decodeFrames (frames.length + (n + 1))
      (frames.flatMap frame ++ 0 :: 0 :: (tail ++ rest)) =
        (decodeFrames (n + 1) (0 :: 0 :: (tail ++ rest))).map (frames ++ ·) :=
    decodeFrames_append hlaid.frames_small
  have hcells : s.cells = header (frames.length + (n + 1)) ++
      (frames.flatMap frame ++ 0 :: 0 :: (tail ++ rest)) := by
    rw [hlaid.cells, List.append_assoc, List.append_assoc]
    rfl
  rw [hcells, decode_header hsmall, hframes, hdelivered, decodeFrames, hzero,
    if_pos (Nat.zero_le _)]
  intro hdecode
  obtain ⟨l, hl, heq⟩ := Option.map_eq_some_iff.mp hdecode
  obtain ⟨l', -, rfl⟩ := Option.map_eq_some_iff.mp hl
  have hhead := (List.cons.inj (List.append_cancel_left heq)).1
  exact hc hhead.symm

/-- The hole stays: nothing is stored before the place that has been reached. -/
theorem Holed.loop (h : Holed frames s) (herror : .error ∉ os) :
    ∃ r, readLoop true size os s = some r ∧ r.1 = size ∧
      Aac.decode r.2.cells ≠ some r.2.delivered := by
  induction os generalizing s with
  | nil => exact ⟨_, rfl, rfl, h.decode⟩
  | cons o os ih =>
      have hdecode := h.decode
      have herror' : .error ∉ os := fun hmem => herror (List.mem_cons_of_mem o hmem)
      rcases Nat.lt_or_ge 2 s.count with hcount | hcount
      · obtain ⟨k, tail, rest, hlaid, hk, c, more, hc, hdelivered⟩ := h
        cases o with
        | data first more' =>
            obtain ⟨s', hloop, hlaid', -, -, hdelivered'⟩ := hlaid.data hcount
            rw [List.append_assoc] at hlaid'
            rw [hdelivered, List.append_assoc] at hdelivered'
            have hholed : Holed frames s' :=
              ⟨_, _, _, hlaid', Nat.lt_succ_of_lt hk, c, _, hc, hdelivered'⟩
            rw [hloop]
            split
            · exact ih hholed herror'
            · exact ⟨_, rfl, rfl, hholed.decode⟩
        | eagain =>
            obtain ⟨s', hloop, hlaid', -, -, -, hdelivered'⟩ := hlaid.eagain hcount
            rw [List.append_assoc] at hlaid'
            rw [hloop]
            exact ih ⟨k, _, _, hlaid', hk, c, more, hc, hdelivered'.trans hdelivered⟩ herror'
        | zero => exact ⟨_, readLoop_zero hcount, rfl, hdecode⟩
        | error => exact absurd List.mem_cons_self herror
      · exact ⟨_, readLoop_stop _ hcount, rfl, hdecode⟩

theorem take_zeros {m : Nat} (hzeros : ∀ b ∈ rest, b = 0) (hm : m ≤ rest.length) :
    rest.take m = List.replicate m 0 :=
  List.eq_replicate_iff.mpr
    ⟨List.length_take_of_le hm, fun b hb => hzeros b (List.mem_of_mem_take hb)⟩

/-- Zeros behind the frames, of which some have been passed over, and data to come. -/
theorem Laid.stall_holes {n : Nat}
    (h : Laid frames.length (frames.flatMap frame ++ 0 :: 0 :: List.replicate n 0) rest s)
    (hzeros : ∀ b ∈ rest, b = 0) (hdelivered : s.delivered = frames) (hstall : Stall s.count os)
    (herror : .error ∉ os) :
    ∃ r, readLoop true size os s = some r ∧ r.1 = size ∧
      Aac.decode r.2.cells ≠ some r.2.delivered := by
  induction os generalizing n rest s with
  | nil => exact absurd hstall stall_nil
  | cons o os ih =>
      have herror' : .error ∉ os := fun hmem => herror (List.mem_cons_of_mem o hmem)
      cases o with
      | data first more =>
          have hcount : 2 < s.count := stall_data.mp hstall
          obtain ⟨s', hloop, hlaid, -, -, hdelivered'⟩ := h.data hcount
          have hne : (first :: more).take (s.count - 2) ≠ [] := by
            obtain ⟨m, hm⟩ : ∃ m, s.count - 2 = m + 1 := ⟨s.count - 3, by omega⟩
            rw [hm]
            exact List.cons_ne_nil _ _
          rw [List.append_assoc] at hlaid
          rw [hdelivered] at hdelivered'
          have hholed : Holed frames s' :=
            ⟨_, _, _, hlaid, Nat.lt_succ_self _, _, [], hne, hdelivered'⟩
          rw [hloop]
          split
          · exact hholed.loop herror'
          · exact ⟨_, rfl, rfl, hholed.decode⟩
      | eagain =>
          have hstall' := stall_eagain.mp hstall
          have hcount : 2 < s.count := hstall'.lt_room
          obtain ⟨s', hloop, hlaid, -, hcount', -, hdelivered'⟩ := h.eagain hcount
          have htake := take_zeros (m := 2) hzeros (by rw [← h.count]; omega)
          have htail : frames.flatMap frame ++ 0 :: 0 :: List.replicate n 0 ++ rest.take 2 =
              frames.flatMap frame ++ 0 :: 0 :: List.replicate (n + 2) 0 := by
            rw [htake, List.append_assoc, List.cons_append, List.cons_append,
              List.replicate_append_replicate]
          rw [htail] at hlaid
          rw [hloop]
          refine ih hlaid (fun b hb => hzeros b (List.mem_of_mem_drop hb))
            (hdelivered'.trans hdelivered) ?_ herror'
          rwa [hcount']
      | zero => exact absurd hstall stall_zero
      | error => exact absurd List.mem_cons_self herror

/-- **With a gap a buffer of zeros does not decode** to what was delivered. -/
theorem Laid.gap_holes (h : Laid frames.length (frames.flatMap frame) rest s)
    (hzeros : ∀ b ∈ rest, b = 0) (hdelivered : s.delivered = frames)
    (hgap : Gap s.firstread s.count os) (herror : .error ∉ os) :
    ∃ r, readLoop true size os s = some r ∧ r.1 = size ∧
      Aac.decode r.2.cells ≠ some r.2.delivered := by
  induction os generalizing frames rest s with
  | nil => exact absurd hgap gap_nil
  | cons o os ih =>
      have herror' : .error ∉ os := fun hmem => herror (List.mem_cons_of_mem o hmem)
      cases o with
      | data first more =>
          obtain ⟨hfirst, hgap'⟩ := gap_data.mp hgap
          have hcount : 2 < s.count := by
            obtain ⟨_, m, _, _, _, _, hroom, _⟩ := hgap'
            omega
          obtain ⟨s', chunk, m, hloop, hlaid, hleft, hfirst', hdelivered'⟩ :=
            h.dataFrames hdelivered hcount
          rw [hloop, if_pos hfirst]
          refine ih hlaid (fun b hb => hzeros b (List.mem_of_mem_drop hb)) hdelivered' ?_ herror'
          rwa [hfirst', hleft]
      | eagain =>
          have hstall := gap_eagain.mp hgap
          have hcount : 2 < s.count := hstall.lt_room
          obtain ⟨s', hloop, hlaid, -, hcount', -, hdelivered'⟩ := h.eagain hcount
          have htake := take_zeros (m := 2) hzeros (by rw [← h.count]; omega)
          rw [htake] at hlaid
          rw [hloop]
          refine Laid.stall_holes (n := 0) hlaid (fun b hb => hzeros b (List.mem_of_mem_drop hb))
            (hdelivered'.trans hdelivered) ?_ herror'
          rwa [hcount']
      | zero => exact absurd hgap gap_zero
      | error => exact absurd List.mem_cons_self herror

/-- A call on a buffer of `size` bytes: whatever the buffer holds before, nothing is stored behind
    it, and if the size is returned the buffer decodes to the chunks that the driver delivered. -/
def Framed (firstread : Bool) (outcomes : List Outcome) (size : Nat) : Prop :=
  ∀ retryCount buffer, buffer.length = size →
    ∃ r, read true firstread retryCount outcomes buffer size = some r ∧
      (r.1 = size → Aac.decode r.2.cells = some r.2.delivered)

/-- The loop starts behind an empty header. -/
theorem read_start (firstread : Bool) (retryCount : Nat) (os : List Outcome)
    {buffer : List UInt8} (hlength : buffer.length = size) (hsize : 6 ≤ size)
    (hsmall : size ≤ 65535) :
    ∃ s, read true firstread retryCount os buffer size = readLoop true size os s ∧
      Laid ([] : List (List UInt8)).length (List.flatMap frame []) (buffer.drop 6) s ∧
      s.count = size - 6 ∧ s.firstread = firstread ∧ s.delivered = [] := by
  obtain ⟨word, behind, hword, hwordLength⟩ := exists_append (show 4 ≤ buffer.length by omega)
  have hbehind : 2 ≤ behind.length := by
    rw [hword, List.length_append] at hlength
    omega
  obtain ⟨field, rest, hrest, hfield⟩ := exists_append hbehind
  have hdrop : buffer.drop 6 = rest := by
    rw [hword, hrest, ← List.append_assoc]
    exact List.drop_left' (by rw [List.length_append, hwordLength, hfield])
  have hmarker :
      store buffer 0 (wordBytes marker) = some (wordBytes marker ++ (field ++ rest)) := by
    rw [hword, hrest, ← List.nil_append (word ++ (field ++ rest)), ← List.append_assoc []]
    exact store_between rfl hwordLength
  have hcount : store (wordBytes marker ++ (field ++ rest)) 4 (halfwordBytes 0#16) =
      some (header 0 ++ rest) := by
    rw [← List.append_assoc]
    exact store_between rfl hfield
  refine ⟨⟨header 0 ++ rest, 6, size - 6, 0, firstread, retryCount, []⟩, ?_, ?_, rfl, rfl, rfl⟩
  · simp only [read, if_true, Option.bind_eq_bind]
    rw [hmarker, Option.bind_some, hcount, Option.bind_some]
  · have hrestLength : rest.length = size - 6 := by
      rw [← hdrop, List.length_drop, hlength]
    rw [hdrop]
    refine ⟨rfl, rfl, hrestLength.symm, Nat.le_refl 0, ?_⟩
    show 6 + 0 + rest.length < 2 ^ 16
    omega

/-- **The buffer decodes to the driver's chunks** just in the calls in which no chunk comes after an
    `EAGAIN`. -/
theorem framed_iff (firstread : Bool) (outcomes : List Outcome) (size : Nat) (hsize : 6 ≤ size)
    (hsmall : size ≤ 65535) (herror : .error ∉ outcomes) :
    Framed firstread outcomes size ↔ ¬ Gap firstread (size - 6) outcomes := by
  constructor
  · intro hframed hgap
    have hlength : (List.replicate size (0 : UInt8)).length = size := List.length_replicate
    obtain ⟨s, hread, hlaid, hcount, hfirst, hdelivered⟩ :=
      read_start firstread 0 outcomes hlength hsize hsmall
    have hzeros : ∀ b ∈ (List.replicate size (0 : UInt8)).drop 6, b = 0 :=
      fun b hb => List.eq_of_mem_replicate (List.mem_of_mem_drop hb)
    rw [← hcount, ← hfirst] at hgap
    obtain ⟨r, hr, hret, hdecode⟩ := hlaid.gap_holes hzeros hdelivered hgap herror
    obtain ⟨r', hr', hdecode'⟩ := hframed 0 _ hlength
    rw [hread, hr] at hr'
    cases hr'
    exact hdecode (hdecode' hret)
  · intro hgap retryCount buffer hlength
    obtain ⟨s, hread, hlaid, hcount, hfirst, hdelivered⟩ :=
      read_start firstread retryCount outcomes hlength hsize hsmall
    rw [← hcount, ← hfirst] at hgap
    obtain ⟨r, hr, hdecode⟩ := hlaid.framed hdelivered hgap
    exact ⟨r, hread.trans hr, fun _ => hdecode⟩

theorem framed_iff_eagain_at_end :
    Outcome.error ∉ [.data 1 [2, 3], .eagain, .zero] ∧
      Framed true [.data 1 [2, 3], .eagain, .zero] 20 := by
  have herror : Outcome.error ∉ [.data 1 [2, 3], .eagain, .zero] := by decide
  refine ⟨herror, (framed_iff true _ 20 (by decide) (by decide) herror).mpr ?_⟩
  rw [gap_data, gap_eagain]
  exact fun h => stall_zero h.2

/-- **A retried read leaves a hole**: two bytes delivered after an `EAGAIN` are decoded as an empty
    frame. -/
theorem retry_leaves_hole :
    ∃ r, read true true 0 [.eagain, .data 7 [8]] (List.replicate 20 0) 20 = some r ∧
      r.1 = 20 ∧ r.2.delivered = [[7, 8]] ∧ decode r.2.cells = some [[]] :=
  ⟨_, rfl, by decide, by decide, by decide⟩

end Calls

end Y210.Audio.Aac

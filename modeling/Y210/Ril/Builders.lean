/-
  File:      Y210/Ril/Builders.lean
  Subject:   THE BLOCKS THE SHIM BUILDS for the blob: `simIoToQc`, `imsiArgsV6` and
             `stringsWithAid`, byte by byte.

  A builder adds up the sizes of its strings, allocates one block, and fills it from two ends: the
  struct or the array of pointers from its beginning, the strings from right behind that. A store
  that reaches out of the block has no result here. A `size_t` has 32 bits.

  * `copyStr`, `setFields`, `simIoToQc`, `imsiArgsV6`, `stringsWithAid` -- the code;
  * `HeapBlock.Holds` -- what a block should hold;
  * `setFields_eq` -- the two passes meet where the block ends;
  * `builders_fill_their_blocks` -- every builder, for strings whose sizes a `size_t` adds up;
  * `simIo_refines`, `strings_refine` -- what is read from a block is what `Shim` says of it;
  * `strings_overrun` -- strings of 4.5 GiB.
-/
import Y210.Lib.Bytes
import Y210.Ril.Shim

namespace Y210.Ril.Builders

open Y210.Lib

/-! ## 1. Strings and blocks -/

/-- A C string in memory: its bytes up to the NUL. -/
structure CString where
  bytes : List UInt8
  noNul : 0 ∉ bytes
  inMemory : bytes.length + 1 < 2 ^ 32

/-- The string as `Layout` has it. -/
def CString.text (s : CString) : CStr := s.bytes.map fun c => Char.ofNat c.toNat

/-- What `malloc` returns for a size, if it is not NULL. -/
structure Malloced (size : Nat) where
  base : Nat
  cells : List UInt8
  length_cells : cells.length = size
  nonNull : 0 < base
  inMemory : base + size ≤ 2 ^ 32

abbrev Malloc := (size : Nat) → Option (Malloced size)

/-- A block and where it begins. -/
structure HeapBlock where
  base : Nat
  cells : List UInt8

/-- The string at an address in the block. -/
def HeapBlock.readStr (b : HeapBlock) (p : Word) : Option (List UInt8) :=
  if b.base ≤ p.toNat then readNul (b.cells.drop (p.toNat - b.base)) else none

/-- `RIL_SIM_IO` with its strings in memory. -/
structure SimIoIn where
  command : Word
  fileid : Word
  path : Option CString
  p1 : Word
  p2 : Word
  p3 : Word
  data : Option CString
  pin2 : Option CString

/-! ## 2. The code -/

def strSize : Option CString → Nat
  | none => 0
  | some s => s.bytes.length + 1

/-- A block that is being filled, and the offset `str` points to. -/
structure Build where
  cells : List UInt8
  str : Nat

/-- `copyStr`: the pointer to the copy. -/
def copyStr (base : Nat) (b : Build) : Option CString → Option (Build × Word)
  | none => some (b, 0)
  | some s => do
    let cells ← store b.cells b.str (nulTerminated s.bytes)
    return (⟨cells, b.str + (nulTerminated s.bytes).length⟩, BitVec.ofNat 32 (base + b.str))

/-- What is assigned to a word of the struct or of the array. -/
inductive Field where
  | scalar (w : Word)
  | string (s : Option CString)

/-- The right side of an assignment. -/
def Field.eval (base : Nat) (b : Build) : Field → Option (Build × Word)
  | .scalar w => some (b, w)
  | .string s => copyStr base b s

/-- The assignments from the word `i` on, in their order. -/
def setFields (base : Nat) : Nat → List Field → Build → Option Build
  | _, [], b => some b
  | i, f :: fs, b => do
    let (b, w) ← f.eval base b
    let cells ← store b.cells (sizeofPtr * i) (wordBytes w)
    setFields base (i + 1) fs ⟨cells, b.str⟩

/-- A builder: a block of `size` bytes, with the strings behind its words. The inner `none` is
    NULL. -/
def build (malloc : Malloc) (size : Nat) (fields : List Field) : Option (Option HeapBlock) :=
  match malloc size with
  | none => some none
  | some m => do
    let b ← setFields m.base 0 fields ⟨m.cells, sizeofPtr * fields.length⟩
    return some ⟨m.base, b.cells⟩

/-- The words of `RIL_SIM_IO_qc`. -/
def simIoFields (io : SimIoIn) (aid : Option CString) : List Field :=
  [.scalar 0, .scalar io.command, .scalar io.fileid, .string io.path, .scalar io.p1, .scalar io.p2,
    .scalar io.p3, .string io.data, .string io.pin2, .string aid]

/-- **`simIoToQc`.** -/
def simIoToQc (malloc : Malloc) (io : SimIoIn) (aid : Option CString) :
    Option (Option HeapBlock) :=
  build malloc ((sizeofSimIoQc + strSize io.path + strSize io.data + strSize io.pin2 +
    strSize aid) % 2 ^ 32) (simIoFields io aid)

/-- **`imsiArgsV6`.** -/
def imsiArgsV6 (malloc : Malloc) (aid : Option CString) : Option (Option HeapBlock) :=
  build malloc ((sizeofPtr + strSize aid) % 2 ^ 32) [.string aid]

/-- The pointers of `stringsWithAid`. -/
def stringsFields (strings : List (Option CString)) (aid : Option CString) : List Field :=
  strings.map .string ++ [.string aid]

/-- **`stringsWithAid`**, with the `n` strings of its caller. -/
def stringsWithAid (malloc : Malloc) (strings : List (Option CString)) (aid : Option CString) :
    Option (Option HeapBlock) :=
  let size := ((strings.length + 1) * sizeofPtr + strSize aid) % 2 ^ 32
  let size := strings.foldl (fun size s => (size + strSize s) % 2 ^ 32) size
  build malloc size (stringsFields strings aid)

/-! ## 3. What a block should hold -/

/-- The bytes a field has behind the words. -/
def Field.copy : Field → List UInt8
  | .string (some s) => nulTerminated s.bytes
  | _ => []

/-- The strings of the fields, one after another. -/
def copies (fields : List Field) : List UInt8 := fields.flatMap Field.copy

/-- The size of the words and the strings together. -/
def bytes (fields : List Field) : Nat := sizeofPtr * fields.length + (copies fields).length

/-- **A field as it should be stored** in the word `i`: a scalar is the word, NULL is 0, and a
    string is the address of a copy at `offset` in the block. -/
def Field.Stored (b : HeapBlock) (i offset : Nat) : Field → Prop
  | .scalar w => readWord b.cells (sizeofPtr * i) = some w
  | .string none => readWord b.cells (sizeofPtr * i) = some 0
  | .string (some s) => ∃ p, readWord b.cells (sizeofPtr * i) = some p ∧ p ≠ 0 ∧
      p.toNat = b.base + offset ∧ offset + s.bytes.length + 1 ≤ b.cells.length ∧
      b.readStr p = some s.bytes

/-- **A block that holds the fields**: it is the words and the copies and nothing else, and every
    field is stored, with its copy right behind those of the fields before it. -/
structure HeapBlock.Holds (b : HeapBlock) (fields : List Field) : Prop where
  parts : ∃ words, words.length = sizeofPtr * fields.length ∧ b.cells = words ++ copies fields
  stored : ∀ (i : Nat) (f : Field), fields[i]? = some f →
    f.Stored b i (sizeofPtr * fields.length + (copies (fields.take i)).length)

/-- **A builder fills its block**: it returns NULL if `malloc` does, and else the block that
    `malloc` gave it, of the size of the fields, holding them. -/
def Fills (malloc : Malloc) (out : Option (Option HeapBlock)) (fields : List Field) : Prop :=
  (malloc (bytes fields) = none → out = some none) ∧
    ∀ m, malloc (bytes fields) = some m → ∃ b, out = some (some b) ∧ b.base = m.base ∧
      b.cells.length = bytes fields ∧ b.Holds fields

/-! ## 4. Filling a block -/

section Filling

variable {base i str : Nat} {f : Field} {fs : List Field} {b : HeapBlock}
  {words gap done rest : List UInt8}

/-- The word of a field whose copy goes to `offset`. -/
def Field.word (base offset : Nat) : Field → Word
  | .scalar w => w
  | .string none => 0
  | .string (some _) => BitVec.ofNat 32 (base + offset)

/-- The words of fields whose copies begin at `offset`. -/
def header (base : Nat) : Nat → List Field → List UInt8
  | _, [] => []
  | offset, f :: fs => wordBytes (f.word base offset) ++ header base (offset + f.copy.length) fs

theorem copies_cons (f : Field) (fs : List Field) : copies (f :: fs) = f.copy ++ copies fs :=
  List.flatMap_cons

theorem length_header (base offset : Nat) (fs : List Field) :
    (header base offset fs).length = sizeofPtr * fs.length := by
  induction fs generalizing offset with
  | nil => rfl
  | cons f fs ih =>
      rw [header, List.length_append, ih, length_wordBytes, List.length_cons]
      unfold sizeofPtr
      omega

/-- The copy of a field goes where `str` points to. -/
theorem Field.eval_eq (base : Nat) (f : Field) {before here : List UInt8} (behind : List UInt8)
    (hstr : before.length = str) (hhere : here.length = f.copy.length) :
    f.eval base ⟨before ++ here ++ behind, str⟩ =
      some (⟨before ++ f.copy ++ behind, str + f.copy.length⟩, f.word base str) := by
  match f with
  | .scalar w =>
      have hnone : here = [] := List.eq_nil_of_length_eq_zero hhere
      simp [Field.eval, Field.copy, Field.word, hnone]
  | .string none =>
      have hnone : here = [] := List.eq_nil_of_length_eq_zero hhere
      simp [Field.eval, copyStr, Field.copy, Field.word, hnone]
  | .string (some s) =>
      have hstore : store (before ++ here ++ behind) str (nulTerminated s.bytes) =
          some (before ++ nulTerminated s.bytes ++ behind) := store_between hstr hhere
      simp only [Field.eval, copyStr, hstore, Field.copy, Field.word]
      rfl

/-- **The assignments fill the block**: the words from the beginning, the copies behind them. -/
theorem setFields_eq (hwords : words.length = sizeofPtr * i)
    (hgap : gap.length = sizeofPtr * fs.length) (hrest : rest.length = (copies fs).length)
    (hstr : words.length + gap.length + done.length = str) :
    setFields base i fs ⟨words ++ gap ++ done ++ rest, str⟩ =
      some ⟨words ++ header base str fs ++ done ++ copies fs, str + (copies fs).length⟩ := by
  induction fs generalizing i words gap done rest str with
  | nil =>
      have hgap : gap = [] := List.eq_nil_of_length_eq_zero hgap
      have hrest : rest = [] := List.eq_nil_of_length_eq_zero hrest
      subst hgap hrest
      rfl
  | cons f fs ih =>
      simp only [copies_cons, List.length_append, List.length_cons, sizeofPtr] at hrest hgap hwords
      -- the word of this field, and the place of its copy
      obtain ⟨gap₁, gap₂, rfl, hgap₁⟩ := exists_append (l := gap) (n := 4) (by omega)
      obtain ⟨rest₁, rest₂, rfl, hrest₁⟩ :=
        exists_append (l := rest) (n := f.copy.length) (by omega)
      simp only [List.length_append] at hrest hgap hstr
      have heval : f.eval base ⟨words ++ (gap₁ ++ gap₂) ++ done ++ rest₁ ++ rest₂, str⟩ =
          some (⟨words ++ (gap₁ ++ gap₂) ++ done ++ f.copy ++ rest₂, str + f.copy.length⟩,
            f.word base str) :=
        f.eval_eq base rest₂ (by simp only [List.length_append]; omega) hrest₁
      have hword : store (words ++ gap₁ ++ (gap₂ ++ done ++ f.copy ++ rest₂)) (sizeofPtr * i)
            (wordBytes (f.word base str)) =
          some (words ++ wordBytes (f.word base str) ++ (gap₂ ++ done ++ f.copy ++ rest₂)) :=
        store_between hwords hgap₁
      have htail : setFields base (i + 1) fs
          ⟨words ++ wordBytes (f.word base str) ++ gap₂ ++ (done ++ f.copy) ++ rest₂,
            str + f.copy.length⟩ = _ :=
        ih (by simp only [List.length_append, length_wordBytes, sizeofPtr]; omega)
          (by unfold sizeofPtr; omega) (by omega)
          (by simp only [List.length_append, length_wordBytes]; omega)
      simp only [List.append_assoc] at heval hword htail ⊢
      simp only [setFields, heval, Option.bind_eq_bind, Option.bind_some, hword, htail, header,
        copies_cons, List.append_assoc, List.length_append, Nat.add_assoc]

/-- **A builder that asks for the right size.** -/
theorem build_eq (malloc : Malloc) (fs : List Field) {m : Malloced (bytes fs)}
    (hm : malloc (bytes fs) = some m) :
    build malloc (bytes fs) fs =
      some (some ⟨m.base, header m.base (sizeofPtr * fs.length) fs ++ copies fs⟩) := by
  have hlength := m.length_cells
  unfold bytes at hlength
  obtain ⟨gap, rest, hcells, hgap⟩ := exists_append (l := m.cells) (n := sizeofPtr * fs.length)
    (by omega)
  rw [hcells, List.length_append] at hlength
  have hfilled : setFields m.base 0 fs ⟨[] ++ gap ++ [] ++ rest, sizeofPtr * fs.length⟩ = _ :=
    setFields_eq rfl hgap (by omega) (by simp [hgap])
  simp only [List.nil_append, List.append_nil] at hfilled
  simp only [build, hm, hcells, hfilled]
  rfl

end Filling

/-! ## 5. Reading a block -/

section Reading

variable {f : Field} {fs before behind : List Field}

theorem copies_append (fs gs : List Field) : copies (fs ++ gs) = copies fs ++ copies gs :=
  List.flatMap_append

theorem header_append (base offset : Nat) (fs gs : List Field) :
    header base offset (fs ++ gs) =
      header base offset fs ++ header base (offset + (copies fs).length) gs := by
  induction fs generalizing offset with
  | nil => rfl
  | cons f fs ih =>
      rw [List.cons_append, header, ih, header, copies_cons, List.length_append, List.append_assoc,
        Nat.add_assoc]

/-- What a builder leaves in its block. -/
def filled (base : Nat) (fs : List Field) : HeapBlock :=
  ⟨base, header base (sizeofPtr * fs.length) fs ++ copies fs⟩

/-- The word of a field. -/
theorem filled_word (base : Nat) (before : List Field) (f : Field) (behind : List Field) :
    readWord (filled base (before ++ f :: behind)).cells (sizeofPtr * before.length) =
      some (f.word base (sizeofPtr * (before ++ f :: behind).length + (copies before).length)) := by
  simp only [filled, header_append, header, List.append_assoc]
  exact readWord_between (length_header _ _ _)

theorem length_filled (base : Nat) (fs : List Field) :
    (filled base fs).cells.length = bytes fs := by
  rw [filled, List.length_append, length_header]
  rfl

/-- The copy of a string is where its word points to. -/
theorem filled_copy (base : Nat) (before : List Field) (s : CString) (behind : List Field)
    {p : Word} (hp : p.toNat = base +
      (sizeofPtr * (before ++ .string (some s) :: behind).length + (copies before).length)) :
    (filled base (before ++ .string (some s) :: behind)).readStr p = some s.bytes := by
  have hle : base ≤ p.toNat := by omega
  have hoffset : p.toNat - base = (header base
      (sizeofPtr * (before ++ .string (some s) :: behind).length)
      (before ++ .string (some s) :: behind) ++ copies before).length := by
    rw [List.length_append, length_header]
    omega
  rw [HeapBlock.readStr, filled, if_pos hle, hoffset, copies_append, copies_cons,
    ← List.append_assoc, List.drop_left]
  exact readNul_nulTerminated s.noNul _

/-- **A filled block holds its fields.** -/
theorem filled_holds {base : Nat} {fs : List Field} (hbase : 0 < base)
    (hmemory : base + bytes fs ≤ 2 ^ 32) : (filled base fs).Holds fs := by
  refine ⟨⟨_, length_header _ _ _, rfl⟩, fun i f hf => ?_⟩
  obtain ⟨hi, -⟩ := List.getElem?_eq_some_iff.mp hf
  obtain ⟨before, behind, hfs, rfl⟩ : ∃ before behind, fs = before ++ f :: behind ∧
      before.length = i :=
    ⟨fs.take i, fs.drop (i + 1), split_at hf, List.length_take_of_le (Nat.le_of_lt hi)⟩
  subst hfs
  rw [List.take_left]
  have hword := filled_word base before f behind
  match f with
  | .scalar w => exact hword
  | .string none => exact hword
  | .string (some s) =>
      have hroom : sizeofPtr * (before ++ .string (some s) :: behind).length +
          (copies before).length + s.bytes.length + 1 ≤
            bytes (before ++ .string (some s) :: behind) := by
        simp only [bytes, copies_append, copies_cons, Field.copy, List.length_append,
          length_nulTerminated]
        omega
      have hp : (BitVec.ofNat 32 (base +
          (sizeofPtr * (before ++ .string (some s) :: behind).length +
            (copies before).length))).toNat = base +
          (sizeofPtr * (before ++ .string (some s) :: behind).length + (copies before).length) := by
        rw [BitVec.toNat_ofNat]
        exact Nat.mod_eq_of_lt (by omega)
      refine ⟨_, hword, fun hzero => ?_, hp, ?_, filled_copy base before s behind hp⟩
      · rw [Field.word] at hzero
        rw [hzero] at hp
        simp at hp
        omega
      · rw [length_filled]
        exact hroom

/-- **A builder that asks for the size of its fields fills its block.** -/
theorem build_fills (malloc : Malloc) (fs : List Field) :
    Fills malloc (build malloc (bytes fs) fs) fs := by
  refine ⟨fun hnull => by rw [build, hnull], fun m hm => ?_⟩
  exact ⟨filled m.base fs, build_eq malloc fs hm, rfl, length_filled _ _,
    filled_holds m.nonNull m.inMemory⟩

end Reading

/-! ## 6. The sizes -/

section Sizes

variable {strings : List (Option CString)}

theorem length_copy (s : Option CString) : (Field.string s).copy.length = strSize s := by
  cases s with
  | none => rfl
  | some s => exact length_nulTerminated _

theorem bytes_simIoFields (io : SimIoIn) (aid : Option CString) :
    bytes (simIoFields io aid) = sizeofSimIoQc + strSize io.path + strSize io.data +
      strSize io.pin2 + strSize aid := by
  have hscalar (w : Word) : (Field.scalar w).copy = [] := rfl
  simp only [bytes, simIoFields, copies_cons, hscalar, List.length_append, length_copy,
    List.length_cons, List.length_nil, sizeofPtr, sizeofSimIoQc]
  simp [copies]
  omega

/-- The loop over the strings adds their sizes up, as far as 32 bits go. -/
theorem foldl_strSize (strings : List (Option CString)) (size : Nat) :
    strings.foldl (fun size s => (size + strSize s) % 2 ^ 32) (size % 2 ^ 32) =
      (size + (copies (strings.map .string)).length) % 2 ^ 32 := by
  induction strings generalizing size with
  | nil => rfl
  | cons s strings ih =>
      have hstep : (size % 2 ^ 32 + strSize s) % 2 ^ 32 = (size + strSize s) % 2 ^ 32 :=
        Nat.mod_add_mod _ _ _
      rw [List.foldl_cons, hstep, ih, List.map_cons, copies_cons, List.length_append, length_copy,
        Nat.add_assoc]

theorem bytes_stringsFields (strings : List (Option CString)) (aid : Option CString) :
    bytes (stringsFields strings aid) = (strings.length + 1) * sizeofPtr + strSize aid +
      (copies (strings.map .string)).length := by
  simp only [bytes, stringsFields, copies_append, copies_cons, List.length_append, length_copy,
    List.length_map, List.length_singleton, sizeofPtr]
  simp [copies]
  omega

end Sizes

/-- **Every builder fills its block**, for any number of strings whose sizes a `size_t` adds up. -/
theorem builders_fill_their_blocks (malloc : Malloc) (io : SimIoIn)
    (strings : List (Option CString)) (aid : Option CString)
    (hsim : bytes (simIoFields io aid) < 2 ^ 32)
    (hstrings : bytes (stringsFields strings aid) < 2 ^ 32) :
    Fills malloc (simIoToQc malloc io aid) (simIoFields io aid) ∧
      Fills malloc (imsiArgsV6 malloc aid) [.string aid] ∧
      Fills malloc (stringsWithAid malloc strings aid) (stringsFields strings aid) := by
  refine ⟨?_, ?_, ?_⟩
  · rw [simIoToQc, ← bytes_simIoFields, Nat.mod_eq_of_lt hsim]
    exact build_fills malloc _
  · have himsi : bytes [.string aid] = sizeofPtr + strSize aid := by
      have h := bytes_stringsFields [] aid
      simpa [stringsFields, copies] using h
    have hlt : sizeofPtr + strSize aid < 2 ^ 32 := by
      rw [bytes_stringsFields] at hstrings
      unfold sizeofPtr at *
      omega
    rw [imsiArgsV6, Nat.mod_eq_of_lt hlt, ← himsi]
    exact build_fills malloc _
  · have hsize : strings.foldl (fun size s => (size + strSize s) % 2 ^ 32)
        (((strings.length + 1) * sizeofPtr + strSize aid) % 2 ^ 32) =
        bytes (stringsFields strings aid) := by
      rw [foldl_strSize, ← bytes_stringsFields, Nat.mod_eq_of_lt hstrings]
    simp only [stringsWithAid, hsize]
    exact build_fills malloc _

/-- An allocator that gives out the memory from address 8 on. -/
def fromEight : Malloc := fun size =>
  if h : 8 + size ≤ 2 ^ 32 then
    some ⟨8, List.replicate size 0, List.length_replicate, by decide, h⟩
  else none

/-- A PIN, `1234`. -/
def pin : CString := ⟨[49, 50, 51, 52], by decide, by decide⟩

/-- The beginning of an AID. -/
def usim : CString := ⟨[65, 48], by decide, by decide⟩

theorem builders_fill_their_blocks_pin :
    (stringsWithAid fromEight [some pin, none] (some usim)).map (Option.map HeapBlock.cells) =
      some (some [20, 0, 0, 0, 0, 0, 0, 0, 25, 0, 0, 0, 49, 50, 51, 52, 0, 65, 48, 0]) ∧
    Fills fromEight (stringsWithAid fromEight [some pin, none] (some usim))
      (stringsFields [some pin, none] (some usim)) :=
  ⟨by decide, (builders_fill_their_blocks fromEight ⟨176, 28421, none, 0, 0, 15, none, none⟩
    [some pin, none] (some usim) (by decide) (by decide)).2.2⟩

/-! ## 7. What is read from a block -/

section Refines

variable {b : HeapBlock} {i offset : Nat}

/-- The characters of a string in memory. -/
def textOf (bytes : List UInt8) : CStr := bytes.map fun c => Char.ofNat c.toNat

/-- The string a word of the block points to; the inner `none` is NULL. -/
def HeapBlock.readPtr (b : HeapBlock) (i : Nat) : Option (Option CStr) := do
  let p ← readWord b.cells (sizeofPtr * i)
  if p = 0 then return none
  else
    let s ← b.readStr p
    return some (textOf s)

/-- `n` pointers from the word `i` on. -/
def HeapBlock.readPtrs (b : HeapBlock) : Nat → Nat → Option (List (Option CStr))
  | _, 0 => some []
  | i, n + 1 => do
    let s ← b.readPtr i
    let rest ← b.readPtrs (i + 1) n
    return s :: rest

/-- The block as `RIL_SIM_IO_qc`. -/
def HeapBlock.readSimIoQc (b : HeapBlock) : Option SimIoQc := do
  let leading ← readWord b.cells 0
  let command ← readWord b.cells 4
  let fileid ← readWord b.cells 8
  let path ← b.readPtr 3
  let p1 ← readWord b.cells 16
  let p2 ← readWord b.cells 20
  let p3 ← readWord b.cells 24
  let data ← b.readPtr 7
  let pin2 ← b.readPtr 8
  let aidPtr ← b.readPtr 9
  return ⟨leading, command, fileid, path, p1, p2, p3, data, pin2, aidPtr⟩

/-- The struct of libril with the strings it points to. -/
def SimIoIn.value (io : SimIoIn) : SimIo where
  command := io.command
  fileid := io.fileid
  path := io.path.map CString.text
  p1 := io.p1
  p2 := io.p2
  p3 := io.p3
  data := io.data.map CString.text
  pin2 := io.pin2.map CString.text

theorem Stored.readPtr {s : Option CString} (h : (Field.string s).Stored b i offset) :
    b.readPtr i = some (s.map CString.text) := by
  cases s with
  | none =>
      have hword : readWord b.cells (sizeofPtr * i) = some 0 := h
      simp [HeapBlock.readPtr, hword]
  | some s =>
      obtain ⟨p, hword, hp, -, -, hstr⟩ := h
      simp only [HeapBlock.readPtr, hword, Option.bind_eq_bind, Option.bind_some, if_neg hp, hstr]
      rfl

/-- **A SIM I/O block is read as the struct of the shim.** -/
theorem simIo_refines {io : SimIoIn} {aid : Option CString} (h : b.Holds (simIoFields io aid)) :
    b.readSimIoQc = some (Ril.simIoToQc io.value (aid.map CString.text)) := by
  have hleading : readWord b.cells 0 = some 0 := h.stored 0 _ rfl
  have hcommand : readWord b.cells 4 = some io.command := h.stored 1 _ rfl
  have hfileid : readWord b.cells 8 = some io.fileid := h.stored 2 _ rfl
  have hp1 : readWord b.cells 16 = some io.p1 := h.stored 4 _ rfl
  have hp2 : readWord b.cells 20 = some io.p2 := h.stored 5 _ rfl
  have hp3 : readWord b.cells 24 = some io.p3 := h.stored 6 _ rfl
  have hpath := Stored.readPtr (h.stored 3 (.string io.path) rfl)
  have hdata := Stored.readPtr (h.stored 7 (.string io.data) rfl)
  have hpin2 := Stored.readPtr (h.stored 8 (.string io.pin2) rfl)
  have haid := Stored.readPtr (h.stored 9 (.string aid) rfl)
  simp only [HeapBlock.readSimIoQc, hleading, hcommand, hfileid, hpath, hp1, hp2, hp3, hdata, hpin2,
    haid, Option.bind_eq_bind, Option.bind_some]
  rfl

theorem readPtrs_eq (strings : List (Option CString)) {before behind : List Field}
    (h : b.Holds (before ++ strings.map .string ++ behind)) :
    b.readPtrs before.length strings.length = some (strings.map (Option.map CString.text)) := by
  induction strings generalizing before with
  | nil => rfl
  | cons s strings ih =>
      have hs : (before ++ (s :: strings).map Field.string ++ behind)[before.length]? =
          some (.string s) := by
        simp
      have hrest : b.Holds ((before ++ [.string s]) ++ strings.map .string ++ behind) := by
        simpa using h
      have htail := ih hrest
      rw [List.length_append, List.length_singleton] at htail
      rw [List.length_cons, HeapBlock.readPtrs, Stored.readPtr (h.stored _ _ hs), htail]
      rfl

/-- **A block of strings is read as the strings of the shim.** -/
theorem strings_refine {strings : List (Option CString)} {aid : Option CString}
    (h : b.Holds (stringsFields strings aid)) :
    b.readPtrs 0 (strings.length + 1) =
      some (Ril.stringsWithAid (strings.map (Option.map CString.text)) strings.length
        (aid.map CString.text)) := by
  have hfields : b.Holds ([] ++ (strings ++ [aid]).map .string ++ []) := by
    simpa [stringsFields] using h
  have hall := readPtrs_eq (strings ++ [aid]) hfields
  rw [List.length_append, List.map_append] at hall
  rw [Ril.stringsWithAid, List.take_of_length_le (by simp)]
  exact hall

end Refines

/-! ## 8. Strings that are too long -/

/-- The first of three strings of 1.5 GiB is copied out of the block. -/
theorem stringsWithAid_overrun {malloc : Malloc} {m : Malloced 536870924} {s : CString}
    (hm : malloc 536870924 = some m) (hs : s.bytes.length = 1610612735) :
    stringsWithAid malloc [some s, some s] (some s) = none := by
  have hsize : strSize (some s) = 1610612736 := by rw [strSize, hs]
  have hcopy : store m.cells 12 (nulTerminated s.bytes) = none := by
    refine store_outside ?_
    rw [m.length_cells, length_nulTerminated, hs]
    decide
  have hasked : stringsWithAid malloc [some s, some s] (some s) =
      build malloc 536870924 (stringsFields [some s, some s] (some s)) := by
    simp only [stringsWithAid, List.foldl_cons, List.foldl_nil, hsize, List.length_cons,
      List.length_nil, sizeofPtr, Nat.reduceAdd, Nat.reduceMul, Nat.reducePow, Nat.reduceMod]
  rw [hasked, build, hm]
  simp only [stringsFields, List.map_cons, List.map_nil, List.cons_append, List.nil_append,
    setFields, Field.eval, copyStr, List.length_cons, List.length_nil, sizeofPtr, Nat.reduceAdd,
    Nat.reduceMul, hcopy, Option.bind_eq_bind, Option.bind_none]

/-- A string of `n` times the same letter. -/
def repeated (n : Nat) (h : n + 1 < 2 ^ 32) : CString where
  bytes := List.replicate n 97
  noNul := fun hmem => absurd (List.eq_of_mem_replicate hmem) (by decide)
  inMemory := by rwa [List.length_replicate]

/-- **A block that is too small**: with a string of 1.5 GiB three times the sizes are 4.5 GiB and 12
    bytes, `malloc` is asked for 4 GiB less, and the first copy reaches out of the block. -/
theorem strings_overrun :
    (fromEight 536870924).isSome = true ∧
      stringsWithAid fromEight
        [some (repeated 1610612735 (by decide)), some (repeated 1610612735 (by decide))]
        (some (repeated 1610612735 (by decide))) = none := by
  have hsome : (fromEight 536870924).isSome = true := by
    rw [fromEight, dif_pos (by decide)]
    exact Option.isSome_some
  obtain ⟨m, hm⟩ := Option.isSome_iff_exists.mp hsome
  exact ⟨hsome, stringsWithAid_overrun hm List.length_replicate⟩

end Y210.Ril.Builders

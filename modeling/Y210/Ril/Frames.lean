/-
  File:      Y210/Ril/Frames.lean
  Subject:   WHAT LIBRIL WRITES TO ITS SOCKETS (ril.cpp, `sendResponseRaw`, `blockingWrite`).

  Any number of threads send responses and the event thread opens and closes the command socket
  meanwhile. `sendResponseRaw` reads `s_fdCommand` twice before it takes `s_writeMutex`; the event
  thread closes the socket without that mutex; and `blockingWrite` closes the descriptor itself when
  a write fails. So a descriptor can be closed, and its number be given to another file, while a
  thread still writes to it. `table` has the file each descriptor stands for, `files` the bytes
  libril wrote to each file; a descriptor is opened and closed by anyone at any time.

  `handed` is the history of the packets for which the mutex was taken, each with the file that
  `s_fdCommand` stood for when it was read.

  * `step` -- the machine;
  * `pieces_of_frames` -- with no condition, each file gets one unbroken piece of a sequence of
    frames;
  * `frames_arrive_whole` -- if no descriptor is opened while a send still holds its number, each
    file gets whole frames of the packets that were meant for it.
-/
import Mathlib.Logic.Function.Basic
import Y210.Lib.Indexed
import Y210.Lib.Records
import Y210.Lib.Run

namespace Y210.Ril.Frames

open Y210.Lib

/-! ## 1. Frames -/

/-- `MAX_COMMAND_BYTES`. -/
def maxCommandBytes : Nat := 8192

/-- `htonl`, as the bytes in memory. -/
def be32 (n : Nat) : List UInt8 :=
  [UInt8.ofNat (n / 16777216), UInt8.ofNat (n / 65536), UInt8.ofNat (n / 256), UInt8.ofNat n]

def ofBe32 : List UInt8 → Nat
  | [a, b, c, d] => a.toNat * 16777216 + b.toNat * 65536 + c.toNat * 256 + d.toNat
  | _ => 0

theorem ofBe32_be32 (n : Nat) (hn : n < 4294967296) : ofBe32 (be32 n) = n := by
  simp only [ofBe32, be32, UInt8.toNat_ofNat']
  omega

/-- The header of a packet: its length, in network order. -/
def header : Header UInt8 where
  width := 4
  bound := 4294967296
  write := be32
  read := ofBe32
  length_write := fun _ => rfl
  read_write := ofBe32_be32

/-! ## 2. The machine -/

/-- A packet, and the file that `s_fdCommand` stood for. -/
structure Packet where
  data : List UInt8
  file : Option Nat
  deriving DecidableEq

/-- A call of `sendResponseRaw` before it has the mutex; `fd` is `none` for `-1`. -/
structure Send where
  fd : Option Nat
  packet : Packet
  checked : Bool
  deriving DecidableEq

/-- The call that has the mutex. -/
structure Writer where
  fd : Option Nat
  packet : Packet
  written : Nat
  failed : Bool
  deriving DecidableEq

structure State where
  table : Nat → Option Nat
  files : List (List UInt8)
  fdCommand : Option Nat
  sends : List Send
  writer : Option Writer
  handed : List Packet

def init : State where
  table := fun _ => none
  files := []
  fdCommand := none
  sends := []
  writer := none
  handed := []

inductive Act where
  -- any thread that sends
  | call (data : List UInt8)
  | check (n : Nat)
  | lock (n : Nat)
  | write (k : Nat)
  | fail
  | closeFailed
  | unlock
  -- the event thread, and whoever else has descriptors
  | accept (fd : Nat)
  | hangup
  | forget
  | openOther (fd : Nat)
  | closeOther (fd : Nat)

/-- What is left of the frame. -/
def Writer.rest (w : Writer) : List UInt8 := (header.frame w.packet.data).drop w.written

/-- What is left of the buffer of this `blockingWrite`: of the header, then of the data. -/
def Writer.room (w : Writer) : Nat :=
  if w.written < 4 then 4 - w.written else 4 + w.packet.data.length - w.written

def openFile (s : State) (fd : Nat) : State :=
  { s with
    table := Function.update s.table fd (some s.files.length)
    files := s.files ++ [[]] }

def closeFd (s : State) (fd : Nat) : State := { s with table := Function.update s.table fd none }

/-- The file a descriptor stands for. -/
def fileAt (table : Nat → Option Nat) (fd : Option Nat) : Option Nat := fd.bind table

def step (s : State) : Act → Option State
  | .call data =>
    some { s with
      sends := s.sends ++ [⟨s.fdCommand, ⟨data, fileAt s.table s.fdCommand⟩, false⟩] }
  | .check n =>
    match s.sends[n]? with
    | some ⟨fd, p, false⟩ =>
      if s.fdCommand = none ∨ maxCommandBytes < p.data.length then
        some { s with sends := s.sends.eraseIdx n }
      else some { s with sends := s.sends.set n ⟨fd, p, true⟩ }
    | _ => none
  | .lock n =>
    match s.sends[n]?, s.writer with
    | some ⟨fd, p, true⟩, none =>
      some { s with
        sends := s.sends.eraseIdx n
        writer := some ⟨fd, p, 0, false⟩
        handed := s.handed ++ [p] }
    | _, _ => none
  | .write k =>
    match s.writer with
    | some w =>
      match fileAt s.table w.fd with
      | some f =>
        if w.failed = false ∧ k ≤ w.room then
          some { s with
            files := s.files.modify f (· ++ w.rest.take k)
            writer := some { w with written := w.written + k } }
        else none
      | none => none
    | none => none
  | .fail =>
    match s.writer with
    | some w =>
      if w.failed = false ∧ w.rest ≠ [] then
        some { s with writer := some { w with failed := true } }
      else none
    | none => none
  | .closeFailed =>
    match s.writer with
    | some w =>
      if w.failed then
        match w.fd with
        | some fd => some { closeFd s fd with writer := none }
        | none => some { s with writer := none }
      else none
    | none => none
  | .unlock =>
    match s.writer with
    | some w => if w.failed = false ∧ w.rest = [] then some { s with writer := none } else none
    | none => none
  | .accept fd =>
    if s.fdCommand = none ∧ s.table fd = none then
      some { openFile s fd with fdCommand := some fd }
    else none
  | .hangup =>
    match s.fdCommand with
    | some fd => some (closeFd s fd)
    | none => none
  | .forget => some { s with fdCommand := none }
  | .openOther fd => if s.table fd = none then some (openFile s fd) else none
  | .closeOther fd => some (closeFd s fd)

/-- What a step can do. -/
inductive Effect (s : State) : Act → State → Prop where
  | call (data : List UInt8) : Effect s (.call data) { s with
      sends := s.sends ++ [⟨s.fdCommand, ⟨data, fileAt s.table s.fdCommand⟩, false⟩] }
  | refuse {n : Nat} : Effect s (.check n) { s with sends := s.sends.eraseIdx n }
  | check {n : Nat} {x : Send} (hn : s.sends[n]? = some x)
      (hlen : x.packet.data.length ≤ maxCommandBytes) :
      Effect s (.check n) { s with sends := s.sends.set n { x with checked := true } }
  | lock {n : Nat} {x : Send} (hn : s.sends[n]? = some x) (hx : x.checked = true)
      (hw : s.writer = none) : Effect s (.lock n) { s with
        sends := s.sends.eraseIdx n
        writer := some ⟨x.fd, x.packet, 0, false⟩
        handed := s.handed ++ [x.packet] }
  | write {k f : Nat} {w : Writer} (hw : s.writer = some w) (hat : fileAt s.table w.fd = some f) :
      Effect s (.write k) { s with
        files := s.files.modify f (· ++ w.rest.take k)
        writer := some { w with written := w.written + k } }
  | fail {w : Writer} (hw : s.writer = some w) :
      Effect s .fail { s with writer := some { w with failed := true } }
  | closeFailed {w : Writer} {fd : Nat} (hw : s.writer = some w) (hfd : w.fd = some fd) :
      Effect s .closeFailed { closeFd s fd with writer := none }
  | giveUp {w : Writer} (hw : s.writer = some w) (hfd : w.fd = none) :
      Effect s .closeFailed { s with writer := none }
  | unlock {w : Writer} (hw : s.writer = some w) (hrest : w.rest = []) :
      Effect s .unlock { s with writer := none }
  | accept {fd : Nat} (hfree : s.table fd = none) :
      Effect s (.accept fd) { openFile s fd with fdCommand := some fd }
  | hangup (fd : Nat) : Effect s .hangup (closeFd s fd)
  | forget : Effect s .forget { s with fdCommand := none }
  | openOther {fd : Nat} (hfree : s.table fd = none) : Effect s (.openOther fd) (openFile s fd)
  | closeOther (fd : Nat) : Effect s (.closeOther fd) (closeFd s fd)

theorem effect_of_step {s s' : State} {act : Act} (hs : step s act = some s') :
    Effect s act s' := by
  cases act <;> simp only [step] at hs
  case call data =>
    cases hs
    exact .call data
  case check n =>
    split at hs
    · rename_i fd p hn
      split at hs
      · cases hs
        exact .refuse
      · rename_i hc
        cases hs
        exact .check hn (Nat.le_of_not_lt fun hlt => hc (Or.inr hlt))
    · cases hs
  case lock n =>
    split at hs
    · rename_i fd p hn hw
      cases hs
      exact .lock hn rfl hw
    · cases hs
  case write k =>
    split at hs
    · rename_i w hw
      split at hs
      · rename_i f hat
        split at hs
        · cases hs
          exact .write hw hat
        · cases hs
      · cases hs
    · cases hs
  case fail =>
    split at hs
    · rename_i w hw
      split at hs
      · cases hs
        exact .fail hw
      · cases hs
    · cases hs
  case closeFailed =>
    split at hs
    · rename_i w hw
      split at hs
      · split at hs
        · rename_i fd hfd
          cases hs
          exact .closeFailed hw hfd
        · rename_i hfd
          cases hs
          exact .giveUp hw hfd
      · cases hs
    · cases hs
  case unlock =>
    split at hs
    · rename_i w hw
      split at hs
      · rename_i hc
        cases hs
        exact .unlock hw hc.2
      · cases hs
    · cases hs
  case accept fd =>
    split at hs
    · rename_i hc
      cases hs
      exact .accept hc.2
    · cases hs
  case hangup =>
    split at hs
    · rename_i fd _
      cases hs
      exact .hangup fd
    · cases hs
  case forget =>
    cases hs
    exact .forget
  case openOther fd =>
    split at hs
    · rename_i hc
      cases hs
      exact .openOther hc
    · cases hs
  case closeOther fd =>
    cases hs
    exact .closeOther fd

/-! ## 3. Descriptors -/

/-- The descriptor an action opens. -/
def opened : Act → Option Nat
  | .accept fd => some fd
  | .openOther fd => some fd
  | _ => none

/-- Descriptors stand for different files, and what is sent is not too large. -/
structure Base (s : State) : Prop where
  inRange : ∀ {fd f}, s.table fd = some f → f < s.files.length
  inj : ∀ {fd fd' f}, s.table fd = some f → s.table fd' = some f → fd = fd'
  checked : ∀ x ∈ s.sends, x.checked = true → x.packet.data.length ≤ maxCommandBytes
  handed : ∀ p ∈ s.handed, p.data.length ≤ maxCommandBytes
  writer : ∀ w, s.writer = some w → w.packet ∈ s.handed

theorem base_init : Base init := by
  constructor <;> simp [init]

section Base

variable {s s' : State} {fd fd' f n : Nat}

theorem closeFd_table (s : State) (fd : Nat) :
    (closeFd s fd).table = Function.update s.table fd none := rfl

theorem openFile_table (s : State) (fd : Nat) :
    (openFile s fd).table = Function.update s.table fd (some s.files.length) := rfl

theorem table_close (h : (closeFd s fd).table fd' = some f) : fd' ≠ fd ∧ s.table fd' = some f := by
  by_cases hfd : fd' = fd
  · rw [closeFd_table, hfd, Function.update_self] at h
    exact absurd h.symm (Option.some_ne_none f)
  · rw [closeFd_table, Function.update_of_ne hfd] at h
    exact ⟨hfd, h⟩

theorem table_open (h : (openFile s fd).table fd' = some f) :
    fd' = fd ∧ f = s.files.length ∨ fd' ≠ fd ∧ s.table fd' = some f := by
  by_cases hfd : fd' = fd
  · rw [openFile_table, hfd, Function.update_self] at h
    exact Or.inl ⟨hfd, (Option.some.inj h).symm⟩
  · rw [openFile_table, Function.update_of_ne hfd] at h
    exact Or.inr ⟨hfd, h⟩

theorem Base.closeFd (hb : Base s) (fd : Nat) : Base (closeFd s fd) :=
  { hb with
    inRange := fun h => hb.inRange (table_close h).2
    inj := fun h h' => hb.inj (table_close h).2 (table_close h').2 }

theorem Base.openFile (hb : Base s) (fd : Nat) : Base (openFile s fd) :=
  { hb with
    inRange := fun {fd' f} h => by
      show f < (s.files ++ [[]]).length
      rw [List.length_append, List.length_singleton]
      rcases table_open h with ⟨-, rfl⟩ | ⟨-, h⟩
      · omega
      · exact Nat.lt_succ_of_lt (hb.inRange h)
    inj := fun {a b f} h h' => by
      rcases table_open h with ⟨ha, hf⟩ | ⟨-, ha⟩ <;>
        rcases table_open h' with ⟨hb', hf'⟩ | ⟨-, hb'⟩
      · rw [ha, hb']
      · exact absurd (hf ▸ hb.inRange hb') (Nat.lt_irrefl _)
      · exact absurd (hf' ▸ hb.inRange ha) (Nat.lt_irrefl _)
      · exact hb.inj ha hb' }

theorem Base.step (hb : Base s) {act : Act} (hs : step s act = some s') : Base s' := by
  cases effect_of_step hs with
  | call data =>
    refine { hb with checked := fun x hx hc => ?_ }
    rcases List.mem_append.mp hx with hx | hx
    · exact hb.checked x hx hc
    · rw [List.mem_singleton.mp hx] at hc
      exact Bool.noConfusion hc
  | refuse => exact { hb with checked := fun x hx => hb.checked x (List.mem_of_mem_eraseIdx hx) }
  | check hn hlen =>
    refine { hb with checked := fun x hx hc => ?_ }
    rcases List.mem_or_eq_of_mem_set hx with hx | rfl
    · exact hb.checked x hx hc
    · exact hlen
  | @lock _ x hn hx hw =>
    refine { hb with
      checked := fun x hx => hb.checked x (List.mem_of_mem_eraseIdx hx)
      handed := fun q hq => ?_
      writer := fun w hw => ?_ }
    · rcases List.mem_append.mp hq with hq | hq
      · exact hb.handed q hq
      · rw [List.mem_singleton.mp hq]
        exact hb.checked x (List.mem_of_getElem? hn) hx
    · cases hw
      exact List.mem_append_right _ (List.mem_singleton.mpr rfl)
  | @write k f w hw hat =>
    refine { hb with
      inRange := fun h => ?_
      writer := fun w' hw' => ?_ }
    · rw [List.length_modify]
      exact hb.inRange h
    · cases hw'
      exact hb.writer w hw
  | @fail w hw =>
    refine { hb with writer := fun w' hw' => ?_ }
    cases hw'
    exact hb.writer w hw
  | @closeFailed _ fd =>
    exact { hb.closeFd fd with writer := fun w hw => absurd hw.symm (Option.some_ne_none w) }
  | giveUp => exact { hb with writer := fun w hw => absurd hw.symm (Option.some_ne_none w) }
  | unlock => exact { hb with writer := fun w hw => absurd hw.symm (Option.some_ne_none w) }
  | @accept fd => exact { hb.openFile fd with }
  | hangup fd => exact hb.closeFd fd
  | forget => exact { hb with }
  | @openOther fd => exact hb.openFile fd
  | closeOther fd => exact hb.closeFd fd

end Base

/-! ## 4. What each file gets

The two results are about the same steps. `Filed P` says that `P` holds of each file with what is
under way for it; a `Law` says that `P` is kept when a frame begins, when some of it is written, and
when nothing of it is left. -/

/-- A packet that is being written, with what is left of its frame. -/
abbrev Under := Option (Packet × List UInt8)

/-- What the writer is at, if it writes to the file. -/
def owed (s : State) (f : Nat) : Under :=
  match s.writer with
  | some w => if fileAt s.table w.fd = some f then some (w.packet, w.rest) else none
  | none => none

abbrev Kind := List Packet → Nat → List UInt8 → Under → Prop

structure Law (ok : Packet → Nat → Prop) (P : Kind) : Prop where
  nil : ∀ hs f, P hs f [] none
  later : ∀ {hs f bs u} (p : Packet), P hs f bs u → P (hs ++ [p]) f bs u
  next : ∀ {hs f bs p}, ok p f → P hs f bs none →
    P (hs ++ [p]) f bs (some (p, header.frame p.data))
  take : ∀ {hs f bs p rest} (k : Nat), P hs f bs (some (p, rest)) →
    P hs f (bs ++ rest.take k) (some (p, rest.drop k))
  done : ∀ {hs f bs p}, P hs f bs (some (p, [])) → P hs f bs none

def Filed (P : Kind) (s : State) : Prop :=
  ∀ f bs, s.files[f]? = some bs →
    ∃ u, P s.handed f bs u ∧ ∀ fd, s.table fd = some f → u = owed s f

section Filed

variable {ok : Packet → Nat → Prop} {P : Kind} {s s' : State} {fd f n k : Nat} {w : Writer}

theorem owed_writer (hw : s.writer = some w) (f : Nat) :
    owed s f = if fileAt s.table w.fd = some f then some (w.packet, w.rest) else none := by
  rw [owed, hw]

theorem owed_none (hw : s.writer = none) (f : Nat) : owed s f = none := by
  rw [owed, hw]

theorem fileAt_eq_some {table : Nat → Option Nat} {o : Option Nat} :
    fileAt table o = some f ↔ ∃ fd, o = some fd ∧ table fd = some f := Option.bind_eq_some_iff

/-- A frame begins. -/
theorem Filed.lock (law : Law ok P) (h : Filed P s) (hw : s.writer = none) {x : Send}
    (hok : ∀ f, fileAt s.table x.fd = some f → ok x.packet f) (sends : List Send) :
    Filed P { s with
      sends := sends
      writer := some ⟨x.fd, x.packet, 0, false⟩
      handed := s.handed ++ [x.packet] } := by
  intro f bs hf
  obtain ⟨u, hP, hopen⟩ := h f bs hf
  by_cases hx : fileAt s.table x.fd = some f
  · obtain ⟨fd, -, hfd⟩ := fileAt_eq_some.mp hx
    have hu : u = none := (hopen fd hfd).trans (owed_none hw f)
    refine ⟨some (x.packet, header.frame x.packet.data), law.next (hok f hx) (hu ▸ hP),
      fun _ _ => ?_⟩
    rw [owed_writer rfl]
    exact (if_pos hx).symm
  · refine ⟨u, law.later x.packet hP, fun fd hfd => ?_⟩
    rw [owed_writer rfl]
    exact ((hopen fd hfd).trans (owed_none hw f)).trans (if_neg hx).symm

/-- Some of it is written. -/
theorem Filed.write (law : Law ok P) (h : Filed P s) (hw : s.writer = some w)
    (hat : fileAt s.table w.fd = some n) (k : Nat) :
    Filed P { s with
      files := s.files.modify n (· ++ w.rest.take k)
      writer := some { w with written := w.written + k } } := by
  intro f bs hf
  obtain ⟨fd, -, hfd⟩ := fileAt_eq_some.mp hat
  rcases getElem?_modify_cases hf with ⟨rfl, old, hold, rfl⟩ | ⟨hn, hf⟩
  · obtain ⟨u, hP, hopen⟩ := h f old hold
    have hu : u = some (w.packet, w.rest) := by
      rw [hopen fd hfd, owed_writer hw, if_pos hat]
    subst hu
    refine ⟨some (w.packet, w.rest.drop k), law.take k hP, fun _ _ => ?_⟩
    rw [owed_writer rfl]
    refine Eq.trans ?_ (if_pos hat).symm
    exact congrArg (fun rest => some (w.packet, rest)) List.drop_drop
  · obtain ⟨u, hP, hopen⟩ := h f bs hf
    have hne : fileAt s.table w.fd ≠ some f := fun hk => hn (Option.some.inj (hk.symm.trans hat))
    refine ⟨u, hP, fun fd' hfd' => (hopen fd' hfd').trans ?_⟩
    rw [owed_writer hw, if_neg hne, owed_writer rfl]
    exact (if_neg hne).symm

/-- The mutex is given back when nothing is left of the frame, or its file is closed. -/
theorem Filed.unlock (law : Law ok P) (h : Filed P s)
    (hrest : ∀ fd f, s.table fd = some f → owed s f = none ∨ ∃ p, owed s f = some (p, [])) :
    Filed P { s with writer := none } := by
  intro f bs hf
  obtain ⟨u, hP, hopen⟩ := h f bs hf
  by_cases hfd : ∃ fd, s.table fd = some f
  · obtain ⟨fd, hfd⟩ := hfd
    refine ⟨none, ?_, fun _ _ => rfl⟩
    rcases hrest fd f hfd with hu | ⟨p, hu⟩
    · exact hu ▸ hopen fd hfd ▸ hP
    · exact law.done (hu ▸ hopen fd hfd ▸ hP)
  · exact ⟨u, hP, fun fd hk => absurd ⟨fd, hk⟩ hfd⟩

/-- What stands at another descriptor is owed what it was. -/
theorem owed_close (hb : Base s) (hfd : (closeFd s fd).table n = some f) :
    owed (closeFd s fd) f = owed s f := by
  obtain ⟨hne, hn⟩ := table_close hfd
  cases hw : s.writer with
  | none => rw [owed_none hw, owed_none (s := closeFd s fd) hw]
  | some w =>
    rw [owed_writer hw, owed_writer (s := closeFd s fd) hw]
    refine if_congr ⟨fun hk => ?_, fun hk => ?_⟩ rfl rfl
    · obtain ⟨m, hm, hmf⟩ := fileAt_eq_some.mp hk
      exact fileAt_eq_some.mpr ⟨m, hm, (table_close hmf).2⟩
    · obtain ⟨m, hm, hmf⟩ := fileAt_eq_some.mp hk
      rw [← hb.inj hn hmf] at hm
      exact fileAt_eq_some.mpr ⟨n, hm, hfd⟩

theorem Filed.closeFd (hb : Base s) (h : Filed P s) (fd : Nat) : Filed P (closeFd s fd) := by
  intro f bs hf
  obtain ⟨u, hP, hopen⟩ := h f bs hf
  exact ⟨u, hP, fun n hn => (hopen n (table_close hn).2).trans (owed_close hb hn).symm⟩

/-- A new file, which may get the rest of what the writer is at. -/
theorem Filed.openFile (law : Law ok P) (hb : Base s) (h : Filed P s) (hfree : s.table fd = none)
    (hnew : ∀ w, s.writer = some w → w.fd = some fd →
      P s.handed s.files.length [] (some (w.packet, w.rest))) :
    Filed P (openFile s fd) := by
  intro f bs hf
  rcases getElem?_concat_cases hf with hf | ⟨rfl, rfl⟩
  · have hlt : f < s.files.length := (List.getElem?_eq_some_iff.mp hf).1
    obtain ⟨u, hP, hopen⟩ := h f bs hf
    refine ⟨u, hP, fun n hn => ?_⟩
    rcases table_open hn with ⟨-, rfl⟩ | ⟨hne, hn⟩
    · exact absurd hlt (Nat.lt_irrefl _)
    · rw [hopen n hn]
      cases hw : s.writer with
      | none => rw [owed_none hw, owed_none (s := Frames.openFile s fd) hw]
      | some w =>
        rw [owed_writer hw, owed_writer (s := Frames.openFile s fd) hw]
        refine if_congr ⟨fun hk => ?_, fun hk => ?_⟩ rfl rfl
        · obtain ⟨m, hm, hmf⟩ := fileAt_eq_some.mp hk
          refine fileAt_eq_some.mpr ⟨m, hm, ?_⟩
          rw [openFile_table, Function.update_of_ne, hmf]
          rintro rfl
          exact absurd (hfree.symm.trans hmf) (Option.some_ne_none f).symm
        · obtain ⟨m, hm, hmf⟩ := fileAt_eq_some.mp hk
          rcases table_open hmf with ⟨-, rfl⟩ | ⟨-, hmf⟩
          · exact absurd hlt (Nat.lt_irrefl _)
          · exact fileAt_eq_some.mpr ⟨m, hm, hmf⟩
  · cases hw : s.writer with
    | none =>
      exact ⟨none, law.nil _ _, fun _ _ => (owed_none (s := Frames.openFile s fd) hw _).symm⟩
    | some w =>
      by_cases hwfd : w.fd = some fd
      · refine ⟨some (w.packet, w.rest), hnew w hw hwfd, fun _ _ => ?_⟩
        rw [owed_writer (s := Frames.openFile s fd) hw]
        refine (if_pos (fileAt_eq_some.mpr ⟨fd, hwfd, ?_⟩)).symm
        exact Function.update_self _ _ _
      · refine ⟨none, law.nil _ _, fun _ _ => ?_⟩
        rw [owed_writer (s := Frames.openFile s fd) hw]
        refine (if_neg fun hk => ?_).symm
        obtain ⟨m, hm, hmf⟩ := fileAt_eq_some.mp hk
        rcases table_open hmf with ⟨rfl, -⟩ | ⟨-, hmf⟩
        · exact hwfd hm
        · exact absurd (hb.inRange hmf) (Nat.lt_irrefl _)

/-- **One step**, for any law. -/
theorem Filed.step (law : Law ok P) (hb : Base s) {act : Act}
    (hok : ∀ x ∈ s.sends, ∀ f, fileAt s.table x.fd = some f → ok x.packet f)
    (hnew : ∀ fd, opened act = some fd → ∀ w, s.writer = some w → w.fd = some fd →
      P s.handed s.files.length [] (some (w.packet, w.rest)))
    (hs : step s act = some s') (h : Filed P s) : Filed P s' := by
  cases effect_of_step hs with
  | call => exact h
  | refuse => exact h
  | check => exact h
  | lock hn _ hw => exact h.lock law hw (hok _ (List.mem_of_getElem? hn)) _
  | write hw hat => exact h.write law hw hat _
  | fail hw =>
    intro f bs hf
    obtain ⟨u, hP, hopen⟩ := h f bs hf
    exact ⟨u, hP, fun fd hfd => (hopen fd hfd).trans (owed_writer hw f)⟩
  | @closeFailed w fd hw hfd =>
    refine (h.closeFd hb fd).unlock law fun n f hn => Or.inl ?_
    rw [owed_writer (s := Frames.closeFd s fd) hw]
    refine if_neg fun hk => ?_
    obtain ⟨m, hm, hmf⟩ := fileAt_eq_some.mp hk
    exact (table_close hmf).1 (Option.some.inj (hm.symm.trans hfd))
  | giveUp hw hfd =>
    refine h.unlock law fun n f hn => Or.inl ?_
    rw [owed_writer hw, hfd]
    exact if_neg fun hk => absurd hk.symm (Option.some_ne_none f)
  | @unlock w hw hrest =>
    refine h.unlock law fun n f hn => ?_
    rw [owed_writer hw, hrest]
    by_cases hat : fileAt s.table w.fd = some f
    · exact Or.inr ⟨w.packet, if_pos hat⟩
    · exact Or.inl (if_neg hat)
  | accept hfree => exact h.openFile law hb hfree (hnew _ rfl)
  | hangup fd => exact h.closeFd hb fd
  | forget => exact h
  | openOther hfree => exact h.openFile law hb hfree (hnew _ rfl)
  | closeOther fd => exact h.closeFd hb fd

end Filed

/-! ## 5. Pieces of frames -/

/-- The bytes that are to come. -/
def left (u : Under) : List UInt8 := (u.map Prod.snd).getD []

/-- What was written to a file ends, with the rest, a sequence of frames. -/
def Piece : Kind := fun handed _ bs u =>
  ∃ ps : List (List UInt8), ps.Sublist (handed.map Packet.data) ∧ header.Ends ps bs (left u)

theorem piece_law : Law (fun _ _ => True) Piece where
  nil := fun _ _ => ⟨[], List.nil_sublist _, [], rfl⟩
  later := fun p ⟨ps, hps, he⟩ => ⟨ps, by
    rw [List.map_append]
    exact hps.trans (List.sublist_append_left _ _), he⟩
  next := fun {hs f bs p} _ ⟨ps, hps, he⟩ => ⟨ps ++ [p.data], by
    rw [List.map_append]
    exact hps.append (List.Sublist.refl _), he.next p.data⟩
  take := fun k ⟨ps, hps, he⟩ => ⟨ps, hps, he.take k⟩
  done := fun h => h

theorem base_of_reach {C : State → Act → Prop} {s : State} (hr : Reach step C init s) : Base s :=
  hr.inv (I := Base) base_init fun _ _ _ hb _ hs => hb.step hs

theorem piece_of_reach {s : State} (hr : Reach step Always init s) : Filed Piece s := by
  refine hr.invOn (J := Base) (fun _ => base_of_reach) (fun f bs hf => ?_)
    fun s act s' hb h _ hs => ?_
  · simp [init] at hf
  · refine h.step piece_law hb (fun _ _ _ _ => trivial) (fun fd _ w hw _ => ?_) hs
    -- a file that is opened under the writer's descriptor gets the end of its frame
    refine ⟨[w.packet.data], ?_, Header.ends_drop w.packet.data w.written⟩
    exact List.singleton_sublist.mpr (List.mem_map_of_mem (hb.writer w hw))

/-- **Each file gets one unbroken piece of a sequence of frames**, of packets in the order in which
    they got the mutex: whatever is closed and opened meanwhile, only the first and the last frame
    on a file can be incomplete, and bytes of two frames are never mixed. -/
theorem pieces_of_frames {s : State} (hr : Reach step Always init s) {f : Nat} {bs : List UInt8}
    (hf : s.files[f]? = some bs) :
    ∃ ps : List (List UInt8), ps.Sublist (s.handed.map Packet.data) ∧
      (∀ p ∈ ps, p.length ≤ maxCommandBytes) ∧ bs <:+: header.frames ps := by
  obtain ⟨rest, ⟨ps, hps, he⟩, -⟩ := piece_of_reach hr f bs hf
  refine ⟨ps, hps, fun p hp => ?_, he.piece⟩
  obtain ⟨q, hq, rfl⟩ := List.mem_map.mp (hps.subset hp)
  exact (base_of_reach hr).handed q hq

/-- A socket is given up within a frame and its number goes to the next one. -/
def reopened : List Act :=
  [.accept 7, .call [1, 2, 3], .call [9], .check 0, .check 1, .lock 0, .write 4, .write 1, .hangup,
    .forget, .accept 7, .write 2, .unlock, .lock 0, .write 4, .write 1, .unlock]

theorem pieces_of_frames_reopened : ∃ s : State,
    s.files = [[0, 0, 0, 3, 1], [2, 3, 0, 0, 0, 1, 9]] ∧
      ∃ ps : List (List UInt8), ps.Sublist [[1, 2, 3], [9]] ∧
        [2, 3, 0, 0, 0, 1, 9] <:+: header.frames ps := by
  have hrun : runTest step (fun _ _ => true) init reopened
      (fun s => decide (s.files = [[0, 0, 0, 3, 1], [2, 3, 0, 0, 0, 1, 9]] ∧
        s.handed.map Packet.data = [[1, 2, 3], [9]])) = true := by
    decide +kernel
  obtain ⟨s, hr, hp⟩ := reach_of_runTest hrun
  obtain ⟨hfiles, hhanded⟩ := of_decide_eq_true hp
  obtain ⟨ps, hps, -, hpiece⟩ := pieces_of_frames hr.always (f := 1) (by rw [hfiles]; rfl)
  exact ⟨s, hfiles, ps, hhanded ▸ hps, hpiece⟩

/-! ## 6. Whole frames -/

/-- No send has this descriptor in hand. -/
def Unheld (s : State) (fd : Nat) : Prop :=
  (∀ x ∈ s.sends, x.fd ≠ some fd) ∧ ∀ w, s.writer = some w → w.fd ≠ some fd

/-- A descriptor is opened only when no send has its number in hand. -/
def Careful (s : State) (act : Act) : Prop := ∀ fd, opened act = some fd → Unheld s fd

/-- A descriptor in hand stands for the file it stood for, or for none. -/
def Stands (table : Nat → Option Nat) (fd file : Option Nat) : Prop :=
  ∀ f, fileAt table fd = some f → file = some f

structure Held (s : State) : Prop where
  sends : ∀ x ∈ s.sends, Stands s.table x.fd x.packet.file
  writer : ∀ w, s.writer = some w → Stands s.table w.fd w.packet.file

theorem held_init : Held init := by
  constructor <;> simp [init]

section Held

variable {s s' : State} {fd : Nat} {table : Nat → Option Nat} {o file : Option Nat}

theorem Stands.closeFd (h : Stands s.table o file) (fd : Nat) :
    Stands (closeFd s fd).table o file := fun f hf => by
  obtain ⟨m, hm, hmf⟩ := fileAt_eq_some.mp hf
  exact h f (fileAt_eq_some.mpr ⟨m, hm, (table_close hmf).2⟩)

theorem Stands.openFile (h : Stands s.table o file) (hfd : o ≠ some fd) :
    Stands (openFile s fd).table o file := fun f hf => by
  obtain ⟨m, hm, hmf⟩ := fileAt_eq_some.mp hf
  rcases table_open hmf with ⟨rfl, -⟩ | ⟨-, hmf⟩
  · exact absurd hm hfd
  · exact h f (fileAt_eq_some.mpr ⟨m, hm, hmf⟩)

theorem Held.closeFd (hh : Held s) (fd : Nat) : Held (closeFd s fd) where
  sends := fun x hx => (hh.sends x hx).closeFd fd
  writer := fun w hw => (hh.writer w hw).closeFd fd

theorem Held.openFile (hh : Held s) (hun : Unheld s fd) : Held (openFile s fd) where
  sends := fun x hx => (hh.sends x hx).openFile (hun.1 x hx)
  writer := fun w hw => (hh.writer w hw).openFile (hun.2 w hw)

theorem Held.step (hh : Held s) {act : Act} (hc : Careful s act) (hs : step s act = some s') :
    Held s' := by
  cases effect_of_step hs with
  | call data =>
    refine { hh with sends := fun x hx => ?_ }
    rcases List.mem_append.mp hx with hx | hx
    · exact hh.sends x hx
    · rw [List.mem_singleton.mp hx]
      exact fun f hf => hf
  | refuse => exact { hh with sends := fun x hx => hh.sends x (List.mem_of_mem_eraseIdx hx) }
  | @check n x hn hlen =>
    refine { hh with sends := fun y hy => ?_ }
    rcases List.mem_or_eq_of_mem_set hy with hy | rfl
    · exact hh.sends y hy
    · exact hh.sends x (List.mem_of_getElem? hn)
  | @lock n x hn _ hw =>
    refine ⟨fun y hy => hh.sends y (List.mem_of_mem_eraseIdx hy), fun w hw => ?_⟩
    cases hw
    exact hh.sends x (List.mem_of_getElem? hn)
  | @write k f w hw hat =>
    refine { hh with writer := fun w' hw' => ?_ }
    cases hw'
    exact hh.writer w hw
  | @fail w hw =>
    refine { hh with writer := fun w' hw' => ?_ }
    cases hw'
    exact hh.writer w hw
  | @closeFailed _ fd =>
    exact { hh.closeFd fd with writer := fun w hw => absurd hw.symm (Option.some_ne_none w) }
  | giveUp => exact { hh with writer := fun w hw => absurd hw.symm (Option.some_ne_none w) }
  | unlock => exact { hh with writer := fun w hw => absurd hw.symm (Option.some_ne_none w) }
  | @accept fd => exact { hh.openFile (hc fd rfl) with }
  | hangup fd => exact hh.closeFd fd
  | forget => exact { hh with }
  | @openOther fd => exact hh.openFile (hc fd rfl)
  | closeOther fd => exact hh.closeFd fd

end Held

/-- Whole frames of packets for the file, and, if one is under way, its begin. -/
def Whole : Kind := fun handed f bs u =>
  ∃ (qs : List Packet) (part : List UInt8), bs = header.frames (qs.map Packet.data) ++ part ∧
    (u = none ∧ part = [] ∧ qs.Sublist handed ∧ (∀ q ∈ qs, q.file = some f) ∨
      ∃ p rest, u = some (p, rest) ∧ part ++ rest = header.frame p.data ∧
        (qs ++ [p]).Sublist handed ∧ ∀ q ∈ qs ++ [p], q.file = some f)

/-- When nothing is to come the frames are whole. -/
theorem Whole.done {handed : List Packet} {f : Nat} {bs : List UInt8} {u : Under}
    (h : Whole handed f bs u) (hu : left u = []) :
    ∃ qs : List Packet, bs = header.frames (qs.map Packet.data) ∧ qs.Sublist handed ∧
      ∀ q ∈ qs, q.file = some f := by
  obtain ⟨qs, part, rfl, ⟨-, rfl, hsub, hqs⟩ | ⟨p, rest, rfl, hp, hsub, hqs⟩⟩ := h
  · exact ⟨qs, List.append_nil _, hsub, hqs⟩
  · refine ⟨qs ++ [p], ?_, hsub, hqs⟩
    obtain rfl : rest = [] := hu
    rw [List.append_nil] at hp
    rw [List.map_append, Header.frames_append, hp]
    exact congrArg _ (Header.frames_singleton _).symm

theorem whole_law : Law (fun p f => p.file = some f) Whole where
  nil := fun _ _ => ⟨[], [], rfl, Or.inl ⟨rfl, rfl, List.nil_sublist _, fun _ hq => nomatch hq⟩⟩
  later := fun {hs f bs u} p ⟨qs, part, hbs, hcase⟩ => by
    have hle : hs.Sublist (hs ++ [p]) := List.sublist_append_left _ _
    refine ⟨qs, part, hbs, hcase.imp ?_ ?_⟩
    · exact fun ⟨hu, hp, hsub, hqs⟩ => ⟨hu, hp, hsub.trans hle, hqs⟩
    · exact fun ⟨q, rest, hu, hq, hsub, hqs⟩ => ⟨q, rest, hu, hq, hsub.trans hle, hqs⟩
  next := fun {hs f bs p} hp h => by
    obtain ⟨qs, hbs, hsub, hqs⟩ := h.done rfl
    refine ⟨qs, [], by rw [List.append_nil, hbs],
      Or.inr ⟨p, _, rfl, List.nil_append _, ?_, fun q hq => ?_⟩⟩
    · exact hsub.append (List.Sublist.refl _)
    · rcases List.mem_append.mp hq with hq | hq
      · exact hqs q hq
      · exact List.mem_singleton.mp hq ▸ hp
  take := fun {hs f bs p rest} k ⟨qs, part, hbs, hcase⟩ => by
    refine ⟨qs, part ++ rest.take k, by rw [hbs, List.append_assoc], Or.inr ?_⟩
    obtain ⟨hu, -⟩ | ⟨q, rest', hu, hq, hsub, hqs⟩ := hcase
    · cases hu
    · cases hu
      exact ⟨p, _, rfl, by rw [List.append_assoc, List.take_append_drop, hq], hsub, hqs⟩
  done := fun h => by
    obtain ⟨qs, hbs, hsub, hqs⟩ := h.done rfl
    exact ⟨qs, [], by rw [List.append_nil, hbs], Or.inl ⟨rfl, rfl, hsub, hqs⟩⟩

theorem held_of_reach {s : State} (hr : Reach step Careful init s) : Held s :=
  hr.inv (I := Held) held_init fun _ _ _ hh hc hs => hh.step hc hs

theorem whole_of_reach {s : State} (hr : Reach step Careful init s) : Filed Whole s := by
  refine hr.invOn (J := fun s => Base s ∧ Held s) (fun s hr => ⟨base_of_reach hr, held_of_reach hr⟩)
    (fun f bs hf => ?_) fun s act s' hj h hc hs => ?_
  · simp [init] at hf
  · refine h.step whole_law hj.1 hj.2.sends (fun fd hfd w hw hwfd => ?_) hs
    exact absurd hwfd ((hc fd hfd).2 w hw)

/-- A file that a descriptor stands for: what is under way for it is what the writer is at. -/
theorem writer_of_owed {s : State} {f : Nat} {p : Packet} {rest : List UInt8}
    (h : owed s f = some (p, rest)) :
    ∃ w, s.writer = some w ∧ w.packet = p ∧ fileAt s.table w.fd = some f := by
  cases hw : s.writer with
  | none => cases (owed_none hw f).symm.trans h
  | some w =>
    rw [owed_writer hw] at h
    obtain ⟨hat, hp⟩ := Option.ite_none_right_eq_some.mp h
    exact ⟨w, rfl, congrArg Prod.fst (Option.some.inj hp), hat⟩

/-- **Whole frames, and the right ones**: if no descriptor is opened while a send still has its
    number in hand, a client that reads records off its socket gets packets that were sent while
    `s_fdCommand` stood for it, as they were and in the order in which they got the mutex. What
    remains is the begin of the frame of one more, which got the mutex after them; then the socket
    is closed, or that packet is being written to it. -/
theorem frames_arrive_whole {s : State} (hr : Reach step Careful init s) {f : Nat}
    {bs : List UInt8} (hf : s.files[f]? = some bs) :
    ∃ (qs : List Packet) (part : List UInt8),
      header.records bs.length bs = (qs.map Packet.data, part) ∧
        bs = header.frames (qs.map Packet.data) ++ part ∧ qs.Sublist s.handed ∧
        (∀ q ∈ qs, q.file = some f) ∧
        (part ≠ [] → ∃ p, (qs ++ [p]).Sublist s.handed ∧ p.file = some f ∧
          part <+: header.frame p.data ∧
          ((∀ fd, s.table fd ≠ some f) ∨
            ∃ w, s.writer = some w ∧ w.packet = p ∧ fileAt s.table w.fd = some f)) := by
  have hsmall : ∀ q ∈ s.handed, q.data.length < header.bound := fun q hq =>
    Nat.lt_of_le_of_lt ((base_of_reach hr).handed q hq) (by decide)
  have hwidth : 0 < header.width := by decide
  obtain ⟨u, hwhole, hopen⟩ := whole_of_reach hr f bs hf
  by_cases hu : left u = []
  · -- nothing is under way: only whole frames
    obtain ⟨qs, hbs, hsub, hqs⟩ := hwhole.done hu
    refine ⟨qs, [], ?_, by rw [List.append_nil, hbs], hsub, hqs, fun h => absurd rfl h⟩
    have hread := Header.records_frames (fun p hp => ?_) (Or.inl (rfl : [] = [])) hwidth
      bs.length (hbs ▸ Header.length_le_frames (qs.map Packet.data) hwidth)
    · rw [List.append_nil] at hread
      rw [← hread, ← hbs]
    · obtain ⟨q, hq, rfl⟩ := List.mem_map.mp hp
      exact hsmall q (hsub.subset hq)
  · obtain ⟨qs, part, hbs, ⟨rfl, -⟩ | ⟨p, rest, rfl, hp, hsub, hqs⟩⟩ := hwhole
    · exact absurd rfl hu
    · have hqsub : qs.Sublist s.handed := (List.sublist_append_left _ _).trans hsub
      have hpin : p ∈ qs ++ [p] := List.mem_append_right _ (List.mem_singleton.mpr rfl)
      refine ⟨qs, part, ?_, hbs, hqsub, fun q hq => hqs q (List.mem_append_left _ hq), fun _ =>
        ⟨p, hsub, hqs p hpin, ⟨rest, hp⟩, ?_⟩⟩
      · have hlen : (qs.map Packet.data).length ≤ bs.length := by
          rw [hbs, List.length_append]
          exact Nat.le_add_right_of_le (Header.length_le_frames _ hwidth)
        have hread := Header.records_frames (fun p hp => ?_)
          (Or.inr ⟨_, rest, hsmall p (hsub.subset hpin), hu, hp⟩) hwidth bs.length hlen
        · rw [← hbs] at hread
          exact hread
        · obtain ⟨q, hq, rfl⟩ := List.mem_map.mp hp
          exact hsmall q (hqsub.subset hq)
      · by_cases hfd : ∃ fd, s.table fd = some f
        · obtain ⟨fd, hfd⟩ := hfd
          exact Or.inr (writer_of_owed (hopen fd hfd).symm)
        · exact Or.inl fun fd hk => hfd ⟨fd, hk⟩

/-- As a test. -/
def careful (s : State) (act : Act) : Bool :=
  match opened act with
  | some fd => s.sends.all (fun x => x.fd != some fd) &&
      (match s.writer with | some w => w.fd != some fd | none => true)
  | none => true

theorem careful_sound {s : State} {act : Act} (h : careful s act = true) : Careful s act := by
  intro fd hfd
  rw [careful, hfd] at h
  obtain ⟨hsends, hwriter⟩ := Bool.and_eq_true_iff.mp h
  refine ⟨fun x hx => by simpa using List.all_eq_true.mp hsends x hx, fun w hw => ?_⟩
  rw [hw] at hwriter
  simpa using hwriter

/-- A write fails within a frame; the next connection has the same descriptor. -/
theorem frames_arrive_whole_failed : ∃ s : State, s.files = [[0, 0, 0, 1, 9, 0, 0], [0, 0]] ∧
    ∃ (qs : List Packet) (part : List UInt8),
      header.records 7 [0, 0, 0, 1, 9, 0, 0] = (qs.map Packet.data, part) ∧
        ∀ q ∈ qs, q.file = some 0 := by
  have hrun : runTest step careful init
      [.accept 7, .call [9], .call [1, 2, 3], .check 0, .check 1, .lock 0, .write 4, .write 1,
        .unlock, .lock 0, .write 2, .fail, .closeFailed, .forget, .accept 7, .call [4], .check 0,
        .lock 0, .write 2]
      (fun s => decide (s.files = [[0, 0, 0, 1, 9, 0, 0], [0, 0]])) = true := by
    decide +kernel
  obtain ⟨s, hr, hp⟩ := reach_of_runTest hrun
  have hfiles := of_decide_eq_true hp
  obtain ⟨qs, part, hread, -, -, hqs, -⟩ := frames_arrive_whole
    (hr.weaken fun _ _ => careful_sound) (f := 0) (by rw [hfiles]; rfl)
  exact ⟨s, hfiles, qs, part, hread, hqs⟩

end Y210.Ril.Frames

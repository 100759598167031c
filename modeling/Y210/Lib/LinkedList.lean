/-
  File:      Y210/Lib/LinkedList.lean
  Subject:   DOUBLY LINKED LISTS IN MEMORY, and the list of values they hold.

  Memory is a list of cells; an address is an index into it and a null pointer is `none`. A cell
  holds a node or is free. An operation that follows a null pointer, or a pointer to a free cell,
  has no result. `new` takes the address it is given, if no node is there: which one that is, is not
  the list's choice.

  * `LinkedList` with `insertHead`, `insertBefore`, `insertAfter`, `remove` -- the operations;
  * `Segment` -- a part of the list in memory, between the pointers at its two ends;
  * `Holds`, `toList` -- the whole list holds these nodes, in this order;
  * `Holds.insertBefore`, `Holds.insertAfter`, `Holds.remove`, `Holds.modify` -- what the operations
    do to it.
-/
import Mathlib.Data.List.Nodup
import Mathlib.Data.List.Perm.Subperm

namespace Y210.Lib

/-! ## 1. Memory and operations -/

structure Node (α : Type) where
  val : α
  prev : Option Nat
  next : Option Nat
  deriving DecidableEq

structure LinkedList (α : Type) where
  mem : List (Option (Node α))
  mFirst : Option Nat
  mLast : Option Nat
  deriving DecidableEq

namespace LinkedList

variable {α : Type}

def empty : LinkedList α := ⟨[], none, none⟩

def node (l : LinkedList α) (a : Nat) : Option (Node α) := l.mem[a]?.join

def put (l : LinkedList α) (a : Nat) (n : Node α) : LinkedList α :=
  { l with mem := l.mem.set a (some n) }

def modify (l : LinkedList α) (a : Nat) (g : Node α → Node α) : Option (LinkedList α) := do
  return l.put a (g (← l.node a))

/-- The memory, with a cell at `a`. -/
def grown (l : LinkedList α) (a : Nat) : List (Option (Node α)) :=
  l.mem ++ List.replicate (a + 1 - l.mem.length) none

/-- A new node, where there is none yet. -/
def new (l : LinkedList α) (a : Nat) (v : α) : Option (LinkedList α) :=
  match l.node a with
  | some _ => none
  | none => some { l with mem := (l.grown a).set a (some ⟨v, none, none⟩) }

def delete (l : LinkedList α) (a : Nat) : LinkedList α := { l with mem := l.mem.set a none }

/-- Where the node before `p` points to: `mFirst` if there is none. -/
def linkNext (l : LinkedList α) (p x : Option Nat) : Option (LinkedList α) :=
  match p with
  | none => some { l with mFirst := x }
  | some p => l.modify p fun n => { n with next := x }

/-- Where the node behind `n` points back to: `mLast` if there is none. -/
def linkPrev (l : LinkedList α) (n x : Option Nat) : Option (LinkedList α) :=
  match n with
  | none => some { l with mLast := x }
  | some n => l.modify n fun m => { m with prev := x }

def insertAfter (l : LinkedList α) (node newNode : Nat) : Option (LinkedList α) := do
  let n ← l.node node
  let l ← l.modify newNode fun m => { m with prev := some node, next := n.next }
  let l ← l.linkPrev n.next (some newNode)
  l.modify node fun m => { m with next := some newNode }

def insertBefore (l : LinkedList α) (node newNode : Nat) : Option (LinkedList α) := do
  let n ← l.node node
  let l ← l.modify newNode fun m => { m with prev := n.prev, next := some node }
  let l ← l.linkNext n.prev (some newNode)
  l.modify node fun m => { m with prev := some newNode }

def insertHead (l : LinkedList α) (newNode : Nat) : Option (LinkedList α) :=
  match l.mFirst with
  | none => do
    let l ← l.modify newNode fun m => { m with prev := none, next := none }
    return { l with mFirst := some newNode, mLast := some newNode }
  | some first => do
    let l ← l.modify newNode fun m => { m with prev := none, next := some first }
    let l ← l.modify first fun m => { m with prev := some newNode }
    return { l with mFirst := some newNode }

def remove (l : LinkedList α) (node : Nat) : Option (LinkedList α) := do
  let n ← l.node node
  let l ← l.linkNext n.prev n.next
  l.linkPrev n.next n.prev

/-- The values from `cur` on; as many nodes as there are cells at most. -/
def walk (l : LinkedList α) : Nat → Option Nat → Option (List α)
  | _, none => some []
  | 0, some _ => none
  | fuel + 1, some cur => do
    let n ← l.node cur
    return n.val :: (← l.walk fuel n.next)

/-- The values of the list. -/
def toList (l : LinkedList α) : Option (List α) := l.walk l.mem.length l.mFirst

/-! ## 2. Nodes after an operation -/

section Nodes

variable {l l' : LinkedList α} {a b : Nat} {n : Node α}

theorem lt_of_node (h : l.node a = some n) : a < l.mem.length := by
  unfold node at h
  by_contra hge
  rw [List.getElem?_eq_none (by omega)] at h
  cases h

theorem node_put (h : l.node a = some n) (m : Node α) : (l.put a m).node a = some m := by
  have hlt := lt_of_node h
  simp [node, put, hlt]

theorem node_put_ne (h : b ≠ a) (m : Node α) : (l.put a m).node b = l.node b := by
  simp [node, put, List.getElem?_set_ne (Ne.symm h)]

theorem modify_eq (h : l.node a = some n) (g : Node α → Node α) :
    l.modify a g = some (l.put a (g n)) := by
  simp [modify, h]

theorem node_delete_ne (h : b ≠ a) : (l.delete a).node b = l.node b := by
  simp [node, delete, List.getElem?_set_ne (Ne.symm h)]

/-- A node can be made wherever there is none, and changes nothing else. -/
theorem new_spec (h : l.node a = none) (v : α) :
    ∃ l', l.new a v = some l' ∧ l'.node a = some ⟨v, none, none⟩ ∧
      (∀ b, b ≠ a → l'.node b = l.node b) ∧ l'.mFirst = l.mFirst ∧ l'.mLast = l.mLast := by
  refine ⟨{ l with mem := (l.grown a).set a (some ⟨v, none, none⟩) }, by simp [new, h], ?_,
    fun b hb => ?_, rfl, rfl⟩
  · have hlt : a < (l.grown a).length := by
      simp only [grown, List.length_append, List.length_replicate]
      omega
    simp only [node]
    rw [List.getElem?_set_self hlt]
    rfl
  · simp only [node]
    rw [List.getElem?_set_ne (Ne.symm hb), grown]
    rcases Nat.lt_or_ge b l.mem.length with hlt | hge
    · rw [List.getElem?_append_left hlt]
    · rw [List.getElem?_append_right hge, List.getElem?_eq_none hge, List.getElem?_replicate]
      split <;> rfl

theorem node_modify_ne {g : Node α → Node α} (h : l.modify a g = some l') (hb : b ≠ a) :
    l'.node b = l.node b := by
  cases hn : l.node a with
  | none => simp [modify, hn] at h
  | some n =>
      rw [modify_eq hn] at h
      cases h
      exact node_put_ne hb _

/-- Changing nodes neither makes nor deletes one. -/
theorem modify_none {g : Node α → Node α} (h : l.modify a g = some l') (hb : l.node b = none) :
    l'.node b = none := by
  rw [node_modify_ne h, hb]
  rintro rfl
  simp [modify, hb] at h

theorem linkNext_none {p x : Option Nat} (h : l.linkNext p x = some l') (hb : l.node b = none) :
    l'.node b = none := by
  cases p with
  | none =>
      cases h
      exact hb
  | some p => exact modify_none h hb

theorem insertBefore_none {c : Nat} (h : l.insertBefore a c = some l') (hb : l.node b = none) :
    l'.node b = none := by
  simp only [insertBefore, Option.bind_eq_bind, Option.bind_eq_some_iff] at h
  obtain ⟨n, -, l₁, h₁, l₂, h₂, h₃⟩ := h
  exact modify_none h₃ (linkNext_none h₂ (modify_none h₁ hb))

end Nodes

/-! ## 3. Segments -/

/-- The address a list of nodes begins with; `n` if there is no node. -/
def headAddr (n : Option Nat) : List (Nat × α) → Option Nat
  | [] => n
  | (a, _) :: _ => some a

/-- The address a list of nodes ends with; `p` if there is no node. -/
def lastAddr (p : Option Nat) : List (Nat × α) → Option Nat
  | [] => p
  | (a, _) :: xs => lastAddr (some a) xs

def addrs (xs : List (Nat × α)) : List Nat := xs.map Prod.fst

/-- **A part of a list in memory**: the node before it is at `p` and the node behind it at `n`. -/
def Segment (f : Nat → Option (Node α)) : Option Nat → List (Nat × α) → Option Nat → Prop
  | _, [], _ => True
  | p, (a, v) :: xs, n => f a = some ⟨v, p, headAddr n xs⟩ ∧ Segment f (some a) xs n

section Segments

variable {f g : Nat → Option (Node α)} {p n : Option Nat} {xs ys : List (Nat × α)}

@[simp] theorem headAddr_nil (n : Option Nat) : headAddr n ([] : List (Nat × α)) = n := rfl

@[simp] theorem headAddr_cons (n : Option Nat) (x : Nat × α) (xs : List (Nat × α)) :
    headAddr n (x :: xs) = some x.1 := rfl

@[simp] theorem headAddr_append (n : Option Nat) (xs ys : List (Nat × α)) :
    headAddr n (xs ++ ys) = headAddr (headAddr n ys) xs := by
  cases xs <;> rfl

@[simp] theorem lastAddr_append (p : Option Nat) (xs ys : List (Nat × α)) :
    lastAddr p (xs ++ ys) = lastAddr (lastAddr p xs) ys := by
  induction xs generalizing p with
  | nil => rfl
  | cons x xs ih => exact ih (some x.1)

theorem segment_append :
    Segment f p (xs ++ ys) n ↔
      Segment f p xs (headAddr n ys) ∧ Segment f (lastAddr p xs) ys n := by
  induction xs generalizing p with
  | nil => simp [Segment, lastAddr]
  | cons x xs ih => simp [Segment, lastAddr, ih, and_assoc]

theorem Segment.congr (h : Segment f p xs n) (hfg : ∀ a ∈ addrs xs, g a = f a) :
    Segment g p xs n := by
  induction xs generalizing p with
  | nil => trivial
  | cons x xs ih =>
      refine ⟨(hfg x.1 List.mem_cons_self).trans h.1, ih h.2 fun a ha => ?_⟩
      exact hfg a (List.mem_cons_of_mem _ ha)

/-- The nodes of a segment are in memory. -/
theorem Segment.live (h : Segment f p xs n) {a : Nat} (ha : a ∈ addrs xs) : f a ≠ none := by
  induction xs generalizing p with
  | nil => cases ha
  | cons x xs ih =>
      rcases List.mem_cons.mp ha with rfl | ha
      · rw [h.1]
        nofun
      · exact ih h.2 ha

end Segments

/-! ## 4. The two ends of a list -/

/-- The front of a list, before the node at `n`. -/
structure Front (l : LinkedList α) (xs : List (Nat × α)) (n : Option Nat) : Prop where
  first : l.mFirst = headAddr n xs
  segment : Segment l.node none xs n

/-- The back of a list, behind the node at `p`. -/
structure Back (l : LinkedList α) (p : Option Nat) (xs : List (Nat × α)) : Prop where
  last : l.mLast = lastAddr p xs
  segment : Segment l.node p xs none

section Ends

variable {l l' : LinkedList α} {xs : List (Nat × α)} {p n x : Option Nat}

theorem Front.congr (h : Front l xs n) (hfirst : l'.mFirst = l.mFirst)
    (hnode : ∀ a ∈ addrs xs, l'.node a = l.node a) : Front l' xs n :=
  ⟨hfirst.trans h.first, h.segment.congr hnode⟩

theorem Back.congr (h : Back l p xs) (hlast : l'.mLast = l.mLast)
    (hnode : ∀ a ∈ addrs xs, l'.node a = l.node a) : Back l' p xs :=
  ⟨hlast.trans h.last, h.segment.congr hnode⟩

/-- What is behind the front of a list can be exchanged. -/
theorem Front.linkNext (h : Front l xs n) (hnodup : (addrs xs).Nodup) (x : Option Nat) :
    ∃ l', l.linkNext (lastAddr none xs) x = some l' ∧ Front l' xs x ∧ l'.mLast = l.mLast ∧
      ∀ a, a ∉ addrs xs → l'.node a = l.node a := by
  rcases List.eq_nil_or_concat' xs with rfl | ⟨ys, ⟨c, v⟩, rfl⟩
  · exact ⟨_, rfl, ⟨rfl, trivial⟩, rfl, fun _ _ => rfl⟩
  · obtain ⟨hys, hc, -⟩ := segment_append.mp h.segment
    have hout : c ∉ addrs ys := by
      simp only [addrs, List.map_append, List.map_cons, List.map_nil] at hnodup ⊢
      exact fun hmem => (List.nodup_append.mp hnodup).2.2 c hmem c (by simp) rfl
    have hlink : l.linkNext (lastAddr none (ys ++ [(c, v)])) x =
        some (l.put c ⟨v, lastAddr none ys, x⟩) := by
      rw [lastAddr_append]
      exact modify_eq hc _
    refine ⟨_, hlink, ⟨?_, ?_⟩, rfl, fun a ha => ?_⟩
    · refine h.first.trans ?_
      rw [headAddr_append, headAddr_append]
      rfl
    · refine segment_append.mpr ⟨hys.congr fun a ha => node_put_ne ?_ _, node_put hc _, trivial⟩
      rintro rfl
      exact hout ha
    · refine node_put_ne ?_ _
      rintro rfl
      exact ha (by simp [addrs])

/-- What is before the back of a list can be exchanged. -/
theorem Back.linkPrev (h : Back l p xs) (hnodup : (addrs xs).Nodup) (x : Option Nat) :
    ∃ l', l.linkPrev (headAddr none xs) x = some l' ∧ Back l' x xs ∧ l'.mFirst = l.mFirst ∧
      ∀ a, a ∉ addrs xs → l'.node a = l.node a := by
  cases xs with
  | nil => exact ⟨_, rfl, ⟨rfl, trivial⟩, rfl, fun _ _ => rfl⟩
  | cons y ys =>
      obtain ⟨hy, hys⟩ := h.segment
      have hout : y.1 ∉ addrs ys := (List.nodup_cons.mp hnodup).1
      refine ⟨_, modify_eq hy _, ⟨h.last, node_put hy _, hys.congr fun a ha => node_put_ne ?_ _⟩,
        rfl, fun a ha => node_put_ne ?_ _⟩
      · rintro rfl
        exact hout ha
      · rintro rfl
        exact ha List.mem_cons_self

end Ends

/-! ## 5. The whole list -/

/-- **The list holds these nodes**, in this order and each of them once. -/
structure Holds (l : LinkedList α) (xs : List (Nat × α)) : Prop where
  nodup : (addrs xs).Nodup
  first : l.mFirst = headAddr none xs
  last : l.mLast = lastAddr none xs
  segment : Segment l.node none xs none

section Whole

variable {l l' : LinkedList α} {pre post xs : List (Nat × α)} {a b : Nat} {v w : α} {p : Option Nat}

/-- A list before, at and behind one of its parts. -/
theorem holds_split (mid : List (Nat × α)) :
    Holds l (pre ++ (mid ++ post)) ↔
      (addrs (pre ++ (mid ++ post))).Nodup ∧ Front l pre (headAddr (headAddr none post) mid) ∧
        Segment l.node (lastAddr none pre) mid (headAddr none post) ∧
        Back l (lastAddr (lastAddr none pre) mid) post := by
  constructor
  · rintro ⟨hnodup, hfirst, hlast, hseg⟩
    rw [segment_append, segment_append] at hseg
    simp only [headAddr_append, lastAddr_append] at hfirst hlast hseg
    exact ⟨hnodup, ⟨hfirst, hseg.1⟩, hseg.2.1, ⟨hlast, hseg.2.2⟩⟩
  · rintro ⟨hnodup, hfront, hmid, hback⟩
    refine ⟨hnodup, ?_, ?_, ?_⟩
    · simpa only [headAddr_append] using hfront.first
    · simpa only [lastAddr_append] using hback.last
    · rw [segment_append, segment_append, headAddr_append]
      exact ⟨hfront.segment, hmid, hback.segment⟩

/-- One node, and the nodes around it. -/
theorem nodup_split (h : (addrs (pre ++ (a, v) :: post)).Nodup) :
    (addrs pre).Nodup ∧ (addrs post).Nodup ∧ a ∉ addrs pre ∧ a ∉ addrs post ∧
      ∀ c ∈ addrs post, c ∉ addrs pre := by
  unfold addrs at h ⊢
  rw [List.map_append, List.map_cons, List.nodup_append, List.nodup_cons] at h
  obtain ⟨hpre, ⟨hpost, hnodup⟩, hapart⟩ := h
  exact ⟨hpre, hnodup, fun ha => hapart a ha a List.mem_cons_self rfl, hpost,
    fun c hc hc' => hapart c hc' c (List.mem_cons_of_mem _ hc) rfl⟩

theorem nodup_insert (h : (addrs (pre ++ post)).Nodup) (hb : b ∉ addrs (pre ++ post)) (w : α) :
    (addrs (pre ++ (b, w) :: post)).Nodup := by
  unfold addrs at h hb ⊢
  rw [List.map_append, List.map_cons, List.nodup_middle, ← List.map_append]
  exact List.nodup_cons.mpr ⟨hb, h⟩

theorem nodup_erase (h : (addrs (pre ++ (a, v) :: post)).Nodup) :
    (addrs (pre ++ post)).Nodup ∧ a ∉ addrs (pre ++ post) := by
  unfold addrs at h ⊢
  rw [List.map_append, List.map_cons, List.nodup_middle, ← List.map_append] at h
  exact (List.nodup_cons.mp h).symm

theorem Holds.congr (h : Holds l xs) (hfirst : l'.mFirst = l.mFirst) (hlast : l'.mLast = l.mLast)
    (hnode : ∀ a ∈ addrs xs, l'.node a = l.node a) : Holds l' xs :=
  ⟨h.nodup, hfirst.trans h.first, hlast.trans h.last, h.segment.congr hnode⟩

/-- The node at an address of the list, with its neighbours. -/
theorem Holds.node (h : Holds l (pre ++ (a, v) :: post)) :
    l.node a = some ⟨v, lastAddr none pre, headAddr none post⟩ :=
  (segment_append.mp h.segment).2.1

/-- There are at least as many cells as nodes. -/
theorem Holds.length_le (h : Holds l xs) : xs.length ≤ l.mem.length := by
  have hsub : addrs xs ⊆ List.range l.mem.length := by
    intro a ha
    obtain ⟨n, hn⟩ := Option.ne_none_iff_exists'.mp (h.segment.live ha)
    exact List.mem_range.mpr (lt_of_node hn)
  have hle := (List.subperm_of_subset h.nodup hsub).length_le
  simpa [addrs] using hle

theorem Segment.walk (h : Segment l.node p xs none) {fuel : Nat} (hfuel : xs.length ≤ fuel) :
    l.walk fuel (headAddr none xs) = some (xs.map Prod.snd) := by
  induction xs generalizing p fuel with
  | nil => cases fuel <;> rfl
  | cons x xs ih =>
      obtain ⟨fuel, rfl⟩ : ∃ n, fuel = n + 1 := ⟨fuel - 1, by simp at hfuel; omega⟩
      have htail := ih h.2 (by simpa using hfuel)
      simp [LinkedList.walk, h.1, htail]

/-- The values are read off by following the pointers. -/
theorem Holds.toList (h : Holds l xs) : l.toList = some (xs.map Prod.snd) := by
  rw [LinkedList.toList, h.first]
  exact h.segment.walk h.length_le

/-- **A value is changed in place.** -/
theorem Holds.modify (h : Holds l (pre ++ (a, v) :: post)) (g : α → α) :
    ∃ l', l.modify a (fun n => { n with val := g n.val }) = some l' ∧
      Holds l' (pre ++ (a, g v) :: post) := by
  obtain ⟨hpre, hpost, ha, ha', hapart⟩ := nodup_split h.nodup
  obtain ⟨-, hfront, hmid, hback⟩ := (holds_split [(a, v)]).mp h
  refine ⟨_, modify_eq h.node _, (holds_split [(a, g v)]).mpr ⟨?_, ?_, ?_, ?_⟩⟩
  · exact nodup_insert (nodup_erase h.nodup).1 (nodup_erase h.nodup).2 (g v)
  · exact hfront.congr rfl fun c hc => node_put_ne (by rintro rfl; exact ha hc) _
  · exact ⟨node_put h.node _, trivial⟩
  · exact hback.congr rfl fun c hc => node_put_ne (by rintro rfl; exact ha' hc) _

/-- **A new node** is outside of the list. -/
theorem Holds.new (h : Holds l xs) (hfree : l.node b = none) (w : α) :
    ∃ l', l.new b w = some l' ∧ Holds l' xs ∧ b ∉ addrs xs ∧ l'.node b = some ⟨w, none, none⟩ ∧
      ∀ c, c ≠ b → l.node c = none → l'.node c = none := by
  obtain ⟨l', hnew, hnode, hothers, hfirst, hlast⟩ := new_spec hfree w
  have hout : b ∉ addrs xs := fun hb => h.segment.live hb hfree
  refine ⟨l', hnew, h.congr hfirst hlast fun a ha => hothers a ?_, hout, hnode,
    fun c hc hnone => (hothers c hc).trans hnone⟩
  rintro rfl
  exact hout ha

/-- **Inserting before a node.** -/
theorem Holds.insertBefore (h : Holds l (pre ++ (a, v) :: post))
    (hb : b ∉ addrs (pre ++ (a, v) :: post)) {n : Node α} (hnode : l.node b = some n) :
    ∃ l', l.insertBefore a b = some l' ∧ Holds l' (pre ++ (b, n.val) :: (a, v) :: post) := by
  obtain ⟨hpre, hpost, ha, ha', hapart⟩ := nodup_split h.nodup
  obtain ⟨hb₁, hb₂, hb₃⟩ : b ∉ addrs pre ∧ b ≠ a ∧ b ∉ addrs post := by
    simpa [addrs, not_or] using hb
  obtain ⟨-, hfront, hmid, hback⟩ := (holds_split [(a, v)]).mp h
  -- the new node, then the node before it, then the node behind it
  have hl₁ := modify_eq hnode fun m => { m with prev := lastAddr none pre, next := some a }
  have hfront₁ : Front (l.put b ⟨n.val, lastAddr none pre, some a⟩) pre (some a) :=
    hfront.congr rfl fun c hc => node_put_ne (by rintro rfl; exact hb₁ hc) _
  obtain ⟨l₂, hl₂, hfront₂, hlast₂, hsame₂⟩ := hfront₁.linkNext hpre (some b)
  have hnode_a : l₂.node a = some ⟨v, lastAddr none pre, headAddr none post⟩ := by
    rw [hsame₂ a ha, node_put_ne hb₂.symm, h.node]
  have hnode_b : l₂.node b = some ⟨n.val, lastAddr none pre, some a⟩ := by
    rw [hsame₂ b hb₁, node_put hnode]
  have hl₃ := modify_eq hnode_a fun m => { m with prev := some b }
  refine ⟨l₂.put a ⟨v, some b, headAddr none post⟩, ?_,
    (holds_split [(b, n.val), (a, v)]).mpr ⟨nodup_insert h.nodup hb n.val, ?_, ?_, ?_⟩⟩
  · simp only [LinkedList.insertBefore, h.node, Option.bind_eq_bind, Option.bind_some, hl₁, hl₂]
    exact hl₃
  · exact hfront₂.congr rfl fun c hc => node_put_ne (by rintro rfl; exact ha hc) _
  · exact ⟨(node_put_ne hb₂ _).trans hnode_b, node_put hnode_a _, trivial⟩
  · refine hback.congr hlast₂ fun c hc => ?_
    rw [node_put_ne (by rintro rfl; exact ha' hc), hsame₂ c (hapart c hc),
      node_put_ne (by rintro rfl; exact hb₃ hc)]

/-- **Inserting behind a node.** -/
theorem Holds.insertAfter (h : Holds l (pre ++ (a, v) :: post))
    (hb : b ∉ addrs (pre ++ (a, v) :: post)) {n : Node α} (hnode : l.node b = some n) :
    ∃ l', l.insertAfter a b = some l' ∧ Holds l' (pre ++ (a, v) :: (b, n.val) :: post) := by
  obtain ⟨hpre, hpost, ha, ha', hapart⟩ := nodup_split h.nodup
  obtain ⟨hb₁, hb₂, hb₃⟩ : b ∉ addrs pre ∧ b ≠ a ∧ b ∉ addrs post := by
    simpa [addrs, not_or] using hb
  obtain ⟨-, hfront, hmid, hback⟩ := (holds_split [(a, v)]).mp h
  have hl₁ := modify_eq hnode fun m => { m with prev := some a, next := headAddr none post }
  have hback₁ : Back (l.put b ⟨n.val, some a, headAddr none post⟩) (some a) post :=
    hback.congr rfl fun c hc => node_put_ne (by rintro rfl; exact hb₃ hc) _
  obtain ⟨l₂, hl₂, hback₂, hfirst₂, hsame₂⟩ := hback₁.linkPrev hpost (some b)
  have hnode_a : l₂.node a = some ⟨v, lastAddr none pre, headAddr none post⟩ := by
    rw [hsame₂ a ha', node_put_ne hb₂.symm, h.node]
  have hnode_b : l₂.node b = some ⟨n.val, some a, headAddr none post⟩ := by
    rw [hsame₂ b hb₃, node_put hnode]
  have hl₃ := modify_eq hnode_a fun m => { m with next := some b }
  refine ⟨l₂.put a ⟨v, lastAddr none pre, some b⟩, ?_,
    (holds_split [(a, v), (b, n.val)]).mpr ⟨?_, ?_, ?_, ?_⟩⟩
  · simp only [LinkedList.insertAfter, h.node, Option.bind_eq_bind, Option.bind_some, hl₁, hl₂]
    exact hl₃
  · have hsplit : pre ++ (a, v) :: post = (pre ++ [(a, v)]) ++ post := by simp
    rw [hsplit] at h hb
    simpa using nodup_insert h.nodup hb n.val
  · refine hfront.congr hfirst₂ fun c hc => ?_
    rw [node_put_ne (by rintro rfl; exact ha hc), hsame₂ c fun hc' => hapart c hc' hc,
      node_put_ne (by rintro rfl; exact hb₁ hc)]
  · exact ⟨node_put hnode_a _, (node_put_ne hb₂ _).trans hnode_b, trivial⟩
  · exact hback₂.congr rfl fun c hc => node_put_ne (by rintro rfl; exact ha' hc) _

/-- **Removing a node**, which stays in memory until it is deleted. -/
theorem Holds.remove (h : Holds l (pre ++ (a, v) :: post)) :
    ∃ l', l.remove a = some l' ∧ Holds l' (pre ++ post) ∧ a ∉ addrs (pre ++ post) := by
  obtain ⟨hpre, hpost, ha, ha', hapart⟩ := nodup_split h.nodup
  obtain ⟨-, hfront, hmid, hback⟩ := (holds_split [(a, v)]).mp h
  obtain ⟨l₁, hl₁, hfront₁, hlast₁, hsame₁⟩ := hfront.linkNext hpre (headAddr none post)
  have hback₁ : Back l₁ (some a) post := hback.congr hlast₁ fun c hc => hsame₁ c (hapart c hc)
  obtain ⟨l₂, hl₂, hback₂, hfirst₂, hsame₂⟩ := hback₁.linkPrev hpost (lastAddr none pre)
  refine ⟨l₂, ?_, (holds_split []).mpr ⟨(nodup_erase h.nodup).1, ?_, trivial, hback₂⟩,
    (nodup_erase h.nodup).2⟩
  · simp only [LinkedList.remove, h.node, Option.bind_eq_bind, Option.bind_some, hl₁, hl₂]
  · exact hfront₁.congr hfirst₂ fun c hc => hsame₂ c fun hc' => hapart c hc' hc

theorem Holds.delete (h : Holds l xs) (ha : a ∉ addrs xs) : Holds (l.delete a) xs :=
  h.congr rfl rfl fun c hc => node_delete_ne (by rintro rfl; exact ha hc)

/-- **A new first node.** -/
theorem Holds.insertHead (h : Holds l xs) (hb : b ∉ addrs xs) {n : Node α}
    (hnode : l.node b = some n) :
    ∃ l', l.insertHead b = some l' ∧ Holds l' ((b, n.val) :: xs) := by
  cases xs with
  | nil =>
      have hfirst : l.mFirst = none := h.first
      refine ⟨{ l.put b ⟨n.val, none, none⟩ with mFirst := some b, mLast := some b }, ?_,
        ⟨List.nodup_singleton b, rfl, rfl, ⟨node_put hnode _, trivial⟩⟩⟩
      simp only [LinkedList.insertHead, hfirst, modify_eq hnode, Option.bind_eq_bind,
        Option.bind_some]
      rfl
  | cons x xs =>
      -- the first node has none before it, and is inserted before
      obtain ⟨a, v⟩ := x
      have hfirst : l.mFirst = some a := h.first
      obtain ⟨l', hl', h'⟩ := (show Holds l ([] ++ (a, v) :: xs) from h).insertBefore hb hnode
      refine ⟨l', ?_, h'⟩
      rw [← hl']
      have hlinked := (show Holds l ([] ++ (a, v) :: xs) from h).node
      simp only [lastAddr] at hlinked
      have hne : a ≠ b := by
        rintro rfl
        exact hb (by simp [addrs])
      have hfirst' := (node_put_ne hne ⟨n.val, none, some a⟩).trans hlinked
      simp only [LinkedList.insertHead, LinkedList.insertBefore, hfirst, hlinked, modify_eq hnode,
        Option.bind_eq_bind, Option.bind_some, linkNext, modify_eq hfirst']
      exact (modify_eq (l := { l.put b ⟨n.val, none, some a⟩ with mFirst := some b }) hfirst'
        fun m => { m with prev := some b }).symm

end Whole

end LinkedList

end Y210.Lib

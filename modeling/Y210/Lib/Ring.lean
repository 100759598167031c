/-
  File:      Y210/Lib/Ring.lean
  Subject:   RINGS OF NODES IN MEMORY: circular doubly linked lists around a node that is not an
             entry of the list.

  Memory is a list of cells, and an address is an index into it. What memory holds is read through
  three functions: `next`, `prev` and `val`, the last with a value exactly where there is a node.
  Each operation has one lemma, which says what these functions are afterwards.

  * `Cells.addToList`, `Cells.removeFromList` -- a node put before another one, and taken out;
  * `Cells.walkWhile` -- the loop that follows `next` while a test holds and the ring has not come
    round;
  * `Cells.ring` -- the nodes of a ring, read off memory;
  * `Ring m h xs` -- the ring around `h` holds the nodes `xs`, in this order;
  * `Ring.addToList`, `Ring.removeFromList`, `Ring.walkWhile` -- what the operations do to it, and
    that they follow no null pointer; `Ring.frame` -- another ring in the same memory.
-/
import Y210.Lib.LinkedList
import Mathlib.Logic.Function.Basic

namespace Y210.Lib

/-! ## 1. Memory -/

/-- At each address a node or nothing. -/
abbrev Cells (β : Type) := List (Option (Node β))

namespace Cells

variable {β : Type}

def node (m : Cells β) (a : Nat) : Option (Node β) := m[a]?.join

def next (m : Cells β) (a : Nat) : Option Nat := (m.node a).bind Node.next

def prev (m : Cells β) (a : Nat) : Option Nat := (m.node a).bind Node.prev

def val (m : Cells β) (a : Nat) : Option β := (m.node a).map Node.val

def modify (m : Cells β) (a : Nat) (g : Node β → Node β) : Option (Cells β) :=
  (m.node a).map fun n => m.set a (some (g n))

def setNext (m : Cells β) (a : Nat) (b : Option Nat) : Option (Cells β) :=
  m.modify a fun n => { n with next := b }

def setPrev (m : Cells β) (a : Nat) (b : Option Nat) : Option (Cells β) :=
  m.modify a fun n => { n with prev := b }

/-- A new value for the node at `a`; its links stay. -/
def store (m : Cells β) (a : Nat) (v : β) : Option (Cells β) :=
  m.modify a fun n => { n with val := v }

/-- The memory, with a cell at `a`. -/
def grown (m : Cells β) (a : Nat) : Cells β := m ++ List.replicate (a + 1 - m.length) none

def put (m : Cells β) (a : Nat) (n : Node β) : Cells β := m.set a (some n)

/-- A node at `a`, where there is none. -/
def alloc (m : Cells β) (a : Nat) (v : β) : Option (Cells β) :=
  match m.node a with
  | some _ => none
  | none => some ((m.grown a).put a ⟨v, none, none⟩)

def free (m : Cells β) (a : Nat) : Cells β := m.set a none

/-- `ev` is put before `list`. -/
def addToList (m : Cells β) (ev list : Nat) : Option (Cells β) := do
  let m ← m.setNext ev (some list)
  let m ← m.setPrev ev (m.prev list)
  let p ← m.prev ev
  let m ← m.setNext p (some ev)
  m.setPrev list (some ev)

/-- `ev` is taken out, and its own links are cleared. -/
def removeFromList (m : Cells β) (ev : Nat) : Option (Cells β) := do
  let n ← m.next ev
  let m ← m.setPrev n (m.prev ev)
  let p ← m.prev ev
  let m ← m.setNext p (m.next ev)
  let m ← m.setNext ev none
  m.setPrev ev none

/-- From `cur` along `next` while `p` holds, until the ring is back at `h`. -/
def walkWhile (m : Cells β) (p : Nat → Bool) (h : Nat) : Nat → Nat → Option Nat
  | 0, _ => none
  | fuel + 1, cur =>
    if p cur && cur != h then (m.next cur).bind (m.walkWhile p h fuel) else some cur

/-- The nodes from `cur` on, until the ring is back at `h`. -/
def follow (m : Cells β) (h : Nat) : Nat → Nat → List Nat
  | 0, _ => []
  | fuel + 1, cur => if cur = h then [] else cur :: (m.next cur).elim [] (m.follow h fuel)

/-- The nodes of the ring around `h`. -/
def ring (m : Cells β) (h : Nat) : List Nat := (m.next h).elim [] (m.follow h m.length)

/-! ## 2. What the operations leave in memory -/

/-- The three functions that memory is read through. -/
structure Reads (m : Cells β) (nx pv : Nat → Option Nat) (vl : Nat → Option β) : Prop where
  next : m.next = nx
  prev : m.prev = pv
  val : m.val = vl

section Operations

variable {m m' : Cells β} {a b ev list p n : Nat} {v : β}

theorem val_of_next (h : m.next a = some b) : ∃ v, m.val a = some v := by
  obtain ⟨x, hx, -⟩ := Option.bind_eq_some_iff.mp h
  exact ⟨x.val, by simp [val, hx]⟩

theorem lt_of_val (h : m.val a = some v) : a < m.length := by
  by_contra hge
  rw [val, node, List.getElem?_eq_none (by omega)] at h
  cases h

theorem node_of_val (h : m.val a = some v) : ∃ x, m.node a = some x ∧ x.val = v :=
  Option.map_eq_some_iff.mp h

/-- Where there is a node it can be changed, and nothing else is. -/
theorem modify_spec (h : m.val a = some v) (g : Node β → Node β) :
    ∃ m' x, m.modify a g = some m' ∧ m.node a = some x ∧ m'.length = m.length ∧
      ∀ c, m'.node c = if c = a then some (g x) else m.node c := by
  obtain ⟨x, hx, -⟩ := node_of_val h
  have hlt : a < m.length := lt_of_val h
  refine ⟨m.set a (some (g x)), x, by simp [modify, hx], hx, List.length_set, fun c => ?_⟩
  by_cases hc : c = a
  · subst hc
    simp [node, hlt]
  · rw [if_neg hc, node, List.getElem?_set_ne (Ne.symm hc), node]

theorem setNext_spec (h : m.val a = some v) (b : Option Nat) :
    ∃ m', m.setNext a b = some m' ∧ m'.length = m.length ∧
      Reads m' (Function.update m.next a b) m.prev m.val := by
  obtain ⟨m', x, hm, hx, hlen, hnode⟩ := modify_spec h fun n => { n with next := b }
  refine ⟨m', hm, hlen, ?_, ?_, ?_⟩ <;> funext c <;> by_cases hc : c = a
  all_goals simp [next, prev, val, hnode, hc, hx]

theorem setPrev_spec (h : m.val a = some v) (b : Option Nat) :
    ∃ m', m.setPrev a b = some m' ∧ m'.length = m.length ∧
      Reads m' m.next (Function.update m.prev a b) m.val := by
  obtain ⟨m', x, hm, hx, hlen, hnode⟩ := modify_spec h fun n => { n with prev := b }
  refine ⟨m', hm, hlen, ?_, ?_, ?_⟩ <;> funext c <;> by_cases hc : c = a
  all_goals simp [next, prev, val, hnode, hc, hx]

theorem store_spec (h : m.val a = some v) (w : β) :
    ∃ m', m.store a w = some m' ∧ m'.length = m.length ∧
      Reads m' m.next m.prev (Function.update m.val a (some w)) := by
  obtain ⟨m', x, hm, hx, hlen, hnode⟩ := modify_spec h fun n => { n with val := w }
  refine ⟨m', hm, hlen, ?_, ?_, ?_⟩ <;> funext c <;> by_cases hc : c = a
  all_goals simp [next, prev, val, hnode, hc, hx]

theorem node_grown_put (m : Cells β) (a : Nat) (x : Node β) (c : Nat) :
    ((m.grown a).put a x).node c = if c = a then some x else m.node c := by
  by_cases hc : c = a
  · subst hc
    have hlt : c < (m.grown c).length := by
      simp only [grown, List.length_append, List.length_replicate]
      omega
    rw [if_pos rfl, node, put, List.getElem?_set_self hlt]
    rfl
  · rw [if_neg hc, node, put, List.getElem?_set_ne (Ne.symm hc), node, grown]
    rcases Nat.lt_or_ge c m.length with hlt | hge
    · rw [List.getElem?_append_left hlt]
    · rw [List.getElem?_append_right hge, List.getElem?_eq_none hge, List.getElem?_replicate]
      split <;> rfl

theorem alloc_spec (h : m.val a = none) (v : β) :
    ∃ m', m.alloc a v = some m' ∧
      Reads m' (Function.update m.next a none) (Function.update m.prev a none)
        (Function.update m.val a (some v)) := by
  have hnone : m.node a = none := Option.map_eq_none_iff.mp h
  refine ⟨(m.grown a).put a ⟨v, none, none⟩, by simp [alloc, hnone], ?_, ?_, ?_⟩ <;> funext c <;>
    by_cases hc : c = a
  all_goals simp [next, prev, val, node_grown_put, hc]

theorem free_spec (m : Cells β) (a : Nat) :
    Reads (m.free a) (Function.update m.next a none) (Function.update m.prev a none)
      (Function.update m.val a none) := by
  have hnode : ∀ c, (m.free a).node c = if c = a then none else m.node c := by
    intro c
    by_cases hc : c = a
    · subst hc
      rcases Nat.lt_or_ge c m.length with hlt | hge
      · simp [node, free, hlt]
      · simp [node, free, hge]
    · rw [if_neg hc, node, free, List.getElem?_set_ne (Ne.symm hc), node]
  refine ⟨?_, ?_, ?_⟩ <;> funext c <;> by_cases hc : c = a
  all_goals simp [next, prev, val, hnode, hc]

theorem addToList_spec (hev : m.val ev = some v) (hlist : ∃ w, m.val list = some w)
    (hprev : m.prev list = some p) (hp : ∃ w, m.val p = some w) :
    ∃ m', m.addToList ev list = some m' ∧ m'.length = m.length ∧
      Reads m' (Function.update (Function.update m.next ev (some list)) p (some ev))
        (Function.update (Function.update m.prev ev (some p)) list (some ev)) m.val := by
  obtain ⟨w, hw⟩ := hp
  obtain ⟨u, hu⟩ := hlist
  obtain ⟨m₁, h₁, l₁, r₁⟩ := setNext_spec hev (some list)
  have hp₁ : m₁.prev list = some p := by rw [r₁.prev, hprev]
  obtain ⟨m₂, h₂, l₂, r₂⟩ := setPrev_spec (r₁.val ▸ hev) (some p)
  have hp₂ : m₂.prev ev = some p := by rw [r₂.prev, Function.update_self]
  have hv₂ : m₂.val = m.val := r₂.val.trans r₁.val
  obtain ⟨m₃, h₃, l₃, r₃⟩ := setNext_spec (m := m₂) (a := p) (v := w) (by rw [hv₂, hw]) (some ev)
  have hv₃ : m₃.val = m.val := r₃.val.trans hv₂
  obtain ⟨m₄, h₄, l₄, r₄⟩ := setPrev_spec (m := m₃) (a := list) (v := u) (by rw [hv₃, hu]) (some ev)
  refine ⟨m₄, ?_, by rw [l₄, l₃, l₂, l₁], ?_, ?_, r₄.val.trans hv₃⟩
  · simp only [addToList, Option.bind_eq_bind]
    rw [h₁, Option.bind_some, hp₁, h₂, Option.bind_some, hp₂, Option.bind_some, h₃,
      Option.bind_some, h₄]
  · rw [r₄.next, r₃.next, r₂.next, r₁.next]
  · rw [r₄.prev, r₃.prev, r₂.prev, r₁.prev]

theorem removeFromList_spec (hev : m.val ev = some v) (hnext : m.next ev = some n)
    (hn : ∃ w, m.val n = some w) (hprev : m.prev ev = some p) (hp : ∃ w, m.val p = some w)
    (hne : n ≠ ev) :
    ∃ m', m.removeFromList ev = some m' ∧ m'.length = m.length ∧
      Reads m' (Function.update (Function.update m.next p (some n)) ev none)
        (Function.update (Function.update m.prev n (some p)) ev none) m.val := by
  obtain ⟨w, hw⟩ := hp
  obtain ⟨u, hu⟩ := hn
  obtain ⟨m₁, h₁, l₁, r₁⟩ := setPrev_spec hu (some p)
  have hp₁ : m₁.prev ev = some p := by rw [r₁.prev, Function.update_of_ne (Ne.symm hne), hprev]
  have hn₁ : m₁.next ev = some n := by rw [r₁.next, hnext]
  obtain ⟨m₂, h₂, l₂, r₂⟩ := setNext_spec (m := m₁) (a := p) (v := w) (by rw [r₁.val, hw]) (some n)
  have hv₂ : m₂.val ev = some v := by rw [r₂.val, r₁.val, hev]
  obtain ⟨m₃, h₃, l₃, r₃⟩ := setNext_spec hv₂ none
  obtain ⟨m₄, h₄, l₄, r₄⟩ := setPrev_spec (r₃.val ▸ hv₂) none
  refine ⟨m₄, ?_, by rw [l₄, l₃, l₂, l₁], ?_, ?_, ?_⟩
  · simp only [removeFromList, Option.bind_eq_bind]
    rw [hnext, Option.bind_some, hprev, h₁, Option.bind_some, hp₁, Option.bind_some, hn₁, h₂,
      Option.bind_some, h₃, Option.bind_some, h₄]
  · rw [r₄.next, r₃.next, r₂.next, r₁.next]
  · rw [r₄.prev, r₃.prev, r₂.prev, r₁.prev]
  · rw [r₄.val, r₃.val, r₂.val, r₁.val]

end Operations

end Cells

/-! ## 3. Paths -/

/-- `next` of `a` is `b`, and `prev` of `b` is `a`. -/
def Linked (nx pv : Nat → Option Nat) (a b : Nat) : Prop := nx a = some b ∧ pv b = some a

/-- **A path** from `a` to `b` that goes through `xs`. -/
def Path (nx pv : Nat → Option Nat) : Nat → List Nat → Nat → Prop
  | a, [], b => Linked nx pv a b
  | a, x :: xs, b => Linked nx pv a x ∧ Path nx pv x xs b

section Paths

variable {nx pv nx' pv' : Nat → Option Nat} {a b ev : Nat} {xs ys : List Nat}

theorem headD_mem (xs : List Nat) (b : Nat) : xs.headD b ∈ b :: xs := by
  cases xs <;> simp

theorem getLastD_mem (xs : List Nat) (a : Nat) : xs.getLastD a ∈ a :: xs :=
  List.getLastD_mem_cons

theorem Path.congr (h : Path nx pv a xs b) (hnx : ∀ c ∈ a :: xs, nx' c = nx c)
    (hpv : ∀ c ∈ b :: xs, pv' c = pv c) : Path nx' pv' a xs b := by
  induction xs generalizing a with
  | nil => exact ⟨(hnx a (by simp)).trans h.1, (hpv b (by simp)).trans h.2⟩
  | cons x xs ih =>
      refine ⟨⟨(hnx a (by simp)).trans h.1.1, (hpv x (by simp)).trans h.1.2⟩, ih h.2 ?_ ?_⟩
      · exact fun c hc => hnx c (List.mem_cons_of_mem _ hc)
      · intro c hc
        rcases List.mem_cons.mp hc with rfl | hc
        · exact hpv c (by simp)
        · exact hpv c (by simp [hc])

/-- The first link of a path. -/
theorem Path.first (h : Path nx pv a xs b) : Linked nx pv a (xs.headD b) := by
  cases xs with
  | nil => exact h
  | cons x xs => exact h.1

/-- The link in the middle of a path. -/
theorem Path.link (h : Path nx pv a (xs ++ ys) b) :
    Linked nx pv (xs.getLastD a) (ys.headD b) := by
  induction xs generalizing a with
  | nil => exact h.first
  | cons x xs ih =>
      rw [List.getLastD_cons]
      exact ih h.2

theorem Path.next_isSome (h : Path nx pv a xs b) {c : Nat} (hc : c ∈ a :: xs) :
    ∃ d, nx c = some d := by
  induction xs generalizing a with
  | nil =>
      obtain rfl := List.mem_singleton.mp hc
      exact ⟨b, h.1⟩
  | cons x xs ih =>
      rcases List.mem_cons.mp hc with rfl | hc
      · exact ⟨x, h.1.1⟩
      · exact ih h.2 hc

/-- A path with `ev` put between `xs` and `ys`. -/
theorem Path.insert (h : Path nx pv a (xs ++ ys) b) (hnd : (xs ++ ys).Nodup)
    (ha : a ∉ xs ++ ys) (hb : b ∉ xs ++ ys) (hev : ev ∉ xs ++ ys) (hea : ev ≠ a) (heb : ev ≠ b) :
    Path (Function.update (Function.update nx ev (some (ys.headD b))) (xs.getLastD a) (some ev))
      (Function.update (Function.update pv ev (some (xs.getLastD a))) (ys.headD b) (some ev))
      a (xs ++ ev :: ys) b := by
  induction xs generalizing a with
  | nil =>
      cases ys with
      | nil =>
          refine ⟨⟨?_, ?_⟩, ?_, ?_⟩
          all_goals simp [hea, heb, List.getLastD_nil]
      | cons y ys =>
          simp only [List.nil_append, List.mem_cons, not_or] at ha hb hev
          have hy : y ∉ ys := (List.nodup_cons.mp hnd).1
          rw [List.getLastD_nil]
          refine ⟨⟨?_, ?_⟩, ⟨?_, ?_⟩, h.2.congr (fun c hc => ?_) fun c hc => ?_⟩
          · simp
          · simp [hev.1]
          · simp [hea]
          · simp
          · have hca : c ≠ a := by
              rintro rfl
              rcases List.mem_cons.mp hc with rfl | hc
              · exact ha.1 rfl
              · exact ha.2 hc
            have hce : c ≠ ev := by
              rintro rfl
              rcases List.mem_cons.mp hc with rfl | hc
              · exact hev.1 rfl
              · exact hev.2 hc
            simp [hca, hce]
          · have hcy : c ≠ y := by
              rintro rfl
              rcases List.mem_cons.mp hc with rfl | hc
              · exact hb.1 rfl
              · exact hy hc
            have hce : c ≠ ev := by
              rintro rfl
              rcases List.mem_cons.mp hc with rfl | hc
              · exact heb rfl
              · exact hev.2 hc
            simp [hcy, hce]
  | cons x xs ih =>
      simp only [List.cons_append, List.nodup_cons, List.mem_cons, not_or] at hnd ha hb hev
      have hrest := ih h.2 hnd.2 hnd.1 hb.2 hev.2 hev.1
      rw [List.getLastD_cons]
      refine ⟨⟨?_, ?_⟩, hrest⟩
      · have hp : a ≠ xs.getLastD x := by
          intro he
          rcases List.mem_cons.mp (he ▸ getLastD_mem xs x) with hx | hx
          · exact ha.1 hx
          · exact ha.2 (List.mem_append_left _ hx)
        rw [Function.update_of_ne hp, Function.update_of_ne (Ne.symm hea), h.1.1]
      · have hl : x ≠ ys.headD b := by
          intro he
          rcases List.mem_cons.mp (he ▸ headD_mem ys b) with hx | hx
          · exact hb.1 hx.symm
          · exact hnd.1 (List.mem_append_right _ hx)
        rw [Function.update_of_ne hl, Function.update_of_ne (Ne.symm hev.1), h.1.2]

/-- A path with `ev` taken out. -/
theorem Path.erase (h : Path nx pv a (xs ++ ev :: ys) b) (hnd : (xs ++ ev :: ys).Nodup)
    (ha : a ∉ xs ++ ev :: ys) (hb : b ∉ xs ++ ev :: ys) :
    Path (Function.update (Function.update nx (xs.getLastD a) (some (ys.headD b))) ev none)
      (Function.update (Function.update pv (ys.headD b) (some (xs.getLastD a))) ev none)
      a (xs ++ ys) b := by
  induction xs generalizing a with
  | nil =>
      simp only [List.nil_append, List.nodup_cons, List.mem_cons, not_or] at hnd ha hb
      have hae : a ≠ ev := ha.1
      have hbe : b ≠ ev := hb.1
      cases ys with
      | nil => exact ⟨by simp [hae], by simp [hbe]⟩
      | cons y ys =>
          simp only [List.mem_cons, not_or, List.nodup_cons] at hnd ha hb
          have hye : y ≠ ev := Ne.symm hnd.1.1
          refine ⟨⟨by simp [hae], by simp [hye]⟩, h.2.2.congr (fun c hc => ?_) fun c hc => ?_⟩
          · have hca : c ≠ a := by
              rintro rfl
              rcases List.mem_cons.mp hc with rfl | hc
              · exact ha.2.1 rfl
              · exact ha.2.2 hc
            have hce : c ≠ ev := by
              rintro rfl
              rcases List.mem_cons.mp hc with rfl | hc
              · exact hnd.1.1 rfl
              · exact hnd.1.2 hc
            simp [hca, hce]
          · have hcy : c ≠ y := by
              rintro rfl
              rcases List.mem_cons.mp hc with rfl | hc
              · exact hb.2.1 rfl
              · exact hnd.2.1 hc
            have hce : c ≠ ev := by
              rintro rfl
              rcases List.mem_cons.mp hc with rfl | hc
              · exact hbe rfl
              · exact hnd.1.2 hc
            simp [hcy, hce]
  | cons x xs ih =>
      simp only [List.cons_append, List.nodup_cons, List.mem_cons, not_or] at hnd ha hb
      have hrest := ih h.2 hnd.2 hnd.1 hb.2
      have hmem : ∀ c ∈ ev :: ys, c ∈ xs ++ ev :: ys := fun c hc => List.mem_append_right _ hc
      rw [List.getLastD_cons]
      refine ⟨⟨?_, ?_⟩, hrest⟩
      · have hae : a ≠ ev := fun he => ha.2 (he ▸ hmem ev (by simp))
        have hp : a ≠ xs.getLastD x := by
          intro he
          rcases List.mem_cons.mp (he ▸ getLastD_mem xs x) with hx | hx
          · exact ha.1 hx
          · exact ha.2 (List.mem_append_left _ hx)
        rw [Function.update_of_ne hae, Function.update_of_ne hp, h.1.1]
      · have hxe : x ≠ ev := fun he => hnd.1 (he ▸ hmem ev (by simp))
        have hl : x ≠ ys.headD b := by
          intro he
          rcases List.mem_cons.mp (he ▸ headD_mem ys b) with hx | hx
          · exact hb.1 hx.symm
          · exact hnd.1 (hmem x (List.mem_cons_of_mem _ hx))
        rw [Function.update_of_ne hxe, Function.update_of_ne hl, h.1.2]

end Paths

theorem dropWhile_congr {xs : List Nat} {p q : Nat → Bool} (h : ∀ a ∈ xs, p a = q a) :
    xs.dropWhile p = xs.dropWhile q := by
  induction xs with
  | nil => rfl
  | cons x xs ih =>
      have hrest := ih fun a ha => h a (List.mem_cons_of_mem _ ha)
      simp only [List.dropWhile_cons, h x List.mem_cons_self, hrest]

theorem takeWhile_congr {xs : List Nat} {p q : Nat → Bool} (h : ∀ a ∈ xs, p a = q a) :
    xs.takeWhile p = xs.takeWhile q := by
  induction xs with
  | nil => rfl
  | cons x xs ih =>
      have hrest := ih fun a ha => h a (List.mem_cons_of_mem _ ha)
      simp only [List.takeWhile_cons, h x List.mem_cons_self, hrest]

/-! ## 4. Rings -/

/-- **The ring around `h` holds the nodes `xs`**, in this order and each of them once. -/
structure Ring {β : Type} (m : Cells β) (h : Nat) (xs : List Nat) : Prop where
  nodup : (h :: xs).Nodup
  path : Path m.next m.prev h xs h

namespace Ring

variable {β : Type} {m m' : Cells β} {h ev : Nat} {xs ys : List Nat}

theorem frame (hr : Ring m h xs) (hnext : ∀ c ∈ h :: xs, m'.next c = m.next c)
    (hprev : ∀ c ∈ h :: xs, m'.prev c = m.prev c) : Ring m' h xs :=
  ⟨hr.nodup, hr.path.congr hnext hprev⟩

theorem live (hr : Ring m h xs) {c : Nat} (hc : c ∈ h :: xs) : ∃ v, m.val c = some v :=
  have ⟨_, hd⟩ := hr.path.next_isSome hc
  Cells.val_of_next hd

/-- There are fewer nodes in the ring than cells in memory. -/
theorem length_lt (hr : Ring m h xs) : xs.length < m.length := by
  have hsub : h :: xs ⊆ List.range m.length := by
    intro c hc
    obtain ⟨v, hv⟩ := hr.live hc
    exact List.mem_range.mpr (Cells.lt_of_val hv)
  have hle := (List.subperm_of_subset hr.nodup hsub).length_le
  simp only [List.length_cons, List.length_range] at hle
  omega

theorem next_head (hr : Ring m h xs) : m.next h = some (xs.headD h) :=
  hr.path.first.1

/-- **A node put into the ring**, before the first of `ys`. -/
theorem addToList {v : β} (hr : Ring m h (xs ++ ys)) (hev : ev ∉ h :: (xs ++ ys))
    (hv : m.val ev = some v) :
    ∃ m', m.addToList ev (ys.headD h) = some m' ∧ Ring m' h (xs ++ ev :: ys) ∧
      m'.val = m.val ∧ m'.length = m.length ∧
      ∀ c, c ∉ ev :: h :: (xs ++ ys) → m'.next c = m.next c ∧ m'.prev c = m.prev c := by
  obtain ⟨hnd, hout⟩ := List.nodup_cons.mp hr.nodup
  simp only [List.mem_cons, not_or] at hev
  have hlmem : ys.headD h ∈ h :: (xs ++ ys) := by
    rcases List.mem_cons.mp (headD_mem ys h) with hl | hl
    · rw [hl]
      exact List.mem_cons_self
    · exact List.mem_cons_of_mem _ (List.mem_append_right _ hl)
  have hpmem : xs.getLastD h ∈ h :: (xs ++ ys) := by
    rcases List.mem_cons.mp (getLastD_mem xs h) with hp | hp
    · rw [hp]
      exact List.mem_cons_self
    · exact List.mem_cons_of_mem _ (List.mem_append_left _ hp)
  have hne : ∀ c, c ∈ h :: (xs ++ ys) → c ≠ ev := by
    rintro c hc rfl
    rcases List.mem_cons.mp hc with hc | hc
    · exact hev.1 hc
    · exact hev.2 hc
  obtain ⟨m', hm, hlen, hreads⟩ := Cells.addToList_spec hv (hr.live hlmem) hr.path.link.2
    (hr.live hpmem)
  refine ⟨m', hm, ⟨?_, ?_⟩, hreads.val, hlen, fun c hc => ?_⟩
  · have hp : List.Perm (h :: (xs ++ ev :: ys)) (ev :: h :: (xs ++ ys)) :=
      (List.Perm.cons h List.perm_middle).trans (List.Perm.swap ev h _)
    refine hp.nodup_iff.mpr (List.nodup_cons.mpr ⟨?_, hr.nodup⟩)
    exact fun hc => hne ev hc rfl
  · rw [hreads.next, hreads.prev]
    exact hr.path.insert hout hnd hnd hev.2 hev.1 hev.1
  · have hce : c ≠ ev := fun he => hc (by simp [he])
    have hcp : c ≠ xs.getLastD h := fun he => hc (he ▸ List.mem_cons_of_mem _ hpmem)
    have hcl : c ≠ ys.headD h := fun he => hc (he ▸ List.mem_cons_of_mem _ hlmem)
    rw [hreads.next, hreads.prev, Function.update_of_ne hcp, Function.update_of_ne hce,
      Function.update_of_ne hcl, Function.update_of_ne hce]
    exact ⟨rfl, rfl⟩

/-- **A node taken out of the ring.** -/
theorem removeFromList (hr : Ring m h (xs ++ ev :: ys)) :
    ∃ m', m.removeFromList ev = some m' ∧ Ring m' h (xs ++ ys) ∧ m'.val = m.val ∧
      m'.length = m.length ∧ m.next ev = some (ys.headD h) ∧
      ∀ c, c ∉ h :: (xs ++ ev :: ys) → m'.next c = m.next c ∧ m'.prev c = m.prev c := by
  obtain ⟨hnd, hout⟩ := List.nodup_cons.mp hr.nodup
  have hevmem : ev ∈ h :: (xs ++ ev :: ys) := by simp
  have hlast : Linked m.next m.prev ev (ys.headD h) := by
    have hpath := hr.path
    rw [List.append_cons] at hpath
    simpa using hpath.link
  have hnmem : ys.headD h ∈ h :: (xs ++ ev :: ys) := by
    rcases List.mem_cons.mp (headD_mem ys h) with hl | hl
    · rw [hl]
      exact List.mem_cons_self
    · simp only [List.mem_cons, List.mem_append]
      exact Or.inr (Or.inr (Or.inr hl))
  have hpmem : xs.getLastD h ∈ h :: (xs ++ ev :: ys) := by
    rcases List.mem_cons.mp (getLastD_mem xs h) with hp | hp
    · rw [hp]
      exact List.mem_cons_self
    · exact List.mem_cons_of_mem _ (List.mem_append_left _ hp)
  obtain ⟨v, hv⟩ := hr.live hevmem
  have hperm : List.Perm (h :: (xs ++ ev :: ys)) (ev :: h :: (xs ++ ys)) :=
    (List.Perm.cons h List.perm_middle).trans (List.Perm.swap ev h _)
  obtain ⟨hevout, hnd'⟩ := List.nodup_cons.mp (hperm.nodup_iff.mp hr.nodup)
  have hne : ys.headD h ≠ ev := by
    intro he
    rcases List.mem_cons.mp (headD_mem ys h) with hl | hl
    · exact hevout (by rw [← he, hl]; exact List.mem_cons_self)
    · exact hevout (List.mem_cons_of_mem _ (List.mem_append_right _ (he ▸ hl)))
  obtain ⟨m', hm, hlen, hreads⟩ := Cells.removeFromList_spec hv hlast.1 (hr.live hnmem)
    (Path.link hr.path).2 (hr.live hpmem) hne
  refine ⟨m', hm, ⟨hnd', ?_⟩, hreads.val, hlen, hlast.1, fun c hc => ?_⟩
  · rw [hreads.next, hreads.prev]
    exact hr.path.erase hout hnd hnd
  · have hce : c ≠ ev := fun he => hc (he ▸ hevmem)
    have hcp : c ≠ xs.getLastD h := fun he => hc (he ▸ hpmem)
    have hcn : c ≠ ys.headD h := fun he => hc (he ▸ hnmem)
    rw [hreads.next, hreads.prev, Function.update_of_ne hce, Function.update_of_ne hcp,
      Function.update_of_ne hce, Function.update_of_ne hcn]
    exact ⟨rfl, rfl⟩

/-- The walk ends at the first node that fails the test, or back at `h`. -/
theorem walkWhile_path {a fuel : Nat} (hpath : Path m.next m.prev a xs h) (hh : h ∉ xs)
    (p : Nat → Bool) (hfuel : xs.length < fuel) :
    m.walkWhile p h fuel (xs.headD h) = some ((xs.dropWhile p).headD h) := by
  induction xs generalizing a fuel with
  | nil =>
      obtain ⟨fuel, rfl⟩ : ∃ k, fuel = k + 1 := ⟨fuel - 1, by simp at hfuel; omega⟩
      simp [Cells.walkWhile]
  | cons x xs ih =>
      obtain ⟨fuel, rfl⟩ : ∃ k, fuel = k + 1 := ⟨fuel - 1, by simp at hfuel; omega⟩
      simp only [List.mem_cons, not_or] at hh
      have hxh : (x != h) = true := by simpa using Ne.symm hh.1
      simp only [Cells.walkWhile, List.headD_cons, hxh, Bool.and_true, List.dropWhile_cons]
      cases hpx : p x with
      | false => simp
      | true =>
          have hnext : m.next x = some (xs.headD h) := hpath.2.first.1
          rw [if_pos rfl, if_pos rfl, hnext, Option.bind_some]
          exact ih hpath.2 hh.2 (by simpa using hfuel)

theorem follow_path {a fuel : Nat} (hpath : Path m.next m.prev a xs h) (hh : h ∉ xs)
    (hfuel : xs.length < fuel) : m.follow h fuel (xs.headD h) = xs := by
  induction xs generalizing a fuel with
  | nil =>
      obtain ⟨fuel, rfl⟩ : ∃ k, fuel = k + 1 := ⟨fuel - 1, by simp at hfuel; omega⟩
      simp [Cells.follow]
  | cons x xs ih =>
      obtain ⟨fuel, rfl⟩ : ∃ k, fuel = k + 1 := ⟨fuel - 1, by simp at hfuel; omega⟩
      simp only [List.mem_cons, not_or] at hh
      have hnext : m.next x = some (xs.headD h) := hpath.2.first.1
      have hrest := ih hpath.2 hh.2 (by simpa using hfuel)
      simp only [Cells.follow, List.headD_cons, hnext, Option.elim_some, hrest]
      rw [if_neg (Ne.symm hh.1)]

/-- The ring is read off memory. -/
theorem ring_eq (hr : Ring m h xs) : m.ring h = xs := by
  rw [Cells.ring, hr.next_head, Option.elim_some]
  exact follow_path hr.path (List.nodup_cons.mp hr.nodup).1 hr.length_lt

theorem walkWhile (hr : Ring m h xs) (p : Nat → Bool) :
    m.walkWhile p h m.length (xs.headD h) = some ((xs.dropWhile p).headD h) :=
  walkWhile_path hr.path (List.nodup_cons.mp hr.nodup).1 p hr.length_lt

end Ring

end Y210.Lib

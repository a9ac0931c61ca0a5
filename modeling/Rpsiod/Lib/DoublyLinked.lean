import Mathlib.Data.List.Nodup
import Mathlib.Logic.Function.Basic

/-!
# Doubly linked lists in memory

A node holds two links and its data.  Memory maps addresses to nodes; what is not allocated can be
neither read nor written.  Addresses and data are of any type.

* `Seg h before l after`: memory holds the nodes of `l`, linked in this order; in front of them is
  `before` and behind them `after`.
* `seg_append`: a segment can be cut anywhere.
* `Seg.exists_setPrevOf`, `Seg.exists_setNextOf`: **a segment is linked to another neighbour** by a
  write to its first or its last node.
* `Represents h head l`: the whole memory is one list.
* `Represents.link_front`, `Represents.unlink`: a node is linked in at the front, or taken out
  anywhere.
-/

namespace DoublyLinked

/-- A node: its links and its data. -/
structure Node (α β : Type*) where
  prev : Option α
  next : Option α
  data : β

/-- The nodes that are allocated. -/
abbrev Heap (α β : Type*) := α → Option (Node α β)

variable {α β : Type*}

section Write

variable [DecidableEq α]

/-- `a->prev = v`. -/
def setPrev (h : Heap α β) (a : α) (v : Option α) : Option (Heap α β) :=
  (h a).map fun n => Function.update h a (some { n with prev := v })

/-- `a->next = v`. -/
def setNext (h : Heap α β) (a : α) (v : Option α) : Option (Heap α β) :=
  (h a).map fun n => Function.update h a (some { n with next := v })

/-- `if (p != NULL) p->prev = v`. -/
def setPrevOf (h : Heap α β) : Option α → Option α → Option (Heap α β)
  | none, _ => some h
  | some a, v => setPrev h a v

/-- `if (p != NULL) p->next = v`. -/
def setNextOf (h : Heap α β) : Option α → Option α → Option (Heap α β)
  | none, _ => some h
  | some a, v => setNext h a v

end Write

/-! ### Segments -/

/-- The address a list starts with, and `after` if there is none. -/
def first : List (α × β) → Option α → Option α
  | [], after => after
  | x :: _, _ => some x.1

/-- The address a list ends with, and `before` if there is none. -/
def last : Option α → List (α × β) → Option α
  | before, [] => before
  | _, x :: l => last (some x.1) l

/-- The nodes of `l`, linked in this order between `before` and `after`. -/
def Seg (h : Heap α β) : Option α → List (α × β) → Option α → Prop
  | _, [], _ => True
  | before, x :: l, after =>
      h x.1 = some ⟨before, first l after, x.2⟩ ∧ Seg h (some x.1) l after

theorem first_append (l m : List (α × β)) (after : Option α) :
    first (l ++ m) after = first l (first m after) := by
  cases l with
  | nil => rfl
  | cons x l => rfl

theorem last_append (before : Option α) (l m : List (α × β)) :
    last before (l ++ m) = last (last before l) m := by
  induction l generalizing before with
  | nil => rfl
  | cons x l ih => exact ih (some x.1)

theorem last_cons_ne_none (before : Option α) (x : α × β) (l : List (α × β)) :
    last before (x :: l) ≠ none := by
  induction l generalizing before x with
  | nil => exact Option.some_ne_none x.1
  | cons y l ih => exact ih (some x.1) y

/-- A segment can be cut anywhere. -/
theorem seg_append {h : Heap α β} {before after : Option α} {l m : List (α × β)} :
    Seg h before (l ++ m) after ↔
      Seg h before l (first m after) ∧ Seg h (last before l) m after := by
  induction l generalizing before with
  | nil => exact (and_iff_right trivial).symm
  | cons x l ih =>
      show (h x.1 = some ⟨before, first (l ++ m) after, x.2⟩ ∧ Seg h (some x.1) (l ++ m) after) ↔
        (h x.1 = some ⟨before, first l (first m after), x.2⟩ ∧ Seg h (some x.1) l (first m after)) ∧
          Seg h (last (some x.1) l) m after
      rw [first_append, ih, and_assoc]

/-- Only the nodes of a segment count. -/
theorem Seg.congr {h h' : Heap α β} {before after : Option α} {l : List (α × β)}
    (hseg : Seg h before l after) (hsame : ∀ a ∈ l.map Prod.fst, h' a = h a) :
    Seg h' before l after := by
  induction l generalizing before with
  | nil => trivial
  | cons x l ih =>
      obtain ⟨hnode, hrest⟩ := hseg
      rw [List.map_cons] at hsame
      refine ⟨?_, ih hrest fun a ha => hsame a (List.mem_cons_of_mem _ ha)⟩
      rw [hsame x.1 List.mem_cons_self]
      exact hnode

section Write

variable [DecidableEq α]

/-- **Another neighbour in front.** -/
theorem Seg.exists_setPrevOf {h : Heap α β} {before after : Option α} {l : List (α × β)}
    (hseg : Seg h before l after) (hnodup : (l.map Prod.fst).Nodup) (v : Option α) :
    ∃ h', setPrevOf h (first l none) v = some h' ∧ Seg h' v l after ∧
      ∀ a, a ∉ l.map Prod.fst → h' a = h a := by
  cases l with
  | nil => exact ⟨h, rfl, trivial, fun a _ => rfl⟩
  | cons x l =>
      obtain ⟨hnode, hrest⟩ := hseg
      obtain ⟨hnot, -⟩ := List.nodup_cons.mp hnodup
      refine ⟨Function.update h x.1 (some ⟨v, first l after, x.2⟩), ?_, ⟨?_, ?_⟩, ?_⟩
      · show (h x.1).map _ = _
        rw [hnode]
        rfl
      · exact Function.update_self _ _ _
      · refine hrest.congr fun a ha => Function.update_of_ne ?_ _ _
        rintro rfl
        exact hnot ha
      · intro a ha
        apply Function.update_of_ne
        rintro rfl
        exact ha List.mem_cons_self

/-- **Another neighbour behind.** -/
theorem Seg.exists_setNextOf {h : Heap α β} {before after : Option α} {l : List (α × β)}
    (hseg : Seg h before l after) (hnodup : (l.map Prod.fst).Nodup) (v : Option α) :
    ∃ h', setNextOf h (last none l) v = some h' ∧ Seg h' before l v ∧
      ∀ a, a ∉ l.map Prod.fst → h' a = h a := by
  rcases List.eq_nil_or_concat l with rfl | ⟨l, x, rfl⟩
  · exact ⟨h, rfl, trivial, fun a _ => rfl⟩
  · rw [List.concat_eq_append] at hseg hnodup ⊢
    obtain ⟨hfront, hnode, -⟩ := seg_append.mp hseg
    rw [List.map_append] at hnodup
    have hnot : x.1 ∉ l.map Prod.fst := fun hx =>
      (List.nodup_append.mp hnodup).2.2 x.1 hx x.1 List.mem_cons_self rfl
    refine ⟨Function.update h x.1 (some ⟨last before l, v, x.2⟩), ?_, ?_, ?_⟩
    · rw [last_append]
      show (h x.1).map _ = _
      rw [hnode]
      rfl
    · refine seg_append.mpr ⟨?_, Function.update_self _ _ _, trivial⟩
      refine Seg.congr hfront fun a ha => Function.update_of_ne ?_ _ _
      rintro rfl
      exact hnot ha
    · intro a ha
      apply Function.update_of_ne
      rintro rfl
      apply ha
      rw [List.map_append]
      exact List.mem_append_right _ List.mem_cons_self

end Write

/-! ### Lists -/

/-- The allocated nodes are those of `l`, each once, linked in this order from `head` on. -/
structure Represents (h : Heap α β) (head : Option α) (l : List (α × β)) : Prop where
  head_eq : head = first l none
  seg : Seg h none l none
  nodup : (l.map Prod.fst).Nodup
  only : ∀ a, h a ≠ none → a ∈ l.map Prod.fst

/-- The empty memory. -/
theorem represents_nil : Represents (fun _ : α => (none : Option (Node α β))) none [] where
  head_eq := rfl
  seg := trivial
  nodup := List.nodup_nil
  only := fun _ h => absurd rfl h

/-- A node, and its neighbours. -/
theorem Represents.node {h : Heap α β} {head : Option α} {pre post : List (α × β)} {x : α × β}
    (hr : Represents h head (pre ++ x :: post)) :
    h x.1 = some ⟨last none pre, first post none, x.2⟩ :=
  (seg_append.mp hr.seg).2.1

/-- A node of the list, and that no other one is at its address. -/
theorem Represents.exists_split {h : Heap α β} {head : Option α} {l : List (α × β)}
    (hr : Represents h head l) {a : α} (ha : a ∈ l.map Prod.fst) :
    ∃ pre x post, l = pre ++ x :: post ∧ a = x.1 ∧ (∀ y ∈ pre, y.1 ≠ x.1) ∧
      ∀ y ∈ post, y.1 ≠ x.1 := by
  obtain ⟨x, hx, rfl⟩ := List.mem_map.mp ha
  obtain ⟨pre, post, rfl⟩ := List.append_of_mem hx
  have hnodup := hr.nodup
  rw [List.map_append, List.map_cons, List.nodup_middle, List.nodup_cons, List.mem_append, not_or]
    at hnodup
  obtain ⟨⟨hpre, hpost⟩, -⟩ := hnodup
  exact ⟨pre, x, post, rfl, rfl, fun y hy heq => hpre (heq ▸ List.mem_map_of_mem hy),
    fun y hy heq => hpost (heq ▸ List.mem_map_of_mem hy)⟩

section Write

variable [DecidableEq α]

/-- A node's data can be written. -/
theorem Represents.set_data {h : Heap α β} {head : Option α} {pre post : List (α × β)} {x : α × β}
    (hr : Represents h head (pre ++ x :: post)) (d : β) :
    Represents (Function.update h x.1 (some ⟨last none pre, first post none, d⟩)) head
      (pre ++ (x.1, d) :: post) := by
  have hkeys : (pre ++ (x.1, d) :: post).map Prod.fst = (pre ++ x :: post).map Prod.fst := by
    rw [List.map_append, List.map_append, List.map_cons, List.map_cons]
  have hnodup := hr.nodup
  rw [List.map_append, List.map_cons, List.nodup_middle, List.nodup_cons, List.mem_append, not_or]
    at hnodup
  obtain ⟨⟨hnotPre, hnotPost⟩, -⟩ := hnodup
  obtain ⟨hpre, -, hpost⟩ := seg_append.mp hr.seg
  refine ⟨?_, seg_append.mpr ⟨?_, Function.update_self _ _ _, ?_⟩, ?_, ?_⟩
  · rw [hr.head_eq, first_append, first_append]
    rfl
  · refine Seg.congr hpre fun a ha => Function.update_of_ne ?_ _ _
    rintro rfl
    exact hnotPre ha
  · refine Seg.congr hpost fun a ha => Function.update_of_ne ?_ _ _
    rintro rfl
    exact hnotPost ha
  · rw [hkeys]
    exact hr.nodup
  · intro a ha
    rw [hkeys]
    by_cases hax : a = x.1
    · rw [hax, List.map_append, List.map_cons]
      exact List.mem_append_right _ List.mem_cons_self
    · rw [Function.update_of_ne hax] at ha
      exact hr.only a ha

/-- **A new node at the front.** -/
theorem Represents.link_front {h : Heap α β} {head : Option α} {l : List (α × β)}
    (hr : Represents h head l) {a : α} (ha : a ∉ l.map Prod.fst) (d : β) :
    ∃ h', setPrevOf (Function.update h a (some ⟨none, head, d⟩)) head (some a) = some h' ∧
      Represents h' (some a) ((a, d) :: l) := by
  have hseg : Seg (Function.update h a (some ⟨none, head, d⟩)) none l none := by
    refine hr.seg.congr fun b hb => Function.update_of_ne ?_ _ _
    rintro rfl
    exact ha hb
  obtain ⟨h', hset, hseg', hframe⟩ := hseg.exists_setPrevOf hr.nodup (some a)
  rw [← hr.head_eq] at hset
  refine ⟨h', hset, rfl, ⟨?_, hseg'⟩, List.nodup_cons.mpr ⟨ha, hr.nodup⟩, ?_⟩
  · rw [hframe a ha, Function.update_self, hr.head_eq]
  · intro b hb
    rw [List.map_cons]
    by_cases hl : b ∈ l.map Prod.fst
    · exact List.mem_cons_of_mem _ hl
    · rw [hframe b hl] at hb
      by_cases hba : b = a
      · rw [hba]
        exact List.mem_cons_self
      · rw [Function.update_of_ne hba] at hb
        exact absurd (hr.only b hb) hl

/-- **A node is taken out**, wherever it is, by a write to each of its neighbours. -/
theorem Represents.unlink {h : Heap α β} {head : Option α} {pre post : List (α × β)} {x : α × β}
    (hr : Represents h head (pre ++ x :: post)) :
    ∃ h₁ h₂, setNextOf h (last none pre) (first post none) = some h₁ ∧ h₁ x.1 = h x.1 ∧
      setPrevOf h₁ (first post none) (last none pre) = some h₂ ∧ h₂ x.1 = h x.1 ∧
      Represents (Function.update h₂ x.1 none) (first (pre ++ post) none) (pre ++ post) := by
  have hnodup := hr.nodup
  rw [List.map_append, List.map_cons, List.nodup_middle, List.nodup_cons, ← List.map_append]
    at hnodup
  obtain ⟨hx, hrest⟩ := hnodup
  have hsplit := hrest
  rw [List.map_append, List.nodup_append] at hsplit
  obtain ⟨hnodupPre, hnodupPost, hdisjoint⟩ := hsplit
  rw [List.map_append, List.mem_append, not_or] at hx
  obtain ⟨hpre, -, hpost⟩ := seg_append.mp hr.seg
  -- the node in front is linked to the one behind
  obtain ⟨h₁, hset₁, hpre₁, hframe₁⟩ := Seg.exists_setNextOf hpre hnodupPre (first post none)
  have hpost₁ : Seg h₁ (some x.1) post none :=
    Seg.congr hpost fun a ha => hframe₁ a fun hmem => hdisjoint a hmem a ha rfl
  -- and the one behind to the one in front
  obtain ⟨h₂, hset₂, hpost₂, hframe₂⟩ := Seg.exists_setPrevOf hpost₁ hnodupPost (last none pre)
  have hpre₂ : Seg h₂ none pre (first post none) :=
    Seg.congr hpre₁ fun a ha => hframe₂ a fun hmem => hdisjoint a ha a hmem rfl
  have hnode₁ : h₁ x.1 = h x.1 := hframe₁ x.1 hx.1
  refine ⟨h₁, h₂, hset₁, hnode₁, hset₂, (hframe₂ x.1 hx.2).trans hnode₁, rfl, ?_, hrest, ?_⟩
  · refine Seg.congr (seg_append.mpr ⟨hpre₂, hpost₂⟩) fun a ha => Function.update_of_ne ?_ _ _
    rintro rfl
    rw [List.map_append, List.mem_append] at ha
    exact ha.elim hx.1 hx.2
  · intro a ha
    rw [List.map_append, List.mem_append]
    by_contra hnot
    rw [not_or] at hnot
    have hax : a ≠ x.1 := by
      rintro rfl
      rw [Function.update_self] at ha
      exact ha rfl
    rw [Function.update_of_ne hax, hframe₂ a hnot.2, hframe₁ a hnot.1] at ha
    have hmem := hr.only a ha
    rw [List.map_append, List.map_cons, List.mem_append, List.mem_cons] at hmem
    rcases hmem with hin | rfl | hin
    · exact hnot.1 hin
    · exact hax rfl
    · exact hnot.2 hin

end Write

end DoublyLinked

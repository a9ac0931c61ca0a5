import Mathlib.Order.Lattice

/-!
# Descriptor tables

A process refers to open files by numbers.  A call that opens one gives it the lowest number that is
not in use.

* `Table.opened`, `Table.closed`: what these calls do.
* `file_opened`, `file_closed`: **every other descriptor is left alone**.
* `Table.Keeps`: a table that still has what another one has.
-/

namespace Descriptors

/-- What every number in use refers to. -/
structure Table (F : Type*) where
  slots : List (Option F)

variable {F : Type*}

/-- What a descriptor refers to. -/
def Table.file (t : Table F) (fd : ℕ) : Option F := t.slots[fd]?.join

/-- The number that the next call gives. -/
def Table.lowest (t : Table F) : ℕ := t.slots.findIdx Option.isNone

/-- `open` and `dup`. -/
def Table.opened (t : Table F) (f : F) : Table F where
  slots :=
    if t.lowest < t.slots.length then t.slots.set t.lowest (some f) else t.slots ++ [some f]

/-- `close`. -/
def Table.closed (t : Table F) (fd : ℕ) : Table F where
  slots := t.slots.set fd none

theorem lowest_le (t : Table F) : t.lowest ≤ t.slots.length := List.findIdx_le_length

/-- The number is not in use. -/
theorem file_lowest (t : Table F) : t.file t.lowest = none := by
  unfold Table.file
  rcases Nat.lt_or_eq_of_le (lowest_le t) with hlt | hend
  · have hfree : t.slots[t.lowest].isNone = true := List.findIdx_getElem
    rw [List.getElem?_eq_getElem hlt, Option.isNone_iff_eq_none.mp hfree]
    rfl
  · rw [hend, List.getElem?_eq_none le_rfl]
    rfl

/-- **Opening a file.** -/
theorem file_opened (t : Table F) (f : F) (fd : ℕ) :
    (t.opened f).file fd = if fd = t.lowest then some f else t.file fd := by
  unfold Table.file Table.opened
  dsimp only
  by_cases hlt : t.lowest < t.slots.length
  · rw [if_pos hlt]
    by_cases heq : fd = t.lowest
    · rw [if_pos heq, heq, List.getElem?_set_self hlt]
      rfl
    · rw [if_neg heq, List.getElem?_set_ne (Ne.symm heq)]
  · have hend : t.lowest = t.slots.length := le_antisymm (lowest_le t) (not_lt.mp hlt)
    rw [if_neg hlt, hend]
    by_cases heq : fd = t.slots.length
    · rw [if_pos heq, heq, List.getElem?_append_right le_rfl, Nat.sub_self]
      rfl
    · rw [if_neg heq]
      rcases Nat.lt_or_gt_of_ne heq with hbefore | hbehind
      · rw [List.getElem?_append_left hbefore]
      · rw [List.getElem?_eq_none (by rw [List.length_append, List.length_singleton]; omega),
          List.getElem?_eq_none hbehind.le]

/-- **Closing a descriptor.** -/
theorem file_closed (t : Table F) (fd other : ℕ) :
    (t.closed fd).file other = if other = fd then none else t.file other := by
  unfold Table.file Table.closed
  dsimp only
  by_cases heq : other = fd
  · rw [if_pos heq, heq, List.getElem?_set, if_pos rfl]
    split_ifs
    · rfl
    · rfl
  · rw [if_neg heq, List.getElem?_set_ne (Ne.symm heq)]

/-! ### Tables that keep what there is -/

/-- Every descriptor of the first table still refers to its file. -/
def Table.Keeps (t t' : Table F) : Prop := ∀ fd f, t.file fd = some f → t'.file fd = some f

theorem Table.Keeps.refl (t : Table F) : t.Keeps t := fun _ _ h => h

theorem Table.Keeps.trans {t t' t'' : Table F} (h : t.Keeps t') (h' : t'.Keeps t'') : t.Keeps t'' :=
  fun fd f hfile => h' fd f (h fd f hfile)

theorem keeps_opened (t : Table F) (f : F) : t.Keeps (t.opened f) := by
  intro fd g hfile
  rw [file_opened, if_neg]
  · exact hfile
  · rintro rfl
    rw [file_lowest] at hfile
    cases hfile

end Descriptors

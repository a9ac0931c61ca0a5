import Mathlib.Data.List.Basic

/-!
# Words taken off the end of a list

* `peel family l`: what is left of `l` when words of the family are taken off its end as long as
  there is one.
* `Peels family l core`: `core` is left when some of them are taken off.
* `exists_core_iff`: **with a family where no word ends in another**, a property that no list with a
  word at its end has holds of some core exactly if it holds of what `peel` leaves.
-/

namespace Suffixes

variable {α : Type*} [DecidableEq α]

/-- The list without the first word of the family that it ends in. -/
def strip (family : List (List α)) (l : List α) : Option (List α) :=
  (family.find? fun word => word.isSuffixOf l).map fun word => l.take (l.length - word.length)

/-- Words taken off, at most so many. -/
def peelUpTo (family : List (List α)) : ℕ → List α → List α
  | 0, l => l
  | n + 1, l =>
      match strip family l with
      | none => l
      | some rest => peelUpTo family n rest

/-- Words taken off as long as there is one. -/
def peel (family : List (List α)) (l : List α) : List α := peelUpTo family l.length l

/-- Some words taken off. -/
inductive Peels (family : List (List α)) : List α → List α → Prop
  | none (l : List α) : Peels family l l
  | word {l core word : List α} (mem : word ∈ family) (rest : Peels family l core) :
      Peels family (l ++ word) core

/-- No word of the family ends in another, and none is empty. -/
structure SuffixFree (family : List (List α)) : Prop where
  ne_nil : [] ∉ family
  unique : ∀ word ∈ family, ∀ other ∈ family, word <:+ other → word = other

variable {family : List (List α)}

theorem strip_eq_none_iff {l : List α} :
    strip family l = none ↔ ∀ word ∈ family, ¬ word <:+ l := by
  unfold strip
  rw [Option.map_eq_none_iff, List.find?_eq_none]
  simp only [List.isSuffixOf_iff_suffix]

theorem strip_append (h : SuffixFree family) {l word : List α} (hword : word ∈ family) :
    strip family (l ++ word) = some l := by
  unfold strip
  cases hfind : family.find? fun other => other.isSuffixOf (l ++ word) with
  | none =>
      have hnone := List.find?_eq_none.mp hfind word hword
      rw [List.isSuffixOf_iff_suffix] at hnone
      exact absurd (List.suffix_append l word) hnone
  | some other =>
      have hother : other ∈ family := List.mem_of_find?_eq_some hfind
      have hsuffix : other <:+ l ++ word := by
        have hfound := List.find?_some hfind
        exact List.isSuffixOf_iff_suffix.mp hfound
      have hsame : other = word := by
        rcases List.suffix_or_suffix_of_suffix hsuffix (List.suffix_append l word) with h' | h'
        · exact h.unique other hother word hword h'
        · exact (h.unique word hword other hother h').symm
      rw [hsame, Option.map_some, List.length_append, Nat.add_sub_cancel, List.take_left]

theorem strip_eq_some {l rest : List α} (h : strip family l = some rest) :
    ∃ word ∈ family, l = rest ++ word := by
  obtain ⟨word, hfind, rfl⟩ := Option.map_eq_some_iff.mp h
  have hfound := List.find?_some hfind
  obtain ⟨before, rfl⟩ := List.isSuffixOf_iff_suffix.mp hfound
  refine ⟨word, List.mem_of_find?_eq_some hfind, ?_⟩
  rw [List.length_append, Nat.add_sub_cancel, List.take_left]

theorem length_lt_of_strip (h : SuffixFree family) {l rest : List α}
    (hstrip : strip family l = some rest) : rest.length < l.length := by
  obtain ⟨word, hword, rfl⟩ := strip_eq_some hstrip
  have hne : word ≠ [] := fun hnil => h.ne_nil (hnil ▸ hword)
  rw [List.length_append]
  have := List.length_pos_iff.mpr hne
  omega

/-- Inversion: the last word taken off is the only one the list ends in. -/
theorem peels_append_iff (h : SuffixFree family) {l word core : List α} (hword : word ∈ family) :
    Peels family (l ++ word) core ↔ core = l ++ word ∨ Peels family l core := by
  constructor
  · intro hpeels
    generalize hwhole : l ++ word = whole at hpeels
    cases hpeels with
    | none => exact Or.inl rfl
    | word hother hrest =>
        have hstrip := strip_append h (l := l) hword
        rw [hwhole, strip_append h hother] at hstrip
        exact Or.inr (Option.some.inj hstrip ▸ hrest)
  · rintro (rfl | hrest)
    · exact .none _
    · exact .word hword hrest

/-- A list that ends in no word. -/
theorem peels_iff_of_strip_none {l core : List α} (h : strip family l = none) :
    Peels family l core ↔ core = l := by
  rw [strip_eq_none_iff] at h
  constructor
  · intro hpeels
    cases hpeels with
    | none => rfl
    | word hword _ => exact absurd (List.suffix_append _ _) (h _ hword)
  · rintro rfl
    exact .none _

/-- **What `peel` leaves decides.** -/
theorem exists_core_iff (h : SuffixFree family) {P : List α → Prop}
    (hP : ∀ l, P l → ∀ word ∈ family, ¬ word <:+ l) (l : List α) :
    (∃ core, Peels family l core ∧ P core) ↔ P (peel family l) := by
  have hupTo : ∀ (n : ℕ) (l : List α), l.length ≤ n →
      ((∃ core, Peels family l core ∧ P core) ↔ P (peelUpTo family n l)) := by
    intro n
    induction n with
    | zero =>
        intro l hlength
        have hnil : l = [] := List.eq_nil_of_length_eq_zero (Nat.le_zero.mp hlength)
        have hnone : strip family l = none := by
          rw [strip_eq_none_iff, hnil]
          exact fun word hword hsuffix => h.ne_nil (List.suffix_nil.mp hsuffix ▸ hword)
        simp only [peels_iff_of_strip_none hnone, exists_eq_left]
        rfl
    | succ n ih =>
        intro l hlength
        rw [peelUpTo]
        cases hstrip : strip family l with
        | none => simp only [peels_iff_of_strip_none hstrip, exists_eq_left]
        | some rest =>
            have hshorter := length_lt_of_strip h hstrip
            obtain ⟨word, hword, rfl⟩ := strip_eq_some hstrip
            dsimp only
            rw [← ih rest (by omega)]
            constructor
            · rintro ⟨core, hpeels, hcore⟩
              rcases (peels_append_iff h hword).mp hpeels with rfl | hrest
              · exact absurd (List.suffix_append rest word) (hP _ hcore word hword)
              · exact ⟨core, hrest, hcore⟩
            · rintro ⟨core, hrest, hcore⟩
              exact ⟨core, .word hword hrest, hcore⟩
  exact hupTo l.length l (Nat.le_refl _)

end Suffixes

import Mathlib.Data.List.Infix

/-!
# First occurrence of a pattern in a list

`indexOfSub pat l` is the offset of the first occurrence of `pat` in `l`, the question
`memmem` and `strstr` answer.  The library is about lists over any type with decidable
equality and names no program.

* `isFirst_of_indexOfSub`: the offset returned is the least one at which `pat` is a prefix of what
  is left.
* `indexOfSub_eq_none_iff`: no offset is returned exactly when `pat` does not occur.
* `indexOfSub_append`: **appending bytes behind an occurrence does not move it** — the fact
  every "more input arrived" argument rests on.
* `indexOfSub_take`: cutting the list behind the first occurrence does not move it either.
* `splitFirst c l` is the list around the first `c`, the question `memchr` and `strchr` answer.
-/

namespace ListSearch

variable {α : Type*} [DecidableEq α]

/-- Offset of the first occurrence of `pat` in a list. -/
def indexOfSub (pat : List α) : List α → Option ℕ
  | [] => if pat = [] then some 0 else none
  | a :: l => if pat <+: a :: l then some 0 else (indexOfSub pat l).map (· + 1)

/-- `i` is the least offset of `l` at which `pat` starts. -/
def IsFirst (pat l : List α) (i : ℕ) : Prop :=
  pat <+: l.drop i ∧ ∀ j < i, ¬ pat <+: l.drop j

theorem indexOfSub_cons_of_start {pat : List α} {a : α} {l : List α} (h : pat <+: a :: l) :
    indexOfSub pat (a :: l) = some 0 := by
  rw [indexOfSub, if_pos h]

theorem indexOfSub_cons_of_not_start {pat : List α} {a : α} {l : List α}
    (h : ¬ pat <+: a :: l) :
    indexOfSub pat (a :: l) = (indexOfSub pat l).map (· + 1) := by
  rw [indexOfSub, if_neg h]

/-- The offset lies inside the list and the pattern fits behind it. -/
theorem indexOfSub_add_length_le {pat l : List α} {i : ℕ} (h : indexOfSub pat l = some i) :
    i + pat.length ≤ l.length := by
  induction l generalizing i with
  | nil =>
      by_cases hp : pat = []
      · simp only [indexOfSub, hp, if_true, Option.some.injEq] at h
        simp [hp, ← h]
      · simp [indexOfSub, hp] at h
  | cons a l ih =>
      by_cases hp : pat <+: a :: l
      · rw [indexOfSub_cons_of_start hp, Option.some.injEq] at h
        simpa [← h] using hp.length_le
      · rw [indexOfSub_cons_of_not_start hp, Option.map_eq_some_iff] at h
        obtain ⟨k, hk, rfl⟩ := h
        have := ih hk
        simp only [List.length_cons]
        omega

theorem indexOfSub_le_length {pat l : List α} {i : ℕ} (h : indexOfSub pat l = some i) :
    i ≤ l.length :=
  (Nat.le_add_right i _).trans (indexOfSub_add_length_le h)

/-- The offset returned is a first occurrence. -/
theorem isFirst_of_indexOfSub {pat l : List α} {i : ℕ} (h : indexOfSub pat l = some i) :
    IsFirst pat l i := by
  induction l generalizing i with
  | nil =>
      by_cases hp : pat = []
      · simp only [indexOfSub, hp, if_true, Option.some.injEq] at h
        subst h
        simp [IsFirst, hp]
      · simp [indexOfSub, hp] at h
  | cons a l ih =>
      by_cases hp : pat <+: a :: l
      · rw [indexOfSub_cons_of_start hp, Option.some.injEq] at h
        subst h
        exact ⟨by simpa using hp, fun j hj => absurd hj (Nat.not_lt_zero j)⟩
      · rw [indexOfSub_cons_of_not_start hp, Option.map_eq_some_iff] at h
        obtain ⟨k, hk, rfl⟩ := h
        obtain ⟨hpre, hmin⟩ := ih hk
        refine ⟨by simpa using hpre, fun j hj => ?_⟩
        cases j with
        | zero => simpa using hp
        | succ j => simpa using hmin j (by omega)

/-- A first occurrence inside the list is the offset returned. -/
theorem indexOfSub_of_isFirst {pat l : List α} {i : ℕ} (h : IsFirst pat l i)
    (hi : i ≤ l.length) : indexOfSub pat l = some i := by
  induction l generalizing i with
  | nil =>
      have hi0 : i = 0 := by simpa using hi
      subst hi0
      have hp : pat = [] := by simpa using h.1
      simp [indexOfSub, hp]
  | cons a l ih =>
      cases i with
      | zero => exact indexOfSub_cons_of_start (by simpa using h.1)
      | succ i =>
          have h0 : ¬ pat <+: a :: l := by simpa using h.2 0 (Nat.succ_pos i)
          have hrest : IsFirst pat l i :=
            ⟨by simpa using h.1, fun j hj => by simpa using h.2 (j + 1) (by omega)⟩
          rw [indexOfSub_cons_of_not_start h0, ih hrest (by simpa using hi)]
          rfl

/-- Nothing is returned exactly when the pattern starts nowhere. -/
theorem indexOfSub_eq_none_iff {pat l : List α} :
    indexOfSub pat l = none ↔ ∀ i, i ≤ l.length → ¬ pat <+: l.drop i := by
  induction l with
  | nil =>
      by_cases hp : pat = [] <;> simp [indexOfSub, hp]
  | cons a l ih =>
      by_cases hp : pat <+: a :: l
      · rw [indexOfSub_cons_of_start hp]
        constructor
        · intro h
          cases h
        · intro h
          exact absurd (by simpa using hp) (h 0 (Nat.zero_le _))
      · rw [indexOfSub_cons_of_not_start hp, Option.map_eq_none_iff, ih]
        constructor
        · intro h i hi
          cases i with
          | zero => simpa using hp
          | succ i => simpa using h i (by simpa using hi)
        · intro h i hi
          simpa using h (i + 1) (by simpa using hi)

/-- Nothing is returned exactly when the pattern does not occur. -/
theorem indexOfSub_eq_none_iff_not_infix {pat l : List α} :
    indexOfSub pat l = none ↔ ¬ pat <:+: l := by
  rw [indexOfSub_eq_none_iff, List.infix_iff_prefix_suffix]
  constructor
  · rintro h ⟨t, hpre, hsuf⟩
    apply h (l.length - t.length) (Nat.sub_le _ _)
    rw [← List.suffix_iff_eq_drop.mp hsuf]
    exact hpre
  · intro h i _ hpre
    exact h ⟨l.drop i, hpre, List.drop_suffix i l⟩

/-- **Appending behind an occurrence does not move it.** -/
theorem indexOfSub_append {pat l : List α} {i : ℕ} (h : indexOfSub pat l = some i)
    (e : List α) : indexOfSub pat (l ++ e) = some i := by
  have hlen := indexOfSub_add_length_le h
  obtain ⟨hpre, hmin⟩ := isFirst_of_indexOfSub h
  have hdrop : ∀ j ≤ l.length, (l ++ e).drop j = l.drop j ++ e := fun j hj =>
    List.drop_append_of_le_length hj
  refine indexOfSub_of_isFirst ⟨?_, fun j hj hj' => ?_⟩ (by simp; omega)
  · rw [hdrop i (by omega)]
    exact hpre.trans (List.prefix_append _ _)
  · -- an occurrence at `j < i` would end inside `l`, so it would be one of `l` already
    rw [hdrop j (by omega)] at hj'
    refine hmin j hj (List.prefix_of_prefix_length_le hj' (List.prefix_append _ _) ?_)
    rw [List.length_drop]
    omega

/-- The first occurrence lies behind a text without the first element of the pattern. -/
theorem indexOfSub_behind {pat front l : List α} {c : α} (hpat : pat.head? = some c)
    (hc : c ∉ front) : indexOfSub pat (front ++ l) = (indexOfSub pat l).map (· + front.length) := by
  induction front with
  | nil => simp
  | cons x front ih =>
      have hx : c ≠ x := fun h => hc (h ▸ List.mem_cons_self)
      have hnot : ¬ pat <+: x :: (front ++ l) := by
        rintro ⟨tail, htail⟩
        cases pat with
        | nil => exact nomatch hpat
        | cons a pat =>
            have hhead : a = x := (List.cons.inj htail).1
            exact hx ((Option.some.inj hpat).symm.trans hhead)
      rw [List.cons_append, indexOfSub_cons_of_not_start hnot,
        ih fun h => hc (List.mem_cons_of_mem x h), Option.map_map]
      rfl

/-- Cutting the list behind the first occurrence does not move it. -/
theorem indexOfSub_take {pat l : List α} {i n : ℕ} (h : indexOfSub pat l = some i)
    (hn : i + pat.length ≤ n) : indexOfSub pat (l.take n) = some i := by
  obtain ⟨hpre, hmin⟩ := isFirst_of_indexOfSub h
  have hlen := indexOfSub_add_length_le h
  refine indexOfSub_of_isFirst ⟨?_, fun j hj hj' => ?_⟩ (by rw [List.length_take]; omega)
  · rw [List.drop_take, List.prefix_take_iff]
    exact ⟨hpre, by omega⟩
  · rw [List.drop_take] at hj'
    exact hmin j hj (hj'.trans (List.take_prefix _ _))

/-- What is not in a text is not in its front. -/
theorem indexOfSub_eq_none_of_append {pat l e : List α} (h : indexOfSub pat (l ++ e) = none) :
    indexOfSub pat l = none := by
  cases hl : indexOfSub pat l with
  | none => rfl
  | some i =>
      rw [indexOfSub_append hl e] at h
      exact nomatch h

/-- A pattern found in what remains is found in the whole list. -/
theorem indexOfSub_ne_none_of_drop {pat l : List α} {k i : ℕ}
    (h : indexOfSub pat (l.drop k) = some i) : indexOfSub pat l ≠ none := by
  intro hn
  have hi := indexOfSub_le_length h
  by_cases hk : k ≤ l.length
  · refine indexOfSub_eq_none_iff.mp hn (k + i) ?_ ?_
    · rw [List.length_drop] at hi
      omega
    · rw [← List.drop_drop]
      exact (isFirst_of_indexOfSub h).1
  · refine indexOfSub_eq_none_iff.mp hn l.length le_rfl ?_
    have h0 : l.drop k = [] := List.drop_eq_nil_of_le (by omega)
    have := (isFirst_of_indexOfSub h).1
    rw [h0, List.drop_nil] at this
    rwa [List.drop_length]

/-! ### The first occurrence of one element -/

/-- The list before and behind the first `c`. -/
def splitFirst (c : α) : List α → Option (List α × List α)
  | [] => none
  | a :: l => if a = c then some ([], l) else (splitFirst c l).map fun p => (a :: p.1, p.2)

theorem splitFirst_eq_some_iff {c : α} {l a b : List α} :
    splitFirst c l = some (a, b) ↔ l = a ++ c :: b ∧ c ∉ a := by
  induction l generalizing a b with
  | nil => simp [splitFirst]
  | cons x l ih =>
      by_cases hx : x = c
      · subst hx
        rw [splitFirst, if_pos rfl]
        constructor
        · rintro ⟨⟩
          simp
        · rintro ⟨h, hn⟩
          cases a with
          | nil => simpa using h
          | cons y a => simp_all
      · rw [splitFirst, if_neg hx, Option.map_eq_some_iff]
        constructor
        · rintro ⟨⟨a', b'⟩, hp, ⟨⟩⟩
          obtain ⟨rfl, hn⟩ := ih.mp hp
          exact ⟨rfl, by simpa [Ne.symm hx] using hn⟩
        · rintro ⟨h, hn⟩
          cases a with
          | nil => exact absurd (by simpa using (List.cons.inj h).1) hx
          | cons y a =>
              obtain ⟨rfl, hl⟩ := List.cons.inj h
              exact ⟨(a, b), ih.mpr ⟨hl, fun hm => hn (List.mem_cons_of_mem _ hm)⟩, rfl⟩

/-- A list is cut at its first `c` in one way. -/
theorem append_cons_inj_of_not_mem {c : α} {a b a' b' : List α} (h : a ++ c :: b = a' ++ c :: b')
    (ha : c ∉ a) (ha' : c ∉ a') : a = a' ∧ b = b' := by
  have hfirst : splitFirst c (a ++ c :: b) = some (a, b) := splitFirst_eq_some_iff.mpr ⟨rfl, ha⟩
  have hsecond := splitFirst_eq_some_iff.mpr ⟨h, ha'⟩
  exact Prod.mk.inj (Option.some.inj (hfirst.symm.trans hsecond))

theorem splitFirst_eq_none_iff {c : α} {l : List α} : splitFirst c l = none ↔ c ∉ l := by
  induction l with
  | nil => simp [splitFirst]
  | cons x l ih =>
      by_cases hx : x = c
      · simp [splitFirst, hx]
      · rw [splitFirst, if_neg hx, Option.map_eq_none_iff, ih]
        simp [Ne.symm hx]

end ListSearch

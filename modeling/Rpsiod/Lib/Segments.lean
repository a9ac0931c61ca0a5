import Mathlib.Data.List.Basic

/-!
# Lists cut at a separator

* `segments sep l`: the parts of `l` between its separators, without the empty ones.
* `between_of_mem_segments`, `mem_segments_of_between`: where a segment stands in the list.
-/

namespace Segments

variable {α : Type*} [DecidableEq α] {sep : α}

/-- The parts between the separators, without the empty ones. -/
def segments (sep : α) (l : List α) : List (List α) := (l.splitOn sep).filter (· ≠ [])

/-- A part between two separators, or the ends of the list. -/
structure Between (sep : α) (before part after : List α) : Prop where
  left : before = [] ∨ before.getLast? = some sep
  right : after = [] ∨ after.head? = some sep
  inside : sep ∉ part

theorem splitOn_cons (x : α) (l : List α) :
    (x :: l).splitOn sep =
      if x = sep then [] :: l.splitOn sep else (l.splitOn sep).modifyHead (x :: ·) := by
  rw [List.splitOn_eq_splitOnP, List.splitOnP_cons_eq_if_modifyHead, List.splitOn_eq_splitOnP]
  simp only [beq_iff_eq]

/-- The first part. -/
theorem between_of_head {l part : List α} (h : (l.splitOn sep).head? = some part) :
    ∃ after, l = part ++ after ∧ Between sep [] part after := by
  induction l generalizing part with
  | nil =>
      obtain rfl : [] = part := Option.some.inj h
      exact ⟨[], rfl, Or.inl rfl, Or.inl rfl, List.not_mem_nil⟩
  | cons x l ih =>
      rw [splitOn_cons] at h
      split_ifs at h with hx
      · obtain rfl : [] = part := Option.some.inj h
        exact ⟨x :: l, rfl, Or.inl rfl, Or.inr (congrArg some hx), List.not_mem_nil⟩
      · cases hparts : l.splitOn sep with
        | nil => exact absurd hparts (List.splitOn_ne_nil sep l)
        | cons first parts =>
            rw [hparts] at h ih
            obtain rfl : x :: first = part := Option.some.inj h
            obtain ⟨after, rfl, hbetween⟩ := ih rfl
            refine ⟨after, rfl, Or.inl rfl, hbetween.right, ?_⟩
            rw [List.mem_cons, not_or]
            exact ⟨Ne.symm hx, hbetween.inside⟩

/-- A part behind the first one. -/
theorem between_of_mem_tail {l part : List α} (h : part ∈ (l.splitOn sep).tail) :
    ∃ before after, l = before ++ part ++ after ∧ before.getLast? = some sep ∧
      Between sep before part after := by
  induction l with
  | nil => exact absurd h List.not_mem_nil
  | cons x l ih =>
      rw [splitOn_cons] at h
      cases hparts : l.splitOn sep with
      | nil => exact absurd hparts (List.splitOn_ne_nil sep l)
      | cons first parts =>
          rw [hparts] at h ih
          -- behind the first part of the rest, there is a separator already
          have hlater : part ∈ parts → ∃ before after, x :: l = before ++ part ++ after ∧
              before.getLast? = some sep ∧ Between sep before part after := by
            intro hmem
            obtain ⟨before, after, rfl, hlast, hbetween⟩ := ih hmem
            have hlast' : (x :: before).getLast? = some sep := by
              rw [List.getLast?_cons, hlast]
              rfl
            exact ⟨x :: before, after, rfl, hlast', Or.inr hlast', hbetween.right,
              hbetween.inside⟩
          split_ifs at h with hx
          · rw [List.tail_cons, List.mem_cons] at h
            rcases h with rfl | h
            · obtain ⟨after, rfl, hbetween⟩ := between_of_head (congrArg List.head? hparts)
              subst hx
              exact ⟨[x], after, rfl, rfl, Or.inr rfl, hbetween.right, hbetween.inside⟩
            · exact hlater h
          · exact hlater h

/-- **Where a segment stands.** -/
theorem between_of_mem_segments {l part : List α} (h : part ∈ segments sep l) :
    ∃ before after, l = before ++ part ++ after ∧ Between sep before part after := by
  have hmem := List.mem_of_mem_filter h
  cases hparts : l.splitOn sep with
  | nil => exact absurd hparts (List.splitOn_ne_nil sep l)
  | cons first parts =>
      rw [hparts, List.mem_cons] at hmem
      rcases hmem with rfl | hmem
      · obtain ⟨after, hl, hbetween⟩ := between_of_head (congrArg List.head? hparts)
        exact ⟨[], after, hl, hbetween⟩
      · obtain ⟨before, after, hl, -, hbetween⟩ :=
          @between_of_mem_tail _ _ sep l part (by rw [hparts]; exact hmem)
        exact ⟨before, after, hl, hbetween⟩

/-- A separator in front does not count. -/
theorem segments_cons_sep (l : List α) : segments sep (sep :: l) = segments sep l := by
  unfold segments
  rw [splitOn_cons, if_pos rfl]
  exact List.filter_cons_of_neg (by simp)

/-- Cutting at one of the separators. -/
theorem segments_append_cons (a b : List α) :
    segments sep (a ++ sep :: b) = segments sep a ++ segments sep b := by
  have hsplit : (a ++ sep :: b).splitOn sep = a.splitOn sep ++ b.splitOn sep := by
    simp only [List.splitOn_eq_splitOnP]
    exact List.splitOnP_append_cons a b (beq_self_eq_true sep)
  unfold segments
  rw [hsplit, List.filter_append]

/-- Nor does a separator behind. -/
theorem segments_concat_sep (l : List α) : segments sep (l ++ [sep]) = segments sep l := by
  rw [segments_append_cons]
  exact List.append_nil _

theorem segments_of_not_mem {l : List α} (h : sep ∉ l) (hne : l ≠ []) : segments sep l = [l] := by
  have hsplit : l.splitOn sep = [l] := by
    clear hne
    induction l with
    | nil => rfl
    | cons x l ih =>
        rw [List.mem_cons, not_or] at h
        rw [splitOn_cons, if_neg (Ne.symm h.1), ih h.2]
        rfl
  unfold segments
  rw [hsplit]
  exact List.filter_cons_of_pos (by simpa using hne)

theorem ne_nil_of_mem_segments {l part : List α} (h : part ∈ segments sep l) : part ≠ [] :=
  of_decide_eq_true (List.mem_filter.mp h).2

/-- What stands between two separators is a part. -/
theorem mem_splitOn_of_between {before part after : List α} (h : Between sep before part after) :
    part ∈ (before ++ part ++ after).splitOn sep := by
  have hfirst : ∀ {l : List α}, sep ∉ l →
      (l ++ after).splitOn sep = l :: (after.splitOn sep).tail := by
    intro l hl
    induction l with
    | nil =>
        rcases h.right with hnil | hsep
        · rw [hnil]
          rfl
        · cases after with
          | nil => exact absurd hsep nofun
          | cons x after =>
              rw [List.nil_append, splitOn_cons, if_pos (Option.some.inj hsep)]
              rfl
    | cons x l ih =>
        rw [List.mem_cons, not_or] at hl
        rw [List.cons_append, splitOn_cons, if_neg (Ne.symm hl.1), ih hl.2]
        rfl
  have hbehind : ∀ {before : List α}, before.getLast? = some sep →
      part ∈ ((before ++ part ++ after).splitOn sep).tail := by
    intro before hlast
    induction before with
    | nil => exact absurd hlast nofun
    | cons x before ih =>
        rw [List.cons_append, List.cons_append, splitOn_cons]
        cases hbefore : before with
        | nil =>
            subst hbefore
            have hx : x = sep := Option.some.inj hlast
            rw [if_pos hx, List.nil_append, hfirst h.inside]
            exact List.mem_cons_self
        | cons y more =>
            have hmem := ih (by rw [← hlast, hbefore, List.getLast?_cons_cons])
            rw [hbefore] at hmem
            split_ifs
            · exact List.mem_of_mem_tail hmem
            · cases hparts : (y :: more ++ part ++ after).splitOn sep with
              | nil => exact absurd hparts (List.splitOn_ne_nil sep _)
              | cons first parts =>
                  rw [hparts] at hmem
                  exact hmem
  rcases h.left with rfl | hlast
  · rw [List.nil_append, hfirst h.inside]
    exact List.mem_cons_self
  · exact List.mem_of_mem_tail (hbehind hlast)

theorem mem_segments_of_between {before part after : List α} (h : Between sep before part after)
    (hne : part ≠ []) : part ∈ segments sep (before ++ part ++ after) :=
  List.mem_filter.mpr ⟨mem_splitOn_of_between h, decide_eq_true hne⟩

/-- Behind a part, the segments are those of the list. -/
theorem mem_segments_append {before after part : List α}
    (hafter : after = [] ∨ after.head? = some sep) (h : part ∈ segments sep after) :
    part ∈ segments sep (before ++ after) := by
  obtain ⟨front, behind, rfl, hbetween⟩ := between_of_mem_segments h
  have hne := ne_nil_of_mem_segments h
  have hfront : front ≠ [] := by
    rintro rfl
    -- a segment at the start would begin with the separator
    obtain ⟨x, rest, rfl⟩ := List.exists_cons_of_ne_nil hne
    rcases hafter with hnil | hhead
    · exact List.cons_ne_nil _ _ hnil
    · exact hbetween.inside (Option.some.inj hhead ▸ List.mem_cons_self)
  have hlast : (before ++ front).getLast? = some sep := by
    rcases hbetween.left with hnil | hlast
    · exact absurd hnil hfront
    · rw [List.getLast?_append, hlast]
      rfl
  have := mem_segments_of_between ⟨Or.inr hlast, hbetween.right, hbetween.inside⟩ hne
  simpa using this

end Segments

import Mathlib.Data.List.Infix
import Rpsiod.Lib.ContentCoding

/-!
# Lists of entity tags

The value of an `If-None-Match` field: entity tags between commas.  A tag may be weak, and its text
stands in quotes and may have commas of its own.

* `TagList`: the lists of the grammar, empty elements included.
* `Selects`: a value has an element for a tag, if it is cut at every comma.
* `selects_iff`: **what cutting at every comma finds** in a list of the grammar is a tag that
  matches in the weak comparison, or a star between two commas of one text.
-/

namespace EntityTags

open ContentCoding ListStrip

/-- A byte of the text of a tag. -/
def isTagByte (c : UInt8) : Bool :=
  c == 33 || (decide (35 ≤ c) && decide (c ≤ 126)) || decide (128 ≤ c)

/-- An entity tag. -/
structure EntityTag where
  weak : Bool
  text : List UInt8
  graphic : ∀ c ∈ text, isTagByte c = true

/-- The text in its quotes. -/
def EntityTag.quoted (tag : EntityTag) : List UInt8 := 34 :: (tag.text ++ [34])

/-- The tag as it is written. -/
def EntityTag.render (tag : EntityTag) : List UInt8 :=
  (if tag.weak then [87, 47] else []) ++ tag.quoted

/-- The weak comparison. -/
def EntityTag.WeakMatch (a b : EntityTag) : Prop := a.text = b.text

/-- An element of a list: a tag with white space around it, or only white space. -/
inductive ListElement : Option EntityTag → List UInt8 → Prop
  | empty {ows : List UInt8} (h : ∀ c ∈ ows, isOws c = true) : ListElement none ows
  | tag {before after : List UInt8} (tag : EntityTag) (hbefore : ∀ c ∈ before, isOws c = true)
      (hafter : ∀ c ∈ after, isOws c = true) :
      ListElement (some tag) (before ++ tag.render ++ after)

/-- Elements between commas. -/
inductive TagList : List EntityTag → List UInt8 → Prop
  | last {element : Option EntityTag} {text : List UInt8} (h : ListElement element text) :
      TagList element.toList text
  | cons {element : Option EntityTag} {text rest : List UInt8} {tags : List EntityTag}
      (h : ListElement element text) (hrest : TagList tags rest) :
      TagList (element.toList ++ tags) (text ++ 44 :: rest)

/-- A tag without `W/`. -/
def withoutWeak : List UInt8 → List UInt8
  | 87 :: 47 :: rest => rest
  | text => text

/-- The element is a star, or is the tag up to `W/`. -/
def IsFor (tag element : List UInt8) : Prop :=
  element = [42] ∨ withoutWeak element = withoutWeak tag

instance (tag element : List UInt8) : Decidable (IsFor tag element) :=
  inferInstanceAs (Decidable (_ ∨ _))

/-- A value that is cut at its commas has an element for the tag. -/
def Selects (value tag : List UInt8) : Prop := ∃ element ∈ elements value, IsFor tag element

instance (value tag : List UInt8) : Decidable (Selects value tag) :=
  inferInstanceAs (Decidable (∃ _ ∈ elements value, _))

/-- A star between two commas. -/
def HasLoneStar (text : List UInt8) : Prop := [44, 42, 44] <:+: text

instance (text : List UInt8) : Decidable (HasLoneStar text) :=
  inferInstanceAs (Decidable (_ <:+: _))

variable {tag : EntityTag}

/-! ### Bytes of a tag -/

theorem isOws_of_isTagByte {c : UInt8} (h : isTagByte c = true) : isOws c = false ∧ c ≠ 34 := by
  constructor
  · rw [Bool.eq_false_iff]
    intro hows
    unfold isOws at hows
    rw [Bool.or_eq_true, beq_iff_eq, beq_iff_eq] at hows
    rcases hows with rfl | rfl
    · exact absurd h (by decide)
    · exact absurd h (by decide)
  · rintro rfl
    exact absurd h (by decide)

theorem count_quote_text (tag : EntityTag) : tag.text.count 34 = 0 :=
  List.count_eq_zero.mpr fun hmem => (isOws_of_isTagByte (tag.graphic 34 hmem)).2 rfl

theorem isOws_of_mem_render {c : UInt8} (h : c ∈ tag.render) : isOws c = false := by
  unfold EntityTag.render EntityTag.quoted at h
  rw [List.mem_append, List.mem_cons, List.mem_append, List.mem_singleton] at h
  rcases h with h | rfl | h | rfl
  · split_ifs at h
    · have hall : ∀ d ∈ [(87 : UInt8), 47], isOws d = false := by decide +kernel
      exact hall c h
    · exact absurd h List.not_mem_nil
  · decide
  · exact (isOws_of_isTagByte (tag.graphic c h)).1
  · decide

theorem withoutWeak_render (tag : EntityTag) : withoutWeak tag.render = tag.quoted := by
  unfold EntityTag.render
  split_ifs
  · rfl
  · rfl

theorem withoutWeak_sublist (text : List UInt8) : (withoutWeak text).Sublist text := by
  unfold withoutWeak
  split
  · exact (List.sublist_cons_self _ _).trans (List.sublist_cons_self _ _)
  · exact List.Sublist.refl _

/-- A part of a text has too few quotes to be a tag. -/
theorem isFor_iff_of_count {element : List UInt8} (h : element.count 34 ≤ 1) :
    IsFor tag.render element ↔ element = [42] := by
  refine or_iff_left fun hsame => ?_
  have hcount := (withoutWeak_sublist element).count_le 34
  rw [hsame, withoutWeak_render] at hcount
  unfold EntityTag.quoted at hcount
  rw [List.count_cons_self, List.count_append, count_quote_text, List.count_singleton_self]
    at hcount
  omega

/-- A whole tag. -/
theorem isFor_render (other : EntityTag) : IsFor tag.render other.render ↔ other.WeakMatch tag := by
  unfold IsFor EntityTag.WeakMatch
  rw [withoutWeak_render, withoutWeak_render]
  unfold EntityTag.quoted
  rw [List.cons.injEq, List.append_left_inj, or_iff_right]
  · exact and_iff_right rfl
  · intro hstar
    have hmem : (34 : UInt8) ∈ other.render :=
      List.mem_append_right _ List.mem_cons_self
    rw [hstar] at hmem
    exact absurd hmem (by decide)

/-! ### Cutting at commas -/

theorem elements_append_cons (a b : List UInt8) :
    elements (a ++ 44 :: b) = elements a ++ elements b := by
  have hsplit : (a ++ 44 :: b).splitOnP (· == 44) = a.splitOnP (· == 44) ++ b.splitOnP (· == 44) :=
    List.splitOnP_append_cons a b (beq_self_eq_true 44)
  unfold elements
  rw [hsplit, List.map_append]

theorem elements_of_not_mem {l : List UInt8} (h : 44 ∉ l) : elements l = [strip isOws l] := by
  have hall : ∀ c ∈ l, (c == 44) = false := fun c hc =>
    beq_eq_false_iff_ne.mpr fun heq => h (heq ▸ hc)
  unfold elements
  rw [List.splitOnP_eq_singleton hall]
  rfl

theorem selects_append_cons (a b t : List UInt8) :
    Selects (a ++ 44 :: b) t ↔ Selects a t ∨ Selects b t := by
  unfold Selects
  rw [elements_append_cons]
  simp only [List.mem_append, or_and_right, exists_or]

theorem selects_of_not_mem {l : List UInt8} (h : 44 ∉ l) (t : List UInt8) :
    Selects l t ↔ IsFor t (strip isOws l) := by
  unfold Selects
  rw [elements_of_not_mem h]
  simp only [List.mem_singleton, exists_eq_left]

theorem comma_not_mem_ows {ows : List UInt8} (h : ∀ c ∈ ows, isOws c = true) : 44 ∉ ows :=
  fun hmem => absurd (h 44 hmem) (by decide)

/-- What is stripped off around a text without white space. -/
theorem strip_around {before l after : List UInt8} (hbefore : ∀ c ∈ before, isOws c = true)
    (hl : ∀ c ∈ l, isOws c = false) (hafter : ∀ c ∈ after, isOws c = true) :
    strip isOws (before ++ l ++ after) = l := by
  rw [strip_append hbefore hafter]
  exact strip_eq_self_iff.mpr ⟨fun c hc => hl c (List.mem_of_mem_head? hc),
    fun c hc => hl c (List.mem_of_mem_getLast? hc)⟩

/-- The first comma of a text. -/
theorem exists_comma {text : List UInt8} (h : 44 ∈ text) :
    ∃ part rest, text = part ++ 44 :: rest ∧ 44 ∉ part := by
  induction text with
  | nil => exact absurd h List.not_mem_nil
  | cons c text ih =>
      by_cases hc : c = 44
      · exact ⟨[], text, by rw [hc]; rfl, List.not_mem_nil⟩
      · obtain ⟨part, rest, rfl, hpart⟩ := ih ((List.mem_cons.mp h).resolve_left (Ne.symm hc))
        refine ⟨c :: part, rest, rfl, ?_⟩
        rw [List.mem_cons, not_or]
        exact ⟨Ne.symm hc, hpart⟩

/-- In front of the first comma there is no star between commas. -/
theorem hasLoneStar_append {part rest : List UInt8} (h : 44 ∉ part) :
    HasLoneStar (part ++ rest) ↔ HasLoneStar rest := by
  unfold HasLoneStar
  constructor
  · rintro ⟨a, b, heq⟩
    rw [List.append_assoc] at heq
    rcases List.append_eq_append_iff.mp heq with ⟨more, rfl, hmore⟩ | ⟨more, rfl, hmore⟩
    · cases more with
      | nil => exact ⟨[], b, hmore⟩
      | cons d more =>
          have hd := (List.cons.inj hmore).1
          exact absurd (hd ▸ List.mem_append_right a List.mem_cons_self) h
    · exact ⟨more, b, by rw [List.append_assoc]; exact hmore.symm⟩
  · exact fun hlater => hlater.trans (List.suffix_append part rest).isInfix

theorem not_hasLoneStar_of_not_mem {text : List UInt8} (h : 44 ∉ text) : ¬ HasLoneStar text :=
  fun hstar => h (hstar.subset List.mem_cons_self)

/-- Behind a comma, a star between commas is the next part, or comes later. -/
theorem hasLoneStar_cons_iff {part rest : List UInt8} (h : 44 ∉ part) :
    HasLoneStar (44 :: (part ++ 44 :: rest)) ↔ part = [42] ∨ HasLoneStar (44 :: rest) := by
  have hcons : HasLoneStar (44 :: (part ++ 44 :: rest)) ↔
      [44, 42, 44] <+: 44 :: (part ++ 44 :: rest) ∨ HasLoneStar (part ++ 44 :: rest) :=
    List.infix_cons_iff
  rw [hcons, hasLoneStar_append h, List.cons_prefix_cons]
  refine or_congr_left ?_
  constructor
  · rintro ⟨-, b, heq⟩
    match part with
    | [] => exact absurd (List.cons.inj heq).1 (by decide)
    | [c] => rw [← (List.cons.inj heq).1]
    | c :: d :: more =>
        have hd := (List.cons.inj (List.cons.inj heq).2).1
        exact absurd (hd ▸ List.mem_cons_of_mem c List.mem_cons_self) h
  · rintro rfl
    exact ⟨rfl, rest, rfl⟩

/-! ### Lists of the grammar -/

/-- What is cut off behind a comma of a text, up to the end of its tag. -/
theorem selects_behind_comma {rest after : List UInt8} (hrest : ∀ c ∈ rest, isTagByte c = true)
    (hafter : ∀ c ∈ after, isOws c = true) :
    Selects (rest ++ 34 :: after) tag.render ↔ HasLoneStar (44 :: rest) := by
  have hplain : ∀ c ∈ rest, isOws c = false := fun c hc => (isOws_of_isTagByte (hrest c hc)).1
  have hquote : rest.count 34 = 0 :=
    List.count_eq_zero.mpr fun hmem => (isOws_of_isTagByte (hrest 34 hmem)).2 rfl
  induction hlen : rest.length using Nat.strong_induction_on generalizing rest with
  | _ n ih =>
      by_cases hcomma : 44 ∈ rest
      · obtain ⟨part, more, rfl, hpart⟩ := exists_comma hcomma
        rw [List.length_append, List.length_cons] at hlen
        rw [List.count_append, List.count_cons] at hquote
        have hmore : Selects (more ++ 34 :: after) tag.render ↔ HasLoneStar (44 :: more) :=
          ih more.length (by omega) (fun c hc => hrest c (by simp [hc]))
            (fun c hc => hplain c (by simp [hc])) (by omega) rfl
        have hstrip : strip isOws part = part := by
          have := @strip_around [] part [] (by simp) (fun c hc => hplain c (by simp [hc])) (by simp)
          simpa using this
        rw [List.append_assoc, List.cons_append, selects_append_cons, selects_of_not_mem hpart,
          hstrip, isFor_iff_of_count (by omega), hmore, hasLoneStar_cons_iff hpart]
      · have hnone : 44 ∉ rest ++ 34 :: after := by
          rw [List.mem_append, List.mem_cons]
          rintro (hmem | hquoted | hmem)
          · exact hcomma hmem
          · exact absurd hquoted (by decide)
          · exact comma_not_mem_ows hafter hmem
        have hstrip : strip isOws (rest ++ 34 :: after) = rest ++ [34] := by
          have := @strip_around [] (rest ++ [34]) after (by simp) ?_ hafter
          · simpa using this
          · intro c hc
            rcases List.mem_append.mp hc with hc | hc
            · exact hplain c hc
            · rw [List.mem_singleton.mp hc]
              decide
        have hcount : (rest ++ [34]).count 34 ≤ 1 := by
          rw [List.count_append, hquote, List.count_singleton_self]
        rw [selects_of_not_mem hnone, hstrip, isFor_iff_of_count hcount]
        refine iff_of_false (fun hstar => ?_) ?_
        · have hlast := congrArg List.getLast? hstar
          rw [List.getLast?_concat] at hlast
          exact absurd hlast (by decide)
        · rw [← List.nil_append rest, ← List.cons_append]
          intro hstar
          obtain ⟨a, b, heq⟩ := hstar
          have hcount := congrArg (List.count 44) heq
          rw [List.count_append, List.count_append, List.count_append,
            List.count_eq_zero.mpr hcomma] at hcount
          have htwo : List.count 44 [(44 : UInt8), 42, 44] = 2 := rfl
          have hone : List.count 44 [(44 : UInt8)] = 1 := rfl
          omega

/-- What stands in front of the text of a tag. -/
def EntityTag.opening (tag : EntityTag) : List UInt8 := (if tag.weak then [87, 47] else []) ++ [34]

theorem render_eq (tag : EntityTag) : tag.render = tag.opening ++ tag.text ++ [34] := by
  unfold EntityTag.render EntityTag.quoted EntityTag.opening
  simp

theorem opening_plain (tag : EntityTag) : 44 ∉ tag.opening ∧ tag.opening.count 34 = 1 := by
  unfold EntityTag.opening
  split_ifs <;> decide

/-- The first part of a tag whose text has a comma. -/
theorem isFor_opening (other : EntityTag) {part : List UInt8}
    (hpart : ∀ c ∈ part, isTagByte c = true) : ¬ IsFor tag.render (other.opening ++ part) := by
  have hquote : part.count 34 = 0 :=
    List.count_eq_zero.mpr fun hmem => (isOws_of_isTagByte (hpart 34 hmem)).2 rfl
  have hcount : (other.opening ++ part).count 34 = 1 := by
    rw [List.count_append, hquote, (opening_plain other).2]
  rw [isFor_iff_of_count hcount.le]
  intro hstar
  rw [hstar] at hcount
  exact absurd hcount (by decide)

/-- A tag without a comma is one element. -/
theorem selects_whole {other : EntityTag} {before after : List UInt8}
    (hbefore : ∀ c ∈ before, isOws c = true) (hafter : ∀ c ∈ after, isOws c = true)
    (hcomma : 44 ∉ other.text) :
    Selects (before ++ other.render ++ after) tag.render ↔ other.WeakMatch tag := by
  have hnone : 44 ∉ before ++ other.render ++ after := by
    rw [render_eq]
    simp only [List.mem_append, List.mem_singleton]
    rintro ((hows | (hopening | hin) | hquoted) | hows)
    · exact comma_not_mem_ows hbefore hows
    · exact (opening_plain other).1 hopening
    · exact hcomma hin
    · exact absurd hquoted (by decide)
    · exact comma_not_mem_ows hafter hows
  rw [selects_of_not_mem hnone,
    strip_around hbefore (fun _ hc => isOws_of_mem_render hc) hafter, isFor_render]

/-- A tag with a comma is cut there, and is found if it has a star between commas. -/
theorem selects_cut {other : EntityTag} {before after : List UInt8}
    (hbefore : ∀ c ∈ before, isOws c = true) (hafter : ∀ c ∈ after, isOws c = true)
    (hcomma : 44 ∈ other.text) :
    Selects (before ++ other.render ++ after) tag.render ↔ HasLoneStar other.text := by
  obtain ⟨part, rest, htext, hpart⟩ := exists_comma hcomma
  have hgraphic := other.graphic
  rw [htext] at hgraphic
  have hsplit : before ++ other.render ++ after =
      before ++ (other.opening ++ part) ++ 44 :: (rest ++ 34 :: after) := by
    rw [render_eq, htext]
    simp
  have hplain : ∀ c ∈ other.opening ++ part, isOws c = false := by
    intro c hc
    refine @isOws_of_mem_render other c ?_
    rw [render_eq, htext]
    rcases List.mem_append.mp hc with hc | hc
    · simp [hc]
    · simp [hc]
  have hnone : 44 ∉ before ++ (other.opening ++ part) := by
    rw [List.mem_append, List.mem_append]
    rintro (hows | hopening | hin)
    · exact comma_not_mem_ows hbefore hows
    · exact (opening_plain other).1 hopening
    · exact hpart hin
  have hstrip : strip isOws (before ++ (other.opening ++ part)) = other.opening ++ part := by
    have := @strip_around before (other.opening ++ part) [] hbefore hplain (by simp)
    rwa [List.append_nil] at this
  have hbehind := @selects_behind_comma tag rest after (fun c hc => hgraphic c (by simp [hc]))
    hafter
  rw [hsplit, selects_append_cons, selects_of_not_mem hnone, hstrip, hbehind, htext,
    hasLoneStar_append hpart]
  exact or_iff_right (isFor_opening other fun c hc => hgraphic c (List.mem_append_left _ hc))

/-- **One tag**, which may be cut into several parts. -/
theorem selects_tag {other : EntityTag} {text : List UInt8} (hcomma : 44 ∉ tag.text)
    (h : ListElement (some other) text) :
    Selects text tag.render ↔ other.WeakMatch tag ∨ HasLoneStar other.text := by
  cases h with
  | @tag before after _ hbefore hafter =>
      by_cases hmem : 44 ∈ other.text
      · have hdiffer : ¬ other.WeakMatch tag := by
          intro hsame
          unfold EntityTag.WeakMatch at hsame
          rw [hsame] at hmem
          exact hcomma hmem
        rw [selects_cut hbefore hafter hmem]
        exact (or_iff_right hdiffer).symm
      · rw [selects_whole hbefore hafter hmem]
        exact (or_iff_left (not_hasLoneStar_of_not_mem hmem)).symm

theorem not_selects_empty {text : List UInt8} (h : ListElement none text) :
    ¬ Selects text tag.render := by
  cases h with
  | empty h =>
      have hstrip : strip isOws text = [] := by
        have := @strip_around text [] [] h (by simp) (by simp)
        simpa using this
      rw [selects_of_not_mem (comma_not_mem_ows h), hstrip, isFor_iff_of_count (by simp)]
      exact (List.cons_ne_nil _ _).symm

/-- **What cutting at every comma finds in a list**: a tag that matches, or a star between two
commas of one text. -/
theorem selects_iff {tags : List EntityTag} {value : List UInt8} (hcomma : 44 ∉ tag.text)
    (h : TagList tags value) :
    Selects value tag.render ↔
      (∃ other ∈ tags, other.WeakMatch tag) ∨ ∃ other ∈ tags, HasLoneStar other.text := by
  have helement : ∀ {element : Option EntityTag} {text : List UInt8}, ListElement element text →
      (Selects text tag.render ↔
        ∃ other ∈ element.toList, other.WeakMatch tag ∨ HasLoneStar other.text) := by
    intro element text helement
    cases element with
    | none => exact iff_of_false (not_selects_empty helement) (by simp)
    | some other => simpa using selects_tag hcomma helement
  rw [← exists_or]
  simp only [← and_or_left]
  induction h with
  | last h => exact helement h
  | @cons element text rest tags h _ ih =>
      have hrest : Selects rest tag.render ↔
          ∃ other ∈ tags, other.WeakMatch tag ∨ HasLoneStar other.text := ih
      rw [selects_append_cons, helement h, hrest]
      simp only [List.mem_append, or_and_right, exists_or]

end EntityTags

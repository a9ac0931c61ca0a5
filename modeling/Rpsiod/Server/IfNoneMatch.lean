import Rpsiod.Lib.EntityTag
import Rpsiod.Server.Responders

/-!
# Conditional requests (`if_none_match_matches`)

The scanner goes from comma to comma, without a look at the quotes in between.

* `ifNoneMatchLoop_eq`: the scan comes to an end, and finds what cutting at every comma finds.
* `ifNoneMatch_weak_iff`: **it agrees with the weak comparison of a list of entity tags exactly if**
  a tag matches, or none has a star between two commas.
-/

namespace Rpsiod

open ContentCoding EntityTags ListStrip

/-! ### The scanner -/

theorem opaqueTag_eq (text : Bytes) : opaqueTag text = withoutWeak text := by
  have hweak : ascii "W/" = [87, 47] := rfl
  unfold opaqueTag startsWith
  rw [hweak]
  match text with
  | [] => rfl
  | [c] =>
      rw [if_neg]
      · unfold withoutWeak
        split
        · rename_i heq
          exact nomatch (List.cons.inj heq).2
        · rfl
      · cases h : (87 : UInt8) == c <;> simp [List.isPrefixOf, h]
  | c :: d :: rest =>
      by_cases hprefix : [87, 47].isPrefixOf (c :: d :: rest) = true
      · rw [if_pos hprefix]
        obtain ⟨more, hmore⟩ := List.isPrefixOf_iff_prefix.mp hprefix
        obtain ⟨rfl, htail⟩ := List.cons.inj hmore
        obtain ⟨rfl, -⟩ := List.cons.inj htail
        rfl
      · rw [if_neg hprefix]
        unfold withoutWeak
        split
        · rename_i heq
          obtain ⟨rfl, htail⟩ := List.cons.inj heq
          obtain ⟨rfl, -⟩ := List.cons.inj htail
          exact absurd rfl hprefix
        · rfl

/-- Where the scanner stands behind an element. -/
def behindElement (p : Bytes) : Bytes :=
  (p.dropWhile fun c => isBlank c || c == 44).dropWhile (· ≠ 44)

theorem skipped_eq : (fun c => isBlank c || c == 44) = fun c : UInt8 => c == 44 || isOws c :=
  funext fun _ => Bool.or_comm _ _

theorem comma_eq : (fun c : UInt8 => decide (c ≠ 44)) = fun c => c != 44 :=
  funext fun c => by rw [Bool.eq_iff_iff, decide_eq_true_iff, bne_iff_ne]

/-- **Every round moves the scanner.** -/
theorem length_behindElement {p : Bytes} (hne : p ≠ []) : (behindElement p).length < p.length := by
  have hpos := List.length_pos_of_ne_nil hne
  have hlen : p.length ≤ (p.length - 1) + 1 := by omega
  have := length_behind_element hlen
  unfold behindElement
  rw [skipped_eq, comma_eq]
  omega

/-- The first element that is for the tag. -/
theorem selects_iff_find (value tag : Bytes) :
    Selects value tag ↔ ((elements value).find? fun e => decide (IsFor tag e)).isSome = true := by
  rw [List.find?_isSome]
  simp only [decide_eq_true_eq]
  rfl

/-- **The scan comes to an end**, and finds what cutting at every comma finds. -/
theorem ifNoneMatchLoop_eq {etag : Bytes} (hnil : ¬ IsFor etag []) {fuel : ℕ} {p : Bytes}
    (h : p.length ≤ fuel) : ifNoneMatchLoop etag fuel p = decide (Selects p etag) := by
  have hempty : decide (IsFor etag []) = false := decide_eq_false hnil
  have hnone : ¬ Selects [] etag := by
    rw [selects_of_not_mem List.not_mem_nil]
    exact hnil
  induction fuel generalizing p with
  | zero =>
      rw [List.eq_nil_of_length_eq_zero (Nat.le_zero.mp h), decide_eq_false hnone]
      rfl
  | succ fuel ih =>
      rw [ifNoneMatchLoop]
      split_ifs with hp
      · rw [hp, decide_eq_false hnone]
      have hrest : ifNoneMatchLoop etag fuel (behindElement p) =
          decide (Selects (behindElement p) etag) := by
        apply ih
        have := length_behindElement hp
        omega
      have hselects : Selects p etag ↔
          IsFor etag (((p.dropWhile fun c => isBlank c || c == 44).takeWhile
            (· ≠ 44)).rdropWhile isBlank) ∨ Selects (behindElement p) etag := by
        unfold behindElement
        rw [selects_iff_find, ← find_elements_dropWhile hempty, find_elements_eq hempty,
          strip_element, skipped_eq, comma_eq, selects_iff_find]
        split_ifs with hfirst
        · exact iff_of_true rfl (Or.inl (of_decide_eq_true hfirst))
        · exact (or_iff_right fun hfor => hfirst (decide_eq_true hfor)).symm
      dsimp only
      rw [show ((p.dropWhile fun c => isBlank c || c == 44).dropWhile (· ≠ 44)) =
        behindElement p from rfl, hrest]
      unfold etagOpaqueMatches
      rw [opaqueTag_eq, opaqueTag_eq, ← Bool.decide_or, ← Bool.decide_or, decide_eq_decide,
        hselects]
      rfl

/-! ### The tag of a file -/

theorem isTagByte_of_mem_hexadecimal {n : ℕ} {c : UInt8} (h : c ∈ hexadecimal n) :
    isTagByte c = true ∧ c ≠ 44 := by
  obtain ⟨d, hd, rfl⟩ := Digits.exists_digit_of_mem_render (by decide) h
  interval_cases d <;> decide

/-- The bytes between the quotes. -/
theorem fileEtag_bytes (st : FileStat) {c : UInt8}
    (h : c ∈ hexadecimal st.ino ++ ascii "-" ++ hexadecimal st.size ++ ascii "-" ++
      hexadecimal st.mtime) : isTagByte c = true ∧ c ≠ 44 := by
  have hdash : ∀ d ∈ ascii "-", isTagByte d = true ∧ d ≠ 44 := by decide +kernel
  simp only [List.mem_append] at h
  rcases h with (((h | h) | h) | h) | h
  · exact isTagByte_of_mem_hexadecimal h
  · exact hdash c h
  · exact isTagByte_of_mem_hexadecimal h
  · exact hdash c h
  · exact isTagByte_of_mem_hexadecimal h

/-- The tag that `static_meta_store` makes, as an entity tag. -/
def fileTag (st : FileStat) : EntityTag where
  weak := true
  text := hexadecimal st.ino ++ ascii "-" ++ hexadecimal st.size ++ ascii "-" ++
    hexadecimal st.mtime
  graphic _ h := (fileEtag_bytes st h).1

theorem render_fileTag (st : FileStat) : (fileTag st).render = fileEtag st := by
  have hopening : ascii "W/\"" = [87, 47, 34] := rfl
  have hclosing : ascii "\"" = [34] := rfl
  rw [render_eq]
  unfold fileEtag fileTag EntityTag.opening
  rw [hopening, hclosing]
  simp only [if_true, List.append_assoc, List.cons_append, List.nil_append]

theorem not_isFor_nil (st : FileStat) : ¬ IsFor (fileEtag st) [] := by
  rw [← render_fileTag, isFor_iff_of_count (by simp)]
  exact (List.cons_ne_nil _ _).symm

/-! ### The two comparisons -/

/-- What the function finds is what cutting at every comma finds. -/
theorem ifNoneMatchMatches_iff (value : Bytes) (st : FileStat) :
    ifNoneMatchMatches value (some (fileEtag st)) = true ↔ Selects value (fileEtag st) := by
  have hetag : fileEtag st ≠ [] := by
    rw [← render_fileTag, render_eq]
    simp
  have hloop := @ifNoneMatchLoop_eq _ (not_isFor_nil st) value.length value le_rfl
  unfold ifNoneMatchMatches
  dsimp only
  rw [hloop, decide_eq_true hetag, Bool.and_true, Bool.and_eq_true, decide_eq_true_iff,
    decide_eq_true_iff]
  refine and_iff_right_of_imp fun hselects => ?_
  rintro rfl
  rw [selects_of_not_mem List.not_mem_nil] at hselects
  exact not_isFor_nil st hselects

/-- **The scan ends, and finds an element between commas; for a list of entity tags this is the weak
comparison exactly if** a tag matches, or no tag has a star between two commas. -/
theorem ifNoneMatch_weak_iff (value : Bytes) (st : FileStat) :
    (∀ p : Bytes, p ≠ [] → (behindElement p).length < p.length) ∧
    (∀ fuel, value.length ≤ fuel → ifNoneMatchLoop (fileEtag st) fuel value =
      ifNoneMatchLoop (fileEtag st) value.length value) ∧
    (ifNoneMatchMatches value (some (fileEtag st)) = true ↔ Selects value (fileEtag st)) ∧
    ∀ tags, TagList tags value →
      ((ifNoneMatchMatches value (some (fileEtag st)) = true ↔
          ∃ tag ∈ tags, tag.WeakMatch (fileTag st)) ↔
        (∃ tag ∈ tags, tag.WeakMatch (fileTag st)) ∨ ∀ tag ∈ tags, ¬ HasLoneStar tag.text) := by
  have hnil := not_isFor_nil st
  refine ⟨fun _ => length_behindElement, ?_, ifNoneMatchMatches_iff value st, ?_⟩
  · intro fuel hfuel
    rw [ifNoneMatchLoop_eq hnil hfuel, ifNoneMatchLoop_eq hnil le_rfl]
  · intro tags htags
    have hcomma : 44 ∉ (fileTag st).text := fun hmem => (fileEtag_bytes st hmem).2 rfl
    have hselects := selects_iff hcomma htags
    rw [render_fileTag] at hselects
    rw [ifNoneMatchMatches_iff, hselects]
    by_cases hmatch : ∃ tag ∈ tags, tag.WeakMatch (fileTag st)
    · simp only [hmatch, true_or]
    · simp only [hmatch, false_or, iff_false, not_exists, not_and]

/-- A file. -/
def taggedFile : FileStat := ⟨1, 2, 3⟩

/-- A tag whose text has a star between two commas. -/
def starTag : EntityTag := ⟨false, ascii "a,*,b", by decide +kernel⟩

/-- **A star in a text**: a list of one tag, which is not the tag of the file, matches. -/
theorem star_in_text_matches :
    TagList [starTag] (ascii "\"a,*,b\"") ∧
      ifNoneMatchMatches (ascii "\"a,*,b\"") (some (fileEtag taggedFile)) = true ∧
      ¬ ∃ tag ∈ [starTag], tag.WeakMatch (fileTag taggedFile) := by
  refine ⟨?_, by decide, ?_⟩
  · exact .last (@ListElement.tag [] [] starTag nofun nofun)
  · rintro ⟨tag, hmem, hsame⟩
    rw [List.mem_singleton.mp hmem] at hsame
    exact absurd hsame (by unfold EntityTag.WeakMatch; decide)

/-- A tag with a comma. -/
def commaTag : EntityTag := ⟨false, ascii "a,b", by decide +kernel⟩

/-- The tag of the file, as a client sends it back. -/
def sentTag : EntityTag := ⟨false, ascii "1-2-3", by decide +kernel⟩

/-- Two tags, the second of which is that of the file. -/
theorem weak_match_second :
    ifNoneMatchMatches (ascii "\"a,b\", \"1-2-3\"") (some (fileEtag taggedFile)) = true ↔
      ∃ tag ∈ [commaTag, sentTag], tag.WeakMatch (fileTag taggedFile) := by
  refine ((ifNoneMatch_weak_iff _ taggedFile).2.2.2 _ ?_).mpr ?_
  · exact @TagList.cons (some commaTag) (ascii "\"a,b\"") _ _
      (@ListElement.tag [] [] _ nofun nofun)
      (@TagList.last (some sentTag) _ (@ListElement.tag [32] [] _ (by decide +kernel) nofun))
  · right
    intro tag hmem
    rcases List.mem_cons.mp hmem with rfl | hmem
    · decide
    · rw [List.mem_singleton.mp hmem]
      decide

end Rpsiod

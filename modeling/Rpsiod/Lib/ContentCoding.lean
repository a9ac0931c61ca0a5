import Rpsiod.Lib.Strip

/-!
# Lists of content codings

The value of an `Accept-Encoding` field: elements between commas, each a coding with parameters
behind semicolons, one of which may be its weight.

* `Permits`: a value has an element for a coding that does not refuse it.
* `weightsIn_dropWhile`, `find_elements_dropWhile`: empty parameters and empty elements count for
  nothing.
* `mem_elements_take`: **what is left of a value that is cut off** has starts of its elements.
-/

namespace ContentCoding

open ListStrip

/-- Optional white space. -/
def isOws (c : UInt8) : Bool := c == 32 || c == 9

/-- An ASCII letter in lower case. -/
def lower (c : UInt8) : UInt8 := if 65 ≤ c ∧ c ≤ 90 then c + 32 else c

/-- The elements of a list. -/
def elements (value : List UInt8) : List (List UInt8) :=
  (value.splitOnP (· == 44)).map (strip isOws)

/-- A byte of the coding of an element. -/
def isCodingByte (c : UInt8) : Bool := c != 59 && !isOws c

/-- The element is for this coding. -/
def names (coding element : List UInt8) : Bool :=
  (element.takeWhile isCodingByte).map lower = coding.map lower

/-- The weight, if this is that parameter. -/
def weightOf (parameter : List UInt8) : Option (List UInt8) :=
  match parameter.dropWhile (· != 61) with
  | [] => none
  | _ :: value =>
      if (strip isOws (parameter.takeWhile (· != 61))).map lower = [113] then
        some (strip isOws value)
      else none

/-- The weights between semicolons. -/
def weightsIn (parameters : List UInt8) : List (List UInt8) :=
  (parameters.splitOnP (· == 59)).filterMap weightOf

/-- The weights of an element, of which the grammar has at most one. -/
def weights (element : List UInt8) : List (List UInt8) :=
  weightsIn (element.dropWhile isCodingByte)

/-- A weight that is zero: `0`, and perhaps a point and up to three zeros. -/
def IsZero (weight : List UInt8) : Prop :=
  weight = [48] ∨ ∃ n ≤ 3, weight = 48 :: 46 :: List.replicate n 48

instance (weight : List UInt8) : Decidable (IsZero weight) := inferInstanceAs (Decidable (_ ∨ _))

/-- A weight of the element is zero. -/
def Refuses (element : List UInt8) : Prop := ∃ weight ∈ weights element, IsZero weight

instance (element : List UInt8) : Decidable (Refuses element) :=
  inferInstanceAs (Decidable (∃ _ ∈ weights element, _))

/-- An element for the coding does not refuse it. -/
def Permits (coding value : List UInt8) : Prop :=
  ∃ element ∈ elements value, names coding element = true ∧ ¬ Refuses element

instance (coding value : List UInt8) : Decidable (Permits coding value) :=
  inferInstanceAs (Decidable (∃ _ ∈ elements value, _))

/-! ### Splitting -/

section Split

variable {α : Type*} {p : α → Bool}

/-- Where dropping stops. -/
theorem eq_false_of_dropWhile {l rest : List α} {x : α} (h : l.dropWhile p = x :: rest) :
    p x = false := by
  have hne : l.dropWhile p ≠ [] := by
    rw [h]
    exact List.cons_ne_nil _ _
  have hhead := List.head_dropWhile_not p hne
  simp only [h, List.head_cons] at hhead
  exact hhead

/-- What is dropped first may be taken first. -/
theorem takeWhile_dropWhile {q : α → Bool} (h : ∀ x, p x = true → q x = true) (l : List α) :
    (l.dropWhile p).takeWhile q = (l.takeWhile q).dropWhile p := by
  induction l with
  | nil => rfl
  | cons x l ih =>
      rw [List.dropWhile_cons, List.takeWhile_cons]
      split_ifs with hp hq
      · rw [ih, List.dropWhile_cons_of_pos hp]
      · exact absurd (h x hp) hq
      · rw [List.dropWhile_cons_of_neg hp, List.takeWhile_cons, if_pos (by assumption)]
      · rw [List.takeWhile_cons, if_neg (by assumption)]
        rfl

/-- Dropping less first changes nothing. -/
theorem dropWhile_dropWhile {q : α → Bool} (h : ∀ x, p x = true → q x = true) (l : List α) :
    (l.dropWhile p).dropWhile q = l.dropWhile q := by
  induction l with
  | nil => rfl
  | cons x l ih =>
      rw [List.dropWhile_cons]
      split_ifs with hp
      · rw [ih, List.dropWhile_cons_of_pos (h x hp)]
      · rfl

/-- Dropping less behind changes nothing. -/
theorem dropWhile_stopped {q : α → Bool} (h : ∀ x, q x = true → p x = true) (l : List α) :
    (l.dropWhile p).dropWhile q = l.dropWhile p := by
  induction l with
  | nil => rfl
  | cons x l ih =>
      rw [List.dropWhile_cons]
      split_ifs with hp
      · exact ih
      · exact List.dropWhile_cons_of_neg fun hq => hp (h x hq)

/-- What is behind the first part starts with an empty part. -/
theorem splitOnP_dropWhile (l : List α) :
    (l.dropWhile fun x => !p x).splitOnP p =
      [] :: ((l.dropWhile fun x => !p x).splitOnP p).tail := by
  cases hrest : l.dropWhile (fun x => !p x) with
  | nil => rfl
  | cons x rest =>
      have hsep : p x = true := by
        have hstop := eq_false_of_dropWhile hrest
        rwa [Bool.not_eq_false'] at hstop
      rw [List.splitOnP_cons_eq_if_modifyHead, if_pos hsep, List.tail_cons]

/-- The first part, and the parts behind it. -/
theorem splitOnP_eq (l : List α) :
    l.splitOnP p = l.takeWhile (fun x => !p x) ::
      ((l.dropWhile fun x => !p x).splitOnP p).tail := by
  have hall : ∀ x ∈ l.takeWhile (fun x => !p x), p x = false := by
    intro x hx
    have := List.mem_takeWhile_imp hx
    rwa [Bool.not_eq_true'] at this
  have hl := List.takeWhile_append_dropWhile (p := fun x => !p x) (l := l)
  have hback := @splitOnP_dropWhile α p l
  cases hrest : l.dropWhile (fun x => !p x) with
  | nil =>
      rw [hrest, List.append_nil] at hl
      rw [hl] at hall ⊢
      exact List.splitOnP_eq_singleton hall
  | cons x rest =>
      rw [hrest] at hl hback
      rw [List.splitOnP_cons_eq_if_modifyHead] at hback ⊢
      split_ifs at hback ⊢ with hsep
      · conv_lhs => rw [← hl]
        exact List.splitOnP_append_cons_of_forall_mem hall x hsep rest
      · obtain ⟨first, others, hparts⟩ :=
          List.exists_cons_of_ne_nil (List.splitOnP_ne_nil p rest)
        rw [hparts] at hback
        exact absurd (List.cons.inj hback).1 (List.cons_ne_nil x first)

/-- The parts of what is left of a list that is cut off are starts of its parts. -/
theorem splitOnP_take {l : List α} {n i : ℕ} {part : List α}
    (h : ((l.take n).splitOnP p)[i]? = some part) :
    ∃ whole, (l.splitOnP p)[i]? = some whole ∧ part <+: whole := by
  induction l generalizing n i part with
  | nil =>
      rw [List.take_nil] at h
      exact ⟨part, h, List.prefix_rfl⟩
  | cons x l ih =>
      obtain ⟨first, rest, hparts⟩ := List.exists_cons_of_ne_nil (List.splitOnP_ne_nil p l)
      cases n with
      | zero =>
          rw [List.take_zero, List.splitOnP_nil] at h
          cases i with
          | zero =>
              obtain ⟨whole, tail, hwhole⟩ :=
                List.exists_cons_of_ne_nil (List.splitOnP_ne_nil p (x :: l))
              refine ⟨whole, by rw [hwhole]; rfl, ?_⟩
              rw [← Option.some.inj h]
              exact List.nil_prefix
          | succ i => cases h
      | succ n =>
          rw [List.take_succ_cons, List.splitOnP_cons_eq_if_modifyHead] at h
          rw [List.splitOnP_cons_eq_if_modifyHead]
          obtain ⟨cut, cuts, hcuts⟩ := List.exists_cons_of_ne_nil (List.splitOnP_ne_nil p (l.take n))
          split_ifs at h ⊢ with hx
          · cases i with
            | zero => exact ⟨[], rfl, Option.some.inj h ▸ List.prefix_rfl⟩
            | succ i => exact ih h
          · rw [hcuts, List.modifyHead_cons] at h
            rw [hparts, List.modifyHead_cons]
            cases i with
            | zero =>
                obtain ⟨whole, hwhole, hprefix⟩ := @ih n 0 cut (by rw [hcuts]; rfl)
                rw [hparts] at hwhole
                refine ⟨x :: first, rfl, ?_⟩
                rw [← Option.some.inj h, Option.some.inj hwhole]
                exact List.cons_prefix_cons.mpr ⟨rfl, hprefix⟩
            | succ i =>
                obtain ⟨whole, hwhole, hprefix⟩ := @ih n (i + 1) part (by rw [hcuts]; exact h)
                rw [hparts] at hwhole
                exact ⟨whole, hwhole, hprefix⟩

end Split

/-! ### Stripping -/

theorem dropWhile_prefix {p : UInt8 → Bool} {a b : List UInt8} (h : a <+: b)
    (hne : a.dropWhile p ≠ []) : a.dropWhile p <+: b.dropWhile p := by
  obtain ⟨rest, rfl⟩ := h
  rw [List.dropWhile_append, if_neg (by rwa [List.isEmpty_iff])]
  exact List.prefix_append _ _

/-- What is left of a start, stripped, is a start of what is left of the whole. -/
theorem strip_prefix {p : UInt8 → Bool} {a b : List UInt8} (h : a <+: b) :
    strip p a <+: strip p b := by
  unfold strip
  by_cases hnil : a.dropWhile p = []
  · rw [hnil]
    exact List.nil_prefix
  · obtain ⟨rest, hrest⟩ := dropWhile_prefix h hnil
    rw [← hrest]
    unfold List.rdropWhile
    rw [List.reverse_append, List.dropWhile_append]
    split_ifs with hall
    · exact List.prefix_rfl
    · rw [List.reverse_append, List.reverse_reverse]
      obtain ⟨back, hback⟩ := List.dropWhile_suffix p (l := (a.dropWhile p).reverse)
      refine (?_ : _ <+: a.dropWhile p).trans (List.prefix_append _ _)
      refine ⟨back.reverse, ?_⟩
      rw [← List.reverse_append, hback, List.reverse_reverse]

/-- **The elements of what is left of a value** are starts of its elements. -/
theorem mem_elements_take {value element : List UInt8} {n : ℕ}
    (h : element ∈ elements (value.take n)) :
    ∃ whole ∈ elements value, element <+: whole := by
  obtain ⟨part, hpart, rfl⟩ := List.mem_map.mp h
  obtain ⟨i, hi⟩ := List.getElem?_of_mem hpart
  obtain ⟨whole, hwhole, hprefix⟩ := splitOnP_take hi
  exact ⟨strip isOws whole, List.mem_map_of_mem (List.mem_of_getElem? hwhole), strip_prefix hprefix⟩

/-! ### Empty elements and parameters -/

theorem strip_cons {p : UInt8 → Bool} {c : UInt8} (hc : p c = true) (l : List UInt8) :
    strip p (c :: l) = strip p l := by
  unfold strip
  rw [List.dropWhile_cons_of_pos hc]

/-- An empty element is for no coding. -/
theorem names_nil {coding : List UInt8} (hne : coding ≠ []) : names coding [] = false := by
  unfold names
  rw [decide_eq_false_iff_not]
  exact fun h => hne (List.map_eq_nil_iff.mp h.symm)

/-- Commas and white space at the start add no element that is looked for. -/
theorem find_elements_dropWhile {wanted : List UInt8 → Bool} (hempty : wanted [] = false)
    (value : List UInt8) :
    (elements (value.dropWhile fun c => c == 44 || isOws c)).find? wanted =
      (elements value).find? wanted := by
  induction value with
  | nil => rfl
  | cons c value ih =>
      rw [List.dropWhile_cons]
      split_ifs with hskip
      · rw [ih]
        unfold elements
        rw [List.splitOnP_cons_eq_if_modifyHead]
        split_ifs with hcomma
        · have hstrip : strip isOws [] = [] := rfl
          rw [List.map_cons, List.find?_cons_of_neg]
          rw [hstrip, hempty]
          exact Bool.false_ne_true
        · have hows : isOws c = true := by
            rw [Bool.or_eq_true] at hskip
            exact hskip.resolve_left hcomma
          obtain ⟨first, rest, hparts⟩ :=
            List.exists_cons_of_ne_nil (List.splitOnP_ne_nil (· == 44) value)
          rw [hparts, List.modifyHead_cons, List.map_cons, List.map_cons, strip_cons hows]
      · rfl

/-- White space is none of the separators. -/
theorem ne_of_isOws {c : UInt8} (hc : isOws c = true) :
    (c != 44) = true ∧ (c != 59) = true ∧ (c != 61) = true := by
  unfold isOws at hc
  rw [Bool.or_eq_true, beq_iff_eq, beq_iff_eq] at hc
  rcases hc with rfl | rfl
  · decide
  · decide

/-- White space in front of a parameter does not count. -/
theorem weightOf_cons {c : UInt8} (hc : isOws c = true) (parameter : List UInt8) :
    weightOf (c :: parameter) = weightOf parameter := by
  have hne : (c != 61) = true := (ne_of_isOws hc).2.2
  unfold weightOf
  rw [List.dropWhile_cons, List.takeWhile_cons]
  simp only [hne, if_true]
  rw [strip_cons hc]

/-- Semicolons and white space at the start add no weight. -/
theorem weightsIn_dropWhile (parameters : List UInt8) :
    weightsIn (parameters.dropWhile fun c => c == 59 || isOws c) = weightsIn parameters := by
  induction parameters with
  | nil => rfl
  | cons c parameters ih =>
      rw [List.dropWhile_cons]
      split_ifs with hskip
      · rw [ih]
        unfold weightsIn
        rw [List.splitOnP_cons_eq_if_modifyHead]
        split_ifs with hsep
        · rfl
        · have hows : isOws c = true := by
            rw [Bool.or_eq_true] at hskip
            exact hskip.resolve_left hsep
          obtain ⟨first, rest, hparts⟩ :=
            List.exists_cons_of_ne_nil (List.splitOnP_ne_nil (· == 59) parameters)
          rw [hparts, List.modifyHead_cons, List.filterMap_cons, List.filterMap_cons,
            weightOf_cons hows]
      · rfl

/-- The first parameter, and the others. -/
theorem weightsIn_eq (parameters : List UInt8) :
    weightsIn parameters = (weightOf (parameters.takeWhile (· != 59))).toList ++
      weightsIn (parameters.dropWhile (· != 59)) := by
  have hfirst : parameters.splitOnP (· == 59) = parameters.takeWhile (· != 59) :: _ :=
    splitOnP_eq parameters
  have hrest : (parameters.dropWhile (· != 59)).splitOnP (· == 59) = [] :: _ :=
    splitOnP_dropWhile parameters
  unfold weightsIn
  rw [hfirst, List.filterMap_cons]
  conv_rhs => rw [hrest]
  cases weightOf (parameters.takeWhile (· != 59)) with
  | none => rfl
  | some weight => rfl

/-- The first element, or one of the others. -/
theorem find_elements_eq {wanted : List UInt8 → Bool} (hempty : wanted [] = false)
    (value : List UInt8) :
    (elements value).find? wanted =
      if wanted (strip isOws (value.takeWhile (· != 44))) then
        some (strip isOws (value.takeWhile (· != 44)))
      else (elements (value.dropWhile (· != 44))).find? wanted := by
  have hfirst : value.splitOnP (· == 44) = value.takeWhile (· != 44) :: _ := splitOnP_eq value
  have hrest : (value.dropWhile (· != 44)).splitOnP (· == 44) = [] :: _ := splitOnP_dropWhile value
  have hnil : wanted (strip isOws []) = false := hempty
  unfold elements
  rw [hfirst, List.map_cons, List.find?_cons]
  conv_rhs => rw [hrest, List.map_cons, List.find?_cons, hnil]
  cases wanted (strip isOws (value.takeWhile (· != 44))) with
  | true => exact (if_pos rfl).symm
  | false => exact (if_neg Bool.false_ne_true).symm

/-- An element that a scanner starts at is only stripped behind. -/
theorem strip_element (value : List UInt8) :
    strip isOws ((value.dropWhile fun c => c == 44 || isOws c).takeWhile (· != 44)) =
      ((value.dropWhile fun c => c == 44 || isOws c).takeWhile (· != 44)).rdropWhile isOws := by
  have hskipped : ∀ c, isOws c = true → (c == 44 || isOws c) = true := fun c hc =>
    Bool.or_eq_true_iff.mpr (Or.inr hc)
  have hkeep : ((value.dropWhile fun c => c == 44 || isOws c).takeWhile (· != 44)).dropWhile isOws =
      (value.dropWhile fun c => c == 44 || isOws c).takeWhile (· != 44) := by
    rw [← takeWhile_dropWhile fun c hc => (ne_of_isOws hc).1, dropWhile_stopped hskipped]
  unfold strip
  rw [hkeep]

/-- The scanner has moved behind it. -/
theorem length_behind_element {value : List UInt8} {n : ℕ} (h : value.length ≤ n + 1) :
    ((value.dropWhile fun c => c == 44 || isOws c).dropWhile (· != 44)).length ≤ n := by
  have hlength : (value.dropWhile fun c => c == 44 || isOws c).length ≤ value.length :=
    (List.dropWhile_suffix _).length_le
  cases hrest : value.dropWhile (fun c => c == 44 || isOws c) with
  | nil => exact Nat.zero_le _
  | cons c rest =>
      have hstop : (c == 44 || isOws c) = false :=
        eq_false_of_dropWhile (p := fun c => c == 44 || isOws c) hrest
      have hcomma : (c != 44) = true := by
        rw [bne, (Bool.or_eq_false_iff.mp hstop).1]
        rfl
      have hrestLength := (List.dropWhile_suffix (· != 44) (l := rest)).length_le
      rw [List.dropWhile_cons_of_pos (p := (· != 44)) hcomma]
      rw [hrest, List.length_cons] at hlength
      omega

end ContentCoding

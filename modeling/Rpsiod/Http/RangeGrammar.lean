import Rpsiod.Http.ByteRange

/-!
# The grammar of a Range value (`parse_byte_range`)

What a Range line may say: a number and a minus, two numbers with a minus between them, or a minus and
a number, in digits only.  `strtoull` also takes white space and a sign in front of a number.

* `RangeValue`: the grammar, with the fields that belong to each form.
* `LooseRange`: what else the parser makes a range of.
* `parseByteRange_accepts_iff`: which values it takes.
* `meetsGrammar_iff`: **the parser follows the grammar on a value exactly if that is no loose range**.
-/

namespace Rpsiod

open ListSearch

/-- Digits, and at least one. -/
def IsNumber (s : Bytes) : Prop := s ≠ [] ∧ ∀ c ∈ s, isdigit c = true

instance (s : Bytes) : Decidable (IsNumber s) := inferInstanceAs (Decidable (_ ∧ _))

/-- Their number. -/
def number (s : Bytes) : ℕ := (readDecimal 0 s).1

/-- It, or the largest one that fits into 64 bits. -/
def saturated (s : Bytes) : ℕ := min (number s) (2 ^ 64 - 1)

/-- A value with these texts before and behind the minus. -/
def rangeText (first last : Bytes) : Bytes := ascii "bytes=" ++ (first ++ 45 :: last)

/-- The grammar. -/
inductive RangeValue : Bytes → RangeFields → Prop
  | openEnded {first : Bytes} (hfirst : IsNumber first) :
      RangeValue (rangeText first []) { present := true, start := saturated first }
  | closed {first last : Bytes} (hfirst : IsNumber first) (hlast : IsNumber last)
      (hle : number first ≤ number last) :
      RangeValue (rangeText first last)
        { present := true, start := saturated first, hasEnd := true, stop := saturated last }
  | suffix {last : Bytes} (hlast : IsNumber last) (hpos : 0 < number last) :
      RangeValue (rangeText [] last)
        { present := true, suffix := true, start := saturated last }

/-- A number that has white space or a sign in front of it, or two numbers of which only the largest
ones of 64 bits are in order. -/
inductive LooseRange : Bytes → Prop
  | openEnded {first : Bytes} {n : ℤ} (hminus : 45 ∉ first) (hfirst : writtenNumber first = some n)
      (hloose : ¬ IsNumber first) : LooseRange (rangeText first [])
  | closed {first last : Bytes} {n m : ℤ} (hminus : 45 ∉ first)
      (hfirst : writtenNumber first = some n) (hlast : writtenNumber last = some m)
      (hle : word n ≤ word m)
      (hloose : ¬ (IsNumber first ∧ IsNumber last ∧ number first ≤ number last)) :
      LooseRange (rangeText first last)
  | suffix {last : Bytes} {n : ℤ} (hlast : writtenNumber last = some n) (hpos : word n ≠ 0)
      (hloose : ¬ IsNumber last) : LooseRange (rangeText [] last)

/-- On a request without a range, the parser takes the values of the grammar, and records them. -/
def MeetsGrammar (value : Bytes) : Prop :=
  ∀ req : HttpRequest, req.range = {} →
    ((parseByteRange value req).1 = true ↔ ∃ fields, RangeValue value fields) ∧
      ∀ fields, RangeValue value fields → (parseByteRange value req).2.range = fields

/-! ### Written numbers -/

theorem rest_readDecimal_digits {s : Bytes} (h : ∀ c ∈ s, isdigit c = true) (acc : ℕ) :
    (readDecimal acc s).2 = [] := by
  induction s generalizing acc with
  | nil => rfl
  | cons c s ih =>
      rw [readDecimal, if_pos (h c List.mem_cons_self)]
      exact ih (fun d hd => h d (List.mem_cons_of_mem c hd)) _

theorem digits_of_readDecimal {s : Bytes} {acc : ℕ} (h : (readDecimal acc s).2 = []) :
    ∀ c ∈ s, isdigit c = true := by
  induction s generalizing acc with
  | nil => exact fun c hc => absurd hc List.not_mem_nil
  | cons d s ih =>
      rw [readDecimal] at h
      split_ifs at h with hd
      intro c hc
      rcases List.mem_cons.mp hc with rfl | hc
      · exact hd
      · exact ih h c hc

theorem isdigit_not_sign {c : UInt8} (h : isdigit c = true) :
    isspace c = false ∧ c ≠ 45 ∧ c ≠ 43 := by
  have hall : ∀ n : Fin 256, isdigit (UInt8.ofNat n) = true →
      isspace (UInt8.ofNat n) = false ∧ UInt8.ofNat n ≠ 45 ∧ UInt8.ofNat n ≠ 43 := by
    decide +kernel
  have hc := hall ⟨c.toNat, c.toNat_lt⟩
  simp only [UInt8.ofNat_toNat] at hc
  exact hc h

/-- Digits alone have no white space and no sign in front of them. -/
theorem writtenNumber_of_isNumber {s : Bytes} (h : IsNumber s) :
    writtenNumber s = some (number s : ℤ) := by
  obtain ⟨c, rest, hcons⟩ := List.exists_cons_of_ne_nil h.1
  have hc : isdigit c = true := h.2 c (hcons ▸ List.mem_cons_self)
  obtain ⟨hspace, hminus, hplus⟩ := isdigit_not_sign hc
  have hsign : signAndDigits s = (false, s) := by
    unfold signAndDigits
    rw [hcons, List.dropWhile_cons_of_neg (by rw [hspace]; exact Bool.false_ne_true)]
    simp [hminus, hplus]
  unfold writtenNumber
  rw [hsign]
  dsimp only
  rw [rest_readDecimal_digits h.2, hcons, List.head?_cons, Option.any_some, hc, ← hcons]
  rfl

/-- What `strtoull` makes of a written number: it reads up to the end of it. -/
theorem strtoull_of_writtenNumber {s : Bytes} {n : ℤ} (h : writtenNumber s = some n) :
    (strtoull s).converted s = true ∧ (strtoull s).rest = [] ∧ (strtoull s).value = word n := by
  unfold writtenNumber at h
  dsimp only at h
  split_ifs at h with hcond
  rw [Bool.and_eq_true, decide_eq_true_iff] at hcond
  obtain ⟨hdigit, hend⟩ := hcond
  rw [Option.some.injEq] at h
  have hne : s ≠ [] := by
    rintro rfl
    exact Bool.false_ne_true hdigit
  rw [strtoull_eq, if_pos hdigit]
  refine ⟨?_, hend, by rw [h]⟩
  unfold Strtoull.converted
  dsimp only
  rw [hend, bne_iff_ne]
  exact (List.length_pos_of_ne_nil hne).ne

/-- No other bytes are part of it. -/
theorem mem_writtenNumber {s : Bytes} {n : ℤ} (h : writtenNumber s = some n) {c : UInt8}
    (hc : c ∈ s) : isspace c = true ∨ c = 45 ∨ c = 43 ∨ isdigit c = true := by
  unfold writtenNumber at h
  dsimp only at h
  split_ifs at h with hcond
  rw [Bool.and_eq_true, decide_eq_true_iff] at hcond
  have hdigits := digits_of_readDecimal hcond.2
  rw [← List.takeWhile_append_dropWhile (p := isspace) (l := s)] at hc
  rcases List.mem_append.mp hc with hspace | hrest
  · exact Or.inl (List.mem_takeWhile_imp hspace)
  · unfold signAndDigits at hdigits
    dsimp only at hdigits
    set t := s.dropWhile isspace
    by_cases hsign : t.head? = some 45 ∨ t.head? = some 43
    · rw [if_pos hsign] at hdigits
      cases ht : t with
      | nil =>
          rw [ht] at hrest
          exact absurd hrest List.not_mem_nil
      | cons d t' =>
          rw [ht] at hrest hsign hdigits
          rcases List.mem_cons.mp hrest with rfl | hrest
          · simp only [List.head?_cons, Option.some.injEq] at hsign
            rcases hsign with rfl | rfl
            · exact Or.inr (Or.inl rfl)
            · exact Or.inr (Or.inr (Or.inl rfl))
          · exact Or.inr (Or.inr (Or.inr (hdigits c hrest)))
    · rw [if_neg hsign] at hdigits
      exact Or.inr (Or.inr (Or.inr (hdigits c hrest)))

theorem comma_not_mem_writtenNumber {s : Bytes} {n : ℤ} (h : writtenNumber s = some n) :
    44 ∉ s := fun hc => by
  rcases mem_writtenNumber h hc with hbad | hbad | hbad | hbad
  · exact absurd hbad (by decide)
  · exact absurd hbad (by decide)
  · exact absurd hbad (by decide)
  · exact absurd hbad (by decide)

/-- A written number is not empty. -/
theorem writtenNumber_ne_nil {s : Bytes} {n : ℤ} (h : writtenNumber s = some n) : s ≠ [] := by
  rintro rfl
  exact absurd h.symm (Option.some_ne_none n)

/-- A number in front of a minus is read up to it. -/
theorem strtoull_append_minus {first last : Bytes} {n : ℤ} (hminus : 45 ∉ first)
    (h : writtenNumber first = some n) :
    (strtoull (first ++ 45 :: last)).rest = 45 :: last ∧
      (strtoull (first ++ 45 :: last)).value = word n := by
  unfold writtenNumber at h
  dsimp only at h
  split_ifs at h with hcond
  rw [Bool.and_eq_true, decide_eq_true_iff] at hcond
  obtain ⟨hdigit, hend⟩ := hcond
  rw [Option.some.injEq] at h
  -- the sign is not a minus, and there is something behind the white space
  have hne : first.dropWhile isspace ≠ [] := by
    intro hnil
    unfold signAndDigits at hdigit
    rw [hnil] at hdigit
    exact Bool.false_ne_true hdigit
  obtain ⟨hnot, hwhole⟩ := signAndDigits_append_minus hminus hne last
  rw [strtoull_eq, hwhole]
  dsimp only
  rw [head_append_minus, if_pos hdigit, readDecimal_append (by decide), hend]
  refine ⟨rfl, ?_⟩
  rw [← h, hnot]

/-! ### What the parser takes -/

/-- The texts before and behind the first minus. -/
theorem rangeText_inj {first last first' last' : Bytes} (hminus : 45 ∉ first)
    (hminus' : 45 ∉ first') (h : rangeText first last = rangeText first' last') :
    first = first' ∧ last = last' :=
  append_cons_inj_of_not_mem (List.append_cancel_left h) hminus hminus'

theorem byteRange_rangeText {first last : Bytes} (hminus : 45 ∉ first) :
    byteRange (rangeText first last) =
      if first = [] then (writtenNumber last).map .suffix
      else
        (writtenNumber first).bind fun n =>
          if last = [] then some (.within n none)
          else (writtenNumber last).map fun stop => .within n (some stop) := by
  have hstart : startsWith (rangeText first last) (ascii "bytes=") = true := by
    unfold startsWith rangeText
    rw [List.isPrefixOf_iff_prefix]
    exact List.prefix_append _ _
  have hdrop : (rangeText first last).drop 6 = first ++ 45 :: last := rfl
  have hsplit : splitFirst 45 (first ++ 45 :: last) = some (first, last) :=
    splitFirst_eq_some_iff.mpr ⟨rfl, hminus⟩
  unfold byteRange
  rw [hstart, hdrop, hsplit]
  rfl

/-- **The values that the parser takes**: a range of written numbers that passes its checks. -/
theorem parseByteRange_accepts_iff (value : Bytes) (req : HttpRequest) :
    (parseByteRange value req).1 = true ↔
      ∃ range, byteRange value = some range ∧ range.Checked := by
  constructor
  · intro h
    obtain ⟨range, hrange, hchecked, -⟩ := parseByteRange_eq h
    exact ⟨range, hrange, hchecked⟩
  · rintro ⟨range, hrange, hchecked⟩
    unfold byteRange at hrange
    unfold parseByteRange
    by_cases hunit : (!startsWith value (ascii "bytes=")) = true
    · rw [if_pos hunit] at hrange
      exact nomatch hrange
    rw [if_neg hunit] at hrange ⊢
    cases hsplit : splitFirst 45 (value.drop 6) with
    | none =>
        rw [hsplit] at hrange
        exact nomatch hrange
    | some parts =>
        obtain ⟨first, last⟩ := parts
        obtain ⟨hspec, hminus⟩ := splitFirst_eq_some_iff.mp hsplit
        rw [hsplit] at hrange
        dsimp only at hrange ⊢
        by_cases hsuffix : first = []
        · rw [if_pos hsuffix] at hrange
          obtain ⟨n, hlast, rfl⟩ := Option.map_eq_some_iff.mp hrange
          obtain ⟨hconverted, hrest, hvalue⟩ := strtoull_of_writtenNumber hlast
          have hcomma : 44 ∉ value.drop 6 := by
            rw [hspec, hsuffix]
            simpa using comma_not_mem_writtenNumber hlast
          have hpos : word n ≠ 0 := hchecked
          rw [if_neg hcomma, hsplit]
          dsimp only
          rw [if_pos hsuffix, hconverted, hrest, hvalue]
          simp [hpos]
        · rw [if_neg hsuffix] at hrange
          obtain ⟨n, hfirst, hrange⟩ := Option.bind_eq_some_iff.mp hrange
          obtain ⟨hrest, hvalue⟩ := @strtoull_append_minus first last n hminus hfirst
          by_cases hopen : last = []
          · have hcomma : 44 ∉ value.drop 6 := by
              rw [hspec, hopen]
              simpa using comma_not_mem_writtenNumber hfirst
            rw [if_neg hcomma, hsplit]
            dsimp only
            rw [if_neg hsuffix, hspec, hrest, if_neg (not_not_intro rfl), if_pos hopen]
          · rw [if_neg hopen] at hrange
            obtain ⟨m, hlast, rfl⟩ := Option.map_eq_some_iff.mp hrange
            obtain ⟨hconverted, hend, hstop⟩ := strtoull_of_writtenNumber hlast
            have hcomma : 44 ∉ value.drop 6 := by
              rw [hspec]
              simpa [comma_not_mem_writtenNumber hfirst] using comma_not_mem_writtenNumber hlast
            have hle : word n ≤ word m := hchecked.2
            rw [if_neg hcomma, hsplit]
            dsimp only
            rw [if_neg hsuffix, hspec, hrest, if_neg (not_not_intro rfl), if_neg hopen, hconverted,
              hend, hstop, hvalue, if_neg]
            simpa using hle

/-- A value that is taken has the texts of a range. -/
theorem exists_rangeText {value : Bytes} {range : ByteRange} (h : byteRange value = some range) :
    ∃ first last, 45 ∉ first ∧ value = rangeText first last := by
  unfold byteRange at h
  by_cases hunit : (!startsWith value (ascii "bytes=")) = true
  · rw [if_pos hunit] at h
    exact nomatch h
  rw [if_neg hunit] at h
  cases hsplit : splitFirst 45 (value.drop 6) with
  | none =>
      rw [hsplit] at h
      exact nomatch h
  | some parts =>
      obtain ⟨hspec, hminus⟩ := splitFirst_eq_some_iff.mp hsplit
      refine ⟨parts.1, parts.2, hminus, ?_⟩
      rw [Bool.not_eq_true', Bool.not_eq_false] at hunit
      unfold startsWith at hunit
      obtain ⟨rest, hrest⟩ := List.isPrefixOf_iff_prefix.mp hunit
      have hdrop : value.drop 6 = rest := by
        rw [← hrest]
        rfl
      rw [rangeText, ← hspec, hdrop, hrest]

theorem IsNumber.minus_not_mem {s : Bytes} (h : IsNumber s) : 45 ∉ s := fun hmem =>
  (isdigit_not_sign (h.2 45 hmem)).2.1 rfl

theorem word_number (s : Bytes) : word (number s : ℤ) = saturated s :=
  word_of_nonneg (Int.natCast_nonneg _)

/-- A value of the grammar, and what is recorded of it. -/
theorem byteRange_of_rangeValue {value : Bytes} {fields : RangeFields} (h : RangeValue value fields) :
    ∃ range, byteRange value = some range ∧ range.Checked ∧ range.record {} = fields := by
  cases h with
  | @openEnded first hfirst =>
      refine ⟨.within (number first) none, ?_, Int.natCast_nonneg _, ?_⟩
      · rw [byteRange_rangeText hfirst.minus_not_mem, if_neg hfirst.1,
          writtenNumber_of_isNumber hfirst]
        rfl
      · show RangeFields.mk true false false (word (number first)) 0 = _
        rw [word_number]
  | @closed first last hfirst hlast hle =>
      refine ⟨.within (number first) (some (number last)), ?_, ⟨Int.natCast_nonneg _, ?_⟩, ?_⟩
      · rw [byteRange_rangeText hfirst.minus_not_mem, if_neg hfirst.1,
          writtenNumber_of_isNumber hfirst, Option.bind_some, if_neg hlast.1,
          writtenNumber_of_isNumber hlast]
        rfl
      · rw [word_number, word_number]
        exact min_le_min_right _ hle
      · show RangeFields.mk true false true (word (number first)) (word (number last)) = _
        rw [word_number, word_number]
  | @suffix last hlast hpos =>
      refine ⟨.suffix (number last), ?_, ?_, ?_⟩
      · rw [byteRange_rangeText List.not_mem_nil, if_pos rfl, writtenNumber_of_isNumber hlast]
        rfl
      · rw [ByteRange.Checked, word_number]
        unfold saturated
        omega
      · show RangeFields.mk true true false (word (number last)) 0 = _
        rw [word_number]

/-- What is taken is a value of the grammar or a loose range. -/
theorem rangeValue_or_loose {value : Bytes} {range : ByteRange} (h : byteRange value = some range)
    (hchecked : range.Checked) : (∃ fields, RangeValue value fields) ∨ LooseRange value := by
  obtain ⟨first, last, hminus, rfl⟩ := exists_rangeText h
  rw [byteRange_rangeText hminus] at h
  by_cases hsuffix : first = []
  · subst hsuffix
    rw [if_pos rfl] at h
    obtain ⟨n, hlast, rfl⟩ := Option.map_eq_some_iff.mp h
    by_cases hnumber : IsNumber last
    · refine Or.inl ⟨_, .suffix hnumber ?_⟩
      have hn : n = number last :=
        Option.some.inj (hlast.symm.trans (writtenNumber_of_isNumber hnumber))
      have hpos : word n ≠ 0 := hchecked
      rw [hn, word_number] at hpos
      unfold saturated at hpos
      omega
    · exact Or.inr (.suffix hlast hchecked hnumber)
  · rw [if_neg hsuffix] at h
    obtain ⟨n, hfirst, h⟩ := Option.bind_eq_some_iff.mp h
    by_cases hopen : last = []
    · subst hopen
      by_cases hnumber : IsNumber first
      · exact Or.inl ⟨_, .openEnded hnumber⟩
      · exact Or.inr (.openEnded hminus hfirst hnumber)
    · rw [if_neg hopen] at h
      obtain ⟨m, hlast, rfl⟩ := Option.map_eq_some_iff.mp h
      by_cases hplain : IsNumber first ∧ IsNumber last ∧ number first ≤ number last
      · exact Or.inl ⟨_, .closed hplain.1 hplain.2.1 hplain.2.2⟩
      · exact Or.inr (.closed hminus hfirst hlast hchecked.2 hplain)

/-- A loose range is taken, although it is no value of the grammar. -/
theorem LooseRange.accepted {value : Bytes} (h : LooseRange value) :
    (∃ range, byteRange value = some range ∧ range.Checked) ∧
      ¬ ∃ fields, RangeValue value fields := by
  cases h with
  | @openEnded first n hminus hfirst hloose =>
      constructor
      · refine ⟨.within n none, ?_, ?_⟩
        · rw [byteRange_rangeText hminus, if_neg (writtenNumber_ne_nil hfirst), hfirst]
          rfl
        · obtain ⟨m, hpos, hm, -⟩ := writtenNumber_of_strtoull_append
            (writtenNumber_ne_nil hfirst) hminus (@strtoull_append_minus first [] n hminus hfirst).1
          rw [hfirst, Option.some.injEq] at hm
          exact hm ▸ hpos
      · rintro ⟨fields, hvalue⟩
        generalize htext : rangeText first [] = text at hvalue
        cases hvalue with
        | openEnded hnumber =>
            exact hloose ((rangeText_inj hminus hnumber.minus_not_mem htext).1 ▸ hnumber)
        | closed hnumber hlast =>
            exact hlast.1 (rangeText_inj hminus hnumber.minus_not_mem htext).2.symm
        | suffix hlast =>
            exact hlast.1 (rangeText_inj hminus List.not_mem_nil htext).2.symm
  | @closed first last n m hminus hfirst hlast hle hloose =>
      constructor
      · refine ⟨.within n (some m), ?_, ?_, hle⟩
        · rw [byteRange_rangeText hminus, if_neg (writtenNumber_ne_nil hfirst), hfirst,
            Option.bind_some, if_neg (writtenNumber_ne_nil hlast), hlast]
          rfl
        · obtain ⟨k, hpos, hk, -⟩ := writtenNumber_of_strtoull_append
            (writtenNumber_ne_nil hfirst) hminus
            (@strtoull_append_minus first last n hminus hfirst).1
          rw [hfirst, Option.some.injEq] at hk
          exact hk ▸ hpos
      · rintro ⟨fields, hvalue⟩
        generalize htext : rangeText first last = text at hvalue
        cases hvalue with
        | openEnded hnumber =>
            exact writtenNumber_ne_nil hlast (rangeText_inj hminus hnumber.minus_not_mem htext).2
        | closed hnumber hnumber' hle' =>
            obtain ⟨rfl, rfl⟩ := rangeText_inj hminus hnumber.minus_not_mem htext
            exact hloose ⟨hnumber, hnumber', hle'⟩
        | suffix hnumber =>
            exact writtenNumber_ne_nil hfirst (rangeText_inj hminus List.not_mem_nil htext).1
  | @suffix last n hlast hpos hloose =>
      constructor
      · refine ⟨.suffix n, ?_, hpos⟩
        rw [byteRange_rangeText List.not_mem_nil, if_pos rfl, hlast]
        rfl
      · rintro ⟨fields, hvalue⟩
        generalize htext : rangeText [] last = text at hvalue
        cases hvalue with
        | openEnded hnumber =>
            exact hnumber.1 (rangeText_inj List.not_mem_nil hnumber.minus_not_mem htext).1.symm
        | closed hnumber hnumber' =>
            exact hnumber.1 (rangeText_inj List.not_mem_nil hnumber.minus_not_mem htext).1.symm
        | suffix hnumber =>
            exact hloose ((rangeText_inj List.not_mem_nil List.not_mem_nil htext).2 ▸ hnumber)

/-- **The parser follows the grammar on a value, exactly if that is no loose range.** -/
theorem meetsGrammar_iff (value : Bytes) : MeetsGrammar value ↔ ¬ LooseRange value := by
  constructor
  · intro hmeets hloose
    obtain ⟨haccepted, hnot⟩ := hloose.accepted
    have hreq : ({} : HttpRequest).range = {} := rfl
    exact hnot ((hmeets {} hreq).1.mp ((parseByteRange_accepts_iff value {}).mpr haccepted))
  · intro hloose req hclear
    constructor
    · rw [parseByteRange_accepts_iff]
      constructor
      · rintro ⟨range, hrange, hchecked⟩
        exact (rangeValue_or_loose hrange hchecked).resolve_right hloose
      · rintro ⟨fields, hvalue⟩
        obtain ⟨range, hrange, hchecked, -⟩ := byteRange_of_rangeValue hvalue
        exact ⟨range, hrange, hchecked⟩
    · intro fields hvalue
      obtain ⟨range, hrange, hchecked, hrecord⟩ := byteRange_of_rangeValue hvalue
      obtain ⟨range', hrange', -, hfields⟩ :=
        parseByteRange_eq ((parseByteRange_accepts_iff value req).mpr ⟨range, hrange, hchecked⟩)
      rw [hrange, Option.some.injEq] at hrange'
      rw [hfields, ← hrange', hclear, hrecord]

/-- A sign in the suffix: the parser makes it the last 2^64 - 5 bytes. -/
theorem signed_suffix_accepted :
    (parseByteRange (ascii "bytes=--5") {}).1 = true ∧
      (parseByteRange (ascii "bytes=--5") {}).2.rangeStart = 2 ^ 64 - 5 ∧
      ¬ MeetsGrammar (ascii "bytes=--5") := by
  refine ⟨by decide +kernel, by decide +kernel, fun hmeets => ?_⟩
  have hloose : LooseRange (rangeText [] (ascii "-5")) := by
    refine @LooseRange.suffix (ascii "-5") (-5) (by decide +kernel) (by decide +kernel) ?_
    rintro ⟨-, hdigits⟩
    exact absurd (hdigits 45 (by decide)) (by decide)
  exact (meetsGrammar_iff _).mp hmeets hloose

end Rpsiod

import Rpsiod.Http.Fields

/-!
# What the Range lines of a request ask for

A Range line is read on its own here, with numbers of any size; the parser reads every line with
`strtoull`, into the same fields of the request.

* `byteRange`: the range of a line, and `ByteRange.clip`: its bytes in a file.
* `parseByteRange_eq`: what the parser makes of a line.
* `Parsed.range_eq`: **what it makes of all of them**, and `foldl_record_suffix` and
  `foldl_record_end`: what the earlier lines leave behind.
-/

namespace Rpsiod

open FailingRun ListSearch Crlf

/-! ### Ranges -/

/-- The last `n` bytes, or the bytes from `first` on, up to `last` if it is given. -/
inductive ByteRange where
  | suffix (n : ℤ)
  | within (first : ℤ) (last : Option ℤ)
  deriving DecidableEq

/-- Whether a number has a minus sign, and what stands behind white space and sign. -/
def signAndDigits (s : Bytes) : Bool × Bytes :=
  let t := s.dropWhile isspace
  (decide (t.head? = some 45),
    if t.head? = some 45 ∨ t.head? = some 43 then t.tail else t)

/-- The number with this sign. -/
def signed (negative : Bool) (n : ℕ) : ℤ := if negative then -n else n

/-- The number that a text writes: white space, a sign, digits. -/
def writtenNumber (s : Bytes) : Option ℤ :=
  let (negative, digits) := signAndDigits s
  if digits.head?.any isdigit && (readDecimal 0 digits).2 = [] then
    some (signed negative (readDecimal 0 digits).1)
  else none

/-- The range that the value of a Range line asks for. -/
def byteRange (value : Bytes) : Option ByteRange :=
  if !startsWith value (ascii "bytes=") then none
  else
    match splitFirst 45 (value.drop 6) with
    | none => none
    | some (first, last) =>
        if first = [] then (writtenNumber last).map .suffix
        else
          (writtenNumber first).bind fun n =>
            if last = [] then some (.within n none)
            else (writtenNumber last).map fun stop => .within n (some stop)

namespace ByteRange

/-- The first and the last byte of a range in a file of this size, if there is any. -/
def clip (range : ByteRange) (total : ℕ) : Option (ℕ × ℕ) :=
  match range with
  | .suffix n => if 1 ≤ n ∧ 0 < total then some (total - n.toNat, total - 1) else none
  | .within first none =>
      if 0 ≤ first ∧ first < total then some (first.toNat, total - 1) else none
  | .within first (some last) =>
      if 0 ≤ first ∧ first < total ∧ first ≤ last then
        some (first.toNat, min last.toNat (total - 1))
      else none

theorem clip_lt {range : ByteRange} {total start stop : ℕ}
    (h : range.clip total = some (start, stop)) : start ≤ stop ∧ stop < total := by
  unfold clip at h
  split at h <;> split_ifs at h <;> obtain ⟨rfl, rfl⟩ := Prod.mk.inj (Option.some.inj h) <;> omega

/-- A range of the last bytes. -/
def isSuffix : ByteRange → Bool
  | suffix _ => true
  | within _ _ => false

/-- The last byte, if the line names it. -/
def stop : ByteRange → Option ℤ
  | suffix _ => none
  | within _ last => last

end ByteRange

/-! ### A line -/

/-- The number that `strtoull` makes of a written one: a negative one wraps around, and one of
more than 64 bits is cut down. -/
def word (n : ℤ) : ℕ := if n.natAbs < 2 ^ 64 then (n % 2 ^ 64).toNat else 2 ^ 64 - 1

theorem word_of_nonneg {n : ℤ} (h : 0 ≤ n) : word n = min n.toNat (2 ^ 64 - 1) := by
  unfold word
  split_ifs <;> omega

theorem readDecimal_append {c : UInt8} (hc : isdigit c = false) (acc : ℕ) (digits more : Bytes) :
    readDecimal acc (digits ++ c :: more) =
      ((readDecimal acc digits).1, (readDecimal acc digits).2 ++ c :: more) := by
  induction digits generalizing acc with
  | nil => simp [readDecimal, hc]
  | cons d digits ih =>
      rw [List.cons_append, readDecimal, readDecimal]
      by_cases hd : isdigit d = true
      · rw [if_pos hd, if_pos hd, ih]
      · rw [if_neg hd, if_neg hd]
        rfl

theorem length_readDecimal (acc : ℕ) (s : Bytes) : (readDecimal acc s).2.length ≤ s.length := by
  induction s generalizing acc with
  | nil => exact le_rfl
  | cons c s ih =>
      rw [readDecimal]
      split_ifs
      · exact (ih _).trans (Nat.le_succ _)
      · exact le_rfl

theorem word_signed {n : ℕ} (h : n < 2 ^ 64) (negative : Bool) :
    word (signed negative n) = if negative then (2 ^ 64 - n) % 2 ^ 64 else n := by
  unfold word signed
  cases negative with
  | true =>
      simp only [if_true, Int.natAbs_neg, Int.natAbs_natCast, if_pos h]
      omega
  | false =>
      simp only [Bool.false_eq_true, if_false, Int.natAbs_natCast, if_pos h]
      omega

theorem word_signed_of_le {n : ℕ} (h : 2 ^ 64 ≤ n) (negative : Bool) :
    word (signed negative n) = 2 ^ 64 - 1 := by
  unfold word signed
  cases negative <;> exact if_neg (by simpa using h)

/-- `strtoull` with the number that is written. -/
theorem strtoull_eq (s : Bytes) :
    strtoull s =
      if (signAndDigits s).2.head?.any isdigit then
        ⟨word (signed (signAndDigits s).1 (readDecimal 0 (signAndDigits s).2).1),
          (readDecimal 0 (signAndDigits s).2).2,
          decide (2 ^ 64 ≤ (readDecimal 0 (signAndDigits s).2).1)⟩
      else ⟨0, s, false⟩ := by
  unfold strtoull signAndDigits
  dsimp only
  set t := s.dropWhile isspace
  set digits := if t.head? = some 45 ∨ t.head? = some 43 then t.tail else t
  by_cases hdigit : digits.head?.any isdigit = true
  · rw [if_pos hdigit, if_pos hdigit]
    by_cases hsmall : (readDecimal 0 digits).1 < 2 ^ 64
    · rw [if_pos hsmall, word_signed hsmall, decide_eq_false (not_le.mpr hsmall)]
      simp only [decide_eq_true_eq]
      rfl
    · rw [if_neg hsmall, word_signed_of_le (not_lt.mp hsmall),
        decide_eq_true (not_lt.mp hsmall)]
  · rw [if_neg hdigit, if_neg hdigit]

/-- A text that `strtoull` reads to its end. -/
theorem writtenNumber_of_strtoull {s : Bytes} (hconverted : (strtoull s).converted s = true)
    (hrest : (strtoull s).rest = []) :
    ∃ n, writtenNumber s = some n ∧ (strtoull s).value = word n := by
  rw [strtoull_eq] at hconverted hrest ⊢
  unfold writtenNumber
  by_cases hdigit : (signAndDigits s).2.head?.any isdigit = true
  · rw [if_pos hdigit] at hrest ⊢
    dsimp only at hrest ⊢
    rw [hdigit, decide_eq_true hrest]
    exact ⟨_, rfl, rfl⟩
  · rw [if_neg hdigit] at hconverted
    unfold Strtoull.converted at hconverted
    simp at hconverted

/-- A minus behind the digits is no sign. -/
theorem signAndDigits_append_minus {first : Bytes} (hminus : 45 ∉ first)
    (hblank : first.dropWhile isspace ≠ []) (last : Bytes) :
    (signAndDigits first).1 = false ∧
      signAndDigits (first ++ 45 :: last) = (false, (signAndDigits first).2 ++ 45 :: last) := by
  have hdrop : (first ++ 45 :: last).dropWhile isspace =
      first.dropWhile isspace ++ 45 :: last := by
    rw [List.dropWhile_append, if_neg (by simpa using hblank)]
  obtain ⟨c, t, ht⟩ := List.exists_cons_of_ne_nil hblank
  have hc : c ≠ 45 := by
    rintro rfl
    have hmem : 45 ∈ first.dropWhile isspace := ht ▸ List.mem_cons_self
    exact hminus (List.dropWhile_subset _ hmem)
  have hfirst : signAndDigits first = (false, if c = 43 then t else c :: t) := by
    unfold signAndDigits
    rw [ht]
    simp [hc]
  refine ⟨by rw [hfirst], ?_⟩
  rw [hfirst]
  unfold signAndDigits
  rw [hdrop, ht]
  by_cases hplus : c = 43 <;> simp [hc, hplus]

/-- Nor is it a digit. -/
theorem head_append_minus (digits last : Bytes) :
    (digits ++ 45 :: last).head?.any isdigit = digits.head?.any isdigit := by
  cases digits with
  | nil => rfl
  | cons d digits => rfl

/-- The text in front of a minus that `strtoull` reads up to it. -/
theorem writtenNumber_of_strtoull_append {first last : Bytes} (hne : first ≠ [])
    (hminus : 45 ∉ first) (hrest : (strtoull (first ++ 45 :: last)).rest = 45 :: last) :
    ∃ n, 0 ≤ n ∧ writtenNumber first = some n ∧
      (strtoull (first ++ 45 :: last)).value = word n := by
  have hself : first ++ 45 :: last ≠ 45 :: last := fun h =>
    hne (List.append_left_eq_self.mp h)
  rw [strtoull_eq] at hrest ⊢
  by_cases hdigit : (signAndDigits (first ++ 45 :: last)).2.head?.any isdigit = true
  swap
  · rw [if_neg hdigit] at hrest
    exact absurd hrest hself
  rw [if_pos hdigit] at hrest ⊢
  dsimp only at hrest ⊢
  by_cases hblank : first.dropWhile isspace = []
  · -- the minus is a sign
    have hsign : signAndDigits (first ++ 45 :: last) = (true, last) := by
      unfold signAndDigits
      rw [List.dropWhile_append, hblank]
      rfl
    rw [hsign] at hrest
    have hlength := length_readDecimal 0 last
    rw [hrest] at hlength
    simp at hlength
  · obtain ⟨hnot, hwhole⟩ := signAndDigits_append_minus hminus hblank last
    rw [hwhole] at hrest hdigit ⊢
    dsimp only at hrest hdigit ⊢
    rw [readDecimal_append (by decide)] at hrest ⊢
    dsimp only at hrest ⊢
    have hend := List.append_left_eq_self.mp hrest
    rw [head_append_minus] at hdigit
    refine ⟨(readDecimal 0 (signAndDigits first).2).1, Int.natCast_nonneg _, ?_, rfl⟩
    unfold writtenNumber
    dsimp only
    rw [hdigit, decide_eq_true hend, hnot]
    rfl

/-! ### What the parser makes of it -/

/-- The fields of a request that a Range line changes. -/
structure RangeFields where
  present : Bool := false
  suffix : Bool := false
  hasEnd : Bool := false
  start : ℕ := 0
  stop : ℕ := 0

/-- These fields of a request. -/
def HttpRequest.range (req : HttpRequest) : RangeFields :=
  ⟨req.rangePresent, req.rangeSuffix, req.rangeHasEnd, req.rangeStart, req.rangeEnd⟩

namespace ByteRange

/-- What a line leaves in the fields, on top of what is there. -/
def record (f : RangeFields) : ByteRange → RangeFields
  | suffix n => { f with present := true, suffix := true, start := word n }
  | within first none => { f with present := true, start := word first }
  | within first (some last) =>
      { f with present := true, start := word first, hasEnd := true, stop := word last }

theorem record_within_suffix (f : RangeFields) (first : ℤ) (last : Option ℤ) :
    (record f (within first last)).suffix = f.suffix := by
  cases last <;> rfl

theorem record_within_start (f : RangeFields) (first : ℤ) (last : Option ℤ) :
    (record f (within first last)).start = word first := by
  cases last <;> rfl

/-- What the parser checks of a range. -/
def Checked : ByteRange → Prop
  | suffix n => word n ≠ 0
  | within first none => 0 ≤ first
  | within first (some last) => 0 ≤ first ∧ word first ≤ word last

theorem Checked.first_nonneg {first : ℤ} {last : Option ℤ} (h : (within first last).Checked) :
    0 ≤ first := by
  cases last with
  | none => exact h
  | some last => exact h.1

end ByteRange

/-- **A line that the parser takes**: its range is recorded. -/
theorem parseByteRange_eq {value : Bytes} {req : HttpRequest}
    (h : (parseByteRange value req).1 = true) :
    ∃ range, byteRange value = some range ∧ range.Checked ∧
      (parseByteRange value req).2.range = range.record req.range := by
  unfold parseByteRange at h ⊢
  unfold byteRange
  by_cases hunit : (!startsWith value (ascii "bytes=")) = true
  · rw [if_pos hunit] at h
    exact nomatch h
  rw [if_neg hunit] at h ⊢
  rw [if_neg hunit]
  by_cases hcomma : 44 ∈ value.drop 6
  · rw [if_pos hcomma] at h
    exact nomatch h
  rw [if_neg hcomma] at h ⊢
  cases hsplit : splitFirst 45 (value.drop 6) with
  | none =>
      rw [hsplit] at h
      exact nomatch h
  | some parts =>
      obtain ⟨first, last⟩ := parts
      obtain ⟨hspec, hminus⟩ := splitFirst_eq_some_iff.mp hsplit
      rw [hsplit] at h
      dsimp only at h ⊢
      by_cases hsuffix : first = []
      · rw [if_pos hsuffix] at h ⊢
        rw [if_pos hsuffix]
        split_ifs at h ⊢ with hbad
        simp only [Bool.or_eq_true, not_or, Bool.not_eq_true', Bool.not_eq_false,
          decide_eq_true_iff, not_not] at hbad
        obtain ⟨n, hn, hvalue⟩ := writtenNumber_of_strtoull hbad.1.1 hbad.1.2
        refine ⟨.suffix n, by rw [hn]; rfl, ?_, ?_⟩
        · rw [ByteRange.Checked, ← hvalue]
          exact hbad.2
        · rw [hvalue]
          rfl
      · rw [if_neg hsuffix] at h ⊢
        rw [if_neg hsuffix]
        rw [hspec] at h ⊢
        by_cases hfirst : (strtoull (first ++ 45 :: last)).rest ≠ 45 :: last
        · rw [if_pos hfirst] at h
          exact nomatch h
        rw [if_neg hfirst] at h ⊢
        obtain ⟨n, hpos, hn, hvalue⟩ :=
          writtenNumber_of_strtoull_append hsuffix hminus (not_not.mp hfirst)
        by_cases hopen : last = []
        · rw [if_pos hopen]
          refine ⟨.within n none, by rw [hn, Option.bind_some, if_pos hopen], hpos, ?_⟩
          rw [hvalue]
          rfl
        · rw [if_neg hopen] at h ⊢
          split_ifs at h ⊢ with hbad
          simp only [Bool.or_eq_true, not_or, Bool.not_eq_true', Bool.not_eq_false,
            decide_eq_true_iff, not_not, not_lt] at hbad
          obtain ⟨m, hm, hstop⟩ := writtenNumber_of_strtoull hbad.1.1 hbad.1.2
          refine ⟨.within n (some m), ?_, ⟨hpos, ?_⟩, ?_⟩
          · rw [hn, Option.bind_some, hm, Option.map_some]
          · rw [← hvalue, ← hstop]
            exact hbad.2
          · rw [hvalue, hstop]
            rfl

/-! ### All lines of a request -/

/-- The values of the fields of this name, in order. -/
def fieldValues (name : Bytes) (lines : List Bytes) : List Bytes :=
  lines.filterMap fun line =>
    match splitFirst 58 line with
    | some (other, value) => if streqCi other name then some (trimBlanks value) else none
    | none => none

/-- The values of the Range lines of a request. -/
def rangeValues (buf : Bytes) : List Bytes :=
  match splitHead buf with
  | some (lines, _) => fieldValues (ascii "Range") lines.tail
  | none => []

/-- The branch on the header name, for the range. -/
theorem range_applyHeader {st st' : ParseState} {name value : Bytes}
    (h : applyHeader st name value = .ok st') :
    if streqCi name (ascii "Range") then
      ∃ range, byteRange value = some range ∧ range.Checked ∧
        st'.req.range = range.record st.req.range
    else st'.req.range = st.req.range := by
  by_cases hrange : streqCi name (ascii "Range") = true
  · have hother : ∀ b : Bytes, streqCi (ascii "Range") b = false → ¬ streqCi name b = true :=
      fun b hb => Bool.eq_false_iff.mp (streqCi_eq_false hrange hb)
    rw [if_pos hrange]
    unfold applyHeader at h
    rw [if_neg (hother _ (by decide)), if_neg (hother _ (by decide)),
      if_neg (hother _ (by decide)), if_neg (hother _ (by decide)), if_pos hrange] at h
    dsimp only at h
    split_ifs at h with hok
    obtain ⟨range, hread, hchecked, hrecord⟩ := parseByteRange_eq hok
    rw [← Except.ok.inj h]
    exact ⟨range, hread, hchecked, hrecord⟩
  · rw [if_neg hrange]
    cases headerEffect_of_apply h with
    | host => rfl
    | contentLength => rfl
    | transferEncoding => rfl
    | other notHost notLength notEncoding _ _ =>
        unfold applyHeader at h
        rw [notHost, notLength, notEncoding, Bool.eq_false_iff.mpr hrange] at h
        simp only [Bool.false_eq_true, if_false] at h
        split_ifs at h <;> rw [Except.ok.injEq] at h <;> subst h <;> rfl

/-- **The header loop**: the ranges of the lines are recorded one after the other. -/
theorem range_of_foldlM {ls : List Bytes} {st st' : ParseState} (hne : ∀ l ∈ ls, l ≠ [])
    (h : ls.foldlM parseHeaderLine st = .ok st') :
    ∃ ranges : List ByteRange, (fieldValues (ascii "Range") ls).map byteRange = ranges.map some ∧
      (∀ range ∈ ranges, range.Checked) ∧
      st'.req.range = ranges.foldl ByteRange.record st.req.range := by
  induction ls generalizing st with
  | nil => exact ⟨[], rfl, nofun, by rw [← Except.ok.inj h]; rfl⟩
  | cons l ls ih =>
      obtain ⟨mid, hl, hrest⟩ := exists_of_foldlM_cons h
      obtain ⟨ranges, hread, hchecked, hfold⟩ := ih (fun l' hl' => hne l' (.tail _ hl')) hrest
      obtain ⟨name, value, -, hsplit, -, happly⟩ :=
        applyHeader_of_line (hne l List.mem_cons_self) hl
      have hline := range_applyHeader happly
      unfold fieldValues
      rw [List.filterMap_cons, hsplit]
      dsimp only
      by_cases hrange : streqCi name (ascii "Range") = true
      · rw [if_pos hrange] at hline ⊢
        obtain ⟨range, hone, hcheck, hrecord⟩ := hline
        refine ⟨range :: ranges, ?_, ?_, ?_⟩
        · rw [List.map_cons, List.map_cons, hone]
          exact congrArg _ hread
        · exact List.forall_mem_cons.mpr ⟨hcheck, hchecked⟩
        · rw [hfold, hrecord]
          rfl
      · rw [if_neg hrange] at hline ⊢
        refine ⟨ranges, hread, hchecked, ?_⟩
        rw [hfold, hline]

/-- **The ranges of an accepted request**: every Range line has one, and they are all recorded. -/
theorem Parsed.range_eq {buf : Bytes} {req : HttpRequest} (p : Parsed buf req) :
    ∃ ranges : List ByteRange, (rangeValues buf).map byteRange = ranges.map some ∧
      (∀ range ∈ ranges, range.Checked) ∧ req.range = ranges.foldl ByteRange.record {} := by
  obtain ⟨ranges, hread, hchecked, hfold⟩ :=
    range_of_foldlM (fun _ hl => p.fieldLine_ne_nil hl) p.loop_eq
  refine ⟨ranges, ?_, hchecked, ?_⟩
  · rw [rangeValues, p.splitHead_eq]
    exact hread
  · obtain ⟨method, target, parts⟩ := parseRequestLine_eq_ok p.line_eq
    obtain ⟨path, -, hreq⟩ := parts.target_ok
    obtain ⟨-, -, -, hsame⟩ := finishRequest_eq_accepted p.finish_eq
    have hfirst : (requestLineRequest p.rl).range = {} := by
      unfold requestLineRequest
      rw [hreq]
      rfl
    rw [hsame]
    exact hfold.trans (by rw [hfirst])

/-! ### The fields behind the last line -/

/-- The last end that one of the lines names. -/
def lastEnd (ranges : List ByteRange) : Option ℤ := (ranges.filterMap ByteRange.stop).getLast?

/-- A line of last bytes is never forgotten. -/
theorem foldl_record_suffix (ranges : List ByteRange) (f : RangeFields) :
    (ranges.foldl ByteRange.record f).suffix = (f.suffix || ranges.any ByteRange.isSuffix) := by
  induction ranges generalizing f with
  | nil => exact (Bool.or_false _).symm
  | cons range ranges ih =>
      rw [List.foldl_cons, ih, List.any_cons, ← Bool.or_assoc]
      congr 1
      match range with
      | .suffix n => exact (Bool.or_true _).symm
      | .within first none => exact (Bool.or_false _).symm
      | .within first (some last) => exact (Bool.or_false _).symm

/-- Neither is an end. -/
theorem foldl_record_end (ranges : List ByteRange) :
    (ranges.foldl ByteRange.record {}).hasEnd = (lastEnd ranges).isSome ∧
      ∀ e ∈ lastEnd ranges, (ranges.foldl ByteRange.record {}).stop = word e := by
  induction ranges using List.reverseRecOn with
  | nil => exact ⟨rfl, nofun⟩
  | append_singleton ranges range ih =>
      unfold lastEnd at ih ⊢
      rw [List.foldl_append, List.filterMap_append]
      match range with
      | .suffix n => simpa [ByteRange.record, ByteRange.stop] using ih
      | .within first none => simpa [ByteRange.record, ByteRange.stop] using ih
      | .within first (some last) => simp [ByteRange.record, ByteRange.stop]

end Rpsiod

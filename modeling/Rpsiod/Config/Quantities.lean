import Rpsiod.Config.Numbers
import Rpsiod.Http.RangeGrammar

/-!
# Sizes and durations (`rpsiod_parse_size`, `rpsiod_parse_duration_sec`)

A quantity is a number with a unit.  What a configuration should make of it is the number of units,
or what was configured before if that does not fit.  The size is multiplied in 64 bits, without a
look at the product, and the range of a duration is checked before its unit is known.

* `parseSize_text`, `parseDurationSec_text`: what the two functions make of a quantity.
* `quantities_exact_iff`: **a size is read exactly if it fits 64 bits, a duration exactly if its
  number is at most 24855 or the duration does not fit**.
-/

namespace Rpsiod

/-! ### Numbers with a unit -/

/-- The units of a size. -/
def sizeUnits : List (Bytes × ℕ) :=
  [(ascii "", 1), (ascii "k", 2 ^ 10), (ascii "kb", 2 ^ 10), (ascii "m", 2 ^ 20),
    (ascii "mb", 2 ^ 20), (ascii "g", 2 ^ 30), (ascii "gb", 2 ^ 30)]

/-- The units of a duration, in seconds. -/
def durationUnits : List (Bytes × ℕ) :=
  [(ascii "", 1), (ascii "s", 1), (ascii "m", 60), (ascii "h", 3600), (ascii "d", 86400)]

/-- Digits, white space and one of the units, in any letter case. -/
structure Quantity (units : List (Bytes × ℕ)) where
  digits : Bytes
  blanks : Bytes
  unit : Bytes
  /-- What one of the unit is. -/
  factor : ℕ
  digits_ok : IsNumber digits
  blanks_ok : ∀ c ∈ blanks, isspace c = true
  unit_ok : ∃ word, (word, factor) ∈ units ∧ streqCi unit word = true

namespace Quantity

variable {units : List (Bytes × ℕ)}

def text (q : Quantity units) : Bytes := q.digits ++ (q.blanks ++ q.unit)

/-- What is written. -/
def amount (q : Quantity units) : ℕ := number q.digits * q.factor

/-- What is written, if it is below the bound, and the fallback otherwise. -/
def exactOr (q : Quantity units) (bound fallback : ℕ) : ℕ :=
  if q.amount < bound then q.amount else fallback

end Quantity

/-- A size is exact or rejected. -/
def SizeExact (q : Quantity sizeUnits) : Prop :=
  ∀ fallback < 2 ^ 64, parseSize q.text fallback = q.exactOr (2 ^ 64) fallback

/-- A duration is exact or rejected. -/
def DurationExact (q : Quantity durationUnits) : Prop :=
  ∀ fallback : ℤ, -2 ^ 31 ≤ fallback → fallback < 2 ^ 31 →
    parseDurationSec q.text fallback = if q.amount < 2 ^ 31 then (q.amount : ℤ) else fallback

/-! ### Reading a quantity -/

/-- A letter of a unit is no white space and no digit. -/
theorem unit_letter {c : UInt8} (h : 97 ≤ tolower c) : isspace c = false ∧ isdigit c = false := by
  have hall : ∀ n < 256, 97 ≤ tolower (UInt8.ofNat n) →
      isspace (UInt8.ofNat n) = false ∧ isdigit (UInt8.ofNat n) = false := by
    decide +kernel
  have := hall c.toNat c.toNat_lt
  rw [UInt8.ofNat_toNat] at this
  exact this h

theorem streqCi_congr {a b : Bytes} (h : streqCi a b = true) (c : Bytes) :
    streqCi a c = streqCi b c := by
  rw [Bool.eq_iff_iff, streqCi_iff, streqCi_iff, streqCi_iff.mp h]

namespace Quantity

variable {units : List (Bytes × ℕ)} {q : Quantity units}

/-- The words of the units are lower-case letters. -/
def Lettered (units : List (Bytes × ℕ)) : Prop := ∀ u ∈ units, ∀ c ∈ u.1, 97 ≤ c

instance : Decidable (Lettered units) :=
  have : ∀ u : Bytes × ℕ, Decidable (∀ c ∈ u.1, 97 ≤ c) := fun u => List.decidableBAll _ u.1
  inferInstanceAs (Decidable (∀ u ∈ units, ∀ c ∈ u.1, _))

theorem letter_of_mem_unit (hunits : Lettered units) {c : UInt8} (hc : c ∈ q.unit) :
    isspace c = false ∧ isdigit c = false := by
  obtain ⟨word, hword, hsame⟩ := q.unit_ok
  apply unit_letter
  have hmem : tolower c ∈ word.map tolower := streqCi_iff.mp hsame ▸ List.mem_map_of_mem hc
  obtain ⟨d, hd, heq⟩ := List.mem_map.mp hmem
  have hlower : ∀ n < 256, 97 ≤ UInt8.ofNat n → 97 ≤ tolower (UInt8.ofNat n) := by decide +kernel
  have := hlower d.toNat d.toNat_lt
  rw [UInt8.ofNat_toNat] at this
  rw [← heq]
  exact this (hunits _ hword d hd)

/-- The blanks are skipped. -/
theorem dropWhile_behind (hunits : Lettered units) :
    (q.blanks ++ q.unit).dropWhile isspace = q.unit := by
  rw [List.dropWhile_append_of_pos q.blanks_ok]
  cases hunit : q.unit with
  | nil => rfl
  | cons c rest =>
      have hc : c ∈ q.unit := hunit ▸ List.mem_cons_self
      rw [List.dropWhile_cons_of_neg]
      rw [(letter_of_mem_unit hunits hc).1]
      exact Bool.false_ne_true

/-- The digits end in front of blanks and unit. -/
theorem readDecimal_text (hunits : Lettered units) :
    readDecimal 0 q.text = (number q.digits, q.blanks ++ q.unit) := by
  unfold text number
  cases hbehind : q.blanks ++ q.unit with
  | nil => rw [List.append_nil, ← rest_readDecimal_digits q.digits_ok.2 0]
  | cons c rest =>
      have hc : isdigit c = false := by
        have hmem : c ∈ q.blanks ++ q.unit := hbehind ▸ List.mem_cons_self
        rcases List.mem_append.mp hmem with hblank | hunit
        · cases hdigit : isdigit c with
          | false => rfl
          | true =>
              have := (isdigit_not_sign hdigit).1
              rw [q.blanks_ok c hblank] at this
              exact absurd this.symm Bool.false_ne_true
        · exact (letter_of_mem_unit hunits hunit).2
      rw [readDecimal_append hc, rest_readDecimal_digits q.digits_ok.2, List.nil_append]

theorem exists_cons (q : Quantity units) : ∃ c rest, q.text = c :: rest ∧ isdigit c = true := by
  obtain ⟨c, rest, hcons⟩ := List.exists_cons_of_ne_nil q.digits_ok.1
  refine ⟨c, rest ++ (q.blanks ++ q.unit), ?_, q.digits_ok.2 c (hcons ▸ List.mem_cons_self)⟩
  rw [text, hcons, List.cons_append]

theorem text_ne_nil (q : Quantity units) : q.text ≠ [] := by
  obtain ⟨c, rest, hcons, -⟩ := q.exists_cons
  exact hcons ▸ List.cons_ne_nil c rest

/-- Neither white space nor a sign stands in front. -/
theorem signAndDigits_text (q : Quantity units) : signAndDigits q.text = (false, q.text) := by
  obtain ⟨c, rest, hcons, hc⟩ := q.exists_cons
  obtain ⟨hspace, hminus, hplus⟩ := isdigit_not_sign hc
  unfold signAndDigits
  rw [hcons, List.dropWhile_cons_of_neg (by rw [hspace]; exact Bool.false_ne_true)]
  simp [hminus, hplus]

theorem head_text (q : Quantity units) : q.text.head?.any isdigit = true := by
  obtain ⟨c, rest, hcons, hc⟩ := q.exists_cons
  rw [hcons, List.head?_cons, Option.any_some, hc]

theorem length_behind_lt (q : Quantity units) : (q.blanks ++ q.unit).length ≠ q.text.length := by
  have := List.length_pos_of_ne_nil q.digits_ok.1
  have hlength : q.text.length = q.digits.length + (q.blanks ++ q.unit).length :=
    List.length_append
  omega

/-- `strtoull` stops at the largest number. -/
theorem strtoull_text (hunits : Lettered units) :
    strtoull q.text =
      ⟨min (number q.digits) (2 ^ 64 - 1), q.blanks ++ q.unit,
        decide (2 ^ 64 ≤ number q.digits)⟩ := by
  rw [strtoull_eq, signAndDigits_text, if_pos q.head_text, readDecimal_text hunits]
  by_cases hsmall : number q.digits < 2 ^ 64
  · rw [word_signed hsmall, if_neg Bool.false_ne_true, min_eq_left (by omega)]
  · rw [word_signed_of_le (not_lt.mp hsmall), min_eq_right (by omega)]

/-- So does `strtol`. -/
theorem strtolEnd_text (hunits : Lettered units) :
    (strtolEnd q.text).value = min (2 ^ 63 - 1) (number q.digits : ℤ) ∧
      (strtolEnd q.text).rest = q.blanks ++ q.unit := by
  have hsign := q.signAndDigits_text
  rw [signAndDigits, Prod.mk.injEq] at hsign
  have hminus : ¬ (q.text.dropWhile isspace).head? = some 45 := of_decide_eq_false hsign.1
  unfold strtolEnd
  dsimp only
  rw [hsign.2, if_pos q.head_text, readDecimal_text hunits]
  dsimp only
  rw [if_neg hminus]
  refine ⟨?_, rfl⟩
  omega

end Quantity

/-! ### The units -/

theorem lettered_sizeUnits : Quantity.Lettered sizeUnits := by decide

theorem lettered_durationUnits : Quantity.Lettered durationUnits := by decide

theorem sizeMultiplier_unit (q : Quantity sizeUnits) : sizeMultiplier q.unit = q.factor := by
  obtain ⟨word, hword, hsame⟩ := q.unit_ok
  have hall : ∀ u ∈ sizeUnits, sizeMultiplier u.1 = u.2 := by decide
  rw [← show sizeMultiplier word = q.factor from hall _ hword]
  unfold sizeMultiplier
  simp only [streqCi_congr hsame]

/-- The seconds that the chain of comparisons makes of a number. -/
def durationSeconds (value : ℤ) (unit : Bytes) : ℤ :=
  if streqCi unit (ascii "ms") then if 0 < value then 1 else 0
  else if streqCi unit (ascii "m") then value * 60
  else if streqCi unit (ascii "h") then value * 3600
  else if streqCi unit (ascii "d") then value * 86400
  else value

theorem durationSeconds_unit (q : Quantity durationUnits) (value : ℤ) :
    durationSeconds value q.unit = value * q.factor := by
  obtain ⟨word, hword, hsame⟩ := q.unit_ok
  have hcongr : durationSeconds value q.unit = durationSeconds value word := by
    unfold durationSeconds
    simp only [streqCi_congr hsame]
  rw [hcongr]
  simp only [durationUnits, List.mem_cons, Prod.mk.injEq, List.not_mem_nil, or_false] at hword
  rcases hword with ⟨rfl, h⟩ | ⟨rfl, h⟩ | ⟨rfl, h⟩ | ⟨rfl, h⟩ | ⟨rfl, h⟩ <;> rw [h] <;>
    unfold durationSeconds
  · rw [if_neg (by decide), if_neg (by decide), if_neg (by decide), if_neg (by decide)]
    exact (mul_one value).symm
  · rw [if_neg (by decide), if_neg (by decide), if_neg (by decide), if_neg (by decide)]
    exact (mul_one value).symm
  · rw [if_neg (by decide), if_pos (by decide)]
    rfl
  · rw [if_neg (by decide), if_neg (by decide), if_pos (by decide)]
    rfl
  · rw [if_neg (by decide), if_neg (by decide), if_neg (by decide), if_pos (by decide)]
    rfl

theorem factor_pos_le (q : Quantity durationUnits) : 1 ≤ q.factor ∧ q.factor ≤ 86400 := by
  obtain ⟨word, hword, -⟩ := q.unit_ok
  have hall : ∀ u ∈ durationUnits, 1 ≤ u.2 ∧ u.2 ≤ 86400 := by decide
  exact hall _ hword

/-- The product of a size wraps around. -/
theorem parseSize_text (q : Quantity sizeUnits) (fallback : ℕ) :
    parseSize q.text fallback = min (number q.digits) (2 ^ 64 - 1) * q.factor % 2 ^ 64 := by
  unfold parseSize
  rw [if_neg q.text_ne_nil, Quantity.strtoull_text lettered_sizeUnits]
  dsimp only
  rw [Quantity.dropWhile_behind lettered_sizeUnits, sizeMultiplier_unit, if_neg]
  unfold Strtoull.converted
  simpa using q.length_behind_lt

/-- A duration of more than 24855 of anything is rejected. -/
theorem parseDurationSec_text (q : Quantity durationUnits) (fallback : ℤ) :
    parseDurationSec q.text fallback =
      if number q.digits ≤ 24855 then (q.amount : ℤ) else fallback := by
  obtain ⟨hvalue, hrest⟩ := Quantity.strtolEnd_text (q := q) lettered_durationUnits
  have hconverted : (strtolEnd q.text).converted q.text = true := by
    unfold Strtol.converted
    rw [hrest, bne_iff_ne]
    exact q.length_behind_lt
  unfold parseDurationSec
  dsimp only
  rw [if_neg q.text_ne_nil, hconverted, hvalue, hrest,
    Quantity.dropWhile_behind lettered_durationUnits]
  by_cases hsmall : number q.digits ≤ 24855
  · have hmin : min (2 ^ 63 - 1) (number q.digits : ℤ) = number q.digits := by omega
    rw [if_pos hsmall, hmin, if_neg]
    · change durationSeconds _ _ = _
      rw [durationSeconds_unit, Quantity.amount, Nat.cast_mul]
    · simp only [Bool.not_true, Bool.false_or, Bool.or_eq_true, decide_eq_true_eq]
      omega
  · rw [if_neg hsmall, if_pos]
    simp only [Bool.not_true, Bool.or_eq_true, decide_eq_true_eq]
    omega

/-! ### Exact or rejected -/

theorem sizeExact_iff (q : Quantity sizeUnits) : SizeExact q ↔ q.amount < 2 ^ 64 := by
  unfold SizeExact Quantity.exactOr
  simp only [parseSize_text]
  constructor
  · intro h
    by_contra hlarge
    -- the wrapped product does not depend on the fallback
    have hzero := h 0 (by decide)
    have hone := h 1 (by decide)
    rw [if_neg hlarge] at hzero hone
    rw [hzero] at hone
    exact absurd hone (by decide)
  · intro hfits fallback _
    have hfactor : 1 ≤ q.factor := by
      obtain ⟨word, hword, -⟩ := q.unit_ok
      have hall : ∀ u ∈ sizeUnits, 1 ≤ u.2 := by decide
      exact hall _ hword
    have hnumber : number q.digits < 2 ^ 64 :=
      lt_of_le_of_lt (Nat.le_mul_of_pos_right _ hfactor) hfits
    rw [if_pos hfits, min_eq_left (by omega)]
    exact Nat.mod_eq_of_lt hfits

theorem durationExact_iff (q : Quantity durationUnits) :
    DurationExact q ↔ number q.digits ≤ 24855 ∨ 2 ^ 31 ≤ q.amount := by
  obtain ⟨hpos, hle⟩ := factor_pos_le q
  unfold DurationExact
  simp only [parseDurationSec_text]
  by_cases hsmall : number q.digits ≤ 24855
  · have hfits : q.amount < 2 ^ 31 := by
      have : q.amount ≤ 24855 * 86400 := Nat.mul_le_mul hsmall hle
      omega
    refine iff_of_true (fun fallback _ _ => ?_) (Or.inl hsmall)
    rw [if_pos hsmall, if_pos hfits]
  · have hamount : number q.digits ≤ q.amount := Nat.le_mul_of_pos_right _ hpos
    by_cases hfits : q.amount < 2 ^ 31
    · refine iff_of_false (fun h => ?_) (by omega)
      have hzero := h 0 (by decide) (by decide)
      rw [if_neg hsmall, if_pos hfits] at hzero
      omega
    · refine iff_of_true (fun fallback _ _ => ?_) (by omega)
      rw [if_neg hsmall, if_neg hfits]

/-- **A size is exact or rejected precisely if it fits 64 bits, and a duration precisely if its
number is at most 24855 or it does not fit an `int`; the sizes that fit, and the durations with such
a number, are in the order of their numbers.** -/
theorem quantities_exact_iff (p q : Quantity sizeUnits) (d e : Quantity durationUnits)
    (size : ℕ) (seconds : ℤ) :
    (SizeExact q ↔ q.amount < 2 ^ 64) ∧
    (DurationExact e ↔ number e.digits ≤ 24855 ∨ 2 ^ 31 ≤ e.amount) ∧
    (p.factor = q.factor → number p.digits ≤ number q.digits → q.amount < 2 ^ 64 →
      parseSize p.text size ≤ parseSize q.text size) ∧
    (d.factor = e.factor → number d.digits ≤ number e.digits → number e.digits ≤ 24855 →
      parseDurationSec d.text seconds ≤ parseDurationSec e.text seconds) := by
  refine ⟨sizeExact_iff q, durationExact_iff e, ?_, ?_⟩
  · intro hfactor hnumber hfits
    have hle : p.amount ≤ q.amount := Nat.mul_le_mul hnumber hfactor.le
    rw [parseSize_text, parseSize_text, hfactor]
    have hexact : ∀ n : ℕ, n * q.factor < 2 ^ 64 →
        min n (2 ^ 64 - 1) * q.factor % 2 ^ 64 = n * q.factor := by
      intro n hn
      have hcap : min n (2 ^ 64 - 1) * q.factor ≤ n * q.factor :=
        Nat.mul_le_mul (min_le_left _ _) le_rfl
      rw [Nat.mod_eq_of_lt (lt_of_le_of_lt hcap hn)]
      rcases Nat.eq_zero_or_pos q.factor with hzero | hpos
      · rw [hzero, mul_zero, mul_zero]
      · have := lt_of_le_of_lt (Nat.le_mul_of_pos_right n hpos) hn
        rw [min_eq_left (by omega)]
    rw [hexact _ hfits, hexact _ (lt_of_le_of_lt (Nat.mul_le_mul hnumber le_rfl) hfits)]
    exact Nat.mul_le_mul hnumber le_rfl
  · intro hfactor hnumber hsmall
    rw [parseDurationSec_text, parseDurationSec_text, if_pos hsmall, if_pos (hnumber.trans hsmall)]
    exact_mod_cast Nat.mul_le_mul hnumber hfactor.le

/-- `17179869185g`: the product is 2 ^ 64 + 2 ^ 30. -/
def wrappedSize : Quantity sizeUnits where
  digits := ascii "17179869185"
  blanks := []
  unit := ascii "g"
  factor := 2 ^ 30
  digits_ok := by decide +kernel
  blanks_ok := by decide +kernel
  unit_ok := ⟨ascii "g", by decide⟩

/-- `10 M`. -/
def tenMegabytes : Quantity sizeUnits where
  digits := ascii "10"
  blanks := ascii " "
  unit := ascii "M"
  factor := 2 ^ 20
  digits_ok := by decide +kernel
  blanks_ok := by decide +kernel
  unit_ok := ⟨ascii "m", by decide⟩

/-- `30000s`, which is less than nine hours. -/
def nineHours : Quantity durationUnits where
  digits := ascii "30000"
  blanks := []
  unit := ascii "s"
  factor := 1
  digits_ok := by decide +kernel
  blanks_ok := by decide +kernel
  unit_ok := ⟨ascii "s", by decide⟩

/-- **A size that does not fit becomes a smaller one, and a duration of nine hours is rejected.** -/
theorem quantities_inexact :
    parseSize wrappedSize.text 1000 = 2 ^ 30 ∧ 2 ^ 64 ≤ wrappedSize.amount ∧
      ¬ SizeExact wrappedSize ∧
      parseDurationSec nineHours.text 60 = 60 ∧ nineHours.amount = 30000 ∧
      ¬ DurationExact nineHours := by
  refine ⟨by decide, by decide, fun h => ?_, by decide, by decide, fun h => ?_⟩
  · exact absurd (h 1000 (by decide)) (by decide)
  · exact absurd (h 60 (by decide) (by decide)) (by decide)

def twentyMegabytes : Quantity sizeUnits :=
  { tenMegabytes with digits := ascii "20", digits_ok := by decide +kernel }

def twoSeconds : Quantity durationUnits :=
  { nineHours with digits := ascii "2", digits_ok := by decide +kernel }

def nineSeconds : Quantity durationUnits :=
  { nineHours with digits := ascii "9", digits_ok := by decide +kernel }

theorem quantities_exact_tenMegabytes :
    SizeExact tenMegabytes ∧ parseSize tenMegabytes.text 1000 = 10485760 ∧
      parseSize tenMegabytes.text 1000 ≤ parseSize twentyMegabytes.text 1000 ∧
      parseDurationSec twoSeconds.text 9 ≤ parseDurationSec nineSeconds.text 9 := by
  obtain ⟨-, -, hsizes, hdurations⟩ :=
    quantities_exact_iff tenMegabytes twentyMegabytes twoSeconds nineSeconds 1000 9
  obtain ⟨hsize, -⟩ := quantities_exact_iff tenMegabytes tenMegabytes twoSeconds nineSeconds 1000 9
  refine ⟨hsize.mpr (by decide), by decide, ?_, ?_⟩
  · exact hsizes rfl (by decide) (by decide)
  · exact hdurations rfl (by decide) (by decide)

end Rpsiod

import Rpsiod.Http.Request
import Rpsiod.Lib.Strip

/-!
# Trimming (`rpsiod_trim`)

One trimmer serves the lines of a configuration file and the header fields of a backend: it takes
white space off both ends, and then one pair of quotes.

* `Plain`: a text that it leaves as it is.
* `trim_eq_of_length`, `trim_of_plain`: when it takes off white space only.
* `trim_eq_iff`: **what it leaves of a text without control bytes** is that text without blanks around
  it, exactly if no pair of quotes stands around it.
* `streqCi_trim`: upper or lower case does not matter to it.
-/

namespace Rpsiod

open ListStrip

/-- A text that `rpsiod_trim` leaves as it is. -/
structure Plain (text : Bytes) : Prop where
  first : ∀ c ∈ text.head?, isspace c = false
  last : ∀ c ∈ text.getLast?, isspace c = false
  unquoted : isQuoted 34 text = false ∧ isQuoted 39 text = false

theorem trimBlanks_eq_strip (text : Bytes) : trimBlanks text = strip isBlank text := rfl

theorem isspace_of_isBlank (c : UInt8) (h : isBlank c = true) : isspace c = true := by
  unfold isBlank at h
  rw [Bool.or_eq_true, beq_iff_eq, beq_iff_eq] at h
  rcases h with rfl | rfl
  · rfl
  · rfl

/-- Trimming is stripping, and then taking off one pair of quotes. -/
theorem trim_eq (text : Bytes) :
    trim text =
      if isQuoted 34 (strip isspace text) || isQuoted 39 (strip isspace text) then
        (strip isspace text).tail.dropLast
      else strip isspace text := rfl

theorem length_trim_le (text : Bytes) : (trim text).length ≤ (strip isspace text).length := by
  rw [trim_eq]
  split_ifs
  · rw [List.length_dropLast, List.length_tail]
    omega
  · exact le_rfl

theorem two_le_of_isQuoted {quote : UInt8} {text : Bytes} (h : isQuoted quote text = true) :
    2 ≤ text.length := by
  unfold isQuoted at h
  rw [Bool.and_eq_true, Bool.and_eq_true, decide_eq_true_iff] at h
  exact h.1.1

/-- A text that trimming makes no shorter is not changed by it. -/
theorem trim_eq_of_length {text t : Bytes} (hstrip : strip isspace text = strip isspace t)
    (h : t.length ≤ (trim text).length) : trim text = t ∧ Plain t := by
  have htrim := length_trim_le text
  have hle := length_strip_le isspace t
  rw [hstrip] at htrim
  have hself : strip isspace t = t := strip_eq_self_of_length (by omega)
  have hquotes : ¬(isQuoted 34 t || isQuoted 39 t) = true := by
    intro hquoted
    have htwo : 2 ≤ t.length := by
      rcases Bool.or_eq_true_iff.mp hquoted with hq | hq
      · exact two_le_of_isQuoted hq
      · exact two_le_of_isQuoted hq
    rw [trim_eq, hstrip, hself, if_pos hquoted, List.length_dropLast, List.length_tail] at h
    omega
  refine ⟨by rw [trim_eq, hstrip, hself, if_neg hquotes], ?_, ?_, ?_⟩
  · exact (strip_eq_self_iff.mp hself).1
  · exact (strip_eq_self_iff.mp hself).2
  · simpa using hquotes

theorem trim_of_plain {text t : Bytes} (hstrip : strip isspace text = strip isspace t)
    (h : Plain t) : trim text = t := by
  have hself : strip isspace t = t := strip_eq_self_iff.mpr ⟨h.first, h.last⟩
  rw [trim_eq, hstrip, hself, if_neg]
  rw [h.unquoted.1, h.unquoted.2]
  exact Bool.false_ne_true

/-- No white space but blanks is a byte of a header value. -/
theorem isBlank_of_isspace {c : UInt8} (hspace : isspace c = true) (h : isControl c = false) :
    isBlank c = true := by
  have hall : ∀ n < 256, isspace (UInt8.ofNat n) = true → isControl (UInt8.ofNat n) = false →
      isBlank (UInt8.ofNat n) = true := by decide +kernel
  have hc := hall c.toNat c.toNat_lt
  rw [UInt8.ofNat_toNat] at hc
  exact hc hspace h

/-- Without control bytes only blanks are white space. -/
theorem strip_isspace_eq {text : Bytes} (h : validHeaderValue text = true) :
    strip isspace text = trimBlanks text := by
  have hself : strip isBlank (trimBlanks text) = trimBlanks text := strip_idempotent isBlank text
  obtain ⟨hfirst, hlast⟩ := strip_eq_self_iff.mp hself
  have hkeep : ∀ c ∈ trimBlanks text, isBlank c = false → isspace c = false := by
    intro c hc hblank
    by_contra hspace
    rw [Bool.not_eq_false] at hspace
    have hcontrol : isControl c = false := by
      have hvalid := List.all_eq_true.mp h c (mem_of_mem_strip hc)
      rwa [Bool.not_eq_true'] at hvalid
    rw [isBlank_of_isspace hspace hcontrol] at hblank
    exact Bool.noConfusion hblank
  rw [← strip_strip isspace_of_isBlank, ← trimBlanks_eq_strip]
  refine strip_eq_self_iff.mpr ⟨fun c hc => ?_, fun c hc => ?_⟩
  · exact hkeep c (List.mem_of_head? hc) (hfirst c hc)
  · exact hkeep c (List.mem_of_getLast? hc) (hlast c hc)

/-- A pair of quotes around a text. -/
def isWrapped (text : Bytes) : Bool := isQuoted 34 text || isQuoted 39 text

/-- **A text without control bytes** loses the blanks around it only, exactly if it is in no quotes. -/
theorem trim_eq_iff {text : Bytes} (h : validHeaderValue text = true) :
    trim text = trimBlanks text ↔ isWrapped (trimBlanks text) = false := by
  rw [trim_eq, strip_isspace_eq h]
  unfold isWrapped
  constructor
  · intro heq
    by_contra hquoted
    rw [Bool.not_eq_false] at hquoted
    rw [if_pos hquoted] at heq
    have htwo : 2 ≤ (trimBlanks text).length := by
      rcases Bool.or_eq_true_iff.mp hquoted with hq | hq
      · exact two_le_of_isQuoted hq
      · exact two_le_of_isQuoted hq
    have hlength := congrArg List.length heq
    rw [List.length_dropLast, List.length_tail] at hlength
    omega
  · intro hquoted
    rw [hquoted, if_neg Bool.false_ne_true]

/-! ### Upper and lower case -/

theorem isspace_tolower (c : UInt8) : isspace (tolower c) = isspace c := by
  have hall : ∀ n < 256, isspace (tolower (UInt8.ofNat n)) = isspace (UInt8.ofNat n) := by
    decide +kernel
  have := hall c.toNat c.toNat_lt
  rwa [UInt8.ofNat_toNat] at this

theorem tolower_eq_iff {c quote : UInt8} (h : quote = 34 ∨ quote = 39) :
    tolower c = quote ↔ c = quote := by
  have hall : ∀ n < 256, ∀ q ∈ [(34 : UInt8), 39],
      (tolower (UInt8.ofNat n) = q ↔ UInt8.ofNat n = q) := by decide +kernel
  have := hall c.toNat c.toNat_lt quote (by simpa using h)
  rwa [UInt8.ofNat_toNat] at this

theorem isQuoted_map_tolower {quote : UInt8} (h : quote = 34 ∨ quote = 39) (text : Bytes) :
    isQuoted quote (text.map tolower) = isQuoted quote text := by
  have hone : ∀ o : Option UInt8, o.map tolower = some quote ↔ o = some quote := by
    intro o
    cases o with
    | none => simp
    | some c =>
        rw [Option.map_some, Option.some.injEq, Option.some.injEq]
        exact tolower_eq_iff h
  unfold isQuoted
  rw [List.length_map, List.head?_map, List.getLast?_map, decide_eq_decide.mpr (hone text.head?),
    decide_eq_decide.mpr (hone text.getLast?)]

/-- Upper or lower case does not matter for that. -/
theorem plain_of_streqCi {a b : Bytes} (h : streqCi a b = true) (hb : Plain b) : Plain a := by
  have hmap := streqCi_iff.mp h
  have hend : ∀ {o o' : Option UInt8}, o.map tolower = o'.map tolower →
      (∀ c ∈ o', isspace c = false) → ∀ c ∈ o, isspace c = false := by
    intro o o' ho ho' c hc
    rw [Option.mem_def.mp hc, Option.map_some] at ho
    obtain ⟨d, hd, heq⟩ := Option.map_eq_some_iff.mp ho.symm
    rw [← isspace_tolower, ← heq, isspace_tolower]
    exact ho' d hd
  refine ⟨?_, ?_, ?_, ?_⟩
  · apply hend _ hb.first
    rw [← List.head?_map, ← List.head?_map, hmap]
  · apply hend _ hb.last
    rw [← List.getLast?_map, ← List.getLast?_map, hmap]
  · rw [← isQuoted_map_tolower (Or.inl rfl), hmap, isQuoted_map_tolower (Or.inl rfl)]
    exact hb.unquoted.1
  · rw [← isQuoted_map_tolower (Or.inr rfl), hmap, isQuoted_map_tolower (Or.inr rfl)]
    exact hb.unquoted.2

theorem strip_map_tolower (text : Bytes) :
    strip isspace (text.map tolower) = (strip isspace text).map tolower := by
  have hsame : isspace ∘ tolower = isspace := funext isspace_tolower
  unfold strip List.rdropWhile
  rw [List.dropWhile_map, hsame, ← List.map_reverse, List.dropWhile_map, hsame, ← List.map_reverse]

/-- Upper or lower case does not matter to the trimmer. -/
theorem streqCi_trim {a b : Bytes} (h : streqCi a b = true) :
    streqCi (trim a) (trim b) = true := by
  have hmap : ∀ text : Bytes, (trim text).map tolower = trim (text.map tolower) := by
    intro text
    rw [trim_eq, trim_eq, strip_map_tolower, isQuoted_map_tolower (Or.inl rfl),
      isQuoted_map_tolower (Or.inr rfl)]
    split_ifs
    · rw [List.map_dropLast, List.map_tail]
    · rfl
  rw [streqCi_iff, hmap, hmap, streqCi_iff.mp h]

end Rpsiod

import Rpsiod.Lib.PercentEncoding
import Rpsiod.Server.Paths

/-!
# The decoding of a path (`rpsiod_percent_decode_path`)

* `FitPath`: the decoding of a path, if it is fit to be a path and fits the buffer.
* `percentDecodePath_iff`: when a path is decoded, and what the output is.
-/

namespace Rpsiod

open PercentEncoding Digits

/-- A byte that may stand in a decoded path. -/
def PathByte (c : UInt8) : Prop := c ≠ 0 ∧ c ≠ 92 ∧ 32 ≤ c

/-- The part of a path before the first question mark. -/
def beforeQuery (path : Bytes) : Bytes := path.takeWhile (· ≠ 63)

theorem hexval_eq (c : UInt8) :
    hexval c = if isHexDigit c then some (UInt8.ofNat (byteDigit c)) else none := by
  have hall : ∀ n < 256, hexval (UInt8.ofNat n) =
      if isHexDigit (UInt8.ofNat n) then some (UInt8.ofNat (byteDigit (UInt8.ofNat n)))
      else none := by
    decide +kernel
  have h := hall c.toNat c.toNat_lt
  rwa [UInt8.ofNat_toNat] at h

theorem pushDecoded_iff {outLen oi : ℕ} {ch : UInt8} {rest : Option Bytes} {out : Bytes} :
    pushDecoded outLen oi ch rest = some out ↔
      PathByte ch ∧ oi + 1 < outLen ∧ ∃ tail, rest = some tail ∧ out = ch :: tail := by
  unfold pushDecoded PathByte
  split_ifs with hch hfull
  · constructor
    · intro h
      cases h
    · rintro ⟨⟨h0, h92, h32⟩, -⟩
      simp only [Bool.or_eq_true, decide_eq_true_iff] at hch
      rcases hch with (h | h) | h
      · exact absurd h h0
      · exact absurd h h92
      · exact absurd h (UInt8.not_lt.mpr h32)
  · constructor
    · intro h
      cases h
    · rintro ⟨-, hlt, -⟩
      omega
  · simp only [Bool.or_eq_true, decide_eq_true_iff, not_or] at hch
    rw [Option.map_eq_some_iff]
    constructor
    · rintro ⟨tail, htail, rfl⟩
      exact ⟨⟨hch.1.1, hch.1.2, UInt8.not_lt.mp hch.2⟩, by omega, tail, htail, rfl⟩
    · rintro ⟨-, -, tail, htail, rfl⟩
      exact ⟨tail, htail, rfl⟩

/-- What the loop puts into the rest of the buffer. -/
def Fills (outLen oi : ℕ) (out : Bytes) : Prop :=
  (∀ c ∈ out, PathByte c) ∧ (out = [] ∨ oi + out.length < outLen)

theorem fills_cons_iff {outLen oi : ℕ} {c : UInt8} {out : Bytes} :
    Fills outLen oi (c :: out) ↔ PathByte c ∧ oi + 1 < outLen ∧ Fills outLen (oi + 1) out := by
  unfold Fills
  rw [List.forall_mem_cons, List.length_cons]
  constructor
  · rintro ⟨⟨hc, hout⟩, h | h⟩
    · cases h
    · exact ⟨hc, by omega, hout, Or.inr (by omega)⟩
  · rintro ⟨hc, hlt, hout, rfl | h⟩
    · exact ⟨⟨hc, hout⟩, Or.inr hlt⟩
    · exact ⟨⟨hc, hout⟩, Or.inr (by omega)⟩

theorem beforeQuery_cons (c : UInt8) (path : Bytes) :
    beforeQuery (c :: path) = if c = 63 then [] else c :: beforeQuery path := by
  unfold beforeQuery
  rw [List.takeWhile_cons]
  by_cases hc : c = 63
  · rw [if_pos hc, if_neg (by simpa using hc)]
  · rw [if_neg hc, if_pos (by simpa using hc)]

theorem hexval_eq_some_iff {c v : UInt8} :
    hexval c = some v ↔ isHexDigit c = true ∧ v = UInt8.ofNat (byteDigit c) := by
  rw [hexval_eq]
  split_ifs with hc
  · rw [Option.some.injEq, eq_comm]
    exact ⟨fun h => ⟨hc, h⟩, fun h => h.2⟩
  · constructor
    · intro h
      cases h
    · rintro ⟨h, -⟩
      exact absurd h hc

theorem ne_question_of_isHexDigit {c : UInt8} (h : isHexDigit c = true) : c ≠ 63 := by
  rintro rfl
  exact absurd h (by decide)

theorem escaped_eq (hi lo : UInt8) :
    UInt8.ofNat (byteDigit hi) * 16 + UInt8.ofNat (byteDigit lo) = escaped hi lo := by
  unfold escaped
  rw [UInt8.ofNat_add, UInt8.ofNat_mul]
  rfl

/-- An escape that is cut off or has a byte that is no digit. -/
theorem not_decodes_escape {hi lo : UInt8} {path out : Bytes}
    (h : ¬ (isHexDigit hi = true ∧ isHexDigit lo = true)) :
    ¬ Decodes (beforeQuery (37 :: hi :: lo :: path)) out := by
  rw [beforeQuery_cons, if_neg (by decide), beforeQuery_cons]
  split_ifs with hhi
  · exact not_decodes_of_short (by decide)
  · rw [beforeQuery_cons]
    split_ifs with hlo
    · exact not_decodes_of_short (by simp)
    · intro hdecodes
      obtain ⟨hhi, hlo, -⟩ := decodes_escape_iff.mp hdecodes
      exact h ⟨hhi, hlo⟩

theorem not_decodes_cut {path out : Bytes} (h : path.length < 2) :
    ¬ Decodes (beforeQuery (37 :: path)) out := by
  rw [beforeQuery_cons, if_neg (by decide)]
  exact not_decodes_of_short (lt_of_le_of_lt (List.takeWhile_sublist _).length_le h)

/-- **The loop decodes, as far as the buffer goes.** -/
theorem percentDecodeLoop_iff {outLen oi : ℕ} {path out : Bytes} :
    percentDecodeLoop outLen oi path = some out ↔
      Decodes (beforeQuery path) out ∧ Fills outLen oi out := by
  have hdone : ∀ oi out, some [] = some out ↔ Decodes [] out ∧ Fills outLen oi out := by
    intro oi out
    rw [decodes_nil_iff, Option.some.injEq]
    constructor
    · rintro rfl
      exact ⟨rfl, nofun, Or.inl rfl⟩
    · rintro ⟨rfl, -⟩
      rfl
  fun_induction percentDecodeLoop outLen oi path generalizing out with
  | case1 oi => exact hdone oi out
  | case2 oi path =>
      rw [beforeQuery_cons, if_pos rfl]
      exact hdone oi out
  | case3 oi hi lo path vhi vlo hvlo hvhi hne ih =>
      obtain ⟨hhi, rfl⟩ := hexval_eq_some_iff.mp hvhi
      obtain ⟨hlo, rfl⟩ := hexval_eq_some_iff.mp hvlo
      rw [beforeQuery_cons, if_neg hne, beforeQuery_cons, if_neg (ne_question_of_isHexDigit hhi),
        beforeQuery_cons, if_neg (ne_question_of_isHexDigit hlo), decodes_escape_iff,
        pushDecoded_iff, escaped_eq]
      constructor
      · rintro ⟨hbyte, hlt, tail, htail, rfl⟩
        obtain ⟨hdecodes, hfills⟩ := ih.mp htail
        exact ⟨⟨hhi, hlo, tail, hdecodes, rfl⟩, fills_cons_iff.mpr ⟨hbyte, hlt, hfills⟩⟩
      · rintro ⟨⟨-, -, tail, hdecodes, rfl⟩, hfills⟩
        obtain ⟨hbyte, hlt, hfills⟩ := fills_cons_iff.mp hfills
        exact ⟨hbyte, hlt, tail, ih.mpr ⟨hdecodes, hfills⟩, rfl⟩
  | case4 oi hi lo path hnone hne =>
      constructor
      · intro h
        cases h
      · rintro ⟨hdecodes, -⟩
        refine absurd hdecodes (not_decodes_escape ?_)
        rintro ⟨hhi, hlo⟩
        exact hnone _ _ (hexval_eq_some_iff.mpr ⟨hhi, rfl⟩) (hexval_eq_some_iff.mpr ⟨hlo, rfl⟩)
  | case5 oi path hcut hne =>
      constructor
      · intro h
        cases h
      · rintro ⟨hdecodes, -⟩
        refine absurd hdecodes (not_decodes_cut ?_)
        rcases path with _ | ⟨hi, _ | ⟨lo, path⟩⟩
        · decide
        · exact Nat.one_lt_two
        · exact absurd rfl (hcut hi lo path)
  | case6 oi ch path hne hplain ih =>
      rw [beforeQuery_cons, if_neg hne, decodes_cons_iff hplain, pushDecoded_iff]
      constructor
      · rintro ⟨hbyte, hlt, tail, htail, rfl⟩
        obtain ⟨hdecodes, hfills⟩ := ih.mp htail
        exact ⟨⟨tail, hdecodes, rfl⟩, fills_cons_iff.mpr ⟨hbyte, hlt, hfills⟩⟩
      · rintro ⟨⟨tail, hdecodes, rfl⟩, hfills⟩
        obtain ⟨hbyte, hlt, hfills⟩ := fills_cons_iff.mp hfills
        exact ⟨hbyte, hlt, tail, ih.mpr ⟨hdecodes, hfills⟩, rfl⟩

/-- The decoding of a path, if it is fit to be a path and fits the buffer. -/
structure FitPath (path : Bytes) (outLen : ℕ) (text : Bytes) : Prop where
  decodes : Decodes (beforeQuery path) text
  bytes : ∀ c ∈ text, PathByte c
  fits : text.length < outLen

theorem percentDecodePath_eq_some_iff {path out : Bytes} {outLen : ℕ} :
    percentDecodePath path outLen = some out ↔
      ∃ text, FitPath path outLen text ∧
        out = if text = [] then safeCopy outLen (ascii "/") else text := by
  unfold percentDecodePath
  split_ifs with hzero
  · constructor
    · intro h
      cases h
    · rintro ⟨text, hfit, -⟩
      have hlt := hfit.fits
      omega
  · rw [Option.map_eq_some_iff]
    constructor
    · rintro ⟨text, hloop, hout⟩
      obtain ⟨hdecodes, hbytes, hfits⟩ := percentDecodeLoop_iff.mp hloop
      refine ⟨text, ⟨hdecodes, hbytes, ?_⟩, hout.symm⟩
      rcases hfits with rfl | hfits
      · exact Nat.pos_of_ne_zero hzero
      · rwa [Nat.zero_add] at hfits
    · rintro ⟨text, hfit, hout⟩
      refine ⟨text, percentDecodeLoop_iff.mpr ⟨hfit.decodes, hfit.bytes, Or.inr ?_⟩, hout.symm⟩
      rw [Nat.zero_add]
      exact hfit.fits

/-- The buffer of `serve_static` has room for the slash of an empty path. -/
theorem safeCopy_slash {outLen : ℕ} (h : 1 < outLen) :
    safeCopy outLen (ascii "/") = ascii "/" := by
  refine List.take_of_length_le ?_
  show 1 ≤ outLen - 1
  omega

/-- What is in the buffer after a path has been decoded. -/
def DecodesTo (path : Bytes) (outLen : ℕ) (out : Bytes) : Prop :=
  ∃ text, FitPath path outLen text ∧ out = if text = [] then ascii "/" else text

/-- **When a path is decoded, and what the output is.** -/
theorem percentDecodePath_iff {path out : Bytes} {outLen : ℕ} (h : 1 < outLen) :
    percentDecodePath path outLen = some out ↔ DecodesTo path outLen out := by
  rw [percentDecodePath_eq_some_iff, safeCopy_slash h]
  rfl

end Rpsiod

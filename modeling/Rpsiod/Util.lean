import Mathlib.Data.List.DropRight
import Rpsiod.Lib.Crlf
import Rpsiod.Lib.Digits

/-!
# Byte strings and the C helpers of `util.c`

A C string is the list of its bytes before the terminating NUL; a buffer with a length is the
list of its bytes.  The locale is the C locale the program starts in, so character classes are
ASCII.  `memmem` is `ListSearch.indexOfSub` and `memchr`/`strchr` are `ListSearch.splitFirst`.
-/

namespace Rpsiod

open ListSearch Crlf

/-- A byte string: a C string without its terminator, or the used part of a buffer. -/
abbrev Bytes := List UInt8

/-- The bytes of an ASCII string literal. -/
def ascii (s : String) : Bytes := s.toList.map fun c => UInt8.ofNat c.toNat

/-- `tolower` in the C locale. -/
def tolower (c : UInt8) : UInt8 := if 65 ≤ c ∧ c ≤ 90 then c + 32 else c

/-- `isspace` in the C locale. -/
def isspace (c : UInt8) : Bool := c == 32 || (9 ≤ c && c ≤ 13)

/-- Space or horizontal tab. -/
def isBlank (c : UInt8) : Bool := c == 32 || c == 9

/-- A decimal digit. -/
def isdigit (c : UInt8) : Bool := 48 ≤ c && c ≤ 57

/-- `rpsiod_streq_ci`: equality of C strings ignoring case. -/
def streqCi : Bytes → Bytes → Bool
  | a :: as, b :: bs => tolower a == tolower b && streqCi as bs
  | [], [] => true
  | _, _ => false

/-- `rpsiod_starts_with`. -/
def startsWith (s pre : Bytes) : Bool := pre.isPrefixOf s

/-- `strncasecmp(s, pre, strlen(pre)) == 0` for an `s` at least as long as `pre`. -/
def startsWithCi (s pre : Bytes) : Bool := streqCi (s.take pre.length) pre

/-- A text in a pair of the same quotes. -/
def isQuoted (quote : UInt8) (s : Bytes) : Bool :=
  2 ≤ s.length && s.head? = some quote && s.getLast? = some quote

/-- `rpsiod_trim`: white space around the text goes, then one pair of quotes. -/
def trim (s : Bytes) : Bytes :=
  let t := (s.dropWhile isspace).rdropWhile isspace
  if isQuoted 34 t || isQuoted 39 t then t.tail.dropLast else t

/-- `rpsiod_safe_copy`: what a destination of `dstLen` bytes holds afterwards. -/
def safeCopy (dstLen : ℕ) (src : Bytes) : Bytes := src.take (dstLen - 1)

/-! ### Texts in fixed fields -/

/-- A one-line text that fits a `char[n]`. -/
def IsLineText (n : ℕ) (b : Bytes) : Prop := b.length < n ∧ 10 ∉ b ∧ 0 ∉ b

instance (n : ℕ) (b : Bytes) : Decidable (IsLineText n b) :=
  inferInstanceAs (Decidable (_ ∧ _ ∧ _))

/-- The contents of a `char[n]` field with a text of one line. -/
structure LineText (n : ℕ) where
  bytes : Bytes
  ok : IsLineText n bytes
  deriving DecidableEq

theorem LineText.ext {n : ℕ} {a b : LineText n} (h : a.bytes = b.bytes) : a = b := by
  cases a
  cases b
  cases h
  rfl

/-- A text given in the source. -/
def LineText.lit {n : ℕ} (s : String)
    (h : decide (IsLineText n (ascii s)) = true := by exact Eq.refl true) : LineText n :=
  ⟨ascii s, of_decide_eq_true h⟩

/-- A text of printable bytes is a line. -/
theorem isLineText_of_lt {n : ℕ} {b : Bytes} (hlen : b.length < n) (h : ∀ ch ∈ b, 32 < ch) :
    IsLineText n b :=
  ⟨hlen, fun hm => absurd (h 10 hm) (by decide), fun hm => absurd (h 0 hm) (by decide)⟩

/-- A C string on one line. -/
def IsText (b : Bytes) : Prop := 10 ∉ b ∧ 0 ∉ b

instance (b : Bytes) : Decidable (IsText b) := inferInstanceAs (Decidable (_ ∧ _))

theorem IsText.append {a b : Bytes} (ha : IsText a) (hb : IsText b) : IsText (a ++ b) :=
  ⟨fun h => (List.mem_append.mp h).elim ha.1 hb.1, fun h => (List.mem_append.mp h).elim ha.2 hb.2⟩

/-- A text on one line, of any length. -/
structure FieldText where
  bytes : Bytes
  ok : IsText bytes

/-! ### Comparison ignoring case -/

theorem streqCi_iff {a b : Bytes} : streqCi a b = true ↔ a.map tolower = b.map tolower := by
  induction a generalizing b with
  | nil => cases b <;> simp [streqCi]
  | cons x a ih =>
      cases b with
      | nil => simp [streqCi]
      | cons y b => simp [streqCi, ih]

theorem streqCi_comm (a b : Bytes) : streqCi a b = streqCi b a := by
  rw [Bool.eq_iff_iff, streqCi_iff, streqCi_iff, eq_comm]

theorem streqCi_trans {a b c : Bytes} (hab : streqCi a b = true) (hbc : streqCi b c = true) :
    streqCi a c = true :=
  streqCi_iff.mpr ((streqCi_iff.mp hab).trans (streqCi_iff.mp hbc))

theorem length_eq_of_streqCi {a b : Bytes} (h : streqCi a b = true) : a.length = b.length := by
  have := congrArg List.length (streqCi_iff.mp h)
  simpa using this

/-! ### Numbers in text -/

/-- The value of a digit character. -/
def digitValue (c : UInt8) : ℕ := c.toNat - 48

/-- Read decimal digits as long as there are any. -/
def readDecimal : ℕ → Bytes → ℕ × Bytes
  | acc, [] => (acc, [])
  | acc, c :: cs =>
      if isdigit c then readDecimal (acc * 10 + digitValue c) cs else (acc, c :: cs)

/-- What `strtoull(s, &end, 10)` gives back: the value, the text from `end` on, and whether
`errno` is `ERANGE`. -/
structure Strtoull where
  value : ℕ
  rest : Bytes
  erange : Bool
  deriving DecidableEq

/-- `strtoull(s, &end, 10)`: leading white space, an optional sign, digits; a value past
`ULLONG_MAX` saturates, a negative one wraps, and without digits `end` is `s`. -/
def strtoull (s : Bytes) : Strtoull :=
  let t := s.dropWhile isspace
  let negative := t.head? = some 45
  let digits := if t.head? = some 45 ∨ t.head? = some 43 then t.tail else t
  if digits.head?.any isdigit then
    let (n, rest) := readDecimal 0 digits
    if n < 2 ^ 64 then ⟨if negative then (2 ^ 64 - n) % 2 ^ 64 else n, rest, false⟩
    else ⟨2 ^ 64 - 1, rest, true⟩
  else ⟨0, s, false⟩

/-- `strtol(s, NULL, 10)` of 64 bits, which saturates. -/
def strtol (s : Bytes) : ℤ :=
  let t := s.dropWhile isspace
  let digits := if t.head? = some 45 ∨ t.head? = some 43 then t.tail else t
  let n := (readDecimal 0 digits).1
  if t.head? = some 45 then max (-2 ^ 63) (-(n : ℤ)) else min (2 ^ 63 - 1) n

/-- `atoi`: `strtol` cut down to an `int`. -/
def atoi (s : Bytes) : ℤ := (strtol s).bmod (2 ^ 32)

/-- A number as `printf` writes it with `%u`. -/
def decimal (n : ℕ) : Bytes := Digits.render 10 n

/-- A number as `printf` writes it with `%d`. -/
def decimalInt (n : ℤ) : Bytes := if n < 0 then 45 :: decimal n.natAbs else decimal n.natAbs

/-- A number as `printf` writes it with `%x`. -/
def hexadecimal (n : ℕ) : Bytes := Digits.render 16 n

theorem isText_render {b n : ℕ} (hb : 1 < b) (hb16 : b ≤ 16) : IsText (Digits.render b n) := by
  constructor
  · intro h
    exact Bool.noConfusion (Digits.isHexDigit_of_mem_render hb hb16 h)
  · intro h
    exact Bool.noConfusion (Digits.isHexDigit_of_mem_render hb hb16 h)

theorem isText_decimal (n : ℕ) : IsText (decimal n) := isText_render (by decide) (by decide)

theorem isText_hexadecimal (n : ℕ) : IsText (hexadecimal n) :=
  isText_render (by decide) (by decide)

theorem isText_decimalInt (n : ℤ) : IsText (decimalInt n) := by
  unfold decimalInt
  split_ifs
  · exact IsText.append (a := [45]) (by decide) (isText_decimal _)
  · exact isText_decimal _

/-- `end != s` after `strtoull(s, &end, 10)`. -/
def Strtoull.converted (r : Strtoull) (s : Bytes) : Bool := r.rest.length != s.length

end Rpsiod

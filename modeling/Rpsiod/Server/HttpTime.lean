import Rpsiod.Lib.CivilDate
import Rpsiod.Lib.EventBatch
import Rpsiod.Server.Replies

/-!
# Points in time as text (`format_http_time`, `parse_http_time`)

A date in a head is written by `strftime`, and a date from a client is read by `strptime` in one of
three formats.  The formats are those of the source; a format is a list of conversions and characters
that stand for themselves.

* `strptime_strftime`: **a format in which nothing runs into what stands behind it reads what it has
  written**.
* `timegm_gmtime`: a point in time is found again by its date.
* `parseHttpTime_dates`: **a date in each of the three formats is read as the point in time that it
  was made from**.
-/

namespace Rpsiod

open CivilDate

/-! ### The code -/

/-- `struct tm`: `year` is counted from 1900. -/
structure Tm where
  sec : ℕ := 0
  min : ℕ := 0
  hour : ℕ := 0
  mday : ℕ := 0
  mon : ℕ := 0
  year : ℤ := 0
  wday : ℕ := 0
  deriving DecidableEq

/-- `gmtime_r`, which fails if the year does not fit an `int`. -/
def gmtimeR (t : ℕ) : Option Tm :=
  let date := civil (t / 86400)
  let second := t % 86400
  if 2147483647 < date.year - 1900 then none
  else some
    { sec := second % 60
      min := second / 60 % 60
      hour := second / 3600
      mday := date.day
      mon := date.month
      year := date.year - 1900
      wday := weekday (t / 86400) }

/-- `timegm`. -/
def timegm (tm : Tm) : ℤ :=
  dayNumber ⟨tm.year + 1900, tm.mon, tm.mday⟩ * 86400 + tm.hour * 3600 + tm.min * 60 + tm.sec

/-- The names of the days. -/
def dayNames : List Bytes :=
  [ascii "Sunday", ascii "Monday", ascii "Tuesday", ascii "Wednesday", ascii "Thursday",
    ascii "Friday", ascii "Saturday"]

/-- The names of the months. -/
def monthNames : List Bytes :=
  [ascii "January", ascii "February", ascii "March", ascii "April", ascii "May", ascii "June",
    ascii "July", ascii "August", ascii "September", ascii "October", ascii "November",
    ascii "December"]

/-- The name with this number, and its first three letters. -/
def nameAt (names : List Bytes) (i : ℕ) : Bytes := names.getD i (ascii "?")

/-- The conversions that the formats use. -/
inductive Conversion where
  | a | A | d | e | b | m | Y | y | H | M | S
  deriving DecidableEq

/-- A part of a format. -/
inductive FormatItem where
  | conversion (c : Conversion)
  | char (c : UInt8)
  deriving DecidableEq

/-- The conversion with this letter. -/
def conversionOf (letter : UInt8) : Option Conversion :=
  ([(97, .a), (65, .A), (100, .d), (101, .e), (98, .b), (109, .m), (89, .Y), (121, .y),
    (72, .H), (77, .M), (83, .S)] : List (UInt8 × Conversion)).lookup letter

/-- A format as `strftime` and `strptime` go through it. -/
def formatItems : Bytes → List FormatItem
  | 37 :: letter :: rest =>
      ((conversionOf letter).map FormatItem.conversion).toList ++ formatItems rest
  | c :: rest => .char c :: formatItems rest
  | [] => []

/-- Two digits, behind this sign if there is only one. -/
def twoDigits (sign : UInt8) (n : ℕ) : Bytes := if n < 10 then sign :: decimal n else decimal n

/-- What a conversion of `strftime` writes. -/
def writeConversion (tm : Tm) : Conversion → Bytes
  | .a => (nameAt dayNames tm.wday).take 3
  | .A => nameAt dayNames tm.wday
  | .d => twoDigits 48 tm.mday
  | .e => twoDigits 32 tm.mday
  | .b => (nameAt monthNames tm.mon).take 3
  | .m => twoDigits 48 (tm.mon + 1)
  | .Y => decimalInt (tm.year + 1900)
  | .y => twoDigits 48 (tm.year % 100).toNat
  | .H => twoDigits 48 tm.hour
  | .M => twoDigits 48 tm.min
  | .S => twoDigits 48 tm.sec

/-- `strftime`, without its limit. -/
def strftime (format : Bytes) (tm : Tm) : Bytes :=
  (formatItems format).flatMap fun item =>
    match item with
    | .conversion c => writeConversion tm c
    | .char c => [c]

/-- The loop of `strptime` over the further digits of a number. -/
def moreDigits (hi : ℕ) : ℕ → ℕ → Bytes → ℕ × Bytes
  | 0, v, s => (v, s)
  | _ + 1, v, [] => (v, [])
  | left + 1, v, c :: s =>
      if v * 10 ≤ hi ∧ isdigit c then moreDigits hi left (v * 10 + digitValue c) s else (v, c :: s)

/-- A number of `strptime`: blanks, then at most `width` digits. -/
def getNumber (lo hi width : ℕ) (s : Bytes) : Option (ℕ × Bytes) :=
  match s.dropWhile (· = 32) with
  | [] => none
  | c :: s =>
      if isdigit c then
        let (v, rest) := moreDigits hi (width - 1) (digitValue c) s
        if lo ≤ v ∧ v ≤ hi then some (v, rest) else none
      else none

/-- A name of `strptime`, in full or by its first three letters, in any letter case. -/
def getName : List Bytes → ℕ → Bytes → Option (ℕ × Bytes)
  | [], _, _ => none
  | name :: names, i, s =>
      if startsWithCi s name then some (i, s.drop name.length)
      else if startsWithCi s (name.take 3) then some (i, s.drop 3)
      else getName names (i + 1) s

/-- What a conversion of `strptime` reads. -/
def readConversion (tm : Tm) (s : Bytes) : Conversion → Option (Tm × Bytes)
  | .a | .A => (getName dayNames 0 s).map fun (i, rest) => ({ tm with wday := i }, rest)
  | .d | .e => (getNumber 1 31 2 s).map fun (v, rest) => ({ tm with mday := v }, rest)
  | .b => (getName monthNames 0 s).map fun (i, rest) => ({ tm with mon := i }, rest)
  | .m => (getNumber 1 12 2 s).map fun (v, rest) => ({ tm with mon := v - 1 }, rest)
  | .Y => (getNumber 0 9999 4 s).map fun (v, rest) => ({ tm with year := (v : ℤ) - 1900 }, rest)
  | .y => (getNumber 0 99 2 s).map fun (v, rest) =>
      ({ tm with year := if 69 ≤ v then (v : ℤ) else v + 100 }, rest)
  | .H => (getNumber 0 23 2 s).map fun (v, rest) => ({ tm with hour := v }, rest)
  | .M => (getNumber 0 59 2 s).map fun (v, rest) => ({ tm with min := v }, rest)
  | .S => (getNumber 0 61 2 s).map fun (v, rest) => ({ tm with sec := v }, rest)

/-- A part of a format of `strptime`: white space stands for any white space. -/
def readItem (p : Tm × Bytes) : FormatItem → Option (Tm × Bytes)
  | .conversion c => readConversion p.1 p.2 c
  | .char c =>
      if isspace c then some (p.1, p.2.dropWhile isspace)
      else if p.2.head? = some c then some (p.1, p.2.tail)
      else none

/-- `strptime`. -/
def strptime (s format : Bytes) (tm : Tm) : Option (Tm × Bytes) :=
  (formatItems format).foldlM readItem (tm, s)

/-- The format of a head. -/
def imfFormat : Bytes := ascii "%a, %d %b %Y %H:%M:%S GMT"

def rfc850Format : Bytes := ascii "%A, %d-%b-%y %H:%M:%S GMT"

def asctimeFormat : Bytes := ascii "%a %b %e %H:%M:%S %Y"

/-- `format_http_time`, into a `char[64]`. -/
def formatHttpTime (t : ℕ) : Bytes :=
  match gmtimeR t with
  | none => safeCopy 64 (ascii "Thu, 01 Jan 1970 00:00:00 GMT")
  | some tm =>
      let text := strftime imfFormat tm
      if text.length < 64 then text else safeCopy 64 (ascii "Thu, 01 Jan 1970 00:00:00 GMT")

/-- `parse_http_time`. -/
def parseHttpTime (value : Bytes) : Option ℤ :=
  if value = [] then none
  else
    match (strptime value imfFormat {}).or
      ((strptime value rfc850Format {}).or (strptime value asctimeFormat {})) with
    | none => none
    | some (tm, rest) => if rest.dropWhile isBlank = [] then some (timegm tm) else none

/-! ### One conversion -/

/-- What `strptime` takes from a text that was written for `tm`. -/
def Conversion.copy (tm into : Tm) : Conversion → Tm
  | .a | .A => { into with wday := tm.wday }
  | .d | .e => { into with mday := tm.mday }
  | .b | .m => { into with mon := tm.mon }
  | .Y | .y => { into with year := tm.year }
  | .H => { into with hour := tm.hour }
  | .M => { into with min := tm.min }
  | .S => { into with sec := tm.sec }

/-- The field is in the range that `strptime` accepts, and its text has the full width. -/
def Conversion.Fits (tm : Tm) : Conversion → Prop
  | .a | .A => tm.wday < 7
  | .d | .e => 1 ≤ tm.mday ∧ tm.mday ≤ 31
  | .b | .m => tm.mon < 12
  | .Y => -900 ≤ tm.year ∧ tm.year ≤ 8099
  | .y => 69 ≤ tm.year ∧ tm.year ≤ 168
  | .H => tm.hour ≤ 23
  | .M => tm.min ≤ 59
  | .S => tm.sec ≤ 61

/-- The characters that end a name or a number in these formats: a blank, a comma or a hyphen. -/
def endsWord (c : UInt8) : Bool := c = 32 || c = 44 || c = 45

theorem eq_of_endsWord {c : UInt8} (h : endsWord c = true) : c = 32 ∨ c = 44 ∨ c = 45 := by
  simpa [endsWord, or_assoc] using h

/-- The digit of a number below 10. -/
def digit (d : ℕ) : UInt8 := UInt8.ofNat (48 + d)

theorem digit_spec : ∀ d < 10, isdigit (digit d) = true ∧ digitValue (digit d) = d ∧
    isspace (digit d) = false ∧ digit d ≠ 32 := by
  decide

theorem twoDigits_eq : ∀ n < 100, twoDigits 48 n = [digit (n / 10), digit (n % 10)] := by
  decide +kernel

theorem decimal_of_lt_ten : ∀ n < 10, decimal n = [digit n] := by
  decide

/-- A number of two digits. -/
theorem getNumber_digits {lo hi n : ℕ} (hlo : lo ≤ n) (hhi : n ≤ hi) (h : n < 100) (s : Bytes) :
    getNumber lo hi 2 (digit (n / 10) :: digit (n % 10) :: s) = some (n, s) := by
  obtain ⟨hdigit, hvalue, -, hblank⟩ := digit_spec (n / 10) (by omega)
  obtain ⟨hdigit', hvalue', -⟩ := digit_spec (n % 10) (by omega)
  have hle : n / 10 * 10 ≤ hi := by omega
  have hn : n / 10 * 10 + n % 10 = n := by omega
  unfold getNumber
  simp [hblank, hdigit, hvalue, moreDigits, hdigit', hvalue', hle, hn, hlo, hhi]

theorem getNumber_twoDigits {lo hi n : ℕ} (hlo : lo ≤ n) (hhi : n ≤ hi) (h : n < 100) (s : Bytes) :
    getNumber lo hi 2 (twoDigits 48 n ++ s) = some (n, s) := by
  rw [twoDigits_eq n h]
  exact getNumber_digits hlo hhi h s

/-- A number of one digit, in front of something else. -/
theorem getNumber_digit {lo hi n : ℕ} (hlo : lo ≤ n) (hhi : n ≤ hi) (h : n < 10) {c : UInt8}
    (hc : endsWord c = true) (s : Bytes) :
    getNumber lo hi 2 (digit n :: c :: s) = some (n, c :: s) := by
  obtain ⟨hdigit, hvalue, -, hblank⟩ := digit_spec n h
  have hplain : isdigit c = false := by
    rcases eq_of_endsWord hc with rfl | rfl | rfl
    all_goals decide
  unfold getNumber
  simp [hblank, hdigit, hvalue, moreDigits, hplain, hlo, hhi]

/-- A year of four digits. -/
theorem decimal_year {n : ℕ} (hlo : 1000 ≤ n) (hhi : n ≤ 9999) :
    decimal n =
      [digit (n / 1000), digit (n / 100 % 10), digit (n / 10 % 10), digit (n % 10)] := by
  have hbyte : ∀ d < 10, Digits.digitByte d = digit d := by decide
  unfold decimal Digits.render
  rw [if_neg (by omega), Nat.digits_def' (by decide) (by omega : 0 < n),
    Nat.digits_def' (by decide) (by omega : 0 < n / 10),
    Nat.digits_def' (by decide) (by omega : 0 < n / 10 / 10),
    Nat.digits_def' (by decide) (by omega : 0 < n / 10 / 10 / 10),
    show n / 10 / 10 / 10 / 10 = 0 by omega]
  simp only [Nat.digits_zero, List.reverse_cons, List.reverse_nil, List.nil_append,
    List.cons_append, List.map_cons, List.map_nil]
  rw [hbyte _ (by omega), hbyte _ (by omega), hbyte _ (by omega), hbyte _ (by omega),
    show n / 10 / 10 / 10 % 10 = n / 1000 by omega, show n / 10 / 10 % 10 = n / 100 % 10 by omega]

theorem getNumber_year {n : ℕ} (hlo : 1000 ≤ n) (hhi : n ≤ 9999) (s : Bytes) :
    getNumber 0 9999 4 (decimal n ++ s) = some (n, s) := by
  obtain ⟨hdigit, hvalue, -, hblank⟩ := digit_spec (n / 1000) (by omega)
  obtain ⟨hdigit₁, hvalue₁, -⟩ := digit_spec (n / 100 % 10) (by omega)
  obtain ⟨hdigit₂, hvalue₂, -⟩ := digit_spec (n / 10 % 10) (by omega)
  obtain ⟨hdigit₃, hvalue₃, -⟩ := digit_spec (n % 10) (by omega)
  have h₁ : n / 1000 * 10 ≤ 9999 := by omega
  have h₂ : (n / 1000 * 10 + n / 100 % 10) * 10 ≤ 9999 := by omega
  have h₃ : ((n / 1000 * 10 + n / 100 % 10) * 10 + n / 10 % 10) * 10 ≤ 9999 := by omega
  have hn : ((n / 1000 * 10 + n / 100 % 10) * 10 + n / 10 % 10) * 10 + n % 10 = n := by omega
  rw [decimal_year hlo hhi]
  unfold getNumber
  simp [hblank, hdigit, hvalue, moreDigits, hdigit₁, hvalue₁, hdigit₂, hvalue₂, hdigit₃, hvalue₃,
    h₁, h₂, h₃, hn, hhi]

/-- The text of a year of four digits. -/
theorem exists_year {year : ℤ} (h : -900 ≤ year ∧ year ≤ 8099) :
    ∃ n : ℕ, 1000 ≤ n ∧ n ≤ 9999 ∧ (n : ℤ) = year + 1900 ∧ decimalInt (year + 1900) = decimal n := by
  refine ⟨(year + 1900).natAbs, by omega, by omega, by omega, ?_⟩
  exact if_neg (by omega)

/-- The short name of a day, in front of something else. -/
theorem getName_shortDay {c : UInt8} (hc : endsWord c = true) (s : Bytes) :
    ∀ i < 7, getName dayNames 0 ((nameAt dayNames i).take 3 ++ c :: s) = some (i, c :: s) := by
  intro i hi
  rcases eq_of_endsWord hc with rfl | rfl | rfl
  all_goals
    interval_cases i
    all_goals rfl

/-- The short name of a month, in front of something else. -/
theorem getName_shortMonth {c : UInt8} (hc : endsWord c = true) (s : Bytes) :
    ∀ i < 12, getName monthNames 0 ((nameAt monthNames i).take 3 ++ c :: s) = some (i, c :: s) := by
  intro i hi
  rcases eq_of_endsWord hc with rfl | rfl | rfl
  all_goals
    interval_cases i
    all_goals rfl

/-- The name of a day. -/
theorem getName_day (s : Bytes) :
    ∀ i < 7, getName dayNames 0 (nameAt dayNames i ++ s) = some (i, s) := by
  intro i hi
  interval_cases i
  all_goals rfl

/-! ### A format -/

/-- What `strftime` writes for a part of a format. -/
def FormatItem.text (tm : Tm) : FormatItem → Bytes
  | .conversion c => writeConversion tm c
  | .char c => [c]

/-- What `strptime` takes from it. -/
def FormatItem.copy (tm into : Tm) : FormatItem → Tm
  | .conversion c => c.copy tm into
  | .char _ => into

/-- What stands behind a short name, a number without zeros, or a blank. -/
def FormatItem.Follows (next : Option FormatItem) : FormatItem → Prop
  | .conversion .a | .conversion .b | .conversion .e =>
      ∃ c, next = some (.char c) ∧ endsWord c = true
  | .conversion _ => True
  | .char c => isspace c = true →
      c = 32 ∧ ∃ item, next = some item ∧ ∀ c, item = .char c → isspace c = false

/-- A format in which nothing runs into what stands behind it. -/
def Separated : List FormatItem → Prop
  | [] => True
  | item :: items => item.Follows items.head? ∧ Separated items

/-- A text that does not begin with white space. -/
theorem dropWhile_plain {text : Bytes} (h : (text.head?.any fun c => !isspace c) = true)
    (s : Bytes) : (text ++ s).dropWhile isspace = text ++ s := by
  cases text with
  | nil => exact absurd h (by decide)
  | cons c text =>
      have hc : isspace c = false := by simpa using h
      rw [List.cons_append, List.dropWhile_cons_of_neg (by simp [hc])]

theorem getNumber_blank (lo hi width : ℕ) (s : Bytes) :
    getNumber lo hi width (32 :: s) = getNumber lo hi width s := rfl

/-- The texts of the conversions, apart from the one that pads with blanks. -/
theorem writeConversion_plain {tm : Tm} {c : Conversion} (hfits : c.Fits tm) (hpadded : c ≠ .e) :
    ((writeConversion tm c).head?.any fun c => !isspace c) = true := by
  have hdays : ∀ i < 7, ((nameAt dayNames i).head?.any fun c => !isspace c) = true ∧
      (((nameAt dayNames i).take 3).head?.any fun c => !isspace c) = true := by
    decide
  have hmonths : ∀ i < 12,
      (((nameAt monthNames i).take 3).head?.any fun c => !isspace c) = true := by
    decide
  have hnumbers : ∀ n < 100, ((twoDigits 48 n).head?.any fun c => !isspace c) = true := by
    decide +kernel
  unfold Conversion.Fits at hfits
  unfold writeConversion
  cases c with
  | a => exact (hdays _ hfits).2
  | A => exact (hdays _ hfits).1
  | d => exact hnumbers _ (by omega)
  | e => exact absurd rfl hpadded
  | b => exact hmonths _ hfits
  | m => exact hnumbers _ (Nat.lt_of_le_of_lt hfits (by decide))
  | Y =>
      obtain ⟨n, hlo, hhi, -, htext⟩ := exists_year hfits
      obtain ⟨-, -, hplain, -⟩ := digit_spec (n / 1000) (by omega)
      dsimp only
      rw [htext, decimal_year hlo hhi]
      simp [hplain]
  | y => exact hnumbers _ (by omega)
  | H => exact hnumbers _ (by omega)
  | M => exact hnumbers _ (by omega)
  | S => exact hnumbers _ (by omega)

/-- **A conversion reads what it has written.** -/
theorem readConversion_write {tm into : Tm} {c : Conversion} {next : Option FormatItem} {s : Bytes}
    (hfits : c.Fits tm) (hfollows : (FormatItem.conversion c).Follows next)
    (hnext : ∀ c, next = some (.char c) → ∃ s', s = c :: s') :
    readConversion into (writeConversion tm c ++ s) c = some (c.copy tm into, s) ∧
      readConversion into ((writeConversion tm c ++ s).dropWhile isspace) c =
        some (c.copy tm into, s) := by
  by_cases hpadded : c = .e
  · subst hpadded
    obtain ⟨hlo, hhi⟩ := hfits
    by_cases hshort : tm.mday < 10
    · obtain ⟨c, hchar, hc⟩ := hfollows
      obtain ⟨s', rfl⟩ := hnext c hchar
      have hnumber := getNumber_digit hlo hhi hshort hc s'
      have htext : writeConversion tm .e = [32, digit tm.mday] := by
        show twoDigits 32 tm.mday = _
        unfold twoDigits
        rw [if_pos hshort, decimal_of_lt_ten _ hshort]
      have hdrop : (32 :: digit tm.mday :: c :: s').dropWhile isspace =
          digit tm.mday :: c :: s' := by
        obtain ⟨-, -, hplain, -⟩ := digit_spec _ hshort
        rw [List.dropWhile_cons_of_pos (by decide),
          List.dropWhile_cons_of_neg (by rw [hplain]; exact Bool.false_ne_true)]
      rw [htext]
      constructor
      · exact congrArg (Option.map _) ((getNumber_blank 1 31 2 _).trans hnumber)
      · exact congrArg (Option.map _) ((congrArg (getNumber 1 31 2) hdrop).trans hnumber)
    · have hsame : writeConversion tm .e = writeConversion tm .d := by
        show twoDigits 32 tm.mday = twoDigits 48 tm.mday
        unfold twoDigits
        rw [if_neg hshort, if_neg hshort]
      have hplain := writeConversion_plain (c := .d) ⟨hlo, hhi⟩ (by decide)
      have hread : readConversion into (writeConversion tm .d ++ s) .e =
          some (Conversion.e.copy tm into, s) :=
        congrArg (Option.map _) (getNumber_twoDigits hlo hhi (by omega) s)
      rw [hsame, dropWhile_plain hplain]
      exact ⟨hread, hread⟩
  · have hread : readConversion into (writeConversion tm c ++ s) c =
        some (c.copy tm into, s) := by
      cases c with
      | a =>
          obtain ⟨c, hchar, hc⟩ := hfollows
          obtain ⟨s', rfl⟩ := hnext c hchar
          exact congrArg (Option.map _) (getName_shortDay hc s' _ hfits)
      | A => exact congrArg (Option.map _) (getName_day s _ hfits)
      | d =>
          obtain ⟨hlo, hhi⟩ := hfits
          exact congrArg (Option.map _) (getNumber_twoDigits hlo hhi (by omega) s)
      | e => exact absurd rfl hpadded
      | b =>
          obtain ⟨c, hchar, hc⟩ := hfollows
          obtain ⟨s', rfl⟩ := hnext c hchar
          exact congrArg (Option.map _) (getName_shortMonth hc s' _ hfits)
      | m =>
          have hfits : tm.mon < 12 := hfits
          exact congrArg (Option.map _)
            (getNumber_twoDigits (Nat.le_add_left 1 tm.mon) hfits (by omega) s)
      | Y =>
          obtain ⟨n, hlo, hhi, hyear, htext⟩ := exists_year hfits
          show (getNumber 0 9999 4 (decimalInt (tm.year + 1900) ++ s)).map _ = _
          rw [htext, getNumber_year hlo hhi]
          simp [Conversion.copy, hyear]
      | y =>
          have hfits : 69 ≤ tm.year ∧ tm.year ≤ 168 := hfits
          have hnumber : getNumber 0 99 2 (writeConversion tm .y ++ s) =
              some ((tm.year % 100).toNat, s) :=
            getNumber_twoDigits (Nat.zero_le _) (by omega) (by omega) s
          have hyear : (if 69 ≤ (tm.year % 100).toNat then ((tm.year % 100).toNat : ℤ)
              else (tm.year % 100).toNat + 100) = tm.year := by
            split_ifs
            · omega
            · omega
          refine (congrArg (Option.map _) hnumber).trans ?_
          exact congrArg (fun year => some ({ into with year := year }, s)) hyear
      | H =>
          have hfits : tm.hour ≤ 23 := hfits
          exact congrArg (Option.map _) (getNumber_twoDigits (Nat.zero_le _) hfits (by omega) s)
      | M =>
          have hfits : tm.min ≤ 59 := hfits
          exact congrArg (Option.map _) (getNumber_twoDigits (Nat.zero_le _) hfits (by omega) s)
      | S =>
          have hfits : tm.sec ≤ 61 := hfits
          exact congrArg (Option.map _) (getNumber_twoDigits (Nat.zero_le _) hfits (by omega) s)
    rw [dropWhile_plain (writeConversion_plain hfits hpadded)]
    exact ⟨hread, hread⟩

/-- What `strftime` writes for the parts of a format. -/
def itemsText (tm : Tm) (items : List FormatItem) : Bytes := items.flatMap (FormatItem.text tm)

/-- **A format reads what it has written**, with white space in front of it or without. -/
theorem foldlM_readItem {tm into : Tm} {items : List FormatItem} {s : Bytes}
    (hfits : ∀ c, .conversion c ∈ items → c.Fits tm) (hsep : Separated items) :
    items.foldlM readItem (into, itemsText tm items ++ s) =
        some (items.foldl (fun into item => item.copy tm into) into, s) ∧
      (items ≠ [] → (∀ c, items.head? = some (.char c) → isspace c = false) →
        items.foldlM readItem (into, (itemsText tm items ++ s).dropWhile isspace) =
          some (items.foldl (fun into item => item.copy tm into) into, s)) := by
  induction items generalizing into with
  | nil => exact ⟨rfl, fun h => absurd rfl h⟩
  | cons item items ih =>
      obtain ⟨hfollows, hsep⟩ := hsep
      obtain ⟨hrest, hrest'⟩ := @ih (item.copy tm into)
        (fun c hc => hfits c (List.mem_cons_of_mem _ hc)) hsep
      have htext : itemsText tm (item :: items) ++ s =
          item.text tm ++ (itemsText tm items ++ s) := by
        unfold itemsText
        rw [List.flatMap_cons, List.append_assoc]
      have hnext : ∀ c, items.head? = some (.char c) → ∃ s', itemsText tm items ++ s = c :: s' := by
        intro c hc
        obtain ⟨behind, rfl⟩ := List.head?_eq_some_iff.mp hc
        exact ⟨itemsText tm behind ++ s, rfl⟩
      rw [htext]
      cases item with
      | conversion c =>
          obtain ⟨hread, hread'⟩ := @readConversion_write tm into c _ _
            (hfits c List.mem_cons_self) hfollows hnext
          exact ⟨(EventBatch.foldlM_cons_of_eq hread items).trans hrest,
            fun _ _ => (EventBatch.foldlM_cons_of_eq hread' items).trans hrest⟩
      | char c =>
          by_cases hspace : isspace c = true
          · obtain ⟨rfl, item, hitem, hplain⟩ := hfollows hspace
            have hread : readItem (into, 32 :: (itemsText tm items ++ s)) (.char 32) =
                some (into, (itemsText tm items ++ s).dropWhile isspace) := rfl
            refine ⟨(EventBatch.foldlM_cons_of_eq hread items).trans (hrest' ?_ ?_), ?_⟩
            · rintro rfl
              exact absurd hitem (by simp)
            · intro c hc
              exact hplain c (Option.some.inj (hitem.symm.trans hc))
            · intro _ hhead
              exact absurd (hhead 32 rfl) (by decide)
          · have hread : readItem (into, c :: (itemsText tm items ++ s)) (.char c) =
                some (into, itemsText tm items ++ s) := by
              unfold readItem
              simp [hspace]
            refine ⟨(EventBatch.foldlM_cons_of_eq hread items).trans hrest, fun _ _ => ?_⟩
            have hdrop : ([c] ++ (itemsText tm items ++ s)).dropWhile isspace =
                [c] ++ (itemsText tm items ++ s) := dropWhile_plain (by simp [hspace]) _
            show List.foldlM readItem (into, ([c] ++ (itemsText tm items ++ s)).dropWhile isspace)
              (.char c :: items) = _
            rw [hdrop]
            exact (EventBatch.foldlM_cons_of_eq hread items).trans hrest

/-- **A whole format.** -/
theorem strptime_strftime {format : Bytes} {tm : Tm} (into : Tm)
    (hfits : ∀ c, .conversion c ∈ formatItems format → c.Fits tm)
    (hsep : Separated (formatItems format)) :
    strptime (strftime format tm) format into =
      some ((formatItems format).foldl (fun into item => item.copy tm into) into, []) := by
  have hread := (@foldlM_readItem tm into (formatItems format) [] hfits hsep).1
  rw [List.append_nil] at hread
  exact hread

/-! ### Points in time -/

/-- **A point in time is found again by its date.** -/
theorem timegm_gmtime {t : ℕ} {tm : Tm} (h : gmtimeR t = some tm) : timegm tm = t := by
  unfold gmtimeR at h
  dsimp only at h
  split_ifs at h
  obtain rfl := Option.some.inj h
  have hday := dayNumber_civil (t / 86400)
  have hdate : (⟨(civil (t / 86400)).year - 1900 + 1900, (civil (t / 86400)).month,
      (civil (t / 86400)).day⟩ : Date) = civil (t / 86400) := by
    rw [sub_add_cancel]
  unfold timegm
  dsimp only
  rw [hdate, hday]
  omega

/-- The first second of the year 10000. -/
def yearTenThousand : ℕ := 253402300800

/-- The date of a point in time before that. -/
theorem exists_gmtime {t : ℕ} (h : t < yearTenThousand) :
    ∃ tm, gmtimeR t = some tm ∧ 70 ≤ tm.year ∧
      ∀ c, (c = .y → tm.year ≤ 168) → Conversion.Fits tm c := by
  obtain ⟨hyear, hmonth, hday, hday'⟩ := civil_valid (t / 86400)
  have hlate : (civil (t / 86400)).year < 10000 := by
    apply civil_year_lt
    have hend : daysBeforeYear 10000 = 2932897 := by decide
    unfold yearTenThousand at h
    omega
  have hguard : ¬ 2147483647 < (civil (t / 86400)).year - 1900 := by omega
  refine ⟨_, if_neg hguard, ?_, ?_⟩
  · show 70 ≤ (civil (t / 86400)).year - 1900
    omega
  · intro c hshort
    cases c with
    | a => exact Nat.mod_lt _ (by decide)
    | A => exact Nat.mod_lt _ (by decide)
    | d => exact ⟨hday, hday'⟩
    | e => exact ⟨hday, hday'⟩
    | b => exact hmonth
    | m => exact hmonth
    | Y =>
        show -900 ≤ (civil (t / 86400)).year - 1900 ∧ (civil (t / 86400)).year - 1900 ≤ 8099
        omega
    | y =>
        have hle := hshort rfl
        dsimp only at hle
        show 69 ≤ (civil (t / 86400)).year - 1900 ∧ (civil (t / 86400)).year - 1900 ≤ 168
        omega
    | H =>
        show t % 86400 / 3600 ≤ 23
        omega
    | M =>
        show t % 86400 / 60 % 60 ≤ 59
        omega
    | S =>
        show t % 86400 % 60 ≤ 61
        omega

/-! ### The three formats -/

theorem items_imf : formatItems imfFormat =
    [.conversion .a, .char 44, .char 32, .conversion .d, .char 32, .conversion .b, .char 32,
      .conversion .Y, .char 32, .conversion .H, .char 58, .conversion .M, .char 58,
      .conversion .S, .char 32, .char 71, .char 77, .char 84] := by
  decide

theorem items_rfc850 : formatItems rfc850Format =
    [.conversion .A, .char 44, .char 32, .conversion .d, .char 45, .conversion .b, .char 45,
      .conversion .y, .char 32, .conversion .H, .char 58, .conversion .M, .char 58,
      .conversion .S, .char 32, .char 71, .char 77, .char 84] := by
  decide

theorem items_asctime : formatItems asctimeFormat =
    [.conversion .a, .char 32, .conversion .b, .char 32, .conversion .e, .char 32,
      .conversion .H, .char 58, .conversion .M, .char 58, .conversion .S, .char 32,
      .conversion .Y] := by
  decide

theorem separated_formats : Separated (formatItems imfFormat) ∧
    Separated (formatItems rfc850Format) ∧ Separated (formatItems asctimeFormat) := by
  rw [items_imf, items_rfc850, items_asctime]
  simp [Separated, FormatItem.Follows, endsWord, isspace]

/-- A date of a head has 29 characters. -/
theorem length_imf {tm : Tm} (hfits : ∀ c, c ≠ .y → Conversion.Fits tm c) :
    (strftime imfFormat tm).length = 29 := by
  have hdays : ∀ i < 7, ((nameAt dayNames i).take 3).length = 3 := by decide
  have hmonths : ∀ i < 12, ((nameAt monthNames i).take 3).length = 3 := by decide
  have htwo : ∀ n < 100, (twoDigits 48 n).length = 2 := by
    intro n hn
    rw [twoDigits_eq n hn]
    rfl
  have hwday : tm.wday < 7 := hfits .a (by decide)
  have hmon : tm.mon < 12 := hfits .b (by decide)
  have hmday : 1 ≤ tm.mday ∧ tm.mday ≤ 31 := hfits .d (by decide)
  have hhour : tm.hour ≤ 23 := hfits .H (by decide)
  have hmin : tm.min ≤ 59 := hfits .M (by decide)
  have hsec : tm.sec ≤ 61 := hfits .S (by decide)
  obtain ⟨n, hlo, hhi, -, hyear⟩ := exists_year (hfits .Y (by decide))
  unfold strftime
  rw [items_imf]
  simp only [List.flatMap_cons, List.flatMap_nil, writeConversion, List.length_append,
    List.length_cons, List.length_nil, hdays _ hwday, hmonths _ hmon, hyear,
    decimal_year hlo hhi, htwo _ (show tm.mday < 100 by omega),
    htwo _ (show tm.hour < 100 by omega), htwo _ (show tm.min < 100 by omega),
    htwo _ (show tm.sec < 100 by omega)]

/-- A text that one of the formats reads to its end. -/
theorem parse_of_strptime {value : Bytes} {tm : Tm} (hne : value ≠ [])
    (h : (strptime value imfFormat {}).or
      ((strptime value rfc850Format {}).or (strptime value asctimeFormat {})) = some (tm, [])) :
    parseHttpTime value = some (timegm tm) := by
  unfold parseHttpTime
  rw [if_neg hne, h]
  rfl

/-- **The format of a head.** -/
theorem parse_format {t : ℕ} (h : t < yearTenThousand) :
    parseHttpTime (formatHttpTime t) = some (t : ℤ) := by
  obtain ⟨tm, hgm, -, hfits⟩ := exists_gmtime h
  have hfits : ∀ c, c ≠ .y → Conversion.Fits tm c := fun c hc => hfits c fun hy => absurd hy hc
  have hlength := length_imf hfits
  have hformat : formatHttpTime t = strftime imfFormat tm := by
    unfold formatHttpTime
    rw [hgm]
    exact if_pos (by omega)
  have hread := @strptime_strftime imfFormat tm {} (fun c hc => hfits c ?_) separated_formats.1
  · rw [hformat, ← timegm_gmtime hgm]
    apply parse_of_strptime
    · exact List.ne_nil_of_length_pos (by omega)
    · rw [hread, items_imf]
      rfl
  · rintro rfl
    rw [items_imf] at hc
    exact absurd hc (by decide)

/-- A date of the second format is not one of the first: there is no month behind the blank. -/
theorem strptime_rfc850_imf {tm : Tm} (hfits : ∀ c, Conversion.Fits tm c) :
    strptime (strftime rfc850Format tm) imfFormat {} = none := by
  have hsplit : strftime rfc850Format tm =
      itemsText tm [.conversion .A, .char 44, .char 32, .conversion .d] ++
        (45 :: itemsText tm ((formatItems rfc850Format).drop 5)) := by
    unfold strftime
    rw [items_rfc850]
    simp [itemsText, FormatItem.text]
  have hread := (@foldlM_readItem tm {} [.conversion .A, .char 44, .char 32, .conversion .d]
    (45 :: itemsText tm ((formatItems rfc850Format).drop 5)) (fun c _ => hfits c)
    (by simp [Separated, FormatItem.Follows, isspace])).1
  have hfirst : formatItems imfFormat =
      [.conversion .a, .char 44, .char 32, .conversion .d] ++ (formatItems imfFormat).drop 4 := by
    decide
  have hprefix : ([.conversion .a, .char 44, .char 32, .conversion .d] : List FormatItem).foldlM
      readItem ({}, strftime rfc850Format tm) = _ := hsplit ▸ hread
  unfold strptime
  rw [hfirst, List.foldlM_append, hprefix, items_imf]
  rfl

/-- A date of the third format is none of the other two: there is no comma behind the day. -/
theorem strptime_asctime {tm : Tm} (hfits : ∀ c, c ≠ .y → Conversion.Fits tm c) :
    strptime (strftime asctimeFormat tm) imfFormat {} = none ∧
      strptime (strftime asctimeFormat tm) rfc850Format {} = none := by
  have hsplit : strftime asctimeFormat tm =
      writeConversion tm .a ++ (32 :: itemsText tm ((formatItems asctimeFormat).drop 2)) := by
    unfold strftime
    rw [items_asctime]
    simp [itemsText, FormatItem.text]
  obtain ⟨hread, -⟩ := @readConversion_write tm {} .a (some (.char 32))
    (32 :: itemsText tm ((formatItems asctimeFormat).drop 2)) (hfits .a (by decide))
    ⟨32, rfl, by decide⟩ (fun c hc => ⟨_, by rw [FormatItem.char.inj (Option.some.inj hc)]⟩)
  rw [← hsplit] at hread
  have hshort : readItem ({}, strftime asctimeFormat tm) (.conversion .a) = _ := hread
  have hfull : readItem ({}, strftime asctimeFormat tm) (.conversion .A) = _ := hread
  unfold strptime
  constructor
  · rw [items_imf, EventBatch.foldlM_cons_of_eq hshort]
    rfl
  · rw [items_rfc850, EventBatch.foldlM_cons_of_eq hfull]
    rfl

/-- **The second format**, whose years have two digits. -/
theorem parse_rfc850 {t : ℕ} {tm : Tm} (h : t < yearTenThousand) (hgm : gmtimeR t = some tm)
    (hshort : tm.year ≤ 168) : parseHttpTime (strftime rfc850Format tm) = some (t : ℤ) := by
  obtain ⟨tm', hgm', -, hfits'⟩ := exists_gmtime h
  obtain rfl : tm' = tm := Option.some.inj (hgm'.symm.trans hgm)
  have hfits : ∀ c, Conversion.Fits tm' c := fun c => hfits' c fun _ => hshort
  rw [← timegm_gmtime hgm]
  apply parse_of_strptime
  · apply List.ne_nil_of_mem (a := 44)
    unfold strftime
    rw [items_rfc850]
    simp
  · rw [strptime_rfc850_imf hfits, Option.none_or,
      strptime_strftime {} (fun c _ => hfits c) separated_formats.2.1, items_rfc850]
    rfl

/-- **The third format.** -/
theorem parse_asctime {t : ℕ} {tm : Tm} (h : t < yearTenThousand) (hgm : gmtimeR t = some tm) :
    parseHttpTime (strftime asctimeFormat tm) = some (t : ℤ) := by
  obtain ⟨tm', hgm', -, hfits'⟩ := exists_gmtime h
  obtain rfl : tm' = tm := Option.some.inj (hgm'.symm.trans hgm)
  have hfits : ∀ c, c ≠ .y → Conversion.Fits tm' c := fun c hc => hfits' c fun hy => absurd hy hc
  have hitems : ∀ c, .conversion c ∈ formatItems asctimeFormat → Conversion.Fits tm' c := by
    rw [items_asctime]
    intro c hc
    apply hfits
    rintro rfl
    exact absurd hc (by decide)
  obtain ⟨himf, hrfc850⟩ := strptime_asctime hfits
  rw [← timegm_gmtime hgm]
  apply parse_of_strptime
  · apply List.ne_nil_of_mem (a := 58)
    unfold strftime
    rw [items_asctime]
    simp
  · rw [himf, hrfc850, Option.none_or, Option.none_or,
      strptime_strftime {} hitems separated_formats.2.2, items_asctime]
    rfl

/-- **A date in any of the three formats** is read as the point in time that it was made from. -/
theorem parseHttpTime_dates {t : ℕ} (h : t < yearTenThousand) :
    parseHttpTime (formatHttpTime t) = some (t : ℤ) ∧
      ∃ tm, gmtimeR t = some tm ∧
        (tm.year ≤ 168 → parseHttpTime (strftime rfc850Format tm) = some (t : ℤ)) ∧
        parseHttpTime (strftime asctimeFormat tm) = some (t : ℤ) := by
  obtain ⟨tm, hgm, -⟩ := exists_gmtime h
  exact ⟨parse_format h, tm, hgm, parse_rfc850 h hgm, parse_asctime h hgm⟩

/-- The sixth of November 1994. -/
theorem parseHttpTime_dates_1994 :
    formatHttpTime 784111777 = ascii "Sun, 06 Nov 1994 08:49:37 GMT" ∧
      parseHttpTime (ascii "Sun, 06 Nov 1994 08:49:37 GMT") = some 784111777 := by
  have htext : formatHttpTime 784111777 = ascii "Sun, 06 Nov 1994 08:49:37 GMT" := by
    decide +kernel
  refine ⟨htext, ?_⟩
  rw [← htext]
  exact (parseHttpTime_dates (by decide)).1

end Rpsiod

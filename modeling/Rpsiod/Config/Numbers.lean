import Rpsiod.Util

/-!
# The numbers of a configuration (`parse_long`, `rpsiod_parse_size` and their kin)

Values of a configuration are texts; these are the functions that read numbers, sizes, durations,
ports and booleans from them.  All of them but the strict ones keep the old value if there is none.
-/

namespace Rpsiod

/-- What `strtol(s, &end, 10)` gives back: the value, the text from `end` on, and whether `errno` is
`ERANGE`. -/
structure Strtol where
  value : ℤ
  rest : Bytes
  erange : Bool
  deriving DecidableEq

/-- `strtol(s, &end, 10)` of 64 bits: without digits `end` is `s`. -/
def strtolEnd (s : Bytes) : Strtol :=
  let t := s.dropWhile isspace
  let digits := if t.head? = some 45 ∨ t.head? = some 43 then t.tail else t
  if digits.head?.any isdigit then
    let (n, rest) := readDecimal 0 digits
    let value : ℤ := if t.head? = some 45 then -n else n
    ⟨max (-2 ^ 63) (min (2 ^ 63 - 1) value), rest, value < -2 ^ 63 || 2 ^ 63 - 1 < value⟩
  else ⟨0, s, false⟩

/-- `end != s` behind it. -/
def Strtol.converted (r : Strtol) (s : Bytes) : Bool := r.rest.length != s.length

/-- A `long` as an `int`. -/
def toInt (n : ℤ) : ℤ := n.bmod (2 ^ 32)

/-- `parse_long`. -/
def parseLong (value : Bytes) (fallback : ℤ) : ℤ :=
  if (strtolEnd value).converted value then (strtolEnd value).value else fallback

/-- `parse_bool_strict`. -/
def parseBoolStrict (value : Bytes) : Option Bool :=
  if streqCi value (ascii "true") || streqCi value (ascii "yes") || value = ascii "1" then some true
  else if streqCi value (ascii "false") || streqCi value (ascii "no") || value = ascii "0" then
    some false
  else none

/-- `parse_port_strict`. -/
def parsePortStrict (value : Bytes) : Option UInt16 :=
  let r := strtolEnd value
  if r.erange || !r.converted value || r.rest ≠ [] || r.value < 1 || 65535 < r.value then none
  else some (UInt16.ofNat r.value.toNat)

/-- The unit of a size. -/
def sizeMultiplier (unit : Bytes) : ℕ :=
  if streqCi unit (ascii "kb") || streqCi unit (ascii "k") then 1024
  else if streqCi unit (ascii "mb") || streqCi unit (ascii "m") then 1024 * 1024
  else if streqCi unit (ascii "gb") || streqCi unit (ascii "g") then 1024 * 1024 * 1024
  else 1

/-- `rpsiod_parse_size`, in 64 bits. -/
def parseSize (text : Bytes) (fallback : ℕ) : ℕ :=
  if text = [] then fallback
  else
    let r := strtoull text
    if !r.converted text then fallback
    else r.value * sizeMultiplier (r.rest.dropWhile isspace) % 2 ^ 64

/-- `rpsiod_parse_duration_sec`; `INT_MAX / 86400` is 24855. -/
def parseDurationSec (text : Bytes) (fallback : ℤ) : ℤ :=
  if text = [] then fallback
  else
    let r := strtolEnd text
    if !r.converted text || r.value < 0 || 24855 < r.value then fallback
    else
      let unit := r.rest.dropWhile isspace
      if streqCi unit (ascii "ms") then if 0 < r.value then 1 else 0
      else if streqCi unit (ascii "m") then r.value * 60
      else if streqCi unit (ascii "h") then r.value * 3600
      else if streqCi unit (ascii "d") then r.value * 86400
      else r.value

end Rpsiod

import Mathlib.Order.Lattice

/-!
# FastCGI records

A record is a header of eight bytes, a content of at most 65535 bytes and at most 255 bytes of
padding; both lengths are in the header.

* `encode`: a record as bytes.  `decodeOne`: the record at the front of a byte string.
* `decodeOne_encode`: **round trip**, whatever follows.
* `decodeAll`: all whole records at the front.  `decodeAll_encode`: it gives back what was
  encoded, if what follows is not a whole record.
* `readExact`: reading a given number of bytes from a stream that comes in pieces, as a loop
  around `read` does; `readExact_eq_some`, `readExact_eq_none`: the pieces do not matter.
-/

namespace FastCgi

/-- The low byte of a number. -/
def lowByte (n : ℕ) : UInt8 := UInt8.ofNat (n % 256)

/-- The byte above it. -/
def highByte (n : ℕ) : UInt8 := UInt8.ofNat (n / 256 % 256)

/-- A record. -/
structure Record where
  version : UInt8
  kind : UInt8
  requestId : UInt8 × UInt8
  reserved : UInt8
  content : List UInt8
  padding : List UInt8
  content_le : content.length < 65536
  padding_le : padding.length < 256

/-- A record as bytes. -/
def encode (r : Record) : List UInt8 :=
  [r.version, r.kind, r.requestId.1, r.requestId.2, highByte r.content.length,
    lowByte r.content.length, lowByte r.padding.length, r.reserved] ++ r.content ++ r.padding

/-- A number in two bytes. -/
def twoBytes (high low : UInt8) : ℕ := high.toNat * 256 + low.toNat

theorem twoBytes_lt (high low : UInt8) : twoBytes high low < 65536 := by
  unfold twoBytes
  have hhigh := high.toNat_lt
  have hlow := low.toNat_lt
  omega

/-- The record at the front, and what follows it. -/
def decodeOne : List UInt8 → Option (Record × List UInt8)
  | version :: kind :: id₁ :: id₂ :: high :: low :: pad :: reserved :: rest =>
      if twoBytes high low + pad.toNat ≤ rest.length then
        some (
          { version := version
            kind := kind
            requestId := (id₁, id₂)
            reserved := reserved
            content := rest.take (twoBytes high low)
            padding := (rest.drop (twoBytes high low)).take pad.toNat
            content_le := lt_of_le_of_lt (List.length_take_le _ _) (twoBytes_lt _ _)
            padding_le := lt_of_le_of_lt (List.length_take_le _ _) pad.toNat_lt },
          rest.drop (twoBytes high low + pad.toNat))
      else none
  | _ => none

theorem decodeOne_length {b rest : List UInt8} {r : Record} (h : decodeOne b = some (r, rest)) :
    rest.length < b.length := by
  unfold decodeOne at h
  split at h
  · split_ifs at h with hle
    have hrest := congrArg Prod.snd (Option.some.inj h)
    simp only at hrest
    rw [← hrest, List.length_drop]
    simp only [List.length_cons]
    omega
  · exact nomatch h

/-- All whole records at the front. -/
def decodeAll (b : List UInt8) : List Record :=
  match _h : decodeOne b with
  | some (r, rest) => r :: decodeAll rest
  | none => []
termination_by b.length
decreasing_by exact decodeOne_length _h

/-! ### Reading what was encoded -/

theorem twoBytes_eq {n : ℕ} (h : n < 65536) : twoBytes (highByte n) (lowByte n) = n := by
  unfold twoBytes highByte lowByte
  rw [UInt8.toNat_ofNat', UInt8.toNat_ofNat']
  omega

theorem toNat_lowByte {n : ℕ} (h : n < 256) : (lowByte n).toNat = n := by
  unfold lowByte
  rw [UInt8.toNat_ofNat']
  omega

/-- **Round trip** of a record. -/
theorem decodeOne_encode (r : Record) (tail : List UInt8) :
    decodeOne (encode r ++ tail) = some (r, tail) := by
  have hcontent := twoBytes_eq r.content_le
  have hpadding := toNat_lowByte r.padding_le
  have hsplit : encode r ++ tail =
      r.version :: r.kind :: r.requestId.1 :: r.requestId.2 :: highByte r.content.length ::
        lowByte r.content.length :: lowByte r.padding.length :: r.reserved ::
          (r.content ++ (r.padding ++ tail)) := by
    unfold encode
    simp
  rw [hsplit]
  unfold decodeOne
  simp only [hcontent, hpadding]
  rw [if_pos (by simp only [List.length_append]; omega)]
  simp only [List.take_left, List.drop_left, Option.some.injEq, Prod.mk.injEq, true_and]
  rw [List.drop_length_add_append, List.drop_left]

theorem decodeAll_of_some {b rest : List UInt8} {r : Record}
    (h : decodeOne b = some (r, rest)) : decodeAll b = r :: decodeAll rest := by
  rw [decodeAll]
  split
  · next r' rest' h' =>
    rw [h, Option.some.injEq, Prod.mk.injEq] at h'
    obtain ⟨rfl, rfl⟩ := h'
    rfl
  · next h' =>
    rw [h] at h'
    exact nomatch h'

theorem decodeAll_of_none {b : List UInt8} (h : decodeOne b = none) : decodeAll b = [] := by
  rw [decodeAll]
  split
  · next r rest h' =>
    rw [h] at h'
    exact nomatch h'
  · rfl

/-- What is decoded first is what was encoded first. -/
theorem decodeAll_encode_append (r : Record) (tail : List UInt8) :
    decodeAll (encode r ++ tail) = r :: decodeAll tail :=
  decodeAll_of_some (decodeOne_encode r tail)

/-- **Round trip** of a row of records. -/
theorem decodeAll_encode (rs : List Record) (tail : List UInt8) :
    decodeAll (rs.flatMap encode ++ tail) = rs ++ decodeAll tail := by
  induction rs with
  | nil => rfl
  | cons r rs ih =>
      rw [List.flatMap_cons, List.append_assoc, decodeAll_encode_append, ih, List.cons_append]

/-! ### A stream in pieces -/

/-- What a `read` that does not end the stream gives. -/
inductive Piece where
  | data (bytes : List UInt8) (ne : bytes ≠ [])
  | interrupted

/-- The bytes of the pieces. -/
def bytesOf : List Piece → List UInt8
  | [] => []
  | .data bytes _ :: pieces => bytes ++ bytesOf pieces
  | .interrupted :: pieces => bytesOf pieces

/-- The rest of a piece that was read in part. -/
def restOf (bytes : List UInt8) (pieces : List Piece) : List Piece :=
  if h : bytes = [] then pieces else .data bytes h :: pieces

/-- `n` bytes from the stream and what is left of it; `none` if it ends before. -/
def readExact : ℕ → List Piece → Option (List UInt8 × List Piece)
  | 0, pieces => some ([], pieces)
  | _ + 1, [] => none
  | n + 1, .interrupted :: pieces => readExact (n + 1) pieces
  | n + 1, .data bytes _ :: pieces =>
      if bytes.length ≤ n + 1 then
        (readExact (n + 1 - bytes.length) pieces).map fun r => (bytes ++ r.1, r.2)
      else some (bytes.take (n + 1), restOf (bytes.drop (n + 1)) pieces)

@[simp] theorem bytesOf_restOf (bytes : List UInt8) (pieces : List Piece) :
    bytesOf (restOf bytes pieces) = bytes ++ bytesOf pieces := by
  unfold restOf
  by_cases h : bytes = []
  · rw [dif_pos h, h, List.nil_append]
  · rw [dif_neg h, bytesOf]

/-- **Pieces do not matter**: the bytes are the next ones of the stream. -/
theorem readExact_eq_some {n : ℕ} {pieces : List Piece} (h : n ≤ (bytesOf pieces).length) :
    ∃ rest, readExact n pieces = some ((bytesOf pieces).take n, rest) ∧
      bytesOf rest = (bytesOf pieces).drop n := by
  induction pieces generalizing n with
  | nil =>
      obtain rfl : n = 0 := Nat.le_zero.mp h
      exact ⟨[], rfl, rfl⟩
  | cons piece pieces ih =>
      cases n with
      | zero => exact ⟨piece :: pieces, rfl, rfl⟩
      | succ n =>
          cases piece with
          | interrupted => exact ih h
          | data bytes ne =>
              rw [bytesOf, List.length_append] at h
              rw [readExact, bytesOf]
              by_cases hle : bytes.length ≤ n + 1
              · obtain ⟨rest, hread, hrest⟩ := ih (n := n + 1 - bytes.length) (by omega)
                refine ⟨rest, ?_, ?_⟩
                · rw [if_pos hle, hread, List.take_append, List.take_of_length_le hle]
                  rfl
                · rw [hrest, List.drop_append, List.drop_eq_nil_of_le hle, List.nil_append]
              · refine ⟨restOf (bytes.drop (n + 1)) pieces, ?_, ?_⟩
                · rw [if_neg hle, List.take_append_of_le_length (by omega)]
                · rw [bytesOf_restOf, List.drop_append_of_le_length (by omega)]

/-- A stream that ends too early. -/
theorem readExact_eq_none {n : ℕ} {pieces : List Piece} (h : (bytesOf pieces).length < n) :
    readExact n pieces = none := by
  induction pieces generalizing n with
  | nil =>
      obtain ⟨n, rfl⟩ := Nat.exists_eq_add_one_of_ne_zero (Nat.ne_of_gt (Nat.zero_lt_of_lt h))
      rfl
  | cons piece pieces ih =>
      obtain ⟨n, rfl⟩ := Nat.exists_eq_add_one_of_ne_zero (Nat.ne_of_gt (Nat.zero_lt_of_lt h))
      cases piece with
      | interrupted => exact ih h
      | data bytes ne =>
          rw [bytesOf, List.length_append] at h
          rw [readExact, if_pos (by omega), ih (by omega)]
          rfl

/-- A record from the stream, in three reads. -/
def readRecord (pieces : List Piece) : Option (Record × List Piece) :=
  match readExact 8 pieces with
  | some ([version, kind, id₁, id₂, high, low, pad, reserved], pieces) =>
      match readExact (twoBytes high low) pieces with
      | none => none
      | some (content, pieces) =>
          match readExact pad.toNat pieces with
          | none => none
          | some (padding, pieces) =>
              if h : content.length < 65536 ∧ padding.length < 256 then
                some (⟨version, kind, (id₁, id₂), reserved, content, padding, h.1, h.2⟩, pieces)
              else none
  | _ => none

/-- The header of a record, byte by byte. -/
theorem exists_header {b : List UInt8} (h : 8 ≤ b.length) :
    ∃ version kind id₁ id₂ high low pad reserved rest,
      b = version :: kind :: id₁ :: id₂ :: high :: low :: pad :: reserved :: rest := by
  match b, h with
  | version :: kind :: id₁ :: id₂ :: high :: low :: pad :: reserved :: rest, _ =>
      exact ⟨version, kind, id₁, id₂, high, low, pad, reserved, rest, rfl⟩

theorem decodeOne_of_short {b : List UInt8} (h : b.length < 8) : decodeOne b = none := by
  unfold decodeOne
  split
  · simp only [List.length_cons] at h
    omega
  · rfl

/-- **Reading a record** is decoding it from the bytes of the stream. -/
theorem readRecord_eq (pieces : List Piece) :
    (∃ r rest, readRecord pieces = some (r, rest) ∧
        decodeOne (bytesOf pieces) = some (r, bytesOf rest)) ∨
      (readRecord pieces = none ∧ decodeOne (bytesOf pieces) = none) := by
  by_cases hheader : 8 ≤ (bytesOf pieces).length
  · obtain ⟨version, kind, id₁, id₂, high, low, pad, reserved, more, hbytes⟩ :=
      exists_header hheader
    obtain ⟨rest, hread, hrest⟩ := readExact_eq_some hheader
    rw [hbytes] at hread hrest
    obtain rfl : bytesOf rest = more := hrest
    have hhead : readExact 8 pieces =
        some ([version, kind, id₁, id₂, high, low, pad, reserved], rest) := hread
    have hcontentLt := twoBytes_lt high low
    have hpadLt : pad.toNat < 256 := pad.toNat_lt
    rw [hbytes]
    unfold readRecord decodeOne
    rw [hhead]
    simp only
    by_cases hcontent : twoBytes high low ≤ (bytesOf rest).length
    · obtain ⟨rest₂, hread₂, hrest₂⟩ := readExact_eq_some hcontent
      rw [hread₂]
      simp only
      have hlength₂ : (bytesOf rest₂).length = (bytesOf rest).length - twoBytes high low := by
        rw [hrest₂, List.length_drop]
      by_cases hpadding : pad.toNat ≤ (bytesOf rest₂).length
      · obtain ⟨rest₃, hread₃, hrest₃⟩ := readExact_eq_some hpadding
        rw [hread₃]
        simp only
        left
        rw [dif_pos ⟨by rw [List.length_take]; omega, by rw [List.length_take]; omega⟩]
        refine ⟨_, rest₃, rfl, ?_⟩
        rw [if_pos (by omega)]
        simp only [hrest₃, hrest₂, List.drop_drop]
      · right
        rw [readExact_eq_none (not_le.mp hpadding), if_neg (by omega)]
        exact ⟨rfl, rfl⟩
    · right
      rw [readExact_eq_none (not_le.mp hcontent), if_neg (by omega)]
      exact ⟨rfl, rfl⟩
  · right
    rw [decodeOne_of_short (not_le.mp hheader)]
    unfold readRecord
    rw [readExact_eq_none (not_le.mp hheader)]
    exact ⟨rfl, rfl⟩

end FastCgi

import Mathlib.Algebra.Group.Nat.Defs
import Rpsiod.Lib.FastCgi

/-!
# FastCGI requests

The parameters of a request are name-value pairs, each behind the two lengths.  A length below 128
takes one byte; any other takes four, and their top bit is set.  The pairs and the body travel in
records of their own streams, and an empty record ends each stream.

* `encodePair`, `decodePairs`: pairs as bytes and back.
* `decodePairs_encode`: **round trip**, for names and values below `2 ^ 31` bytes.
* `padded`: a record whose length is a multiple of eight.
* `RequestRecords`: the records of a request, stream by stream; `RequestRecords.Carries`: what
  they carry.
-/

namespace FastCgi

/-! ### Name-value pairs -/

/-- A name and a value. -/
abbrev Pair := List UInt8 × List UInt8

/-- A length, in one byte or in four. -/
def encodeLength (n : ℕ) : List UInt8 :=
  if n < 128 then [UInt8.ofNat n]
  else [UInt8.ofNat (128 + n / 2 ^ 24 % 128), UInt8.ofNat (n / 2 ^ 16 % 256),
    UInt8.ofNat (n / 2 ^ 8 % 256), UInt8.ofNat (n % 256)]

/-- Both lengths, the name, the value. -/
def encodePair (p : Pair) : List UInt8 :=
  encodeLength p.1.length ++ encodeLength p.2.length ++ p.1 ++ p.2

/-- The length at the front, and what follows it. -/
def decodeLength : List UInt8 → Option (ℕ × List UInt8)
  | [] => none
  | a :: rest =>
      if a.toNat < 128 then some (a.toNat, rest)
      else
        match rest with
        | b :: c :: d :: rest =>
            some (((a.toNat % 128 * 256 + b.toNat) * 256 + c.toNat) * 256 + d.toNat, rest)
        | _ => none

/-- The pair at the front, and what follows it. -/
def decodePair (b : List UInt8) : Option (Pair × List UInt8) :=
  match decodeLength b with
  | none => none
  | some (nameLen, rest) =>
      match decodeLength rest with
      | none => none
      | some (valueLen, rest) =>
          if nameLen + valueLen ≤ rest.length then
            some ((rest.take nameLen, (rest.drop nameLen).take valueLen),
              rest.drop (nameLen + valueLen))
          else none

theorem decodeLength_length {b rest : List UInt8} {n : ℕ} (h : decodeLength b = some (n, rest)) :
    rest.length < b.length := by
  unfold decodeLength at h
  split at h
  · cases h
  · next a more =>
    split_ifs at h with ha
    · simp only [Option.some.injEq, Prod.mk.injEq] at h
      rw [← h.2, List.length_cons]
      exact Nat.lt_succ_self _
    · split at h
      · simp only [Option.some.injEq, Prod.mk.injEq] at h
        rw [← h.2]
        simp only [List.length_cons]
        omega
      · cases h

theorem decodePair_length {b rest : List UInt8} {p : Pair} (h : decodePair b = some (p, rest)) :
    rest.length < b.length := by
  unfold decodePair at h
  split at h
  · cases h
  · next nameLen more hname =>
    have hshort := decodeLength_length hname
    split at h
    · cases h
    · next valueLen more' hvalue =>
      have hshort' := decodeLength_length hvalue
      split_ifs at h with hle
      simp only [Option.some.injEq, Prod.mk.injEq] at h
      rw [← h.2, List.length_drop]
      omega

/-- All pairs of a stream; `none` unless it ends behind a pair. -/
def decodePairs (b : List UInt8) : Option (List Pair) :=
  if b = [] then some []
  else
    match _h : decodePair b with
    | none => none
    | some (p, rest) => (decodePairs rest).map (p :: ·)
termination_by b.length
decreasing_by exact decodePair_length _h

/-! ### Reading pairs that were encoded -/

theorem decodeLength_encodeLength {n : ℕ} (h : n < 2 ^ 31) (tail : List UInt8) :
    decodeLength (encodeLength n ++ tail) = some (n, tail) := by
  unfold encodeLength
  by_cases hshort : n < 128
  · have hbyte : (UInt8.ofNat n).toNat = n := by
      rw [UInt8.toNat_ofNat']
      omega
    rw [if_pos hshort, List.cons_append, List.nil_append]
    unfold decodeLength
    simp only [hbyte, if_pos hshort]
  · have htop : (UInt8.ofNat (128 + n / 2 ^ 24 % 128)).toNat = 128 + n / 2 ^ 24 := by
      rw [UInt8.toNat_ofNat']
      omega
    have hsecond : (UInt8.ofNat (n / 2 ^ 16 % 256)).toNat = n / 2 ^ 16 % 256 := by
      rw [UInt8.toNat_ofNat']
      omega
    have hthird : (UInt8.ofNat (n / 2 ^ 8 % 256)).toNat = n / 2 ^ 8 % 256 := by
      rw [UInt8.toNat_ofNat']
      omega
    have hlast : (UInt8.ofNat (n % 256)).toNat = n % 256 := by
      rw [UInt8.toNat_ofNat']
      omega
    rw [if_neg hshort]
    simp only [List.cons_append, List.nil_append]
    unfold decodeLength
    simp only [htop, hsecond, hthird, hlast]
    rw [if_neg (by omega), Option.some.injEq, Prod.mk.injEq]
    exact ⟨by omega, rfl⟩

/-- **Round trip** of a pair. -/
theorem decodePair_encodePair {p : Pair} (hname : p.1.length < 2 ^ 31)
    (hvalue : p.2.length < 2 ^ 31) (tail : List UInt8) :
    decodePair (encodePair p ++ tail) = some (p, tail) := by
  unfold encodePair decodePair
  simp only [List.append_assoc]
  rw [decodeLength_encodeLength hname]
  simp only
  rw [decodeLength_encodeLength hvalue]
  simp only
  rw [if_pos (by simp only [List.length_append]; omega), List.take_left, List.drop_left,
    List.take_left, List.drop_length_add_append, List.drop_left]

theorem encodePair_ne_nil (p : Pair) : encodePair p ≠ [] := by
  unfold encodePair encodeLength
  split_ifs <;> simp

/-- What is decoded first is what was encoded first. -/
theorem decodePairs_encodePair_append {p : Pair} (hname : p.1.length < 2 ^ 31)
    (hvalue : p.2.length < 2 ^ 31) (tail : List UInt8) :
    decodePairs (encodePair p ++ tail) = (decodePairs tail).map (p :: ·) := by
  have hpair := decodePair_encodePair hname hvalue tail
  have hne : encodePair p ++ tail ≠ [] := by
    intro hnil
    exact encodePair_ne_nil p (List.append_eq_nil_iff.mp hnil).1
  rw [decodePairs, if_neg hne]
  split
  · next h =>
    rw [hpair] at h
    cases h
  · next q rest h =>
    rw [hpair, Option.some.injEq, Prod.mk.injEq] at h
    rw [h.1, h.2]

/-- **Round trip** of a row of pairs. -/
theorem decodePairs_encode {ps : List Pair}
    (h : ∀ p ∈ ps, p.1.length < 2 ^ 31 ∧ p.2.length < 2 ^ 31) :
    decodePairs (ps.flatMap encodePair) = some ps := by
  induction ps with
  | nil =>
      rw [List.flatMap_nil, decodePairs, if_pos rfl]
  | cons p ps ih =>
      obtain ⟨hname, hvalue⟩ := h p List.mem_cons_self
      rw [List.flatMap_cons, decodePairs_encodePair_append hname hvalue,
        ih fun q hq => h q (List.mem_cons_of_mem _ hq)]
      rfl

/-- A pair is not longer than its code. -/
theorem length_le_length_encodePair (p : Pair) :
    p.1.length ≤ (encodePair p).length ∧ p.2.length ≤ (encodePair p).length := by
  unfold encodePair
  simp only [List.length_append]
  omega

/-! ### Padded records -/

/-- The bytes that are missing to the next multiple of eight. -/
def paddingFor (n : ℕ) : ℕ := (8 - n % 8) % 8

theorem paddingFor_lt (n : ℕ) : (List.replicate (paddingFor n) (0 : UInt8)).length < 256 := by
  rw [List.length_replicate]
  unfold paddingFor
  omega

/-- A record with this content, padded with zeros. -/
def padded (kind : UInt8) (requestId : UInt8 × UInt8) (content : List UInt8)
    (h : content.length < 65536) : Record where
  version := 1
  kind := kind
  requestId := requestId
  reserved := 0
  content := content
  padding := List.replicate (paddingFor content.length) 0
  content_le := h
  padding_le := paddingFor_lt content.length

theorem length_encode (r : Record) :
    (encode r).length = 8 + r.content.length + r.padding.length := by
  unfold encode
  simp only [List.length_append, List.length_cons, List.length_nil]

theorem length_encode_padded (kind : UInt8) (requestId : UInt8 × UInt8) {content : List UInt8}
    (h : content.length < 65536) : (encode (padded kind requestId content h)).length % 8 = 0 := by
  rw [length_encode]
  show (8 + content.length + (List.replicate (paddingFor content.length) (0 : UInt8)).length) % 8 = 0
  rw [List.length_replicate]
  unfold paddingFor
  omega

/-! ### The records of a request -/

/-- The records of a request, stream by stream. -/
structure RequestRecords where
  start : Record
  params : List Record
  endParams : Record
  stdin : List Record
  endStdin : Record

namespace RequestRecords

/-- All of them, in the order in which they are sent. -/
def all (m : RequestRecords) : List Record :=
  m.start :: (m.params ++ m.endParams :: (m.stdin ++ [m.endStdin]))

/-- The records begin a request for a responder, and carry these parameters and this body. -/
structure Carries (m : RequestRecords) (requestId : UInt8 × UInt8) (pairs : List Pair)
    (body : List UInt8) : Prop where
  version : ∀ r ∈ m.all, r.version = 1 ∧ r.requestId = requestId
  start : m.start.kind = 1 ∧ m.start.content = [0, 1, 0, 0, 0, 0, 0, 0]
  params_kind : ∀ r ∈ m.params, r.kind = 4
  params_ne : pairs ≠ [] → ∀ r ∈ m.params, r.content ≠ []
  params : decodePairs (m.params.flatMap (·.content)) = some pairs
  endParams : m.endParams.kind = 4 ∧ m.endParams.content = []
  stdin_kind : ∀ r ∈ m.stdin, r.kind = 5 ∧ r.content ≠ []
  stdin : m.stdin.flatMap (·.content) = body
  endStdin : m.endStdin.kind = 5 ∧ m.endStdin.content = []

end RequestRecords

end FastCgi

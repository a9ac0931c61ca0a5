import Mathlib.Data.List.Basic

/-!
# Records behind their lengths

Each record has its length in one byte in front of it, as in the lists of a TLS handshake.

* `records`: the records of a text, up to the first that is cut off.
* `records_encode`: **the records that are written are read**, whatever follows if it is cut off.
-/

namespace LengthPrefixed

/-- The records of a text; what is behind the last whole one does not count. -/
def records : List UInt8 → List (List UInt8)
  | [] => []
  | len :: rest =>
      if rest.length < len.toNat then []
      else rest.take len.toNat :: records (rest.drop len.toNat)
termination_by s => s.length
decreasing_by
  rw [List.length_drop, List.length_cons]
  omega

/-- The records as they are written. -/
def encode (rs : List (List UInt8)) : List UInt8 := rs.flatMap fun r => UInt8.ofNat r.length :: r

/-- The beginning of a record, or nothing. -/
def IsCut (s : List UInt8) : Prop := ∀ len rest, s = len :: rest → rest.length < len.toNat

theorem records_cut {s : List UInt8} (h : IsCut s) : records s = [] := by
  cases s with
  | nil => rw [records]
  | cons len rest => rw [records, if_pos (h len rest rfl)]

theorem records_cons {len : UInt8} {rest : List UInt8} (h : len.toNat ≤ rest.length) :
    records (len :: rest) = rest.take len.toNat :: records (rest.drop len.toNat) := by
  rw [records, if_neg (by omega)]

/-- **What is written is read.** -/
theorem records_encode {rs : List (List UInt8)} (h : ∀ r ∈ rs, r.length < 256) {tail : List UInt8}
    (htail : IsCut tail) : records (encode rs ++ tail) = rs := by
  induction rs with
  | nil => exact records_cut htail
  | cons r rs ih =>
      obtain ⟨hr, hrs⟩ := List.forall_mem_cons.mp h
      have hlen : (UInt8.ofNat r.length).toNat = r.length := by
        rw [UInt8.toNat_ofNat']
        exact Nat.mod_eq_of_lt hr
      have hsplit : encode (r :: rs) ++ tail =
          UInt8.ofNat r.length :: (r ++ (encode rs ++ tail)) := by
        unfold encode
        rw [List.flatMap_cons, List.append_assoc]
        rfl
      rw [hsplit, records_cons (by rw [hlen, List.length_append]; omega), hlen, List.take_left,
        List.drop_left, ih hrs]

end LengthPrefixed

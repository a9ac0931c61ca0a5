import Rpsiod.Lib.Digits

/-!
# Percent-encoding

* `Decodes text out`: every `%` of the text starts an escape of two hexadecimal digits, and `out`
  is the text with each escape replaced by the byte it stands for.
* `Decodes.unique`: a text decodes in at most one way.
* `Decodes.split`: the parts on both sides of a byte that is no part of an escape decode apart.
-/

namespace PercentEncoding

open Digits

/-- The byte that an escape with these digits stands for. -/
def escaped (hi lo : UInt8) : UInt8 := UInt8.ofNat (byteDigit hi * 16 + byteDigit lo)

/-- A text and what it decodes to, once. -/
inductive Decodes : List UInt8 → List UInt8 → Prop
  | nil : Decodes [] []
  | plain {c : UInt8} {text out : List UInt8} (hc : c ≠ 37) (h : Decodes text out) :
      Decodes (c :: text) (c :: out)
  | escape {hi lo : UInt8} {text out : List UInt8} (hhi : isHexDigit hi = true)
      (hlo : isHexDigit lo = true) (h : Decodes text out) :
      Decodes (37 :: hi :: lo :: text) (escaped hi lo :: out)

theorem decodes_nil_iff {out : List UInt8} : Decodes [] out ↔ out = [] := by
  constructor
  · intro h
    cases h
    rfl
  · rintro rfl
    exact .nil

theorem decodes_cons_iff {c : UInt8} {text out : List UInt8} (hc : c ≠ 37) :
    Decodes (c :: text) out ↔ ∃ rest, Decodes text rest ∧ out = c :: rest := by
  constructor
  · intro h
    cases h with
    | plain _ h => exact ⟨_, h, rfl⟩
    | escape _ _ _ => exact absurd rfl hc
  · rintro ⟨rest, h, rfl⟩
    exact .plain hc h

theorem decodes_escape_iff {hi lo : UInt8} {text out : List UInt8} :
    Decodes (37 :: hi :: lo :: text) out ↔
      isHexDigit hi = true ∧ isHexDigit lo = true ∧
        ∃ rest, Decodes text rest ∧ out = escaped hi lo :: rest := by
  constructor
  · intro h
    cases h with
    | plain hc _ => exact absurd rfl hc
    | escape hhi hlo h => exact ⟨hhi, hlo, _, h, rfl⟩
  · rintro ⟨hhi, hlo, rest, h, rfl⟩
    exact .escape hhi hlo h

/-- An escape that ends early. -/
theorem not_decodes_of_short {text out : List UInt8} (h : text.length < 2) :
    ¬ Decodes (37 :: text) out := by
  intro hdecodes
  cases hdecodes with
  | plain hc _ => exact hc rfl
  | escape _ _ _ =>
      rw [List.length_cons, List.length_cons] at h
      omega

/-- **A text decodes in at most one way.** -/
theorem Decodes.unique {text out out' : List UInt8} (h : Decodes text out)
    (h' : Decodes text out') : out = out' := by
  induction h generalizing out' with
  | nil => exact (decodes_nil_iff.mp h').symm
  | plain hc _ ih =>
      obtain ⟨rest, hrest, rfl⟩ := (decodes_cons_iff hc).mp h'
      rw [ih hrest]
  | escape _ _ _ ih =>
      obtain ⟨_, _, rest, hrest, rfl⟩ := decodes_escape_iff.mp h'
      rw [ih hrest]

/-- A text without escapes stays as it is. -/
theorem Decodes.eq_self {text out : List UInt8} (h : Decodes text out) (hplain : 37 ∉ text) :
    out = text := by
  induction h with
  | nil => rfl
  | plain _ _ ih => rw [ih fun hmem => hplain (List.mem_cons_of_mem _ hmem)]
  | escape _ _ _ _ => exact absurd List.mem_cons_self hplain

/-- **A byte that is no part of an escape splits the decoding.** -/
theorem Decodes.split {before behind out : List UInt8} {c : UInt8} (hc : c ≠ 37)
    (hhex : isHexDigit c = false) (h : Decodes (before ++ c :: behind) out) :
    ∃ front back, out = front ++ c :: back ∧ Decodes before front ∧ Decodes behind back := by
  generalize htext : before ++ c :: behind = text at h
  induction h generalizing before with
  | nil => exact absurd htext (by simp)
  | @plain d text out hd hrest ih =>
      cases before with
      | nil =>
          obtain ⟨rfl, rfl⟩ := List.cons.inj htext
          exact ⟨[], out, rfl, .nil, hrest⟩
      | cons e before =>
          obtain ⟨rfl, htail⟩ := List.cons.inj htext
          obtain ⟨front, back, rfl, hfront, hback⟩ := ih htail
          exact ⟨e :: front, back, rfl, .plain hd hfront, hback⟩
  | @escape hi lo text out hhi hlo hrest ih =>
      -- the byte is none of the three of the escape
      rcases before with _ | ⟨e, _ | ⟨d, _ | ⟨d', before⟩⟩⟩
      · exact absurd (List.cons.inj htext).1 hc
      · obtain ⟨rfl, -⟩ := List.cons.inj (List.cons.inj htext).2
        rw [hhex] at hhi
        exact absurd hhi Bool.false_ne_true
      · obtain ⟨-, htail⟩ := List.cons.inj (List.cons.inj htext).2
        rw [(List.cons.inj htail).1, hlo] at hhex
        exact absurd hhex.symm Bool.false_ne_true
      · obtain ⟨rfl, hhi'⟩ := List.cons.inj htext
        obtain ⟨rfl, hlo'⟩ := List.cons.inj hhi'
        obtain ⟨rfl, hrest'⟩ := List.cons.inj hlo'
        obtain ⟨front, back, rfl, hfront, hback⟩ := ih hrest'
        exact ⟨_ :: front, back, rfl, .escape hhi hlo hfront, hback⟩

end PercentEncoding

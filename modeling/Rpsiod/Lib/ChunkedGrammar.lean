import Rpsiod.Lib.Chunked

/-!
# The grammar of a chunked body

What a chunked body is, apart from any way to read it: lines with a size in front of as many bytes
of data, a line with the size zero, trailer lines, and an empty line.

* `ChunkLine`, `Trailers`, `Body`: the grammar.
* `DecodesWithin`: the bytes start with a body whose data, all in all, is not larger than a limit.
* `span_append`, `indexOfSub_line`: how a scanner finds the parts of a line, and the end of one.
-/

namespace Chunked

open ListSearch Crlf Digits

/-- Spaces and tabs. -/
def Blanks (s : List UInt8) : Prop := ∀ c ∈ s, c = 32 ∨ c = 9

/-- A line with the size of a chunk: digits with blanks around them, and perhaps an extension. -/
inductive ChunkLine : List UInt8 → ℕ → Prop
  | intro {before digits after extension : List UInt8} (hbefore : Blanks before)
      (ne : digits ≠ []) (hdigits : ∀ c ∈ digits, isHexDigit c = true) (hafter : Blanks after)
      (hextension : extension = [] ∨ extension.head? = some 59)
      (hline : ¬ crlf <:+: before ++ digits ++ after ++ extension) :
      ChunkLine (before ++ digits ++ after ++ extension) (readDigits 16 digits)

theorem ChunkLine.no_crlf {line : List UInt8} {n : ℕ} (h : ChunkLine line n) :
    ¬ crlf <:+: line := by
  cases h
  assumption

/-- Trailer lines. -/
def Trailers (ts : List (List UInt8)) : Prop := ∀ t ∈ ts, t ≠ [] ∧ ¬ crlf <:+: t

/-- A body and its data. -/
inductive Body : List UInt8 → List UInt8 → Prop
  | last {line : List UInt8} {trailers : List (List UInt8)} (hline : ChunkLine line 0)
      (htrailers : Trailers trailers) : Body (line ++ crlf ++ unlines trailers ++ crlf) []
  | chunk {line data rest d : List UInt8} (hline : ChunkLine line data.length) (ne : data ≠ [])
      (hrest : Body rest d) : Body (line ++ crlf ++ data ++ crlf ++ rest) (data ++ d)

/-- There is a body at the front, its data is `d`, and no larger than the limit; so is no chunk. -/
def DecodesWithin (limit : ℕ) (s d : List UInt8) : Prop :=
  ∃ body tail, s = body ++ tail ∧ Body body d ∧ d.length ≤ limit

/-! ### Scanning -/

theorem Blanks.head_not_digit {s : List UInt8} (h : Blanks s) : ∀ c ∈ s, isHexDigit c = false := by
  intro c hc
  rcases h c hc with rfl | rfl
  · rfl
  · rfl

/-- A scanner takes what it is to take and stops in front of the rest. -/
theorem span_append {α : Type*} {p : α → Bool} {a b : List α} (ha : ∀ c ∈ a, p c = true)
    (hb : ∀ c ∈ b.head?, p c = false) :
    (a ++ b).takeWhile p = a ∧ (a ++ b).dropWhile p = b := by
  rw [List.takeWhile_append_of_pos ha, List.dropWhile_append_of_pos ha]
  cases b with
  | nil => simp
  | cons c b =>
      have hc : p c = false := hb c rfl
      simp [hc]

/-- The line in front of a line end, and what is behind it. -/
theorem take_line (line rest : List UInt8) : (line ++ crlf ++ rest).take line.length = line := by
  rw [List.append_assoc, List.take_left]

theorem drop_line (line rest : List UInt8) :
    (line ++ crlf ++ rest).drop (line.length + 2) = rest := by
  rw [show line.length + 2 = (line ++ crlf).length by simp, List.drop_left]

/-- The line end is found behind a line without one. -/
theorem indexOfSub_line {line : List UInt8} (h : ¬ crlf <:+: line) (rest : List UInt8) :
    indexOfSub crlf (line ++ crlf ++ rest) = some line.length := by
  apply indexOfSub_of_isFirst
  · constructor
    · rw [List.append_assoc, List.drop_left]
      exact List.prefix_append crlf rest
    · intro j hj hstart
      rw [List.append_assoc, List.drop_append_of_le_length hj.le] at hstart
      have hlen : (line.drop j).length = line.length - j := List.length_drop
      by_cases htwo : 2 ≤ line.length - j
      · -- both bytes belong to the line
        have hinfix : crlf <+: line.drop j :=
          List.prefix_of_prefix_length_le hstart (List.prefix_append _ _) (by rw [hlen]; exact htwo)
        exact h (List.infix_iff_prefix_suffix.mpr
          ⟨line.drop j, hinfix, List.drop_suffix j line⟩)
      · -- the second is the first of the line end
        obtain ⟨c, hc⟩ : ∃ c, line.drop j = [c] := List.length_eq_one_iff.mp (by omega)
        rw [hc, List.cons_append, List.cons_prefix_cons] at hstart
        have htwo := hstart.2
        simp at htwo
  · simp

/-- A line end that is found stands behind a line without one. -/
theorem line_of_indexOfSub {s : List UInt8} {i : ℕ} (h : indexOfSub crlf s = some i) :
    s = s.take i ++ crlf ++ s.drop (i + 2) ∧ ¬ crlf <:+: s.take i := by
  have hfirst := isFirst_of_indexOfSub h
  constructor
  · obtain ⟨rest, hrest⟩ := hfirst.1
    have hdrop : s.drop (i + 2) = rest := by
      rw [← List.drop_drop, ← hrest]
      rfl
    rw [hdrop, List.append_assoc, hrest, List.take_append_drop]
  · rintro ⟨a, b, hab⟩
    have hlen : a.length + 2 + b.length = (s.take i).length := by
      rw [← hab, List.length_append, List.length_append]
      rfl
    have hle : (s.take i).length ≤ i := List.length_take_le i s
    apply hfirst.2 a.length (by omega)
    refine ⟨b ++ s.drop i, ?_⟩
    have hs : s = a ++ (crlf ++ (b ++ s.drop i)) := by
      conv_lhs => rw [← List.take_append_drop i s, ← hab]
      simp
    conv_rhs => rw [hs, List.drop_left]

end Chunked

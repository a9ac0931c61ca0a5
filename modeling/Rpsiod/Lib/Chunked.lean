import Mathlib.Data.List.TakeWhile
import Rpsiod.Lib.Crlf
import Rpsiod.Lib.Digits

/-!
# The chunked transfer coding (RFC 9112, section 7.1)

A chunked body is a row of chunks, each a line with its size in hexadecimal, its data and a line
end, then a chunk of size zero, optional trailer lines and an empty line.

* `chunk`, `lastChunk`: how a sender writes it.
* `readChunked`: how a receiver reads it, extensions and trailers included; what follows the
  body is given back.
* `readChunked_chunks`: **round trip**, whatever follows.
-/

namespace Chunked

open ListSearch Crlf Digits

/-- One chunk. -/
def chunk (data : List UInt8) : List UInt8 := render 16 data.length ++ crlf ++ data ++ crlf

/-- The end of a chunked body without trailers. -/
def lastChunk : List UInt8 := 48 :: crlf ++ crlf

/-- The size on a chunk line, which may go on with an extension. -/
def chunkSize (line : List UInt8) : Option ℕ :=
  let rest := line.dropWhile isHexDigit
  if line.takeWhile isHexDigit = [] then none
  else if rest = [] ∨ rest.head? = some 59 ∨ rest.head? = some 32 ∨ rest.head? = some 9 then
    some (readDigits 16 (line.takeWhile isHexDigit))
  else none

/-- What follows the trailer section. -/
def skipTrailers (s : List UInt8) : Option (List UInt8) :=
  if crlf <+: s then some (s.drop 2) else (splitHead s).map Prod.snd

/-- The data of the chunks at the front, and what follows the body. -/
def readChunks : ℕ → List UInt8 → Option (List UInt8 × List UInt8)
  | 0, _ => none
  | fuel + 1, s =>
      match indexOfSub crlf s with
      | none => none
      | some i =>
          let after := s.drop (i + 2)
          match chunkSize (s.take i) with
          | none => none
          | some 0 => (skipTrailers after).map fun rest => ([], rest)
          | some (n + 1) =>
              if after.length < n + 3 ∨ ¬ crlf <+: after.drop (n + 1) then none
              else
                (readChunks fuel (after.drop (n + 3))).map fun r =>
                  (after.take (n + 1) ++ r.1, r.2)

/-- A chunked body at the front, and what follows it. -/
def readChunked (s : List UInt8) : Option (List UInt8 × List UInt8) := readChunks (s.length + 1) s

/-! ### Reading what was written -/

theorem not_lf_of_mem_render {n : ℕ} : 10 ∉ render 16 n := by
  intro h
  have := isHexDigit_of_mem_render (by decide) le_rfl h
  exact Bool.noConfusion this

theorem chunkSize_render (n : ℕ) : chunkSize (render 16 n) = some n := by
  have hall : ∀ c ∈ render 16 n, isHexDigit c = true := fun c hc =>
    isHexDigit_of_mem_render (by decide) le_rfl hc
  have htake : (render 16 n).takeWhile isHexDigit = render 16 n :=
    List.takeWhile_eq_self_iff.mpr hall
  have hdrop : (render 16 n).dropWhile isHexDigit = [] := List.dropWhile_eq_nil_iff.mpr hall
  unfold chunkSize
  rw [htake, hdrop, if_neg render_ne_nil, if_pos (Or.inl rfl), readDigits_render (by decide) le_rfl]

/-- A chunk that is written, up to its data. -/
theorem chunk_append (data tail : List UInt8) :
    chunk data ++ tail = render 16 data.length ++ 13 :: 10 :: (data ++ (crlf ++ tail)) := by
  unfold chunk
  simp

/-- Its first line is the length. -/
theorem chunk_line (data tail : List UInt8) :
    indexOfSub crlf (chunk data ++ tail) = some (render 16 data.length).length ∧
      (chunk data ++ tail).take (render 16 data.length).length = render 16 data.length ∧
      (chunk data ++ tail).drop ((render 16 data.length).length + 2) =
        data ++ (crlf ++ tail) := by
  rw [chunk_append]
  refine ⟨indexOfSub_crlf not_lf_of_mem_render _, List.take_left, ?_⟩
  rw [List.drop_length_add_append]
  rfl

/-- The front of a written chunk. -/
theorem readChunks_chunk (fuel : ℕ) {data : List UInt8} (ne : data ≠ []) (tail : List UInt8) :
    readChunks (fuel + 1) (chunk data ++ tail) =
      (readChunks fuel tail).map fun r => (data ++ r.1, r.2) := by
  obtain ⟨n, hn⟩ : ∃ n, data.length = n + 1 :=
    Nat.exists_eq_add_one_of_ne_zero fun h => ne (List.length_eq_zero_iff.mp h)
  obtain ⟨hindex, hline, hafter⟩ := chunk_line data tail
  have hsize : chunkSize ((chunk data ++ tail).take (render 16 data.length).length) =
      some (n + 1) := by
    rw [hline, chunkSize_render, hn]
  rw [readChunks, hindex]
  simp only [hsize, hafter]
  have hend : (data ++ (crlf ++ tail)).drop (n + 1) = crlf ++ tail := by
    rw [← hn, List.drop_left]
  have hrest : (data ++ (crlf ++ tail)).drop (n + 3) = tail := by
    rw [show n + 3 = data.length + 2 by omega, List.drop_length_add_append]
    rfl
  have hdata : (data ++ (crlf ++ tail)).take (n + 1) = data := by
    rw [← hn, List.take_left]
  rw [hend, hrest, hdata, if_neg]
  rintro (hshort | hnot)
  · rw [List.length_append, List.length_append, hn] at hshort
    simp at hshort
    omega
  · exact hnot (List.prefix_append _ _)

theorem readChunks_lastChunk (fuel : ℕ) (tail : List UInt8) :
    readChunks (fuel + 1) (lastChunk ++ tail) = some ([], tail) := by
  have hsplit : lastChunk ++ tail = [48] ++ 13 :: 10 :: (crlf ++ tail) := rfl
  rw [readChunks, hsplit, indexOfSub_crlf (by decide)]
  rfl

theorem readChunks_chunks {segments : List (List UInt8)} (ne : ∀ s ∈ segments, s ≠ [])
    (tail : List UInt8) (fuel : ℕ) (h : segments.length < fuel) :
    readChunks fuel (segments.flatMap chunk ++ (lastChunk ++ tail)) =
      some (segments.flatten, tail) := by
  induction segments generalizing fuel with
  | nil =>
      obtain ⟨fuel, rfl⟩ := Nat.exists_eq_add_one_of_ne_zero (Nat.ne_of_gt h)
      exact readChunks_lastChunk fuel tail
  | cons s segments ih =>
      obtain ⟨fuel, rfl⟩ := Nat.exists_eq_add_one_of_ne_zero (Nat.ne_of_gt (Nat.zero_lt_of_lt h))
      rw [List.length_cons, Nat.succ_lt_succ_iff] at h
      rw [List.flatMap_cons, List.append_assoc, readChunks_chunk fuel (ne s List.mem_cons_self),
        ih (fun t ht => ne t (List.mem_cons_of_mem s ht)) fuel h]
      rfl

theorem length_le_flatMap_chunk (segments : List (List UInt8)) :
    segments.length ≤ (segments.flatMap chunk).length := by
  induction segments with
  | nil => exact le_rfl
  | cons s segments ih =>
      have hchunk : 1 ≤ (chunk s).length := by
        unfold chunk
        simp only [List.length_append]
        have : 1 ≤ crlf.length := by decide
        omega
      rw [List.flatMap_cons, List.length_append, List.length_cons]
      omega

/-- The data are not longer than the chunks. -/
theorem length_flatten_le_flatMap_chunk (segments : List (List UInt8)) :
    segments.flatten.length ≤ (segments.flatMap chunk).length := by
  induction segments with
  | nil => exact le_rfl
  | cons s segments ih =>
      have hchunk : s.length ≤ (chunk s).length := by
        unfold chunk
        simp only [List.length_append]
        omega
      rw [List.flatten_cons, List.flatMap_cons, List.length_append, List.length_append]
      omega

/-- **Round trip**: a chunked body is read back, and what follows it is untouched. -/
theorem readChunked_chunks {segments : List (List UInt8)} (ne : ∀ s ∈ segments, s ≠ [])
    (tail : List UInt8) :
    readChunked (segments.flatMap chunk ++ (lastChunk ++ tail)) =
      some (segments.flatten, tail) := by
  apply readChunks_chunks ne tail
  have := length_le_flatMap_chunk segments
  rw [List.length_append]
  omega

/-! ### What follows a body -/

theorem skipTrailers_append {s rest : List UInt8} (h : skipTrailers s = some rest)
    (e : List UInt8) : skipTrailers (s ++ e) = some (rest ++ e) := by
  unfold skipTrailers at h ⊢
  by_cases hempty : crlf <+: s
  · have hlong : 2 ≤ s.length := hempty.length_le
    rw [if_pos hempty, Option.some.injEq] at h
    rw [if_pos (hempty.trans (List.prefix_append _ _)), List.drop_append_of_le_length hlong, h]
  · rw [if_neg hempty] at h
    obtain ⟨⟨ls, rest'⟩, hsplit, rfl⟩ := Option.map_eq_some_iff.mp h
    have hlong : crlf.length ≤ s.length := by
      obtain ⟨stop, hstop, -⟩ := Option.map_eq_some_iff.mp hsplit
      have hfits : stop + 4 ≤ s.length := indexOfSub_add_length_le hstop
      show 2 ≤ s.length
      omega
    have hnot : ¬ crlf <+: s ++ e := fun hpre =>
      hempty (List.prefix_of_prefix_length_le hpre (List.prefix_append _ _) hlong)
    rw [if_neg hnot, splitHead_append hsplit]
    rfl

/-- The round that reads a chunk, or the last one, does not look at what follows it. -/
theorem readChunks_append {fuel : ℕ} {s : List UInt8} {r : List UInt8 × List UInt8}
    (h : readChunks fuel s = some r) (e : List UInt8) {more : ℕ} (hmore : fuel ≤ more) :
    readChunks more (s ++ e) = some (r.1, r.2 ++ e) := by
  induction fuel generalizing s r more with
  | zero => exact nomatch h
  | succ fuel ih =>
      obtain ⟨more, rfl⟩ := Nat.exists_eq_add_one_of_ne_zero
        (Nat.ne_of_gt (Nat.lt_of_lt_of_le (Nat.succ_pos fuel) hmore))
      unfold readChunks at h
      cases hindex : indexOfSub crlf s with
      | none => simp [hindex] at h
      | some i =>
          have hfits : i + 2 ≤ s.length := indexOfSub_add_length_le hindex
          have htake : (s ++ e).take i = s.take i := List.take_append_of_le_length (by omega)
          have hdrop : (s ++ e).drop (i + 2) = s.drop (i + 2) ++ e :=
            List.drop_append_of_le_length hfits
          unfold readChunks
          rw [indexOfSub_append hindex]
          simp only [hindex] at h
          dsimp only
          rw [htake, hdrop]
          cases hsize : chunkSize (s.take i) with
          | none => simp [hsize] at h
          | some n =>
              rw [hsize] at h
              cases n with
              | zero =>
                  obtain ⟨rest, hskip, rfl⟩ := Option.map_eq_some_iff.mp h
                  dsimp only
                  rw [skipTrailers_append hskip]
                  rfl
              | succ n =>
                  dsimp only at h ⊢
                  split_ifs at h with hbad
                  obtain ⟨hlong, hend⟩ := not_or.mp hbad
                  obtain ⟨r', hrest, rfl⟩ := Option.map_eq_some_iff.mp h
                  set after := s.drop (i + 2)
                  have hlength : n + 3 ≤ after.length := Nat.not_lt.mp hlong
                  have hdata : (after ++ e).drop (n + 1) = after.drop (n + 1) ++ e :=
                    List.drop_append_of_le_length (by omega)
                  rw [if_neg, List.drop_append_of_le_length hlength,
                    List.take_append_of_le_length (by omega), ih hrest (by omega)]
                  · rfl
                  · rw [hdata, List.length_append]
                    rintro (hshort | hnot)
                    · omega
                    · exact hnot ((not_not.mp hend).trans (List.prefix_append _ _))

/-- **What follows a chunked body** is not looked at. -/
theorem readChunked_append {s : List UInt8} {r : List UInt8 × List UInt8}
    (h : readChunked s = some r) (e : List UInt8) :
    readChunked (s ++ e) = some (r.1, r.2 ++ e) :=
  readChunks_append h e (by rw [List.length_append]; omega)

end Chunked

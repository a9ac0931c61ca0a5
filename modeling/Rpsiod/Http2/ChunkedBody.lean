import Rpsiod.Lib.ChunkedGrammar
import Rpsiod.Http2.Response

/-!
# Decoding a chunked body by index (`decode_chunked_body`)

The function of `http2.c` works on the whole body with one index, `off`, and compares it with the
length before every read.  Here each read, each copy and each subtraction is checked: one that goes
outside of its bytes would make the result `outside`.

* `Reading`, `byteAt`, `decodeAt`, `decodeChunkedBodyAt`: the function, read by read.
* `nextLine_eq`, `chunkLineAt_eq`, `trailersAt_eq`, `decodeAt_eq`: each loop ends and does what the
  model on lists does.
* `chunkLineSize_eq_some_iff`, `trailersEnd_iff`, `decodeChunkedBody_iff`: what is accepted.
* `decodeChunkedBodyAt_spec`: **the decoder returns a body's data exactly if the bytes start with that
  body, and -1 otherwise**; it always returns, and never leaves its bytes.
-/

namespace Rpsiod

open ListSearch Crlf Chunked Digits

/-- How far a computation over some bytes has come. -/
inductive Reading (α : Type) where
  | done (a : α)
  /-- `return -1`. -/
  | refused
  /-- A byte outside has been touched. -/
  | outside
  /-- The loop is not over. -/
  | running
  deriving DecidableEq

/-- The next statement. -/
def Reading.andThen {α β : Type} (r : Reading α) (next : α → Reading β) : Reading β :=
  match r with
  | .done a => next a
  | .refused => .refused
  | .outside => .outside
  | .running => .running

/-- A result or -1. -/
def Reading.ofOption {α : Type} : Option α → Reading α
  | some a => .done a
  | none => .refused

@[simp] theorem Reading.andThen_done {α β : Type} (a : α) (next : α → Reading β) :
    (Reading.done a).andThen next = next a := rfl

@[simp] theorem Reading.andThen_refused {α β : Type} (next : α → Reading β) :
    (Reading.refused : Reading α).andThen next = .refused := rfl

@[simp] theorem Reading.ofOption_some {α : Type} (a : α) : Reading.ofOption (some a) = .done a := rfl

@[simp] theorem Reading.ofOption_none {α : Type} :
    Reading.ofOption (none : Option α) = .refused := rfl

/-! ### The function, read by read -/

/-- `body[i]`. -/
def byteAt (body : Bytes) (i : ℕ) : Reading UInt8 :=
  match body[i]? with
  | some c => .done c
  | none => .outside

/-- `n` bytes from `off`, as `memcpy` reads them. -/
def bytesAt (body : Bytes) (off n : ℕ) : Reading Bytes :=
  if off + n ≤ body.length then .done ((body.drop off).take n) else .outside

/-- `body_len - off`, which must not wrap. -/
def leftAt (body : Bytes) (off : ℕ) : Reading ℕ :=
  if off ≤ body.length then .done (body.length - off) else .outside

/-- `while (off + 1 < body_len && !(body[off] == '\r' && body[off + 1] == '\n')) off++;` -/
def scanLine (body : Bytes) : ℕ → ℕ → Reading ℕ
  | 0, _ => .running
  | fuel + 1, off =>
      if off + 1 < body.length then
        (byteAt body off).andThen fun c =>
          if c = 13 then
            (byteAt body (off + 1)).andThen fun d =>
              if d = 10 then .done off else scanLine body fuel (off + 1)
          else scanLine body fuel (off + 1)
      else .done off

/-- The length of the line at `off`, and where the next one starts. -/
def nextLine (body : Bytes) (off : ℕ) : Reading (ℕ × ℕ) :=
  (scanLine body (body.length + 1) off).andThen fun stop =>
    if body.length ≤ stop + 1 then .refused else .done (stop - off, stop + 2)

/-- The loops over the blanks of a line. -/
def skipBlanks (body : Bytes) (lineStart lineLen : ℕ) : ℕ → ℕ → Reading ℕ
  | 0, _ => .running
  | fuel + 1, i =>
      if i < lineLen then
        (byteAt body (lineStart + i)).andThen fun c =>
          if isBlank c then skipBlanks body lineStart lineLen fuel (i + 1) else .done i
      else .done i

/-- The loop over the digits: `i`, `chunk_len` and `saw_digit` behind it. -/
def scanDigits (body : Bytes) (lineStart lineLen : ℕ) :
    ℕ → ℕ → ℕ → Bool → Reading (ℕ × ℕ × Bool)
  | 0, _, _, _ => .running
  | fuel + 1, i, chunkLen, sawDigit =>
      if i < lineLen then
        (byteAt body (lineStart + i)).andThen fun ch =>
          match chunkDigit ch with
          | none => .done (i, chunkLen, sawDigit)
          | some digit =>
              if (h2MaxResponse - digit) / 16 < chunkLen then .refused
              else scanDigits body lineStart lineLen fuel (i + 1) (chunkLen * 16 + digit) true
      else .done (i, chunkLen, sawDigit)

/-- The size on the line at `lineStart`. -/
def chunkLineAt (body : Bytes) (lineStart lineLen : ℕ) : Reading ℕ :=
  (skipBlanks body lineStart lineLen (lineLen + 1) 0).andThen fun i =>
    if i = lineLen then .refused
    else
      (scanDigits body lineStart lineLen (lineLen + 1) i 0 false).andThen fun r =>
        (skipBlanks body lineStart lineLen (lineLen + 1) r.1).andThen fun k =>
          if !r.2.2 then .refused
          else if k < lineLen then
            (byteAt body (lineStart + k)).andThen fun c =>
              if c ≠ 59 then .refused else .done r.2.1
          else .done r.2.1

/-- The loop over the trailer lines. -/
def trailersAt (body : Bytes) : ℕ → ℕ → Reading Unit
  | 0, _ => .running
  | fuel + 1, off =>
      (nextLine body off).andThen fun r => if r.1 = 0 then .done () else trailersAt body fuel r.2

/-- The loop that looks for a capacity. -/
def growTo (need : ℕ) : ℕ → ℕ → Reading ℕ
  | 0, _ => .running
  | fuel + 1, next =>
      if next < need then
        if h2MaxResponse / 2 < next then .done h2MaxResponse else growTo need fuel (next * 2)
      else .done next

/-- The capacity before `chunk_len` more bytes are copied; `realloc` succeeds. -/
def reserve (decodedLen decodedCap chunkLen : ℕ) : Reading ℕ :=
  if decodedCap < decodedLen + chunkLen then
    growTo (decodedLen + chunkLen) (decodedLen + chunkLen + 1)
      (if decodedCap = 0 then 8192 else decodedCap)
  else .done decodedCap

/-- The loop of `decode_chunked_body`. -/
def decodeAt (body : Bytes) : ℕ → ℕ → Bytes → ℕ → Reading Bytes
  | 0, _, _, _ => .running
  | fuel + 1, off, decoded, decodedCap =>
      (nextLine body off).andThen fun line =>
        (chunkLineAt body off line.1).andThen fun chunkLen =>
          if chunkLen = 0 then
            (trailersAt body (body.length + 1) line.2).andThen fun _ => .done decoded
          else
            (leftAt body line.2).andThen fun left =>
              if left < chunkLen || h2MaxResponse < chunkLen ||
                  h2MaxResponse - chunkLen < decoded.length then .refused
              else
                (reserve decoded.length decodedCap chunkLen).andThen fun decodedCap =>
                  if decodedCap < decoded.length + chunkLen then .outside
                  else
                    (bytesAt body line.2 chunkLen).andThen fun data =>
                      (leftAt body (line.2 + chunkLen)).andThen fun left =>
                        if left < 2 then .refused
                        else
                          (byteAt body (line.2 + chunkLen)).andThen fun c =>
                            if c ≠ 13 then .refused
                            else
                              (byteAt body (line.2 + chunkLen + 1)).andThen fun d =>
                                if d ≠ 10 then .refused
                                else
                                  decodeAt body fuel (line.2 + chunkLen + 2) (decoded ++ data)
                                    decodedCap

/-- `decode_chunked_body`, read by read. -/
def decodeChunkedBodyAt (body : Bytes) : Reading Bytes := decodeAt body (body.length + 1) 0 [] 0

/-! ### Every loop ends -/

theorem byteAt_of_lt {body : Bytes} {i : ℕ} (h : i < body.length) : byteAt body i = .done body[i] := by
  unfold byteAt
  rw [List.getElem?_eq_getElem h]

/-- The scan for a line end stops in front of the first one, or at the end of the bytes. -/
theorem scanLine_spec (body : Bytes) (fuel off : ℕ) (hoff : off ≤ body.length)
    (hfuel : body.length - off < fuel) :
    ∃ stop, scanLine body fuel off = .done stop ∧
      ((∃ i, indexOfSub crlf (body.drop off) = some i ∧ stop = off + i) ∨
        (indexOfSub crlf (body.drop off) = none ∧ body.length ≤ stop + 1)) := by
  induction fuel generalizing off with
  | zero => omega
  | succ fuel ih =>
      unfold scanLine
      by_cases hlt : off + 1 < body.length
      · have hfirst : body.drop off = body[off] :: body.drop (off + 1) :=
          List.drop_eq_getElem_cons (by omega)
        have hsecond : body.drop (off + 1) = body[off + 1] :: body.drop (off + 2) :=
          List.drop_eq_getElem_cons hlt
        -- no line end starts here
        have hnext : ¬ crlf <+: body.drop off → ∃ stop, scanLine body fuel (off + 1) = .done stop ∧
            ((∃ i, indexOfSub crlf (body.drop off) = some i ∧ stop = off + i) ∨
              (indexOfSub crlf (body.drop off) = none ∧ body.length ≤ stop + 1)) := by
          intro hnot
          obtain ⟨stop, hscan, hstop⟩ := ih (off + 1) (by omega) (by omega)
          have hindex : indexOfSub crlf (body.drop off) =
              (indexOfSub crlf (body.drop (off + 1))).map (· + 1) := by
            rw [hfirst] at hnot ⊢
            exact indexOfSub_cons_of_not_start hnot
          refine ⟨stop, hscan, ?_⟩
          rw [hindex]
          rcases hstop with ⟨i, hi, heq⟩ | ⟨hnone, hend⟩
          · exact Or.inl ⟨i + 1, by rw [hi]; rfl, by omega⟩
          · exact Or.inr ⟨by rw [hnone]; rfl, hend⟩
        rw [if_pos hlt, byteAt_of_lt (by omega), byteAt_of_lt hlt]
        simp only [Reading.andThen_done]
        split_ifs with hcr hlf
        · refine ⟨off, rfl, Or.inl ⟨0, ?_, rfl⟩⟩
          rw [hfirst, hsecond, hcr, hlf]
          exact indexOfSub_cons_of_start (List.prefix_append crlf _)
        · apply hnext
          rw [hfirst, hsecond, List.cons_prefix_cons, List.cons_prefix_cons]
          exact fun hstart => hlf hstart.2.1.symm
        · apply hnext
          rw [hfirst, List.cons_prefix_cons]
          exact fun hstart => hcr hstart.1.symm
      · refine ⟨off, by rw [if_neg hlt], Or.inr ⟨?_, by omega⟩⟩
        cases hindex : indexOfSub crlf (body.drop off) with
        | none => rfl
        | some i =>
            have hle := indexOfSub_add_length_le hindex
            simp at hle
            omega

theorem nextLine_eq {body : Bytes} {off : ℕ} (hoff : off ≤ body.length) :
    nextLine body off =
      .ofOption ((indexOfSub crlf (body.drop off)).map fun i => (i, off + i + 2)) := by
  obtain ⟨stop, hscan, hstop⟩ := scanLine_spec body (body.length + 1) off hoff (by omega)
  unfold nextLine
  rw [hscan, Reading.andThen_done]
  rcases hstop with ⟨i, hi, heq⟩ | ⟨hnone, hend⟩
  · have hle := indexOfSub_add_length_le hi
    simp at hle
    rw [hi, if_neg (by omega), heq, Nat.add_sub_cancel_left]
    rfl
  · rw [hnone, if_pos hend]
    rfl

section Line

variable {body : Bytes} {lineStart lineLen : ℕ}

/-- The byte at `i` of the line is the first of what is left of it. -/
theorem byteAt_line (hline : lineStart + lineLen ≤ body.length) {i : ℕ} (hi : i < lineLen) :
    ∃ c, byteAt body (lineStart + i) = .done c ∧
      ((body.drop lineStart).take lineLen).drop i =
        c :: ((body.drop lineStart).take lineLen).drop (i + 1) := by
  have hlen : i < ((body.drop lineStart).take lineLen).length := by
    rw [List.length_take, List.length_drop]
    omega
  have hin : lineStart + i < body.length := by omega
  refine ⟨body[lineStart + i], byteAt_of_lt hin, ?_⟩
  rw [List.drop_eq_getElem_cons hlen]
  simp

theorem drop_line_end :
    ((body.drop lineStart).take lineLen).drop lineLen = [] := by
  apply List.drop_eq_nil_of_le
  exact List.length_take_le _ _

theorem skipBlanks_spec (hline : lineStart + lineLen ≤ body.length) (fuel i : ℕ)
    (hi : i ≤ lineLen) (hfuel : lineLen - i < fuel) :
    ∃ j, skipBlanks body lineStart lineLen fuel i = .done j ∧ i ≤ j ∧ j ≤ lineLen ∧
      ((body.drop lineStart).take lineLen).drop j =
        (((body.drop lineStart).take lineLen).drop i).dropWhile isBlank := by
  induction fuel generalizing i with
  | zero => omega
  | succ fuel ih =>
      unfold skipBlanks
      by_cases hlt : i < lineLen
      · obtain ⟨c, hbyte, hcons⟩ := byteAt_line hline hlt
        rw [if_pos hlt, hbyte, Reading.andThen_done, hcons]
        split_ifs with hblank
        · obtain ⟨j, hskip, hij, hj, hdrop⟩ := ih (i + 1) (by omega) (by omega)
          refine ⟨j, hskip, by omega, hj, ?_⟩
          rw [List.dropWhile_cons_of_pos hblank]
          exact hdrop
        · refine ⟨i, rfl, le_rfl, hi, ?_⟩
          rw [List.dropWhile_cons_of_neg hblank]
          exact hcons
      · have heq : i = lineLen := by omega
        refine ⟨i, by rw [if_neg hlt], le_rfl, hi, ?_⟩
        rw [heq, drop_line_end]
        rfl

theorem scanDigits_spec (hline : lineStart + lineLen ≤ body.length) (fuel i n : ℕ)
    (sawDigit : Bool) (hi : i ≤ lineLen) (hfuel : lineLen - i < fuel) :
    (chunkDigits n (((body.drop lineStart).take lineLen).drop i) = none ∧
      scanDigits body lineStart lineLen fuel i n sawDigit = .refused) ∨
    ∃ j m, chunkDigits n (((body.drop lineStart).take lineLen).drop i) =
        some (m, ((body.drop lineStart).take lineLen).drop j) ∧
      scanDigits body lineStart lineLen fuel i n sawDigit =
        .done (j, m, sawDigit || decide (i < j)) ∧ i ≤ j ∧ j ≤ lineLen := by
  induction fuel generalizing i n sawDigit with
  | zero => omega
  | succ fuel ih =>
      unfold scanDigits
      by_cases hlt : i < lineLen
      · obtain ⟨c, hbyte, hcons⟩ := byteAt_line hline hlt
        rw [if_pos hlt, hbyte, Reading.andThen_done, hcons, chunkDigits]
        cases hdigit : chunkDigit c with
        | none =>
            refine Or.inr ⟨i, n, ?_, ?_, le_rfl, hi⟩
            · dsimp only
              rw [hcons]
            · simp
        | some digit =>
            dsimp only
            split_ifs with hlarge
            · exact Or.inl ⟨rfl, rfl⟩
            · rcases ih (i + 1) (n * 16 + digit) true (by omega) (by omega) with
                ⟨hnone, hrefused⟩ | ⟨j, m, hsome, hdone, hij, hj⟩
              · exact Or.inl ⟨hnone, hrefused⟩
              · refine Or.inr ⟨j, m, hsome, ?_, by omega, hj⟩
                rw [hdone, decide_eq_true (show i < j by omega)]
                simp
      · have heq : i = lineLen := by omega
        refine Or.inr ⟨i, n, ?_, ?_, le_rfl, hi⟩
        · rw [heq, drop_line_end]
          rfl
        · rw [if_neg hlt]
          simp

/-- The size on the line. -/
theorem chunkLineAt_eq (hline : lineStart + lineLen ≤ body.length) :
    chunkLineAt body lineStart lineLen =
      .ofOption (chunkLineSize ((body.drop lineStart).take lineLen)) := by
  set line := (body.drop lineStart).take lineLen with hdef
  have hlen : line.length = lineLen := by
    rw [hdef, List.length_take, List.length_drop]
    omega
  obtain ⟨i, hskip, -, hi, hstart⟩ := skipBlanks_spec hline (lineLen + 1) 0 (by omega) (by omega)
  rw [← hdef, List.drop_zero] at hstart
  unfold chunkLineAt chunkLineSize
  rw [hskip, Reading.andThen_done]
  dsimp only
  rw [← hstart]
  by_cases hend : i = lineLen
  · rw [if_pos hend, if_pos]
    · rfl
    · rw [hend]
      exact drop_line_end
  have hne : line.drop i ≠ [] := by
    apply List.ne_nil_of_length_pos
    rw [List.length_drop]
    omega
  rw [if_neg hend, if_neg hne]
  rcases scanDigits_spec hline (lineLen + 1) i 0 false hi (by omega) with
    ⟨hnone, hrefused⟩ | ⟨j, m, hsome, hdone, hij, hj⟩
  · rw [hrefused]
    rw [← hdef] at hnone
    rw [hnone]
    rfl
  · obtain ⟨k, hblanks, hjk, hk, hmore⟩ := skipBlanks_spec hline (lineLen + 1) j hj (by omega)
    rw [← hdef] at hsome hmore
    rw [hdone, hsome]
    simp only [Reading.andThen_done, Bool.false_or]
    rw [hblanks]
    simp only [Reading.andThen_done]
    rw [← hmore, List.length_drop, List.length_drop]
    by_cases hsaw : i < j
    · have hlength : decide (line.length - j = line.length - i) = false :=
        decide_eq_false (by omega)
      rw [hlength, decide_eq_true hsaw, Bool.false_or]
      by_cases hmoreLt : k < lineLen
      · obtain ⟨c, hbyte, hcons⟩ := byteAt_line hline hmoreLt
        rw [← hdef] at hcons
        rw [hbyte, hcons]
        by_cases hsemi : c = 59
        · simp [hmoreLt, hsemi]
        · simp [hmoreLt, hsemi]
      · have heq : k = lineLen := by omega
        have hnil : line.drop k = [] := by
          rw [heq]
          exact drop_line_end
        rw [hnil]
        simp [hmoreLt]
    · have hlength : decide (line.length - j = line.length - i) = true :=
        decide_eq_true (by omega)
      rw [hlength, decide_eq_false hsaw, Bool.true_or]
      rfl

end Line

theorem trailersAt_eq {body : Bytes} (fuel fuel' off : ℕ) (hoff : off ≤ body.length)
    (hfuel : body.length - off < fuel) (hfuel' : body.length - off < fuel') :
    trailersAt body fuel off =
      if trailersEnd fuel' (body.drop off) then .done () else .refused := by
  induction fuel generalizing fuel' off with
  | zero => omega
  | succ fuel ih =>
      obtain ⟨fuel', rfl⟩ := Nat.exists_eq_add_one_of_ne_zero (Nat.ne_of_gt (Nat.zero_lt_of_lt hfuel'))
      unfold trailersAt trailersEnd
      rw [nextLine_eq hoff]
      cases hindex : indexOfSub crlf (body.drop off) with
      | none => rfl
      | some i =>
          have hle := indexOfSub_add_length_le hindex
          simp at hle
          simp only [Option.map_some, Reading.ofOption_some, Reading.andThen_done, List.drop_drop]
          by_cases hzero : i = 0
          · simp [hzero]
          · rw [if_neg hzero, ih fuel' (off + i + 2) (by omega) (by omega) (by omega),
              decide_eq_false hzero, Bool.false_or, Nat.add_assoc]

/-- The capacity that is found is large enough. -/
theorem growTo_spec {need : ℕ} (hneed : need ≤ h2MaxResponse) (fuel next : ℕ) (hpos : 0 < next)
    (hfuel : need - next < fuel) : ∃ cap, growTo need fuel next = .done cap ∧ need ≤ cap := by
  induction fuel generalizing next with
  | zero => omega
  | succ fuel ih =>
      unfold growTo
      split_ifs with hsmall hlarge
      · exact ⟨h2MaxResponse, rfl, hneed⟩
      · exact ih (next * 2) (by omega) (by omega)
      · exact ⟨next, rfl, by omega⟩

theorem reserve_spec {decodedLen decodedCap chunkLen : ℕ}
    (h : decodedLen + chunkLen ≤ h2MaxResponse) :
    ∃ cap, reserve decodedLen decodedCap chunkLen = .done cap ∧ decodedLen + chunkLen ≤ cap := by
  unfold reserve
  split_ifs with hsmall hzero
  · exact growTo_spec h _ _ (by decide) (by omega)
  · exact growTo_spec h _ _ (Nat.pos_of_ne_zero hzero) (by omega)
  · exact ⟨decodedCap, rfl, by omega⟩

/-- The line end behind a chunk is looked for where two bytes are left. -/
theorem isPrefixOf_crlf_drop {body : Bytes} {k : ℕ} (h : k + 1 < body.length) :
    crlf.isPrefixOf (body.drop k) = (decide (body[k] = 13) && decide (body[k + 1] = 10)) := by
  have hfirst : body.drop k = body[k] :: body.drop (k + 1) := List.drop_eq_getElem_cons (by omega)
  have hsecond : body.drop (k + 1) = body[k + 1] :: body.drop (k + 2) :=
    List.drop_eq_getElem_cons h
  rw [hfirst, hsecond, Bool.eq_iff_iff, List.isPrefixOf_iff_prefix, List.cons_prefix_cons,
    List.cons_prefix_cons, Bool.and_eq_true, decide_eq_true_iff, decide_eq_true_iff]
  exact ⟨fun hstart => ⟨hstart.1.symm, hstart.2.1.symm⟩,
    fun heq => ⟨heq.1.symm, heq.2.symm, List.nil_prefix⟩⟩

theorem not_isPrefixOf_crlf_drop {body : Bytes} {k : ℕ} (h : body.length - k < 2) :
    crlf.isPrefixOf (body.drop k) = false := by
  rw [Bool.eq_false_iff, ne_eq, List.isPrefixOf_iff_prefix]
  intro hstart
  have hle := hstart.length_le
  simp at hle
  omega

/-- The loop, read by read, is the loop on lists. -/
theorem decodeAt_eq {body : Bytes} (fuel off : ℕ) (decoded : Bytes) (decodedCap : ℕ)
    (hoff : off ≤ body.length) (hfuel : body.length - off < fuel)
    (hdecoded : decoded.length ≤ h2MaxResponse) :
    decodeAt body fuel off decoded decodedCap =
      .ofOption (decodeChunks fuel (body.drop off) decoded) := by
  induction fuel generalizing off decoded decodedCap with
  | zero => omega
  | succ fuel ih =>
      unfold decodeAt decodeChunks
      rw [nextLine_eq hoff]
      cases hindex : indexOfSub crlf (body.drop off) with
      | none => rfl
      | some i =>
          have hle := indexOfSub_add_length_le hindex
          simp at hle
          simp only [Option.map_some, Reading.ofOption_some, Reading.andThen_done, List.drop_drop]
          rw [chunkLineAt_eq (by omega)]
          cases hsize : chunkLineSize ((body.drop off).take i) with
          | none => rfl
          | some chunkLen =>
              rw [show off + (i + 2) = off + i + 2 by omega]
              set behind := off + i + 2 with hbehind
              have hleft : (body.drop behind).length = body.length - behind := List.length_drop
              simp only [Reading.ofOption_some, Reading.andThen_done]
              by_cases hzero : chunkLen = 0
              · rw [if_pos hzero, if_pos hzero,
                  trailersAt_eq _ ((body.drop behind).length + 1) _ (by omega) (by omega) (by omega)]
                split_ifs
                · rfl
                · rfl
              rw [if_neg hzero, if_neg hzero, leftAt, if_pos (by omega), Reading.andThen_done, hleft]
              by_cases hlimit : (body.length - behind < chunkLen || h2MaxResponse < chunkLen ||
                  h2MaxResponse - chunkLen < decoded.length) = true
              · rw [if_pos hlimit, if_pos hlimit]
                rfl
              rw [if_neg hlimit, if_neg hlimit]
              simp only [Bool.or_eq_true, decide_eq_true_iff, not_or, not_lt] at hlimit
              obtain ⟨⟨hdata, hchunk⟩, htotal⟩ := hlimit
              -- the chunk fits into the buffer, and lies within the body
              obtain ⟨cap, hreserve, hcap⟩ :=
                @reserve_spec decoded.length decodedCap chunkLen (by omega)
              rw [hreserve, Reading.andThen_done, if_neg (by omega), bytesAt, if_pos (by omega),
                Reading.andThen_done, leftAt, if_pos (by omega), Reading.andThen_done]
              by_cases hshort : body.length - (behind + chunkLen) < 2
              · rw [if_pos hshort, not_isPrefixOf_crlf_drop hshort]
                rfl
              rw [if_neg hshort, byteAt_of_lt (by omega), Reading.andThen_done,
                isPrefixOf_crlf_drop (by omega)]
              have hfirst : behind + chunkLen < body.length := by omega
              have hsecond : behind + chunkLen + 1 < body.length := by omega
              by_cases hcr : body[behind + chunkLen] = 13
              · rw [if_neg (not_not_intro hcr), byteAt_of_lt (by omega), Reading.andThen_done]
                by_cases hlf : body[behind + chunkLen + 1] = 10
                · rw [if_neg (not_not_intro hlf), if_neg (by simp [hcr, hlf]),
                    ih _ _ _ (by omega) (by omega)]
                  · rw [Nat.add_assoc behind chunkLen 2]
                  · rw [List.length_append, List.length_take]
                    omega
                · rw [if_pos hlf, if_pos (by simp [hlf])]
                  rfl
              · rw [if_pos hcr, if_pos (by simp [hcr])]
                rfl

/-- **The function, read by read, is the function on lists**: it returns, and stays within its
bytes. -/
theorem decodeChunkedBodyAt_eq (body : Bytes) :
    decodeChunkedBodyAt body = .ofOption (decodeChunkedBody body) :=
  decodeAt_eq (body.length + 1) 0 [] 0 (Nat.zero_le _) (by omega) (Nat.zero_le _)

/-! ### What is accepted -/

theorem chunkDigit_eq (c : UInt8) :
    chunkDigit c = if isHexDigit c then some (byteDigit c) else none := by
  have hall : ∀ n : Fin 256, chunkDigit (UInt8.ofNat n) =
      if isHexDigit (UInt8.ofNat n) then some (byteDigit (UInt8.ofNat n)) else none := by
    decide +kernel
  have hc := hall ⟨c.toNat, c.toNat_lt⟩
  simpa using hc

theorem byteDigit_lt (c : UInt8) (h : isHexDigit c = true) : byteDigit c < 16 := by
  have hall : ∀ n : Fin 256, isHexDigit (UInt8.ofNat n) = true → byteDigit (UInt8.ofNat n) < 16 := by
    decide +kernel
  have hc := hall ⟨c.toNat, c.toNat_lt⟩
  simp only [UInt8.ofNat_toNat] at hc
  exact hc h

/-- The number of the digits that are read so far. -/
def addDigits (n : ℕ) (ds : Bytes) : ℕ := ds.foldl (fun n c => n * 16 + byteDigit c) n

theorem le_addDigits (n : ℕ) (ds : Bytes) : n ≤ addDigits n ds := by
  induction ds generalizing n with
  | nil => exact le_rfl
  | cons c ds ih =>
      refine le_trans ?_ (ih (n * 16 + byteDigit c))
      omega

/-- The size is refused exactly if it is too large. -/
theorem chunkDigits_scan (s : Bytes) {n : ℕ} (hn : n ≤ h2MaxResponse) :
    chunkDigits n s =
      if addDigits n (s.takeWhile isHexDigit) ≤ h2MaxResponse then
        some (addDigits n (s.takeWhile isHexDigit), s.dropWhile isHexDigit)
      else none := by
  induction s generalizing n with
  | nil => exact (if_pos hn).symm
  | cons c s ih =>
      rw [chunkDigits, chunkDigit_eq]
      by_cases hc : isHexDigit c = true
      · have hlt := byteDigit_lt c hc
        rw [if_pos hc, List.takeWhile_cons_of_pos hc, List.dropWhile_cons_of_pos hc]
        have hcons : addDigits n (c :: s.takeWhile isHexDigit) =
            addDigits (n * 16 + byteDigit c) (s.takeWhile isHexDigit) := rfl
        have hgrow := le_addDigits (n * 16 + byteDigit c) (s.takeWhile isHexDigit)
        rw [hcons]
        dsimp only
        by_cases hlarge : (h2MaxResponse - byteDigit c) / 16 < n
        · have hmax : 16 ≤ h2MaxResponse := by decide
          rw [if_pos hlarge, if_neg (by omega)]
        · have hmax : 16 ≤ h2MaxResponse := by decide
          rw [if_neg hlarge, ih (by omega)]
      · rw [if_neg hc, List.takeWhile_cons_of_neg hc, List.dropWhile_cons_of_neg hc]
        exact (if_pos hn).symm

theorem isBlank_iff (c : UInt8) : isBlank c = true ↔ c = 32 ∨ c = 9 := by
  simp [isBlank]

theorem blanks_takeWhile (s : Bytes) : Blanks (s.takeWhile isBlank) := fun _ hc =>
  (isBlank_iff _).mp (List.mem_takeWhile_imp hc)

theorem not_blank_of_hexDigit {c : UInt8} (h : isHexDigit c = true) : isBlank c = false := by
  rw [Bool.eq_false_iff, ne_eq, isBlank_iff]
  rintro (rfl | rfl)
  · exact Bool.false_ne_true h
  · exact Bool.false_ne_true h

/-- A size is found on the lines with one that is not too large. -/
theorem chunkLineSize_eq_some_iff {line : Bytes} (hline : ¬ crlf <:+: line) {n : ℕ} :
    chunkLineSize line = some n ↔ ChunkLine line n ∧ n ≤ h2MaxResponse := by
  constructor
  · intro h
    unfold chunkLineSize at h
    dsimp only at h
    set start := line.dropWhile isBlank with hstart
    rw [chunkDigits_scan start (Nat.zero_le _)] at h
    by_cases hnil : start = []
    · rw [if_pos hnil] at h
      exact absurd h.symm (Option.some_ne_none n)
    rw [if_neg hnil] at h
    by_cases hsize : addDigits 0 (start.takeWhile isHexDigit) ≤ h2MaxResponse
    · rw [if_pos hsize] at h
      dsimp only at h
      set digits := start.takeWhile isHexDigit with hdigits
      set rest := start.dropWhile isHexDigit with hrest
      have hsplit : digits ++ rest = start := List.takeWhile_append_dropWhile
      have hmore : rest.takeWhile isBlank ++ rest.dropWhile isBlank = rest :=
        List.takeWhile_append_dropWhile
      have hfront : line.takeWhile isBlank ++ start = line := List.takeWhile_append_dropWhile
      have hparts : line.takeWhile isBlank ++ digits ++ rest.takeWhile isBlank ++
          rest.dropWhile isBlank = line := by
        rw [List.append_assoc, List.append_assoc, hmore, hsplit, hfront]
      split_ifs at h with hcond
      simp only [Bool.or_eq_true, Bool.and_eq_true, decide_eq_true_iff, not_or, not_and_or,
        not_not] at hcond
      obtain ⟨hsaw, hextension⟩ := hcond
      rw [Option.some.injEq] at h
      refine ⟨?_, h ▸ hsize⟩
      rw [← hparts, ← h]
      refine .intro (blanks_takeWhile line) ?_ (fun c hc => List.mem_takeWhile_imp hc)
        (blanks_takeWhile rest) hextension ?_
      · intro hempty
        rw [hempty, List.nil_append] at hsplit
        exact hsaw (congrArg List.length hsplit)
      · rw [hparts]
        exact hline
    · rw [if_neg hsize] at h
      exact absurd h.symm (Option.some_ne_none n)
  · rintro ⟨hchunk, hn⟩
    cases hchunk with
    | @intro before digits after extension hbefore ne hdigits hafter hextension _ =>
        have hblank : ∀ {s : Bytes}, Blanks s → ∀ c ∈ s, isBlank c = true := fun hs c hc =>
          (isBlank_iff c).mpr (hs c hc)
        obtain ⟨d, ds, hcons⟩ := List.exists_cons_of_ne_nil ne
        -- behind the blanks come the digits, then blanks, then the extension
        have hstart := (@span_append _ isBlank before (digits ++ (after ++ extension))
          (hblank hbefore) (by
            intro c hc
            rw [hcons] at hc
            cases hc
            exact not_blank_of_hexDigit (hdigits d (hcons ▸ List.mem_cons_self)))).2
        have hscan := @span_append _ isHexDigit digits (after ++ extension) hdigits (by
          intro c hc
          cases after with
          | nil =>
              rcases hextension with rfl | hhead
              · cases hc
              · rw [List.nil_append, hhead] at hc
                cases hc
                rfl
          | cons a after =>
              cases hc
              exact hafter.head_not_digit _ List.mem_cons_self)
        have hmore := (@span_append _ isBlank after extension (hblank hafter) (by
          intro c hc
          rcases hextension with rfl | hhead
          · cases hc
          · rw [hhead] at hc
            cases hc
            rfl)).2
        have hassoc : before ++ digits ++ after ++ extension =
            before ++ (digits ++ (after ++ extension)) := by
          rw [List.append_assoc, List.append_assoc]
        unfold chunkLineSize
        dsimp only
        rw [hassoc, hstart, if_neg (by simp [ne]), chunkDigits_scan _ (Nat.zero_le _), hscan.1,
          hscan.2]
        have hvalue : addDigits 0 digits = readDigits 16 digits := rfl
        rw [hvalue, if_pos hn]
        dsimp only
        rw [hmore, if_neg]
        simp only [Bool.or_eq_true, Bool.and_eq_true, decide_eq_true_iff, not_or, not_and_or,
          not_not]
        refine ⟨?_, hextension⟩
        rw [List.length_append, List.length_append, List.length_append]
        have hpos := List.length_pos_of_ne_nil ne
        omega

/-- The trailer section ends. -/
theorem trailersEnd_iff {s : Bytes} {fuel : ℕ} (hfuel : s.length < fuel) :
    trailersEnd fuel s = true ↔
      ∃ trailers tail, s = unlines trailers ++ crlf ++ tail ∧ Trailers trailers := by
  constructor
  · intro h
    clear hfuel
    induction fuel generalizing s with
    | zero => exact absurd h Bool.false_ne_true
    | succ fuel ih =>
        unfold trailersEnd at h
        cases hindex : indexOfSub crlf s with
        | none =>
            rw [hindex] at h
            exact absurd h Bool.false_ne_true
        | some i =>
            obtain ⟨hsplit, hline⟩ := line_of_indexOfSub hindex
            have hle := indexOfSub_le_length hindex
            rw [hindex] at h
            simp only [Bool.or_eq_true, decide_eq_true_iff] at h
            by_cases hzero : i = 0
            · refine ⟨[], s.drop 2, ?_, fun t ht => absurd ht List.not_mem_nil⟩
              rw [hzero] at hsplit
              exact hsplit
            · obtain ⟨trailers, tail, hrest, htrailers⟩ := ih (h.resolve_left hzero)
              refine ⟨s.take i :: trailers, tail, ?_, ?_⟩
              · rw [hrest] at hsplit
                rw [unlines_cons]
                conv_lhs => rw [hsplit]
                simp only [List.append_assoc]
              · intro t ht
                rcases List.mem_cons.mp ht with rfl | ht
                · refine ⟨?_, hline⟩
                  apply List.ne_nil_of_length_pos
                  rw [List.length_take]
                  omega
                · exact htrailers t ht
  · rintro ⟨trailers, tail, rfl, htrailers⟩
    induction trailers generalizing fuel with
    | nil =>
        obtain ⟨fuel, rfl⟩ := Nat.exists_eq_add_one_of_ne_zero (Nat.ne_of_gt (Nat.zero_lt_of_lt hfuel))
        have hindex : indexOfSub crlf (unlines [] ++ crlf ++ tail) = some 0 :=
          @indexOfSub_line [] (by decide) tail
        unfold trailersEnd
        rw [hindex]
        rfl
    | cons t trailers ih =>
        obtain ⟨fuel, rfl⟩ := Nat.exists_eq_add_one_of_ne_zero (Nat.ne_of_gt (Nat.zero_lt_of_lt hfuel))
        have hassoc : unlines (t :: trailers) ++ crlf ++ tail =
            t ++ crlf ++ (unlines trailers ++ crlf ++ tail) := by
          rw [unlines_cons]
          simp only [List.append_assoc]
        have hindex := indexOfSub_line (htrailers t List.mem_cons_self).2
          (unlines trailers ++ crlf ++ tail)
        have hcrlf : crlf.length = 2 := rfl
        rw [hassoc] at hfuel ⊢
        unfold trailersEnd
        rw [hindex]
        have hdrop : (t ++ crlf ++ (unlines trailers ++ crlf ++ tail)).drop (t.length + 2) =
            unlines trailers ++ crlf ++ tail := by
          rw [show t.length + 2 = (t ++ crlf).length by simp, List.drop_left]
        simp only [hdrop]
        rw [ih (fun t ht => htrailers t (List.mem_cons_of_mem _ ht))
          (by simp only [List.length_append] at hfuel ⊢; omega), Bool.or_true]

/-- What the loop returns is the data of a body. -/
theorem decodeChunks_sound {fuel : ℕ} {s decoded r : Bytes} (h : decodeChunks fuel s decoded = some r)
    (hdecoded : decoded.length ≤ h2MaxResponse) :
    ∃ body tail d, s = body ++ tail ∧ Body body d ∧ r = decoded ++ d ∧
      r.length ≤ h2MaxResponse := by
  induction fuel generalizing s decoded with
  | zero => exact absurd h.symm (Option.some_ne_none r)
  | succ fuel ih =>
      unfold decodeChunks at h
      cases hindex : indexOfSub crlf s with
      | none =>
          rw [hindex] at h
          exact absurd h.symm (Option.some_ne_none r)
      | some i =>
          obtain ⟨hsplit, hline⟩ := line_of_indexOfSub hindex
          rw [hindex] at h
          dsimp only at h
          set after := s.drop (i + 2) with hafter
          cases hsize : chunkLineSize (s.take i) with
          | none =>
              rw [hsize] at h
              exact absurd h.symm (Option.some_ne_none r)
          | some chunkLen =>
              rw [hsize] at h
              dsimp only at h
              obtain ⟨hchunkLine, -⟩ := (chunkLineSize_eq_some_iff hline).mp hsize
              by_cases hzero : chunkLen = 0
              · -- the last chunk
                rw [if_pos hzero] at h
                by_cases htrailers : trailersEnd (after.length + 1) after = true
                · rw [if_pos htrailers, Option.some.injEq] at h
                  obtain ⟨trailers, tail, hrest, htrailers⟩ :=
                    (trailersEnd_iff (Nat.lt_succ_self _)).mp htrailers
                  refine ⟨s.take i ++ crlf ++ unlines trailers ++ crlf, tail, [], ?_,
                    .last (hzero ▸ hchunkLine) htrailers, ?_, h ▸ hdecoded⟩
                  · conv_lhs => rw [hsplit, hrest]
                    simp only [List.append_assoc]
                  · rw [List.append_nil, h]
                · rw [if_neg htrailers] at h
                  exact absurd h.symm (Option.some_ne_none r)
              · rw [if_neg hzero] at h
                split_ifs at h with hlimit hcrlf
                simp only [Bool.or_eq_true, decide_eq_true_iff, not_or, not_lt] at hlimit
                obtain ⟨⟨hdata, hchunk⟩, htotal⟩ := hlimit
                rw [Bool.not_eq_true', Bool.not_eq_false, List.isPrefixOf_iff_prefix] at hcrlf
                obtain ⟨rest, hrest⟩ := hcrlf
                have hlen : (after.take chunkLen).length = chunkLen := by
                  rw [List.length_take]
                  omega
                have hbehind : after.drop (chunkLen + 2) = rest := by
                  rw [← List.drop_drop, ← hrest]
                  rfl
                obtain ⟨body, tail, d, hbody, hgrammar, hr, hle⟩ := ih h (by
                  rw [List.length_append, hlen]
                  omega)
                refine ⟨s.take i ++ crlf ++ after.take chunkLen ++ crlf ++ body, tail,
                  after.take chunkLen ++ d, ?_, .chunk (by rwa [hlen]) ?_ hgrammar, ?_, hle⟩
                · have hparts : after = after.take chunkLen ++ (crlf ++ (body ++ tail)) := by
                    rw [← hbody, hbehind, hrest, List.take_append_drop]
                  conv_lhs => rw [hsplit, hparts]
                  simp only [List.append_assoc]
                · apply List.ne_nil_of_length_pos
                  rw [hlen]
                  omega
                · rw [hr, List.append_assoc]

/-- A body at the front is decoded. -/
theorem decodeChunks_complete {body d : Bytes} (h : Body body d) (tail : Bytes) {fuel : ℕ}
    (hfuel : body.length < fuel) {decoded : Bytes}
    (hle : decoded.length + d.length ≤ h2MaxResponse) :
    decodeChunks fuel (body ++ tail) decoded = some (decoded ++ d) := by
  induction h generalizing fuel decoded with
  | @last line trailers hline htrailers =>
      obtain ⟨fuel, rfl⟩ := Nat.exists_eq_add_one_of_ne_zero (Nat.ne_of_gt (Nat.zero_lt_of_lt hfuel))
      have hassoc : line ++ crlf ++ unlines trailers ++ crlf ++ tail =
          line ++ crlf ++ (unlines trailers ++ crlf ++ tail) := by
        simp only [List.append_assoc]
      have hnot := hline.no_crlf
      have hdrop := drop_line line (unlines trailers ++ crlf ++ tail)
      have htake := take_line line (unlines trailers ++ crlf ++ tail)
      have hsize := (chunkLineSize_eq_some_iff hnot).mpr ⟨hline, Nat.zero_le _⟩
      have hend := (@trailersEnd_iff (unlines trailers ++ crlf ++ tail) _
        (Nat.lt_succ_self _)).mpr ⟨trailers, tail, rfl, htrailers⟩
      rw [hassoc]
      unfold decodeChunks
      rw [indexOfSub_line hnot]
      dsimp only
      rw [hdrop, htake, hsize]
      dsimp only
      rw [if_pos rfl, if_pos hend, List.append_nil]
  | @chunk line data rest d hline ne hrest ih =>
      obtain ⟨fuel, rfl⟩ := Nat.exists_eq_add_one_of_ne_zero (Nat.ne_of_gt (Nat.zero_lt_of_lt hfuel))
      have hassoc : line ++ crlf ++ data ++ crlf ++ rest ++ tail =
          line ++ crlf ++ (data ++ (crlf ++ (rest ++ tail))) := by
        simp only [List.append_assoc]
      have hnot := hline.no_crlf
      have hcrlf : crlf.length = 2 := rfl
      have hpos := List.length_pos_of_ne_nil ne
      have hdrop := drop_line line (data ++ (crlf ++ (rest ++ tail)))
      have htake := take_line line (data ++ (crlf ++ (rest ++ tail)))
      have hbehind : (data ++ (crlf ++ (rest ++ tail))).drop (data.length + 2) = rest ++ tail := by
        rw [List.drop_length_add_append]
        rfl
      rw [List.length_append] at hle
      have hsize := (chunkLineSize_eq_some_iff hnot).mpr ⟨hline, show _ ≤ h2MaxResponse by omega⟩
      rw [hassoc]
      unfold decodeChunks
      rw [indexOfSub_line hnot]
      dsimp only
      rw [hdrop, htake, hsize]
      dsimp only
      rw [if_neg (by omega), if_neg, if_neg, List.take_left, hbehind, ih, List.append_assoc]
      · simp only [List.length_append] at hfuel
        omega
      · rw [List.length_append]
        omega
      · rw [Bool.not_eq_true, Bool.not_eq_false', List.isPrefixOf_iff_prefix, List.drop_left]
        exact List.prefix_append _ _
      · simp only [Bool.or_eq_true, decide_eq_true_iff, List.length_append]
        omega

theorem decodeChunkedBody_iff {s d : Bytes} :
    decodeChunkedBody s = some d ↔ DecodesWithin h2MaxResponse s d := by
  constructor
  · intro h
    obtain ⟨body, tail, d', hsplit, hbody, hd, hle⟩ := decodeChunks_sound h (Nat.zero_le _)
    rw [List.nil_append] at hd
    exact ⟨body, tail, hsplit, hd ▸ hbody, hle⟩
  · rintro ⟨body, tail, rfl, hbody, hle⟩
    unfold decodeChunkedBody
    rw [decodeChunks_complete hbody tail (by rw [List.length_append]; omega)
      (by rw [List.length_nil]; omega), List.nil_append]

/-- **The decoder returns the data of a body at the front of the bytes, and -1 if there is none or its
data is too large**; so it returns at all, and no read, copy or subtraction leaves its range. -/
theorem decodeChunkedBodyAt_spec (body : Bytes) :
    (∀ d, decodeChunkedBodyAt body = .done d ↔ DecodesWithin h2MaxResponse body d) ∧
      (decodeChunkedBodyAt body = .refused ↔ ¬ ∃ d, DecodesWithin h2MaxResponse body d) := by
  rw [decodeChunkedBodyAt_eq]
  cases hdecode : decodeChunkedBody body with
  | none =>
      have hnone : ∀ d, ¬ DecodesWithin h2MaxResponse body d := fun d hd => by
        rw [decodeChunkedBody_iff.mpr hd] at hdecode
        exact Option.some_ne_none d hdecode
      exact ⟨fun d => ⟨fun h => (nomatch h), fun h => absurd h (hnone d)⟩,
        ⟨fun _ ⟨d, hd⟩ => hnone d hd, fun _ => rfl⟩⟩
  | some data =>
      have hdata := decodeChunkedBody_iff.mp hdecode
      refine ⟨fun d => ?_, ⟨fun h => (nomatch h), fun h => absurd ⟨data, hdata⟩ h⟩⟩
      rw [← decodeChunkedBody_iff, hdecode, Reading.ofOption_some, Reading.done.injEq,
        Option.some.injEq]

/-- An extension, a trailer, and bytes behind the body. -/
example : decodeChunkedBodyAt (ascii " 0A ;ext\x0d\n0123456789\x0d\n0\x0d\nA: b\x0d\n\x0d\nmore") =
    .done (ascii "0123456789") := by
  decide +kernel

end Rpsiod

import Rpsiod.Lib.Chunked
import Rpsiod.Lib.ContentCoding

/-!
# The end of a response (RFC 9112, section 6)

A client that keeps its connection open has to know where a response ends.  It finds out from the
method of its request, the status, and the fields `Transfer-Encoding` and `Content-Length`.

* `bodyLength`: the bytes behind the head that belong to the response.
* `readResponse`: the response at the front, and what follows it.
* `isOneResponse_iff`: **a text is one response, exactly if its status is readable and what is
  behind its head ends where the body ends**.
-/

namespace MessageFraming

open ListSearch ListStrip Crlf Digits Chunked ContentCoding

/-- The bytes of an ASCII text. -/
def spell (s : String) : List UInt8 := s.toList.map fun c => UInt8.ofNat c.toNat

/-- Names and codings are compared without regard to letter case. -/
def sameWord (a b : List UInt8) : Bool := a.map lower = b.map lower

/-- A decimal digit. -/
def isDigit (c : UInt8) : Bool := 48 ≤ c && c ≤ 57

/-! ### The head -/

/-- The status code on a status line: three digits between the version and the reason. -/
def readStatusLine (line : List UInt8) : Option ℕ :=
  match splitFirst 32 line with
  | none => none
  | some (version, rest) =>
      match splitFirst 32 rest with
      | none => none
      | some (code, _) =>
          if version = spell "HTTP/1.1" ∧ code.length = 3 ∧ code.all isDigit then
            some (readDigits 10 code)
          else none

/-- The name and the value on a header line. -/
def readField (line : List UInt8) : Option (List UInt8 × List UInt8) :=
  (splitFirst 58 line).map fun f => (f.1, strip isOws f.2)

/-- The values of the fields with this name, in their order. -/
def values (name : List UInt8) (fields : List (List UInt8 × List UInt8)) : List (List UInt8) :=
  (fields.filter fun f => sameWord f.1 name).map Prod.snd

/-! ### The length of the body -/

/-- Where a body ends. -/
inductive BodyLength where
  /-- There is none. -/
  | none
  | exactly (n : ℕ)
  | chunked
  /-- At the end of the connection. -/
  | toTheEnd
  deriving DecidableEq

/-- The responses with these statuses have no body. -/
def bodiless (status : ℕ) : Bool := status / 100 = 1 || status = 204 || status = 304

/-- The length that `Content-Length` gives: one row of digits, perhaps repeated. -/
def readLength : List (List UInt8) → Option ℕ
  | [] => none
  | value :: others =>
      if value ≠ [] ∧ value.all isDigit ∧ others.all (· = value) then some (readDigits 10 value)
      else none

/-- The last coding is `chunked`. -/
def endsChunked (codings : List UInt8) : Bool :=
  (elements codings).getLast?.any fun coding => sameWord coding (spell "chunked")

/-- The rules of section 6.3. -/
def bodyLength (method : List UInt8) (status : ℕ) (fields : List (List UInt8 × List UInt8)) :
    BodyLength :=
  if method = spell "HEAD" ∨ bodiless status then .none
  else if method = spell "CONNECT" ∧ status / 100 = 2 then .toTheEnd
  else
    match (values (spell "Transfer-Encoding") fields).getLast? with
    | some codings => if endsChunked codings then .chunked else .toTheEnd
    | none =>
        match readLength (values (spell "Content-Length") fields) with
        | some n => .exactly n
        | none => .toTheEnd

/-- The body at the front, and what follows it, on a connection that stays open. -/
def readBody : BodyLength → List UInt8 → Option (List UInt8 × List UInt8)
  | .none, s => some ([], s)
  | .exactly n, s => if n ≤ s.length then some (s.take n, s.drop n) else none
  | .chunked, s => readChunked s
  | .toTheEnd, _ => none

/-! ### Responses -/

/-- A response that has been read. -/
structure Response where
  status : ℕ
  fields : List (List UInt8 × List UInt8)
  body : List UInt8

/-- The response at the front to a request with this method, and what follows it. -/
def readResponse (method s : List UInt8) : Option (Response × List UInt8) :=
  match splitHead s with
  | some (line :: lines, rest) =>
      match readStatusLine line, lines.mapM readField with
      | some status, some fields =>
          (readBody (bodyLength method status fields) rest).map fun r =>
            (⟨status, fields, r.1⟩, r.2)
      | _, _ => none
  | _ => none

/-- The text is one response, and nothing is left of it. -/
def IsOneResponse (method s : List UInt8) : Prop := (readResponse method s).map Prod.snd = some []

instance (method s : List UInt8) : Decidable (IsOneResponse method s) :=
  inferInstanceAs (Decidable (_ = _))

/-- The body ends where the text ends. -/
def Exhausts (length : BodyLength) (s : List UInt8) : Prop :=
  (readBody length s).map Prod.snd = some []

/-- **A text whose head has been read**, line by line. -/
theorem isOneResponse_iff {method s line rest : List UInt8} {lines : List (List UInt8)}
    {fields : List (List UInt8 × List UInt8)} (hhead : splitHead s = some (line :: lines, rest))
    (hfields : lines.mapM readField = some fields) :
    IsOneResponse method s ↔
      ∃ status ∈ readStatusLine line, Exhausts (bodyLength method status fields) rest := by
  unfold IsOneResponse readResponse Exhausts
  rw [hhead]
  dsimp only
  rw [hfields]
  cases readStatusLine line with
  | none => simp
  | some status => simp [Option.map_map, Function.comp_def]

/-- A line for each field. -/
theorem mapM_readField {α : Type*} {text : α → List UInt8} {field : α → List UInt8 × List UInt8}
    {l : List α} (h : ∀ a ∈ l, readField (text a) = some (field a)) :
    (l.map text).mapM readField = some (l.map field) := by
  induction l with
  | nil => rfl
  | cons a l ih =>
      rw [List.map_cons, List.mapM_cons, h a List.mem_cons_self,
        ih fun b hb => h b (List.mem_cons_of_mem a hb)]
      rfl

theorem readField_of_not_mem {name : List UInt8} (h : 58 ∉ name) (value : List UInt8) :
    readField (name ++ 58 :: value) = some (name, strip isOws value) := by
  unfold readField
  rw [splitFirst_eq_some_iff.mpr ⟨rfl, h⟩]
  rfl

theorem values_append (name : List UInt8) (fs gs : List (List UInt8 × List UInt8)) :
    values name (fs ++ gs) = values name fs ++ values name gs := by
  unfold values
  rw [List.filter_append, List.map_append]

theorem values_singleton {name : List UInt8} {f : List UInt8 × List UInt8}
    (h : sameWord f.1 name = true) : values name [f] = [f.2] := by
  unfold values
  rw [List.filter_singleton, h]
  rfl

/-- Fields with other names. -/
theorem values_eq_nil {name : List UInt8} {fields : List (List UInt8 × List UInt8)}
    (h : ∀ f ∈ fields, sameWord f.1 name = false) : values name fields = [] := by
  unfold values
  rw [List.map_eq_nil_iff, List.filter_eq_nil_iff]
  exact fun f hf => Bool.eq_false_iff.mp (h f hf)

/-! ### Status lines -/

/-- A status line is read, if there are three digits on it. -/
theorem readStatusLine_eq {code : List UInt8} (h : 32 ∉ code) (reason : List UInt8) :
    readStatusLine (spell "HTTP/1.1" ++ 32 :: (code ++ 32 :: reason)) =
      if code.length = 3 ∧ code.all isDigit then some (readDigits 10 code) else none := by
  have hversion : splitFirst 32 (spell "HTTP/1.1" ++ 32 :: (code ++ 32 :: reason)) =
      some (spell "HTTP/1.1", code ++ 32 :: reason) :=
    splitFirst_eq_some_iff.mpr ⟨rfl, by decide⟩
  have hcode : splitFirst 32 (code ++ 32 :: reason) = some (code, reason) :=
    splitFirst_eq_some_iff.mpr ⟨rfl, h⟩
  unfold readStatusLine
  rw [hversion]
  dsimp only
  rw [hcode]
  simp

theorem isDigit_of_mem_render {n : ℕ} {c : UInt8} (h : c ∈ render 10 n) : isDigit c = true := by
  obtain ⟨d, hd, rfl⟩ := exists_digit_of_mem_render (by decide) h
  have hall : ∀ d < 10, isDigit (digitByte d) = true := by decide
  exact hall d hd

/-- A number on a status line: it has to have three digits. -/
theorem readStatusLine_render (n : ℕ) (reason : List UInt8) :
    readStatusLine (spell "HTTP/1.1" ++ 32 :: (render 10 n ++ 32 :: reason)) =
      if 100 ≤ n ∧ n ≤ 999 then some n else none := by
  have hblank : 32 ∉ render 10 n := fun hmem =>
    Bool.noConfusion (isDigit_of_mem_render hmem)
  have hdigits : (render 10 n).all isDigit = true :=
    List.all_eq_true.mpr fun c hc => isDigit_of_mem_render hc
  have hthree := @render_length_le_iff 10 n 3 (by decide) (by decide)
  have htwo := @render_length_le_iff 10 n 2 (by decide) (by decide)
  have hlength : (render 10 n).length = 3 ↔ 100 ≤ n ∧ n ≤ 999 := by omega
  rw [readStatusLine_eq hblank, readDigits_render (by decide) (by decide)]
  simp only [hdigits, and_true, hlength]

/-! ### Bodies -/

theorem exhausts_none {s : List UInt8} : Exhausts .none s ↔ s = [] := by
  unfold Exhausts readBody
  simp

theorem exhausts_exactly {n : ℕ} {s : List UInt8} : Exhausts (.exactly n) s ↔ s.length = n := by
  show (if n ≤ s.length then some (s.take n, s.drop n) else none).map Prod.snd = some [] ↔ _
  by_cases hle : n ≤ s.length
  · rw [if_pos hle, Option.map_some, Option.some.injEq, List.drop_eq_nil_iff]
    omega
  · rw [if_neg hle]
    exact iff_of_false nofun (by omega)

theorem exhausts_chunked {s body : List UInt8} (h : readChunked s = some (body, [])) :
    Exhausts .chunked s := by
  show (readChunked s).map Prod.snd = some []
  rw [h]
  rfl

theorem not_exhausts_toTheEnd (s : List UInt8) : ¬ Exhausts .toTheEnd s := by
  unfold Exhausts readBody
  simp

/-- A chunked body is not empty. -/
theorem ne_nil_of_readChunked {s : List UInt8} {r : List UInt8 × List UInt8}
    (h : readChunked s = some r) : s ≠ [] := by
  rintro rfl
  cases h

/-! ### Responses one behind the other -/

theorem readBody_append {length : BodyLength} {s : List UInt8} {r : List UInt8 × List UInt8}
    (h : readBody length s = some r) (e : List UInt8) :
    readBody length (s ++ e) = some (r.1, r.2 ++ e) := by
  cases length with
  | none =>
      obtain rfl := Option.some.inj h
      rfl
  | exactly n =>
      show (if n ≤ (s ++ e).length then some ((s ++ e).take n, (s ++ e).drop n) else none) = _
      replace h : (if n ≤ s.length then some (s.take n, s.drop n) else none) = some r := h
      split_ifs at h with hle
      obtain rfl := Option.some.inj h
      rw [if_pos (by rw [List.length_append]; omega), List.take_append_of_le_length hle,
        List.drop_append_of_le_length hle]
  | chunked => exact readChunked_append h e
  | toTheEnd => exact nomatch h

/-- **What follows a response** is not looked at. -/
theorem readResponse_append {method s : List UInt8} {r : Response × List UInt8}
    (h : readResponse method s = some r) (e : List UInt8) :
    readResponse method (s ++ e) = some (r.1, r.2 ++ e) := by
  unfold readResponse at h ⊢
  cases hsplit : splitHead s with
  | none => simp [hsplit] at h
  | some parts =>
      obtain ⟨ls, rest⟩ := parts
      rw [hsplit] at h
      rw [splitHead_append hsplit]
      cases ls with
      | nil => exact nomatch h
      | cons line lines =>
          dsimp only at h ⊢
          cases hstatus : readStatusLine line with
          | none => simp [hstatus] at h
          | some status =>
              cases hfields : lines.mapM readField with
              | none => simp [hfields] at h
              | some fields =>
                  rw [hstatus, hfields] at h
                  obtain ⟨body, hbody, rfl⟩ := Option.map_eq_some_iff.mp h
                  dsimp only
                  rw [readBody_append hbody]
                  rfl

/-- The responses at the front to requests with these methods, and what follows them. -/
def readResponses : List (List UInt8) → List UInt8 → Option (List Response × List UInt8)
  | [], s => some ([], s)
  | method :: methods, s =>
      (readResponse method s).bind fun r =>
        (readResponses methods r.2).map fun rs => (r.1 :: rs.1, rs.2)

/-- **One more response** behind the others. -/
theorem readResponses_snoc {methods : List (List UInt8)} {s : List UInt8} {rs : List Response}
    (h : readResponses methods s = some (rs, [])) {method text : List UInt8} {r : Response}
    {rest : List UInt8} (hr : readResponse method text = some (r, rest)) :
    readResponses (methods ++ [method]) (s ++ text) = some (rs ++ [r], rest) := by
  induction methods generalizing s rs with
  | nil =>
      obtain ⟨rfl, rfl⟩ := Prod.mk.inj (Option.some.inj h)
      show (readResponse method ([] ++ text)).bind _ = _
      rw [List.nil_append, hr]
      rfl
  | cons first methods ih =>
      obtain ⟨r₁, hfirst, hmap⟩ := Option.bind_eq_some_iff.mp h
      obtain ⟨rs₁, hrest, hparts⟩ := Option.map_eq_some_iff.mp hmap
      obtain ⟨rfl, hnil⟩ := Prod.mk.inj hparts
      obtain ⟨front, back⟩ := rs₁
      dsimp only at hnil
      subst hnil
      have hmore := ih hrest
      show (readResponse first (s ++ text)).bind _ = _
      rw [readResponse_append hfirst text, Option.bind_some]
      show (readResponses (methods ++ [method]) (r₁.2 ++ text)).map _ = _
      rw [hmore]
      rfl

/-- What follows the responses is not looked at. -/
theorem readResponses_append {methods : List (List UInt8)} {s : List UInt8} {rs : List Response}
    {rest : List UInt8} (h : readResponses methods s = some (rs, rest)) (e : List UInt8) :
    readResponses methods (s ++ e) = some (rs, rest ++ e) := by
  induction methods generalizing s rs with
  | nil =>
      obtain ⟨rfl, rfl⟩ := Prod.mk.inj (Option.some.inj h)
      rfl
  | cons first methods ih =>
      obtain ⟨r₁, hfirst, hmap⟩ := Option.bind_eq_some_iff.mp h
      obtain ⟨rs₁, hrest, hparts⟩ := Option.map_eq_some_iff.mp hmap
      obtain ⟨rfl, rfl⟩ := Prod.mk.inj hparts
      show (readResponse first (s ++ e)).bind _ = _
      rw [readResponse_append hfirst e, Option.bind_some]
      show (readResponses methods (r₁.2 ++ e)).map _ = _
      rw [ih hrest]
      rfl

/-- The status of a response is the one on its first line. -/
theorem readStatusLine_of_readResponse {method s line rest : List UInt8}
    {lines : List (List UInt8)} (hhead : splitHead s = some (line :: lines, rest))
    {r : Response × List UInt8} (h : readResponse method s = some r) :
    readStatusLine line = some r.1.status := by
  unfold readResponse at h
  rw [hhead] at h
  dsimp only at h
  cases hstatus : readStatusLine line with
  | none => simp [hstatus] at h
  | some status =>
      cases hfields : lines.mapM readField with
      | none => simp [hfields] at h
      | some fields =>
          rw [hstatus, hfields] at h
          obtain ⟨body, -, rfl⟩ := Option.map_eq_some_iff.mp h
          rfl

/-! ### Lengths -/

variable {method : List UInt8} {status : ℕ} {fields : List (List UInt8 × List UInt8)}

theorem bodyLength_none (h : method = spell "HEAD" ∨ bodiless status) :
    bodyLength method status fields = .none := if_pos h

/-- A response with a body, whose only framing field is the length. -/
theorem bodyLength_exactly (h : ¬ (method = spell "HEAD" ∨ bodiless status))
    (hconnect : ¬ (method = spell "CONNECT" ∧ status / 100 = 2))
    (hcoding : values (spell "Transfer-Encoding") fields = []) {n : ℕ}
    (hlength : values (spell "Content-Length") fields = [render 10 n]) :
    bodyLength method status fields = .exactly n := by
  have hdigits : (render 10 n).all isDigit = true :=
    List.all_eq_true.mpr fun c hc => isDigit_of_mem_render hc
  have hread : readLength [render 10 n] = some n := by
    have hall : render 10 n ≠ [] ∧ (render 10 n).all isDigit = true ∧
        ([] : List (List UInt8)).all (· = render 10 n) = true := ⟨render_ne_nil, hdigits, rfl⟩
    unfold readLength
    dsimp only
    rw [if_pos hall, readDigits_render (by decide) (by decide)]
  unfold bodyLength
  rw [if_neg h, if_neg hconnect, hcoding, hlength]
  dsimp only [List.getLast?_nil]
  rw [hread]

/-- A response with a body, whose only coding is `chunked`. -/
theorem bodyLength_chunked (h : ¬ (method = spell "HEAD" ∨ bodiless status))
    (hconnect : ¬ (method = spell "CONNECT" ∧ status / 100 = 2))
    (hcoding : values (spell "Transfer-Encoding") fields = [spell "chunked"]) :
    bodyLength method status fields = .chunked := by
  have hends : endsChunked (spell "chunked") = true := by decide +kernel
  unfold bodyLength
  rw [if_neg h, if_neg hconnect, hcoding]
  dsimp only [List.getLast?_singleton]
  rw [if_pos hends]

/-- A response with a body, and without a framing field. -/
theorem bodyLength_toTheEnd (h : ¬ (method = spell "HEAD" ∨ bodiless status))
    (hcoding : values (spell "Transfer-Encoding") fields = [])
    (hlength : values (spell "Content-Length") fields = []) :
    bodyLength method status fields = .toTheEnd := by
  unfold bodyLength
  rw [if_neg h, hcoding, hlength]
  split_ifs
  · rfl
  · rfl

end MessageFraming

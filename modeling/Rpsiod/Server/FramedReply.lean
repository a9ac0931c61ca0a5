import Rpsiod.Lib.MessageFraming
import Rpsiod.Server.HeadIntegrity

/-!
# What a client makes of a reply (`build_response_headers`)

`ReplyShape` is what a reply comes to: its status, the length in its head, and the number of bytes
that there are for its body.  `SendsReply` says that the bytes of a reply have such a shape, with the
fields that `build_response_headers` puts into its head.

* `readStatusLine_statusLine`: a client can read a status of three digits.
* `values_framing`: the framing fields of a head are those of `framingFields`.
* `SendsReply.isOneResponse_iff`: **the reply is one response to its client, exactly if its shape
  delimits it**.
-/

namespace Rpsiod

open ListSearch Crlf Chunked MessageFraming

/-! ### Shapes -/

/-- What a reply comes to. -/
structure ReplyShape where
  status : ℤ
  /-- The length in the head; without one the body goes out in chunks, unless there is none. -/
  announced : Option ℕ
  /-- The bytes of the body, which a HEAD request is not sent. -/
  length : ℕ

/-- A response with this status has no body. -/
def NoBodyStatus (status : ℤ) : Prop := status / 100 = 1 ∨ status = 204 ∨ status = 304

instance (status : ℤ) : Decidable (NoBodyStatus status) := inferInstanceAs (Decidable (_ ∨ _))

/-- How many bytes of a body go out. -/
def bodySent (req : HttpRequest) (n : ℕ) : ℕ := if req.headOnly then 0 else n

/-- A client that knows the method of its request finds the end of the reply: the status has three
digits, and there is no body where the client expects none, or else it is as long as a
`Content-Length` that the site does not remove, or in chunks. -/
def ReplyShape.Delimits (a : ReplyShape) (site : Option Site) (req : HttpRequest) : Prop :=
  (100 ≤ a.status ∧ a.status ≤ 999) ∧
    (req.method = ascii "HEAD" ∨
      if NoBodyStatus a.status then
        req.headOnly = true ∨ (a.announced.isSome = true ∧ a.length = 0)
      else
        match a.announced with
        | some n => headerRemoved site (ascii "Content-Length") = false ∧ bodySent req a.length = n
        | none => req.headOnly = false)

instance : (a : ReplyShape) → (site : Option Site) → (req : HttpRequest) →
    Decidable (a.Delimits site req)
  | ⟨status, some n, length⟩, site, req =>
      inferInstanceAs (Decidable ((100 ≤ status ∧ status ≤ 999) ∧ (req.method = ascii "HEAD" ∨
        if NoBodyStatus status then
          req.headOnly = true ∨ ((some n).isSome = true ∧ length = 0)
        else headerRemoved site (ascii "Content-Length") = false ∧ bodySent req length = n)))
  | ⟨status, none, length⟩, _, req =>
      inferInstanceAs (Decidable ((100 ≤ status ∧ status ≤ 999) ∧ (req.method = ascii "HEAD" ∨
        if NoBodyStatus status then
          req.headOnly = true ∨ ((none : Option ℕ).isSome = true ∧ length = 0)
        else req.headOnly = false)))

/-- These are the bytes of a reply: a head with the server's own fields in front, and a body. -/
structure SendsReply (w : World) (site : Option Site) (req : HttpRequest) (a : ReplyShape)
    (bytes : Bytes) : Prop where
  exists_head : ∃ contentType opts more body,
    bytes = headOf a.status
      (ownFields w.host w.client contentType a.announced req.keepAlive opts ++ more) ++ body ∧
    opts.site = site ∧
    (a.announced = none → opts.chunkedResponse = !req.headOnly) ∧
    FieldsHave (10 ∉ ·)
      (ownFields w.host w.client contentType a.announced req.keepAlive opts ++ more) ∧
    (∀ name ∈ guardedNames, countFields name more = 0) ∧
    (∀ f ∈ more, 58 ∉ f.1) ∧
    ∃ content, unframed (a.announced.isNone && !req.headOnly) body = some content ∧
      content.length = bodySent req a.length

/-! ### Reading a head -/

theorem sameWord_eq (a b : Bytes) : sameWord a b = streqCi a b := by
  rw [Bool.eq_iff_iff, streqCi_iff]
  exact decide_eq_true_iff

/-- **A status is read back**, if it has three digits. -/
theorem readStatusLine_statusLine (status : ℤ) :
    readStatusLine (statusLine status) =
      if 100 ≤ status ∧ status ≤ 999 then some status.toNat else none := by
  have hline : statusLine status =
      spell "HTTP/1.1" ++ 32 :: (decimalInt status ++ 32 :: httpStatusText status) := by
    unfold statusLine
    rw [show ascii "HTTP/1.1 " = spell "HTTP/1.1" ++ [32] by decide,
      show ascii " " = [32] by decide]
    simp
  rw [hline]
  by_cases hneg : status < 0
  · have hsign : decimalInt status = 45 :: decimal status.natAbs := if_pos hneg
    have hblank : 32 ∉ decimalInt status := by
      rw [hsign]
      intro hmem
      rcases List.mem_cons.mp hmem with h | h
      · exact absurd h (by decide)
      · exact Bool.noConfusion (isDigit_of_mem_render h)
    rw [readStatusLine_eq hblank, hsign, if_neg, if_neg (by omega)]
    rintro ⟨-, hall⟩
    exact absurd (List.all_eq_true.mp hall 45 List.mem_cons_self) (by decide)
  · have hplain : decimalInt status = Digits.render 10 status.toNat := by
      unfold decimalInt decimal
      rw [if_neg hneg]
      congr 1
      omega
    rw [hplain, readStatusLine_render]
    exact if_congr (by omega) rfl rfl

/-- A header line, as a client reads it. -/
def readBack (f : Field) : Field := (f.1, ListStrip.strip ContentCoding.isOws (32 :: f.2))

theorem readField_fieldText {f : Field} (h : 58 ∉ f.1) :
    readField (fieldText f) = some (readBack f) := by
  have htext : fieldText f = f.1 ++ 58 :: (32 :: f.2) := by
    unfold fieldText headerText
    rw [show ascii ": " = [58, 32] by decide, List.append_assoc]
    rfl
  rw [htext, readField_of_not_mem h]
  rfl

/-! ### The framing fields -/

/-- Fields with other names. -/
theorem values_readBack {name : Bytes} {fields : List Field}
    (h : ∀ f ∈ fields, streqCi f.1 name = false) : values name (fields.map readBack) = [] := by
  apply values_eq_nil
  intro f hf
  obtain ⟨g, hg, rfl⟩ := List.mem_map.mp hf
  rw [sameWord_eq]
  exact h g hg

/-- Fields whose names are among these. -/
theorem values_of_names {name : Bytes} {fields : List Field} {names : List Bytes}
    (hnames : (fields.map Prod.fst).Sublist names)
    (h : ∀ n ∈ names, streqCi n name = false) : values name (fields.map readBack) = [] :=
  values_readBack fun _ hf => h _ (hnames.subset (List.mem_map_of_mem hf))

/-- The names of the two framing fields. -/
def framingNames : List Bytes := [ascii "Content-Length", ascii "Transfer-Encoding"]

theorem framingNames_guarded : ∀ name ∈ framingNames, name ∈ guardedNames := by decide

theorem framingNames_other : ∀ name ∈ framingNames,
    ∀ n ∈ leadingNames ++ trailingNames, streqCi n name = false := by
  decide +kernel

/-- **The framing fields of a head** are those that `framingFields` gives. -/
theorem values_framing {name : Bytes} (hname : name ∈ framingNames) (host : Host)
    (client : Client) (contentType : Bytes) (contentLength : Option ℕ) (keepAlive : Bool)
    (opts : ResponseOptions) {more : List Field} (hmore : countFields name more = 0) :
    values name
        ((ownFields host client contentType contentLength keepAlive opts ++ more).map readBack) =
      values name
        ((framingFields opts.site contentLength opts.chunkedResponse).map readBack) := by
  have hother := framingNames_other name hname
  have hleading : values name ((leadingFields host contentType opts).map readBack) = [] :=
    values_of_names (names_leadingFields host contentType opts)
      fun n hn => hother n (List.mem_append_left _ hn)
  have htrailing : values name ((trailingFields host client keepAlive opts).map readBack) = [] :=
    values_of_names (names_trailingFields host client keepAlive opts)
      fun n hn => hother n (List.mem_append_right _ hn)
  have hrest : values name (more.map readBack) = [] :=
    values_readBack fun f hf => Bool.eq_false_iff.mpr (List.countP_eq_zero.mp hmore f hf)
  unfold ownFields
  simp only [List.map_append, values_append, hleading, htrailing, hrest, List.append_nil,
    List.nil_append]

theorem strip_decimal (n : ℕ) :
    ListStrip.strip ContentCoding.isOws (32 :: decimal n) = decimal n := by
  have hplain : ∀ c ∈ decimal n, ContentCoding.isOws c = false := by
    intro c hc
    obtain ⟨d, hd, rfl⟩ := Digits.exists_digit_of_mem_render (by decide) hc
    have hall : ∀ d < 10, ContentCoding.isOws (Digits.digitByte d) = false := by decide
    exact hall d hd
  rw [ContentCoding.strip_cons (by decide), ListStrip.strip_eq_self_iff]
  exact ⟨fun c hc => hplain c (List.mem_of_mem_head? hc),
    fun c hc => hplain c (List.mem_of_getLast? hc)⟩

variable {site : Option Site}

/-- The values of `Content-Length` in a head with a length. -/
theorem values_length (n : ℕ) (chunked : Bool) :
    values (ascii "Content-Length") ((framingFields site (some n) chunked).map readBack) =
      if headerRemoved site (ascii "Content-Length") then [] else [decimal n] := by
  have hsame : sameWord (ascii "Content-Length") (ascii "Content-Length") = true := by decide
  unfold framingFields fieldIf
  dsimp only
  cases headerRemoved site (ascii "Content-Length") with
  | true => rfl
  | false =>
      show values (ascii "Content-Length")
        [(ascii "Content-Length", ListStrip.strip ContentCoding.isOws (32 :: decimal n))] = _
      rw [strip_decimal, values_singleton (by exact hsame)]
      rfl

/-- The field with the other name is not there. -/
theorem values_other (contentLength : Option ℕ) (chunked : Bool) :
    values (framingName !contentLength.isSome)
      ((framingFields site contentLength chunked).map readBack) = [] := by
  have hother : ∀ hasLength, ∀ n ∈ [framingName hasLength],
      streqCi n (framingName !hasLength) = false := by
    decide
  exact values_of_names (names_framingFields site contentLength chunked) (hother _)

/-- The values of `Transfer-Encoding` in a head without a length. -/
theorem values_coding (chunked : Bool) :
    values (ascii "Transfer-Encoding") ((framingFields site none chunked).map readBack) =
      if chunked then [spell "chunked"] else [] := by
  cases chunked with
  | false => rfl
  | true =>
      show values (ascii "Transfer-Encoding")
        ([(ascii "Transfer-Encoding", ascii "chunked")].map readBack) = _
      decide

/-! ### What the client makes of it -/

variable {w : World} {req : HttpRequest} {a : ReplyShape} {bytes : Bytes}

theorem bodiless_toNat {status : ℤ} (h : 100 ≤ status) :
    bodiless status.toNat = true ↔ NoBodyStatus status := by
  unfold bodiless NoBodyStatus
  simp only [Bool.or_eq_true, decide_eq_true_iff]
  omega

theorem readChunked_of_unframed {s content : Bytes} (h : unframed true s = some content) :
    readChunked s = some (content, []) := by
  obtain ⟨r, hread, hall⟩ := Option.bind_eq_some_iff.mp h
  split_ifs at hall with hnil
  rw [hread, ← hnil, ← Option.some.inj hall]

theorem bodySent_head (h : req.headOnly = true) (n : ℕ) : bodySent req n = 0 := if_pos h

theorem bodySent_get (h : req.headOnly = false) (n : ℕ) : bodySent req n = n :=
  if_neg (by rw [h]; exact Bool.false_ne_true)

/-- Nothing goes out, exactly if nothing may. -/
theorem body_eq_nil_iff {body content : Bytes}
    (hbody : unframed (a.announced.isNone && !req.headOnly) body = some content)
    (hlength : content.length = bodySent req a.length) :
    body = [] ↔ req.headOnly = true ∨ (a.announced.isSome = true ∧ a.length = 0) := by
  cases hhead : req.headOnly with
  | true =>
      rw [hhead, Bool.not_true, Bool.and_false] at hbody
      obtain rfl : body = content := Option.some.inj hbody
      rw [bodySent_head hhead] at hlength
      exact iff_of_true (List.length_eq_zero_iff.mp hlength) (Or.inl rfl)
  | false =>
      rw [bodySent_get hhead] at hlength
      cases hannounced : a.announced with
      | none =>
          rw [hhead, hannounced] at hbody
          have hne := ne_nil_of_readChunked (readChunked_of_unframed hbody)
          exact iff_of_false hne (by simp)
      | some n =>
          rw [hannounced] at hbody
          obtain rfl : body = content := Option.some.inj hbody
          rw [← List.length_eq_zero_iff, hlength]
          simp

/-- **The body of a reply with a readable status** ends where the client looks for its end, exactly
if its shape delimits it. -/
theorem exhausts_iff {contentType : Bytes} {opts : ResponseOptions} {more : List Field}
    {body content : Bytes} (hstatus : 100 ≤ a.status ∧ a.status ≤ 999)
    (hmethod : req.headOnly = streqCi req.method (ascii "HEAD"))
    (hconnect : ¬ (req.method = spell "CONNECT" ∧ a.status.toNat / 100 = 2))
    (hsite : opts.site = site)
    (hchunked : a.announced = none → opts.chunkedResponse = !req.headOnly)
    (hmore : ∀ name ∈ guardedNames, countFields name more = 0)
    (hbody : unframed (a.announced.isNone && !req.headOnly) body = some content)
    (hlength : content.length = bodySent req a.length) :
    Exhausts
        (bodyLength req.method a.status.toNat
          ((ownFields w.host w.client contentType a.announced req.keepAlive opts ++ more).map
            readBack)) body ↔
      a.Delimits site req := by
  set fields := ownFields w.host w.client contentType a.announced req.keepAlive opts ++ more
  have hvalues : ∀ name ∈ framingNames, values name (fields.map readBack) =
      values name ((framingFields site a.announced opts.chunkedResponse).map readBack) := by
    intro name hname
    rw [← hsite]
    exact values_framing hname _ _ _ _ _ _ (hmore name (framingNames_guarded name hname))
  have hlengths := hvalues (ascii "Content-Length") (by decide)
  have hcodings := hvalues (ascii "Transfer-Encoding") (by decide)
  have hnil := body_eq_nil_iff hbody hlength
  unfold ReplyShape.Delimits
  rw [and_iff_right hstatus]
  by_cases hhead : req.method = ascii "HEAD"
  · have honly : req.headOnly = true := by
      rw [hmethod, hhead]
      decide
    rw [bodyLength_none (Or.inl hhead), exhausts_none, hnil]
    exact iff_of_true (Or.inl honly) (Or.inl hhead)
  rw [or_iff_right hhead]
  by_cases hno : NoBodyStatus a.status
  · rw [if_pos hno, bodyLength_none (Or.inr ((bodiless_toNat hstatus.1).mpr hno)), exhausts_none,
      hnil]
  rw [if_neg hno]
  have hbodied : ¬ (req.method = spell "HEAD" ∨ bodiless a.status.toNat = true) := fun h =>
    h.elim hhead fun hbodiless => hno ((bodiless_toNat hstatus.1).mp hbodiless)
  cases hannounced : a.announced with
  | some n =>
      rw [hannounced] at hlengths hcodings hbody
      have hcoding := hcodings.trans (values_other (some n) opts.chunkedResponse)
      obtain rfl : body = content := Option.some.inj hbody
      rw [values_length] at hlengths
      cases hremoved : headerRemoved site (ascii "Content-Length") with
      | true =>
          rw [hremoved, if_pos rfl] at hlengths
          rw [bodyLength_toTheEnd hbodied hcoding hlengths]
          exact iff_of_false (not_exhausts_toTheEnd _) fun h => Bool.noConfusion h.1
      | false =>
          rw [hremoved, if_neg Bool.false_ne_true] at hlengths
          rw [bodyLength_exactly hbodied hconnect hcoding hlengths, exhausts_exactly, hlength]
          exact (and_iff_right rfl).symm
  | none =>
      rw [hannounced] at hlengths hcodings hbody
      have hnone := hlengths.trans (values_other none opts.chunkedResponse)
      rw [values_coding, hchunked hannounced] at hcodings
      cases hhead' : req.headOnly with
      | true =>
          rw [hhead', if_neg (by decide)] at hcodings
          rw [bodyLength_toTheEnd hbodied hcodings hnone]
          exact iff_of_false (not_exhausts_toTheEnd _) Bool.noConfusion
      | false =>
          rw [hhead', if_pos (by decide)] at hcodings
          rw [hhead'] at hbody
          rw [bodyLength_chunked hbodied hconnect hcodings]
          exact iff_of_true (exhausts_chunked (readChunked_of_unframed hbody)) rfl

/-- **A reply is one response to its client**, exactly if its shape delimits it. -/
theorem SendsReply.isOneResponse_iff (h : SendsReply w site req a bytes)
    (hmethod : req.headOnly = streqCi req.method (ascii "HEAD"))
    (hconnect : ¬ (req.method = spell "CONNECT" ∧ a.status / 100 = 2)) :
    IsOneResponse req.method bytes ↔ a.Delimits site req := by
  obtain ⟨contentType, opts, more, body, rfl, hsite, hchunked, hlines, hmore, hcolon, content,
    hbody, hlength⟩ := h.exists_head
  set fields := ownFields w.host w.client contentType a.announced req.keepAlive opts ++ more
    with hfields
  have hread : (fields.map fieldText).mapM readField = some (fields.map readBack) := by
    apply mapM_readField
    intro f hf
    apply readField_fieldText
    rcases List.mem_append.mp hf with hf | hf
    · exact (readsAs_ownFields _ _ _ _ _ _ false f hf).1
    · exact hcolon f hf
  rw [isOneResponse_iff (splitHead_lines hlines body) hread, readStatusLine_statusLine]
  by_cases hstatus : 100 ≤ a.status ∧ a.status ≤ 999
  · have hconnect' : ¬ (req.method = spell "CONNECT" ∧ a.status.toNat / 100 = 2) := fun h =>
      hconnect ⟨h.1, by omega⟩
    rw [if_pos hstatus, ← exhausts_iff hstatus hmethod hconnect' hsite hchunked hmore hbody hlength]
    simp only [Option.mem_def, Option.some.injEq, exists_eq_left']
    rfl
  · rw [if_neg hstatus]
    exact iff_of_false (fun ⟨_, hmem, _⟩ => nomatch hmem) fun h => hstatus h.1

/-- The status that the client reads. -/
theorem SendsReply.status_of_readResponse (h : SendsReply w site req a bytes)
    {r : Response × List UInt8} (hread : readResponse req.method bytes = some r) :
    (r.1.status : ℤ) = a.status := by
  obtain ⟨contentType, opts, more, body, rfl, -, -, hlines, -⟩ := h.exists_head
  have hline := readStatusLine_of_readResponse (splitHead_lines hlines body) hread
  rw [readStatusLine_statusLine] at hline
  split_ifs at hline with hstatus
  rw [← Option.some.inj hline, Int.toNat_of_nonneg (by omega)]

/-- **The response that the client reads**, if the shape of the reply delimits it. -/
theorem SendsReply.exists_response (h : SendsReply w site req a bytes)
    (hmethod : req.headOnly = streqCi req.method (ascii "HEAD"))
    (hconnect : ¬ (req.method = spell "CONNECT" ∧ a.status / 100 = 2))
    (hdelimits : a.Delimits site req) :
    ∃ r, readResponse req.method bytes = some (r, []) ∧ (r.status : ℤ) = a.status := by
  have hone := (h.isOneResponse_iff hmethod hconnect).mpr hdelimits
  obtain ⟨⟨r, rest⟩, hread, hrest⟩ := Option.map_eq_some_iff.mp hone
  obtain rfl : rest = [] := hrest
  exact ⟨r, hread, h.status_of_readResponse hread⟩

end Rpsiod

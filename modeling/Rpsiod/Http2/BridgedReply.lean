import Rpsiod.Http2.BodylessResponse
import Rpsiod.Http2.StreamedBody
import Rpsiod.Server.FramedReply

/-!
# A response on its way over the HTTP/2 bridge

A loopback response has two readers: a client of HTTP/1.1, which finds its end by RFC 9112, and
`parse_loopback_response`, which has all the bytes up to the end of the connection and looks for the
word `chunked`.

* `FramedWire`: a response as a backend frames it: without a body, by its length, or in chunks.
* `FramedWire.readResponse_eq`: what the client of HTTP/1.1 reads.
* `FramedWire.parse_eq`: what the bridge reads.
* `bridged_iff`: **a client of HTTP/2 gets the response that a client of HTTP/1.1 would have read**,
  in DATA frames of any lengths and however the bytes arrive, exactly if the head is carried and a
  response without a body does not announce chunks.
-/

namespace Rpsiod

open ListSearch Crlf Chunked MessageFraming ListStrip

/-- The fields of a head, blanks around their values apart. -/
def WireHead.told (h : WireHead) : List Field := h.fields.map WireField.told

/-- A response with this head to a request with this method: its bytes behind the head, and its
content. -/
inductive FramedWire (method : Bytes) (h : WireHead) : Bytes → Bytes → Prop
  /-- There is no body. -/
  | nothing (kind : method = spell "HEAD" ∨ bodiless h.status.toNat = true) : FramedWire method h [] []
  /-- The body has a length. -/
  | sized {content : Bytes} (kind : ¬ (method = spell "HEAD" ∨ bodiless h.status.toNat = true))
      (length : values (spell "Content-Length") h.told = [decimal content.length])
      (coding : values (spell "Transfer-Encoding") h.told = []) : FramedWire method h content content
  /-- The body goes out in chunks. -/
  | chunks {segments : List Bytes}
      (kind : ¬ (method = spell "HEAD" ∨ bodiless h.status.toNat = true))
      (coding : values (spell "Transfer-Encoding") h.told = [spell "chunked"])
      (ne : ∀ s ∈ segments, s ≠ []) :
      FramedWire method h (segments.flatMap chunk ++ lastChunk) segments.flatten

/-- The status has three digits, and something stands behind it. -/
structure WireHead.Readable (h : WireHead) : Prop where
  status : 100 ≤ h.status ∧ h.status ≤ 999
  reason : h.reason.head? = some 32

variable {method : Bytes} {h : WireHead} {wire content : Bytes}

/-! ### The client of HTTP/1.1 -/

theorem readField_wire (f : WireField) : readField f.text = some f.told := by
  have hows : ContentCoding.isOws = isBlank := rfl
  rw [WireField.text, readField_of_not_mem f.name_ok.2.2, hows]
  rfl

theorem readStatusLine_wire (hr : h.Readable) :
    readStatusLine h.statusText = some h.status.toNat := by
  obtain ⟨tail, hreason⟩ := List.head?_eq_some_iff.mp hr.reason
  have hnumber : decimalInt h.status = Digits.render 10 h.status.toNat := by
    have hpos := hr.status.1
    unfold decimalInt decimal
    rw [if_neg (by omega)]
    congr 1
    omega
  have hline : h.statusText =
      spell "HTTP/1.1" ++ 32 :: (Digits.render 10 h.status.toNat ++ 32 :: tail) := by
    unfold WireHead.statusText
    rw [hnumber, hreason, show ascii "HTTP/1.1 " = spell "HTTP/1.1" ++ [32] by decide]
    simp
  have hstatus := hr.status
  rw [hline, readStatusLine_render]
  exact if_pos (by omega)

/-- **What the client reads.** -/
theorem FramedWire.readResponse_eq (hf : FramedWire method h wire content) (hr : h.Readable)
    (hmethod : method ≠ spell "CONNECT") :
    readResponse method (h.bytes ++ wire) = some (⟨h.status.toNat, h.told, content⟩, []) := by
  have hconnect : ¬ (method = spell "CONNECT" ∧ h.status.toNat / 100 = 2) := fun hc => hmethod hc.1
  have hsplit : splitHead (h.bytes ++ wire) =
      some (h.statusText :: h.fields.map WireField.text, wire) := by
    apply splitHead_unlines (List.cons_ne_nil _ _)
    intro l hl
    obtain ⟨hne, htext, -⟩ := h.lines_ok l hl
    exact ⟨hne, htext.1⟩
  have hfields : (h.fields.map WireField.text).mapM readField = some h.told :=
    mapM_readField fun f _ => readField_wire f
  have hbody : readBody (bodyLength method h.status.toNat h.told) wire = some (content, []) := by
    cases hf with
    | nothing kind => rw [bodyLength_none kind]; rfl
    | sized kind length coding =>
        rw [bodyLength_exactly kind hconnect coding length]
        unfold readBody
        dsimp only
        rw [if_pos le_rfl, List.take_length, List.drop_length]
    | chunks kind coding ne =>
        rw [bodyLength_chunked kind hconnect coding]
        have hread := readChunked_chunks ne []
        rwa [List.append_nil] at hread
  unfold readResponse
  rw [hsplit]
  dsimp only
  rw [readStatusLine_wire hr, hfields]
  dsimp only
  rw [hbody]
  rfl

/-! ### The bridge -/

theorem told_filter (h : WireHead) :
    h.told.filter (fun f => !blockedH2Header f.1) = h.kept.map WireField.told := by
  unfold WireHead.told WireHead.kept
  rw [List.filter_map]
  rfl

/-- A name that is blocked is plain, so the bridge does not take it for another. -/
theorem plain_of_blocked {name : Bytes} (h : blockedH2Header name = true) : Plain name := by
  obtain ⟨known, hknown, hname⟩ := List.any_eq_true.mp h
  have hall : ∀ known ∈ [ascii "connection", ascii "transfer-encoding", ascii "upgrade",
      ascii "keep-alive", ascii "proxy-connection"],
      (∀ c ∈ known.head?, isspace c = false) ∧ (∀ c ∈ known.getLast?, isspace c = false) ∧
        isQuoted 34 known = false ∧ isQuoted 39 known = false := by decide +kernel
  obtain ⟨hfirst, hlast, hunquoted⟩ := hall known hknown
  exact plain_of_streqCi hname ⟨hfirst, hlast, hunquoted⟩

/-- A field that `parse_loopback_response` takes for `Transfer-Encoding` is one, if all fields are
carried. -/
theorem coding_of_announces (hcarried : ∀ f ∈ h.kept, f.Carried) {f : WireField}
    (hf : f ∈ h.fields) (hannounces : announcesChunks f = true) :
    streqCi f.name (ascii "Transfer-Encoding") = true := by
  unfold announcesChunks at hannounces
  rw [Bool.and_eq_true] at hannounces
  have hplain : Plain f.name := by
    by_cases hblocked : blockedH2Header f.name = true
    · exact plain_of_blocked hblocked
    · have hkept : f ∈ h.kept := List.mem_filter.mpr ⟨hf, by simpa using hblocked⟩
      exact (hcarried f hkept).name_plain
  rw [trim_of_plain rfl hplain] at hannounces
  exact hannounces.1

/-- Without the field `Transfer-Encoding` no chunks are announced. -/
theorem announces_of_no_coding (hcarried : ∀ f ∈ h.kept, f.Carried)
    (hcoding : values (spell "Transfer-Encoding") h.told = []) :
    h.fields.any announcesChunks = false := by
  rw [← Bool.not_eq_true, List.any_eq_true]
  rintro ⟨f, hf, hannounces⟩
  have hname := coding_of_announces hcarried hf hannounces
  have hmem : f.told.2 ∈ values (spell "Transfer-Encoding") h.told := by
    apply List.mem_map_of_mem
    refine List.mem_filter.mpr ⟨List.mem_map_of_mem hf, ?_⟩
    rw [sameWord_eq]
    exact hname
  rw [hcoding] at hmem
  exact List.not_mem_nil hmem

/-- The bridge finds the word `chunked` where a backend says it. -/
theorem announces_of_coding
    (hcoding : values (spell "Transfer-Encoding") h.told = [spell "chunked"]) :
    h.fields.any announcesChunks = true := by
  have hmem : spell "chunked" ∈ values (spell "Transfer-Encoding") h.told := by
    rw [hcoding]
    exact List.mem_singleton_self _
  obtain ⟨told, htold, hvalue⟩ := List.mem_map.mp hmem
  obtain ⟨hin, hname⟩ := List.mem_filter.mp htold
  obtain ⟨f, hf, rfl⟩ := List.mem_map.mp hin
  rw [sameWord_eq] at hname
  have hname : streqCi f.name (ascii "Transfer-Encoding") = true := hname
  have hplainName : Plain (ascii "Transfer-Encoding") :=
    ⟨by decide +kernel, by decide +kernel, by decide⟩
  have hplainWord : Plain (ascii "chunked") := ⟨by decide +kernel, by decide +kernel, by decide⟩
  have hstrip : strip isspace f.value = strip isspace (ascii "chunked") := by
    rw [← strip_strip isspace_of_isBlank, ← trimBlanks_eq_strip]
    exact congrArg _ hvalue
  have htoken : headerValueHasToken (ascii "chunked") (ascii "chunked") = true := by decide
  refine List.any_eq_true.mpr ⟨f, hf, ?_⟩
  unfold announcesChunks
  rw [trim_of_plain rfl (plain_of_streqCi hname hplainName), trim_of_plain hstrip hplainWord,
    htoken, Bool.and_true]
  exact hname

/-- **What the bridge reads** of a response whose fields are carried. -/
theorem FramedWire.parse_eq (hf : FramedWire method h wire content)
    (hcarried : ∀ f ∈ h.kept, f.Carried) (hfits : wire.length ≤ h2MaxResponse) :
    parseLoopbackResponse true (h.bytes ++ wire) =
      if wire = [] ∧ h.fields.any announcesChunks = true then none
      else some (h.response content) := by
  rw [parseLoopbackResponse_wire]
  cases hf with
  | nothing kind =>
      rw [decodeChunkedBody_nil, Option.map_none]
      simp only [true_and]
  | sized kind length coding =>
      have hno := announces_of_no_coding hcarried coding
      rw [hno, if_neg Bool.false_ne_true, if_neg]
      exact fun hc => Bool.false_ne_true hc.2
  | chunks kind coding ne =>
      rename_i segments
      have hshort : segments.flatten.length ≤ h2MaxResponse := by
        have hle := length_flatten_le_flatMap_chunk segments
        rw [List.length_append] at hfits
        omega
      rw [announces_of_coding coding, if_pos rfl, decodeChunkedBody_chunks ne hshort, if_neg]
      · rfl
      · rintro ⟨hnil, -⟩
        exact List.append_ne_nil_of_right_ne_nil _ (by decide) hnil

/-! ### The client of HTTP/2 -/

/-- A client of HTTP/2 gets this response: its status, its fields apart from those of the
connection, and its body, in DATA frames of any lengths. -/
structure H2Submission.Tells (sub : H2Submission) (r : MessageFraming.Response) : Prop where
  fields : sub.fields.map shown =
    (ascii ":status", decimal r.status) :: withHsts (r.fields.filter fun f => !blockedH2Header f.1)
  nothing : r.body = [] → ∀ lengths, sub.frames lengths = []
  body : r.body ≠ [] → ∀ lengths : List ℕ, (∀ n ∈ lengths, 0 < n) →
    r.body.length ≤ lengths.sum → DeliversBody (sub.frames lengths) r.body

/-- The fields of the response that the client of HTTP/1.1 reads. -/
theorem expected_eq (hr : h.Readable) :
    h.expected = (ascii ":status", decimal h.status.toNat) ::
      withHsts (h.told.filter fun f => !blockedH2Header f.1) := by
  have hpos := hr.status.1
  unfold WireHead.expected
  rw [told_filter]
  congr 2
  unfold decimalInt
  rw [if_neg (by omega)]
  congr 1
  omega

/-- A response that is parsed is told, if its head is carried. -/
theorem tells_of_carried (hf : FramedWire method h wire content) (hr : h.Readable)
    (hhead : h.CarriedHead) {s : H2Stream} (hmethod : s.method = method)
    (hcase : streqCi method (ascii "HEAD") = true → method = spell "HEAD")
    (hparse : parseLoopbackResponse true s.rawResponse = some (h.response content)) :
    ∃ sub, submitParsedLoopbackResponse true true s = some sub ∧
      sub.Tells ⟨h.status.toNat, h.told, content⟩ := by
  have hshown := (shown_eq_expected_iff h content).mpr hhead
  have hbody : (if streqCi s.method (ascii "HEAD") then [] else content) = content := by
    split_ifs with hhead
    · rw [hmethod] at hhead
      cases hf with
      | nothing kind => rfl
      | sized kind length coding => exact absurd (Or.inl (hcase hhead)) kind
      | chunks kind coding ne => exact absurd (Or.inl (hcase hhead)) kind
    · rfl
  unfold submitParsedLoopbackResponse
  rw [hparse]
  refine ⟨_, rfl, ?_, fun hnil lengths => ?_, fun hne lengths hpos hsum => ?_⟩
  · rw [← expected_eq hr]
    exact hshown
  · exact if_pos (hbody.trans hnil)
  · have hsame : (h.response content).body = content := rfl
    rw [hsame, hbody]
    exact (@delivers_frames ⟨_, content⟩ hne lengths hpos).1 hsum

/-- **A client of HTTP/2 gets what a client of HTTP/1.1 would have read**, exactly if the head is
carried and nothing is announced where nothing is sent. -/
theorem bridged_iff (hf : FramedWire method h wire content) (hr : h.Readable)
    (hcase : streqCi method (ascii "HEAD") = true → method = spell "HEAD")
    (hmethod : method ≠ spell "CONNECT") (hfits : (h.bytes ++ wire).length ≤ h2MaxResponse)
    {calls : List Progressed} (harrives : Arrivals calls (h.bytes ++ wire)) {s : H2Stream}
    (hstate : s.backendState = .reading) (hraw : s.rawResponse = []) (hs : s.method = method)
    (active : ℕ) :
    (progressAll calls (s, active)).1.backendState = .done ∧
      ∃ r, readResponse method (h.bytes ++ wire) = some (r, []) ∧
        ((∃ sub, submitParsedLoopbackResponse true true (progressAll calls (s, active)).1 =
            some sub ∧ sub.Tells r) ↔
          h.CarriedHead ∧ (wire = [] → h.fields.any announcesChunks = false)) := by
  obtain ⟨hcollected, hsame, hdone⟩ := progressAll_arrivals harrives hstate active
    (by rw [hraw, List.length_nil]; omega)
  rw [hraw, List.nil_append] at hcollected
  refine ⟨hdone, _, hf.readResponse_eq hr hmethod, ?_, ?_⟩
  · rintro ⟨sub, hsubmit, htells⟩
    have hfaithful : SubmitsFaithfully (progressAll calls (s, active)).1 h wire := by
      refine ⟨sub, ?_, ?_⟩
      · rw [← hcollected]
        exact hsubmit
      · rw [expected_eq hr]
        exact htells.fields
    have hcarried := (submitsFaithfully_iff _ h wire).mp hfaithful
    refine ⟨⟨hcarried.status, hcarried.fields, hcarried.count⟩, ?_⟩
    rintro rfl
    by_contra hannounces
    rw [Bool.not_eq_false] at hannounces
    exact hcarried.body hannounces decodeChunkedBody_nil
  · rintro ⟨hhead, hnothing⟩
    rw [List.length_append] at hfits
    have hparse := hf.parse_eq hhead.fields (by omega)
    rw [if_neg fun hc => Bool.eq_false_iff.mp (hnothing hc.1) hc.2, ← hcollected] at hparse
    exact tells_of_carried hf hr hhead (hsame.trans hs) hcase hparse

/-- The chunks of `hi`, and the end. -/
def hiWire : Bytes := [ascii "hi"].flatMap chunk ++ lastChunk

/-- Two calls that read a response in three pieces. -/
def cutCalls (b : Bytes) : List Progressed :=
  [({ pollin := true }, ⟨false, [], [.data (b.take 20) true, .again]⟩),
    ({ pollin := true },
      ⟨false, [], [.interrupted, .data ((b.drop 20).take 1) true, .data (b.drop 21) true, .eof]⟩)]

theorem arrivals_cutCalls (b : Bytes) : Arrivals (cutCalls b) b := by
  have hall : Arrivals (cutCalls b)
      (b.take 20 ++ [] ++ ((b.drop 20).take 1 ++ (b.drop 21 ++ []))) := by
    apply Arrivals.more
    · exact Reads.data _ (Reads.again [])
    · apply Arrivals.last
      exact Reads.interrupted (Reads.data _ (Reads.data _ (Reads.eof [])))
  have hrest : b.drop 21 = (b.drop 20).drop 1 := by rw [List.drop_drop]
  rwa [List.append_nil, List.append_nil, hrest, List.take_append_drop,
    List.take_append_drop] at hall

theorem bridged_iff_hi :
    ∃ r, readResponse (ascii "GET") (announcingHead.bytes ++ hiWire) = some (r, []) ∧
      ∃ sub, submitParsedLoopbackResponse true true
          (progressAll (cutCalls (announcingHead.bytes ++ hiWire))
            ({ method := ascii "GET", backendState := .reading }, 1)).1 = some sub ∧ sub.Tells r := by
  have hkind : ¬ (ascii "GET" = spell "HEAD" ∨ bodiless announcingHead.status.toNat = true) := by
    decide
  have hframed : FramedWire (ascii "GET") announcingHead hiWire [ascii "hi"].flatten :=
    FramedWire.chunks hkind (by decide +kernel) (by decide)
  have hcarried : announcingHead.CarriedHead := by
    refine ⟨by decide +kernel, fun f hf => ?_, Or.inl (by decide +kernel)⟩
    have hkept : announcingHead.kept = [] := List.filter_eq_nil_iff.mpr (by simp; decide)
    rw [hkept] at hf
    exact absurd hf List.not_mem_nil
  obtain ⟨-, r, hread, hiff⟩ := bridged_iff hframed ⟨by decide, rfl⟩ (by decide) (by decide)
    (by decide +kernel) (arrivals_cutCalls _)
    (s := { method := ascii "GET", backendState := .reading }) rfl rfl rfl 1
  exact ⟨r, hread, hiff.mpr ⟨hcarried, fun hnil => absurd hnil (by decide)⟩⟩

end Rpsiod

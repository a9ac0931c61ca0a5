import Rpsiod.Http2.Response

/-!
# A streamed FastCGI body over HTTP/2

`send_php_fpm` writes a body of unknown length in chunks to the loopback connection; the HTTP/2 side
collects them with `append_bytes`, decodes them and hands the data out in frames.

* `writeChunked`: the chunks, as `send_php_fpm` writes them.
* `Arrivals`: the calls of `h2_progress_backend_stream` that read a response to its end.
* `progressAll_arrivals`: **what arrives is collected**, however it is cut.
* `streamed_body_survives`: **the frames are the segments**, with the flag on the last byte.
-/

namespace Rpsiod

open ListSearch Crlf Chunked

/-! ### Writing -/

/-- The segments of a body, then its end. -/
def writeChunked (w : World) : List Bytes → Trace → Trace × ℤ
  | [], t => clientWriteChunkedEnd w t
  | segment :: segments, t =>
      andThen (clientWriteChunkedBody w segment t) (writeChunked w segments)

theorem clientWriteChunkedBody_eq {w : World} (hpeer : w.peer = .willing) (segment : Bytes)
    (t : Trace) :
    clientWriteChunkedBody w segment t = (t ++ bodyEvents false true segment, 0) :=
  @writePhpBody_eq w {} hpeer segment true t

theorem writeChunked_eq {w : World} (hpeer : w.peer = .willing) (segments : List Bytes)
    (t : Trace) :
    writeChunked w segments t =
      (t ++ (segments.flatMap (bodyEvents false true) ++ [.body lastChunk]), 0) := by
  induction segments generalizing t with
  | nil =>
      unfold writeChunked clientWriteChunkedEnd
      rw [hpeer, clientWriteAll_willing, writeOf_of_ne (by decide)]
      rfl
  | cons segment segments ih =>
      unfold writeChunked
      rw [clientWriteChunkedBody_eq hpeer, andThen_zero, ih, List.flatMap_cons]
      simp only [List.append_assoc]

/-- The bytes of the chunks. -/
theorem written_writeChunked {w : World} (hpeer : w.peer = .willing) {segments : List Bytes}
    (ne : ∀ s ∈ segments, s ≠ []) (t : Trace) :
    written (writeChunked w segments t).1 = written t ++ (segments.flatMap chunk ++ lastChunk) := by
  have hfilter : segments.filter (· ≠ []) = segments :=
    List.filter_eq_self.mpr fun s hs => decide_eq_true (ne s hs)
  have hlast : written [.body lastChunk] = lastChunk := List.append_nil lastChunk
  rw [writeChunked_eq hpeer, written_append, written_append, written_chunked, hfilter, hlast]

/-! ### Collecting -/

/-- The reads of one call: these bytes come, and then the end or nothing more for now. -/
inductive Reads : List ReadResult → Bytes → Bool → Prop
  | pending : Reads [] [] false
  | again (more : List ReadResult) : Reads (.again :: more) [] false
  | eof (more : List ReadResult) : Reads (.eof :: more) [] true
  | interrupted {reads : List ReadResult} {bytes : Bytes} {ended : Bool}
      (rest : Reads reads bytes ended) : Reads (.interrupted :: reads) bytes ended
  | data (first : Bytes) {reads : List ReadResult} {bytes : Bytes} {ended : Bool}
      (rest : Reads reads bytes ended) : Reads (.data first true :: reads) (first ++ bytes) ended

/-- A call of `h2_progress_backend_stream`. -/
abbrev Progressed := Revents × BackendIo

/-- Calls that read these bytes and then the end. -/
inductive Arrivals : List Progressed → Bytes → Prop
  | last {call : Progressed} {bytes : Bytes} (reads : Reads call.2.reads bytes true) :
      Arrivals [call] bytes
  | more {call : Progressed} {calls : List Progressed} {first bytes : Bytes}
      (reads : Reads call.2.reads first false) (rest : Arrivals calls bytes) :
      Arrivals (call :: calls) (first ++ bytes)

/-- One call after the other. -/
def progressAll (calls : List Progressed) (s : H2Stream × ℕ) : H2Stream × ℕ :=
  calls.foldl (fun s call => (h2ProgressBackendStream call.1 call.2 s.1 s.2).state) s

/-- What the reads of a call leave: the bytes are behind the others. -/
theorem readLoop_reads {reads : List ReadResult} {bytes : Bytes} {ended : Bool}
    (h : Reads reads bytes ended) {s : H2Stream} (hs : s.backendState = .reading) (active : ℕ)
    (hfits : s.rawResponse.length + bytes.length ≤ h2MaxResponse) :
    ∃ s' active', (readLoop reads s active).state = (s', active') ∧
      s'.rawResponse = s.rawResponse ++ bytes ∧ s'.method = s.method ∧
      s'.backendState = if ended then .done else .reading := by
  induction h generalizing s with
  | pending => exact ⟨s, active, rfl, (List.append_nil _).symm, rfl, hs⟩
  | again more => exact ⟨s, active, rfl, (List.append_nil _).symm, rfl, hs⟩
  | eof more =>
      refine ⟨_, _, rfl, ?_, ?_, rfl⟩
      · unfold closeBackendStream
        cases s.backendFd with
        | none => exact (List.append_nil _).symm
        | some fd => exact (List.append_nil _).symm
      · unfold closeBackendStream
        cases s.backendFd with
        | none => rfl
        | some fd => rfl
  | interrupted rest ih => exact ih hs hfits
  | data first rest ih =>
      rw [List.length_append] at hfits
      have hadd : appendBytes s.rawResponse first true = some (s.rawResponse ++ first) := by
        unfold appendBytes
        rw [if_neg]
        simp only [Bool.not_true, Bool.or_false, Bool.or_eq_true, decide_eq_true_iff]
        omega
      unfold readLoop
      rw [hadd]
      obtain ⟨s', active', hstate, hraw, hmethod, hend⟩ :=
        @ih { s with rawResponse := s.rawResponse ++ first } hs
          (by show (s.rawResponse ++ first).length + _ ≤ _; rw [List.length_append]; omega)
      refine ⟨s', active', hstate, ?_, hmethod, hend⟩
      rw [hraw, List.append_assoc]

/-- A call for a stream that is being read is its reads. -/
theorem progress_of_reading (revents : Revents) (io : BackendIo) {s : H2Stream}
    (hs : s.backendState = .reading) (active : ℕ) :
    h2ProgressBackendStream revents io s active = readLoop io.reads s active := by
  unfold h2ProgressBackendStream progressConnecting progressWriting progressReading
  simp only [Progress.bind, hs, reduceCtorEq, if_false, if_true]

/-- **What arrives is collected.** -/
theorem progressAll_arrivals {calls : List Progressed} {bytes : Bytes} (h : Arrivals calls bytes)
    {s : H2Stream} (hs : s.backendState = .reading) (active : ℕ)
    (hfits : s.rawResponse.length + bytes.length ≤ h2MaxResponse) :
    (progressAll calls (s, active)).1.rawResponse = s.rawResponse ++ bytes ∧
      (progressAll calls (s, active)).1.method = s.method ∧
      (progressAll calls (s, active)).1.backendState = .done := by
  induction h generalizing s active with
  | @last call bytes reads =>
      obtain ⟨s', active', hstate, hraw, hmethod, hend⟩ := readLoop_reads reads hs active hfits
      unfold progressAll
      rw [List.foldl_cons, List.foldl_nil, progress_of_reading call.1 call.2 hs, hstate]
      exact ⟨hraw, hmethod, hend⟩
  | @more call calls first bytes reads rest ih =>
      rw [List.length_append] at hfits
      obtain ⟨s', active', hstate, hraw, hmethod, hend⟩ :=
        readLoop_reads reads hs active (by omega)
      have hrest := @ih s' hend active' (by rw [hraw, List.length_append]; omega)
      have hstep : progressAll (call :: calls) (s, active) = progressAll calls (s', active') := by
        unfold progressAll
        rw [List.foldl_cons, progress_of_reading call.1 call.2 hs, hstate]
      rw [hstep, hrest.1, hraw, List.append_assoc, hrest.2.1, hmethod]
      exact ⟨rfl, rfl, hrest.2.2⟩

/-! ### Parsing -/

/-- The flag for a chunked body stays. -/
theorem chunkedBody_foldl (lines : List Bytes) {head : LoopbackHead}
    (h : head.chunkedBody = true) : (lines.foldl applyLoopbackLine head).chunkedBody = true := by
  induction lines generalizing head with
  | nil => exact h
  | cons line lines ih =>
      apply ih
      unfold applyLoopbackLine
      split
      · exact h
      · simp only [h, Bool.true_or]
        split_ifs <;> rfl

/-- The field that announces a chunked body. -/
def chunkedField : Field := (ascii "Transfer-Encoding", ascii "chunked")

theorem chunkedBody_apply (head : LoopbackHead) :
    (applyLoopbackLine head (fieldText chunkedField)).chunkedBody = true := by
  have hsplit : splitFirst 58 (fieldText chunkedField) =
      some (ascii "Transfer-Encoding", ascii " chunked") := by decide
  have hmark : (streqCi (trim (ascii "Transfer-Encoding")) (ascii "Transfer-Encoding") &&
      headerValueHasToken (trim (ascii " chunked")) (ascii "chunked")) = true := by decide
  unfold applyLoopbackLine
  rw [hsplit]
  simp only [hmark, Bool.or_true]
  split_ifs <;> rfl

theorem chunkedBody_of_mem {lines : List Bytes} (h : fieldText chunkedField ∈ lines)
    (head : LoopbackHead) : (lines.foldl applyLoopbackLine head).chunkedBody = true := by
  obtain ⟨front, back, rfl⟩ := List.append_of_mem h
  rw [List.foldl_append, List.foldl_cons]
  exact chunkedBody_foldl back (chunkedBody_apply _)

/-- The tokens of a head: the status line, and those of the fields. -/
theorem flatMap_headLines (status : ℤ) (fields : List Field) :
    (headLines status fields).flatMap strtokLines =
      statusLine status :: fields.flatMap fun f => strtokLines (fieldText f) := by
  unfold headLines
  rw [List.flatMap_cons, List.flatMap_map, strtokLines_line (statusLine_ne_nil status)
    (cr_not_mem_statusLine status) (isText_statusLine status).1]
  rfl

/-- A head that announces chunks, with a chunked body behind it, is parsed. -/
theorem parseLoopbackResponse_chunked {status : ℤ} {fields : List Field}
    (hfields : ∀ f ∈ fields, TextField f) (hchunked : chunkedField ∈ fields)
    {segments : List Bytes} (ne : ∀ s ∈ segments, s ≠ [])
    (hfits : segments.flatten.length ≤ h2MaxResponse) :
    ∃ status' headers, parseLoopbackResponse true
        (headOf status fields ++ (segments.flatMap chunk ++ lastChunk)) =
      some ⟨status', headers, segments.flatten⟩ := by
  have hne : headLines status fields ≠ [] := List.cons_ne_nil _ _
  obtain ⟨stop, hstop, htokens, hbody⟩ :=
    loopbackTokens_unlines hne (headLines_ok hfields) (segments.flatMap chunk ++ lastChunk)
  rw [flatMap_headLines] at htokens
  set more := fields.flatMap fun f => strtokLines (fieldText f) with hmore
  have hmem : fieldText chunkedField ∈ more :=
    List.mem_flatMap.mpr ⟨chunkedField, hchunked, by decide⟩
  have hflag := chunkedBody_of_mem hmem {}
  have hstatus : sscanfStatus (statusLine status) =
      some (atoi (decimalInt status ++ (ascii " " ++ httpStatusText status))) := by
    rw [← sscanfStatus_eq]
    unfold statusLine
    simp only [List.append_assoc]
  refine ⟨atoi (decimalInt status ++ (ascii " " ++ httpStatusText status)),
    (more.foldl applyLoopbackLine {}).headers, ?_⟩
  unfold parseLoopbackResponse
  have hraw : headOf status fields ++ (segments.flatMap chunk ++ lastChunk) =
      unlines (headLines status fields) ++ crlf ++ (segments.flatMap chunk ++ lastChunk) := rfl
  rw [hraw, hstop]
  simp only [Bool.not_true, Bool.false_eq_true, if_false, htokens, hstatus, hbody, hflag, if_true,
    decodeChunkedBody_chunks ne hfits, Option.map_some]

/-! ### From the segments to the frames -/

/-- The frames are this body: the flag is on the last of them, which is not empty, and on no
other. -/
structure DeliversBody (frames : List (Bytes × Bool)) (body : Bytes) : Prop where
  bytes : frames.flatMap Prod.fst = body
  ends : ∃ front last, frames = front ++ [(last, true)] ∧ last ≠ [] ∧ ∀ f ∈ front, f.2 = false

/-- The frames are the beginning of this body, and none of them has the flag. -/
structure DeliversPart (frames : List (Bytes × Bool)) (body : Bytes) (n : ℕ) : Prop where
  bytes : frames.flatMap Prod.fst = body.take n
  open_ : ∀ f ∈ frames, f.2 = false

/-- The frames of a submission. -/
theorem delivers_frames {sub : H2Submission} (hbody : sub.body ≠ []) {lengths : List ℕ}
    (hpos : ∀ n ∈ lengths, 0 < n) :
    (sub.body.length ≤ lengths.sum → DeliversBody (sub.frames lengths) sub.body) ∧
      (lengths.sum < sub.body.length →
        DeliversPart (sub.frames lengths) sub.body lengths.sum) := by
  have hlength : 0 < sub.body.length := List.length_pos_of_ne_nil hbody
  unfold H2Submission.frames
  rw [if_neg hbody]
  constructor
  · intro hsum
    obtain ⟨front, last, hframes, hlast, hflags, hbytes⟩ :=
      dataFrames_complete hlength hpos (by omega)
    refine ⟨?_, front, last, hframes, hlast, hflags⟩
    rw [hframes, List.flatMap_append, List.flatMap_singleton]
    exact hbytes
  · intro hsum
    obtain ⟨hbytes, hflags⟩ :=
      @dataFrames_open sub.body 0 lengths (by omega)
    exact ⟨hbytes, hflags⟩

/-- The body of a response that could be parsed. -/
theorem submit_of_parse {s : H2Stream} {resp : H2Response}
    (hparse : parseLoopbackResponse true s.rawResponse = some resp)
    (hmethod : streqCi s.method (ascii "HEAD") = false) :
    ∃ fields, submitParsedLoopbackResponse true true s = some ⟨fields, resp.body⟩ := by
  unfold submitParsedLoopbackResponse
  rw [hparse, hmethod]
  exact ⟨_, rfl⟩

/-- A chunked FastCGI response has a field that says so. -/
theorem chunkedField_mem {w : World} {site : Site} {req : HttpRequest} {headers : Bytes}
    (h : phpChunked req (parseCgiHead headers) = true) :
    chunkedField ∈ phpHeadFields w site req headers := by
  have hchunked := h
  unfold phpChunked at h
  rw [Bool.and_eq_true] at h
  have hlength : (parseCgiHead headers).contentLength = none := by simpa using h.1
  unfold phpHeadFields responseFields
  rw [hlength, hchunked]
  apply List.mem_append_left
  apply List.mem_append_left
  apply List.mem_append_left
  apply List.mem_append_right
  exact List.mem_singleton_self _

/-- **A streamed body survives the HTTP/2 bridge.**  `send_php_fpm` has sent the head of a chunked
response and writes the segments; the response arrives in reads of any sizes, over any calls of
`h2_progress_backend_stream`, and the stream's frames are asked for with any positive lengths. -/
theorem streamed_body_survives {w : World} (hpeer : w.peer = .willing) {site : Site}
    {req : HttpRequest} {buffer head : Bytes} {stop : ℕ}
    (hchunked : phpChunked req (parseCgiHead (cgiHeaders buffer stop)) = true)
    (hhead : phpHead w site req (cgiHeaders buffer stop) = some head)
    {segments : List Bytes} (hsegments : segments ≠ []) (ne : ∀ s ∈ segments, s ≠ [])
    (hfits : (written (writeChunked w segments [.head head]).1).length ≤ h2MaxResponse)
    {calls : List Progressed}
    (harrives : Arrivals calls (written (writeChunked w segments [.head head]).1))
    {s : H2Stream} (hstate : s.backendState = .reading) (hraw : s.rawResponse = [])
    (hmethod : streqCi s.method (ascii "HEAD") = req.headOnly) (active : ℕ) :
    (progressAll calls (s, active)).1.backendState = .done ∧
      ∃ sub, submitParsedLoopbackResponse true true (progressAll calls (s, active)).1 = some sub ∧
        sub.body = segments.flatten ∧
        ∀ lengths : List ℕ, (∀ n ∈ lengths, 0 < n) →
          (segments.flatten.length ≤ lengths.sum →
            DeliversBody (sub.frames lengths) segments.flatten) ∧
          (lengths.sum < segments.flatten.length →
            DeliversPart (sub.frames lengths) segments.flatten lengths.sum) := by
  obtain ⟨hcollected, hsame, hdone⟩ := progressAll_arrivals harrives hstate active
    (by rw [hraw, List.length_nil]; omega)
  have hwritten : written (writeChunked w segments [.head head]).1 =
      head ++ (segments.flatMap chunk ++ lastChunk) := by
    rw [written_writeChunked hpeer ne]
    show head ++ [] ++ _ = _
    rw [List.append_nil]
  obtain ⟨hof, -⟩ := eq_headOf_of_phpHead hhead
  have hshort : segments.flatten.length ≤ h2MaxResponse := by
    have hle := length_flatten_le_flatMap_chunk segments
    rw [hwritten, List.length_append, List.length_append] at hfits
    omega
  obtain ⟨status, headers, hparse⟩ := @parseLoopbackResponse_chunked
    (parseCgiHead (cgiHeaders buffer stop)).status _
    (textField_phpHeadFields w site req (zero_not_mem_cgiHeaders buffer stop))
    (chunkedField_mem hchunked) _ ne hshort
  rw [← hof, ← hwritten] at hparse
  rw [hraw, List.nil_append] at hcollected
  have hnotHead : streqCi s.method (ascii "HEAD") = false := by
    rw [hmethod]
    unfold phpChunked at hchunked
    rw [Bool.and_eq_true] at hchunked
    simpa using hchunked.2
  have hbody : segments.flatten ≠ [] := by
    obtain ⟨first, rest, rfl⟩ := List.exists_cons_of_ne_nil hsegments
    rw [List.flatten_cons]
    exact List.append_ne_nil_of_left_ne_nil (ne first List.mem_cons_self) _
  obtain ⟨fields, hsubmit⟩ := submit_of_parse (hcollected ▸ hparse) (hsame ▸ hnotHead)
  exact ⟨hdone, _, hsubmit, rfl, fun lengths hpos =>
    @delivers_frames ⟨fields, segments.flatten⟩ hbody lengths hpos⟩

/-- A call that reads a response with a body of two bytes at once. -/
def wholeCall (head : Bytes) : Progressed :=
  ({ pollin := true },
    { socketError := false
      writes := []
      reads := [.data (written (writeChunked sampleWorld [ascii "hi"] [.head head]).1) true, .eof] })

theorem streamed_body_survives_short :
    ∃ head sub, phpHead sampleWorld {} phpRequest (cgiHeaders [] 0) = some head ∧
      submitParsedLoopbackResponse true true
        (progressAll [wholeCall head] ({ backendState := .reading }, 1)).1 = some sub ∧
      DeliversBody (sub.frames [1, 1]) (ascii "hi") := by
  obtain ⟨head, hhead⟩ : ∃ head, phpHead sampleWorld {} phpRequest (cgiHeaders [] 0) = some head :=
    Option.isSome_iff_exists.mp (by decide +kernel)
  have hwritten : written (writeChunked sampleWorld [ascii "hi"] [.head head]).1 =
      head ++ ([ascii "hi"].flatMap chunk ++ lastChunk) := by
    rw [written_writeChunked rfl (by decide)]
    show head ++ [] ++ _ = _
    rw [List.append_nil]
  have hshort := (eq_headOf_of_phpHead hhead).2
  have hfits : (written (writeChunked sampleWorld [ascii "hi"] [.head head]).1).length ≤
      h2MaxResponse := by
    have hchunks : ([ascii "hi"].flatMap chunk ++ lastChunk).length = 12 := by decide
    unfold responseHeadLen at hshort
    unfold h2MaxResponse
    rw [hwritten, List.length_append, hchunks]
    omega
  have harrives : Arrivals [wholeCall head]
      (written (writeChunked sampleWorld [ascii "hi"] [.head head]).1) := by
    apply Arrivals.last
    have hreads := Reads.data (written (writeChunked sampleWorld [ascii "hi"] [.head head]).1)
      (Reads.eof [])
    rwa [List.append_nil] at hreads
  obtain ⟨-, sub, hsubmit, -, hframes⟩ := streamed_body_survives (w := sampleWorld) rfl
    (by decide) hhead (by decide) (by decide) hfits harrives
    (s := { backendState := .reading }) rfl rfl rfl 1
  exact ⟨head, sub, hhead, hsubmit, (hframes [1, 1] (by decide)).1 (by decide)⟩

end Rpsiod

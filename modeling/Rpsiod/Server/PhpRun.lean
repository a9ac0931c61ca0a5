import Rpsiod.Lib.Collect
import Rpsiod.Server.Php

/-!
# What becomes of a FastCGI response

`phpStep` on one record is described by three lemmas: a record that adds nothing to STDOUT, one
that is collected, and one that is passed on.  From them `phpSteps_eq` says what the loop does with
any records in front of END_REQUEST: the outcome of `collect` on their STDOUT contents decides.

* `phpSteps_eq`: **the run over the records in front of END_REQUEST**.
* `deliversStdout_iff`: **the client gets the head and the body of the STDOUT stream if and only
  if the records that bring the CGI header fit the buffer, and the head fits its own**.
-/

namespace Rpsiod

open ListSearch Crlf Chunked FastCgi Collect

/-! ### The STDOUT stream -/

/-- What a record adds to STDOUT. -/
def stdout (r : Record) : Bytes := if r.kind = 6 then r.content else []

/-- The STDOUT stream of the records. -/
def stdoutOf (rs : List Record) : Bytes := (rs.map stdout).flatten

/-- The writes for body bytes of the backend. -/
def bodyEvents (headOnly chunked : Bool) (body : Bytes) : Trace :=
  if headOnly || body = [] then []
  else if chunked then
    [.body (hexadecimal body.length ++ crlf), .body body, .body crlf]
  else [.body body]

variable {w : World} {site : Site} {req : HttpRequest}

@[simp] theorem bodyEvents_nil (headOnly chunked : Bool) : bodyEvents headOnly chunked [] = [] :=
  if_pos (by simp)

theorem writePhpBody_eq (hpeer : w.peer = .willing) (body : Bytes) (chunked : Bool) (t : Trace) :
    writePhpBody w req body chunked t = (t ++ bodyEvents req.headOnly chunked body, 0) := by
  unfold writePhpBody bodyEvents
  by_cases hhead : req.headOnly = true
  · simp [hhead]
  · rw [Bool.not_eq_true] at hhead
    by_cases hbody : body = []
    · simp [hhead, hbody, clientWriteChunkedBody, clientWriteAll]
    · simp only [hhead, Bool.false_or, hbody, decide_false, Bool.false_eq_true, if_false]
      cases chunked with
      | false =>
          rw [if_neg Bool.false_ne_true, hpeer, clientWriteAll_willing, writeOf_of_ne hbody]
          rfl
      | true =>
          have hsize : hexadecimal body.length ++ crlf ≠ [] :=
            List.append_ne_nil_of_right_ne_nil _ (by decide)
          rw [if_pos rfl, clientWriteChunkedBody, if_neg hbody, hpeer,
            clientWritevAll_willing ⟨_, List.mem_cons_self, hsize⟩]
          simp [writeOf, hbody]

/-! ### The loop body -/

theorem phpStep_end {r : Record} (h : r.kind = 3) (st : PhpState) (t : Trace) :
    phpStep w site req r st t = .stop (phpFinish w site req st t) := by
  unfold phpStep
  rw [if_neg (by simp [h]), if_pos h]

/-- A record that adds nothing to STDOUT and does not end the request. -/
theorem phpStep_quiet {r : Record} (hend : r.kind ≠ 3) (hout : stdout r = []) (st : PhpState)
    (t : Trace) : phpStep w site req r st t = .next st t := by
  unfold phpStep
  rw [if_neg, if_neg hend]
  unfold stdout at hout
  intro h
  rw [Bool.and_eq_true, decide_eq_true_eq, decide_eq_true_eq] at h
  rw [if_pos h.1] at hout
  exact h.2 hout

/-- The condition of the STDOUT branch. -/
theorem isStdout {r : Record} (hout : stdout r ≠ []) :
    (decide (r.kind = 6) && decide (r.content ≠ [])) = true ∧ stdout r = r.content := by
  unfold stdout at hout ⊢
  split_ifs at hout ⊢ with hkind
  · exact ⟨by simp [hkind, hout], rfl⟩
  · exact absurd rfl hout

/-- A record while the CGI header is collected. -/
theorem phpStep_collecting {r : Record} (hout : stdout r ≠ []) {st : PhpState}
    (hst : st.responseStarted = false) (t : Trace) :
    phpStep w site req r st t =
      if headerBufferLen - st.headerBuffer.length < (stdout r).length then
        .stop (backendError w site req 502 t)
      else
        match indexOfSub crlfcrlf (st.headerBuffer ++ stdout r) with
        | none => .next { st with headerBuffer := st.headerBuffer ++ stdout r } t
        | some stop => phpStart w site req (st.headerBuffer ++ stdout r) stop t := by
  obtain ⟨hcond, hcontent⟩ := isStdout hout
  unfold phpStep
  rw [if_pos hcond, hcontent, hst]
  rfl

/-- A record behind the head. -/
theorem phpStep_started (hpeer : w.peer = .willing) {r : Record} (hend : r.kind ≠ 3)
    {st : PhpState} (hst : st.responseStarted = true) (t : Trace) :
    phpStep w site req r st t =
      .next { st with bytesStreamed := st.bytesStreamed + (stdout r).length }
        (t ++ bodyEvents req.headOnly st.chunkedResponse (stdout r)) := by
  by_cases hout : stdout r = []
  · rw [phpStep_quiet hend hout, hout]
    simp
  · obtain ⟨hcond, hcontent⟩ := isStdout hout
    unfold phpStep
    rw [if_pos hcond, hcontent, hst, writePhpBody_eq hpeer]
    rfl

/-- The head that answers this CGI header. -/
def phpHead (w : World) (site : Site) (req : HttpRequest) (headers : Bytes) : Option Bytes :=
  phpResponseHead w.host w.client site (parseCgiHead headers).status
    (parseCgiHead headers).contentType (parseCgiHead headers).contentLength req.keepAlive headers
    (phpChunked req (parseCgiHead headers))

/-- The variables of the loop when the response has started. -/
def startedState (req : HttpRequest) (buffer : Bytes) (stop : ℕ) : PhpState :=
  let h := parseCgiHead (cgiHeaders buffer stop)
  { headerBuffer := buffer
    responseStarted := true
    chunkedResponse := phpChunked req h
    status := h.status
    bytesStreamed := (buffer.drop (stop + 4)).length }

/-- Writing a head. -/
theorem writePhpResponseHeaders_eq (hpeer : w.peer = .willing) (status : ℤ) (contentType : Bytes)
    (contentLength : Option ℕ) (headers : Bytes) (chunkedResponse : Bool) (t : Trace) :
    writePhpResponseHeaders w.peer w.host w.client site status contentType contentLength
        req.keepAlive headers chunkedResponse t =
      match phpResponseHead w.host w.client site status contentType contentLength req.keepAlive
          headers chunkedResponse with
      | none => (t, -1)
      | some head => (t ++ [.head head], 0) := by
  unfold writePhpResponseHeaders
  cases hhead : phpResponseHead w.host w.client site status contentType contentLength
      req.keepAlive headers chunkedResponse with
  | none => rfl
  | some head =>
      have hne : head ≠ [] := by
        rw [phpResponseHead_eq] at hhead
        unfold fitting at hhead
        split_ifs at hhead
        rw [← Option.some.inj hhead]
        unfold headOf
        exact List.append_ne_nil_of_right_ne_nil _ (List.cons_ne_nil _ _)
      simp only [hpeer, clientWriteAll_willing, writeOf_of_ne hne]

/-- The start of a response. -/
theorem phpStart_eq (hpeer : w.peer = .willing) (halloc : w.allocates = true) (buffer : Bytes)
    (stop : ℕ) (t : Trace) :
    phpStart w site req buffer stop t =
      match phpHead w site req (cgiHeaders buffer stop) with
      | none => .stop (t, -1)
      | some head =>
          .next (startedState req buffer stop)
            (t ++ .head head :: bodyEvents req.headOnly (startedState req buffer stop).chunkedResponse
              (buffer.drop (stop + 4))) := by
  unfold phpStart phpHead
  rw [halloc, if_neg (by decide)]
  simp only [writePhpResponseHeaders_eq hpeer]
  set headers := cgiHeaders buffer stop with hheaders
  cases phpResponseHead w.host w.client site (parseCgiHead headers).status
      (parseCgiHead headers).contentType (parseCgiHead headers).contentLength req.keepAlive headers
      (phpChunked req (parseCgiHead headers)) with
  | none => rfl
  | some head =>
      simp only
      rw [if_neg (by decide)]
      by_cases hbody : buffer.drop (stop + 4) = []
      · rw [if_pos hbody, hbody, bodyEvents_nil, startedState, hbody, hheaders]
      · rw [if_neg hbody, writePhpBody_eq hpeer, List.append_assoc]
        rfl

/-! ### The run -/

/-- The run behind the head. -/
theorem phpSteps_started (hpeer : w.peer = .willing) {rs : List Record}
    (hrs : ∀ r ∈ rs, r.kind ≠ 3) {st : PhpState} (hst : st.responseStarted = true) (t : Trace) :
    phpSteps w site req rs st t =
      .next { st with bytesStreamed := st.bytesStreamed + (stdoutOf rs).length }
        (t ++ (rs.map stdout).flatMap (bodyEvents req.headOnly st.chunkedResponse)) := by
  induction rs generalizing st t with
  | nil => simp [phpSteps, stdoutOf]
  | cons r rs ih =>
      have hr := hrs r List.mem_cons_self
      have hrest : ∀ r ∈ rs, r.kind ≠ 3 := fun r h => hrs r (List.mem_cons_of_mem _ h)
      rw [phpSteps, phpStep_started hpeer hr hst]
      refine (ih hrest ?_ _).trans ?_
      · exact hst
      · simp [stdoutOf, Nat.add_assoc]

/-- **The run over the records in front of END_REQUEST.** -/
theorem phpSteps_eq (hpeer : w.peer = .willing) {rs : List Record} (hrs : ∀ r ∈ rs, r.kind ≠ 3)
    {buffer : Bytes} (hnone : indexOfSub crlfcrlf buffer = none) (t : Trace) :
    phpSteps w site req rs { headerBuffer := buffer } t =
      match collect crlfcrlf headerBufferLen buffer (rs.map stdout) with
      | .full => .stop (backendError w site req 502 t)
      | .short all => .next { headerBuffer := all } t
      | .found all stop rest =>
          if w.allocates = false then .stop (sendErrorPage w site 500 req t)
          else
            match phpHead w site req (cgiHeaders all stop) with
            | none => .stop (t, -1)
            | some head =>
                .next
                  { startedState req all stop with
                    bytesStreamed := (all.drop (stop + 4)).length + rest.flatten.length }
                  (t ++ .head head :: (all.drop (stop + 4) :: rest).flatMap
                    (bodyEvents req.headOnly (startedState req all stop).chunkedResponse)) := by
  induction rs generalizing buffer with
  | nil => rfl
  | cons r rs ih =>
      have hr := hrs r List.mem_cons_self
      have hrest : ∀ r ∈ rs, r.kind ≠ 3 := fun r h => hrs r (List.mem_cons_of_mem _ h)
      rw [phpSteps, List.map_cons, collect]
      by_cases hout : stdout r = []
      · rw [phpStep_quiet hr hout, hout]
        simp only [List.append_nil, hnone]
        exact ih hrest hnone
      · rw [phpStep_collecting hout rfl]
        by_cases hlen : headerBufferLen - buffer.length < (stdout r).length
        · rw [if_pos hlen, if_pos hlen]
          rfl
        · rw [if_neg hlen, if_neg hlen]
          cases hindex : indexOfSub crlfcrlf (buffer ++ stdout r) with
          | none => exact ih hrest hindex
          | some stop =>
              simp only
              by_cases halloc : w.allocates = false
              · rw [if_pos halloc, phpStart, halloc, if_pos (by decide)]
                rfl
              · rw [if_neg halloc, phpStart_eq hpeer (Bool.eq_true_of_not_eq_false halloc)]
                cases phpHead w site req (cgiHeaders (buffer ++ stdout r) stop) with
                | none => rfl
                | some head =>
                    simp only [Flow.bind]
                    rw [phpSteps_started hpeer hrest rfl, List.append_assoc, List.flatMap_cons]
                    rfl

/-! ### Body bytes, without their framing -/

/-- A body without its framing. -/
def unframed (chunked : Bool) (s : Bytes) : Option Bytes :=
  if chunked then (readChunked s).bind fun r => if r.2 = [] then some r.1 else none else some s

/-- The end of the body. -/
def endEvents (headOnly chunked : Bool) : Trace :=
  if chunked && !headOnly then [.body lastChunk] else []

theorem bodyEvents_headOnly (chunked : Bool) (segments : List Bytes) :
    segments.flatMap (bodyEvents true chunked) = [] := by
  rw [List.flatMap_eq_nil_iff]
  intro segment _
  exact if_pos (by simp)

theorem written_plain (segments : List Bytes) :
    written (segments.flatMap (bodyEvents false false)) = segments.flatten := by
  induction segments with
  | nil => rfl
  | cons segment segments ih =>
      rw [List.flatMap_cons, written_append, ih, List.flatten_cons]
      unfold bodyEvents
      by_cases hsegment : segment = []
      · simp [hsegment]
      · simp [hsegment, Event.bytes]

theorem written_chunked (segments : List Bytes) :
    written (segments.flatMap (bodyEvents false true)) =
      (segments.filter (· ≠ [])).flatMap chunk := by
  induction segments with
  | nil => rfl
  | cons segment segments ih =>
      rw [List.flatMap_cons, written_append, ih]
      unfold bodyEvents
      by_cases hsegment : segment = []
      · simp [hsegment]
      · simp [hsegment, Event.bytes, chunk, hexadecimal]

theorem flatten_filter_ne_nil (segments : List Bytes) :
    (segments.filter (· ≠ [])).flatten = segments.flatten := by
  induction segments with
  | nil => rfl
  | cons segment segments ih =>
      by_cases hsegment : segment = []
      · simpa [hsegment] using ih
      · simpa [hsegment] using ih

/-- **The body is the segments**, however they are framed. -/
theorem unframed_body (headOnly chunked : Bool) (hhead : chunked = true → headOnly = false)
    (segments : List Bytes) :
    unframed chunked
        (written (segments.flatMap (bodyEvents headOnly chunked) ++ endEvents headOnly chunked)) =
      some (if headOnly then [] else segments.flatten) := by
  unfold unframed endEvents
  cases chunked with
  | false =>
      cases headOnly with
      | false => simp [written_plain]
      | true => simp [bodyEvents_headOnly]
  | true =>
      have hne : ∀ s ∈ segments.filter (· ≠ []), s ≠ [] := fun s hs => by
        simpa using (List.mem_filter.mp hs).2
      have hread := readChunked_chunks hne []
      rw [flatten_filter_ne_nil, List.append_nil] at hread
      rw [hhead rfl, if_pos rfl, if_pos (by decide), written_append, written_chunked]
      have hlast : written [.body lastChunk] = lastChunk := List.append_nil lastChunk
      rw [hlast, hread]
      rfl

theorem tail_bodyEvents (headOnly chunked : Bool) (segments : List Bytes) :
    Tail (segments.flatMap (bodyEvents headOnly chunked)) := by
  intro e he
  obtain ⟨segment, -, he⟩ := List.mem_flatMap.mp he
  unfold bodyEvents at he
  split_ifs at he
  · exact absurd he List.not_mem_nil
  · simp only [List.mem_cons, List.not_mem_nil, or_false] at he
    rcases he with rfl | rfl | rfl
    · rfl
    · rfl
    · rfl
  · rw [List.mem_singleton.mp he]
    rfl

theorem tail_endEvents (headOnly chunked : Bool) : Tail (endEvents headOnly chunked) := by
  unfold endEvents
  split_ifs
  · exact tail_singleton rfl
  · exact tail_nil

theorem phpFinish_started (hpeer : w.peer = .willing) {st : PhpState}
    (hst : st.responseStarted = true) (t : Trace) :
    phpFinish w site req st t =
      (t ++ endEvents req.headOnly st.chunkedResponse ++ [.logged st.status st.bytesStreamed],
        0) := by
  have hlast : ascii "0\x0d\n\x0d\n" = lastChunk := rfl
  have hne : lastChunk ≠ [] := List.cons_ne_nil _ _
  unfold phpFinish endEvents clientWriteChunkedEnd
  rw [hst, if_neg (by decide), hpeer, clientWriteAll_willing, hlast, writeOf_of_ne hne]
  split_ifs
  · rfl
  · rw [List.append_nil]
    rfl

/-! ### Delivering the STDOUT stream -/

/-- `send_php_fpm` gets to its loop: its checks are passed, and the backend takes the request. -/
structure FpmReached (w : World) (site : Site) (req : HttpRequest) (script body : Bytes)
    (fpm : Fpm) : Prop where
  connects : fpm.connects = true
  takesBegin : fpm.takesBegin = true
  takesParams : fpm.takesParams = true
  takesStdin : fpm.takesStdin = true
  filename : (scriptFilename site script).length < 4096
  name : (scriptName script).length < 4096
  params : fcgiParams w.client site req script ≠ none
  body : body.length ≤ 65535

/-- `send_php_fpm` gets to its loop, allocates what it needs, and the client takes whatever it is
sent. -/
structure FpmAnswers (w : World) (site : Site) (req : HttpRequest) (script body : Bytes)
    (fpm : Fpm) : Prop extends FpmReached w site req script body fpm where
  peer : w.peer = .willing
  allocates : w.allocates = true

/-- `send_php_fpm` is the run over the records that the backend sends. -/
theorem sendPhpFpm_eq {script body : Bytes} {fpm : Fpm}
    (h : FpmReached w site req script body fpm) (t : Trace) :
    sendPhpFpm w site req script body fpm t =
      (phpSteps w site req (decodeAll (bytesOf fpm.pieces)) {} t).finish w site req
        fpm.ending := by
  obtain ⟨params, hparams⟩ := Option.ne_none_iff_exists'.mp h.params
  unfold sendPhpFpm
  rw [h.connects, h.takesBegin, h.takesParams, h.takesStdin, hparams,
    if_neg (not_le.mpr h.filename), if_neg (not_le.mpr h.name)]
  simp only [Bool.not_true, Bool.false_eq_true, if_false]
  rw [if_neg (not_lt.mpr h.body)]
  exact phpLoop_eq w site req fpm.ending _ fpm.pieces {} t (Nat.lt_succ_self _)

/-- The backend sends these records and then END_REQUEST, in any pieces. -/
structure SendsRecords (pieces : List Piece) (rs : List Record) : Prop where
  notEnd : ∀ r ∈ rs, r.kind ≠ 3
  bytes_eq : ∃ last tail, last.kind = 3 ∧
    bytesOf pieces = rs.flatMap encode ++ (encode last ++ tail)

/-- The text of the head that answers this CGI header. -/
def phpHeadText (w : World) (site : Site) (req : HttpRequest) (headers : Bytes) : Bytes :=
  headOf (parseCgiHead headers).status
    (responseFields w.host w.client (parseCgiHead headers).contentType
        (parseCgiHead headers).contentLength req.keepAlive
        (phpOptions site (phpChunked req (parseCgiHead headers))) ++
      phpFields (some site) headers)

theorem phpHead_eq (headers : Bytes) :
    phpHead w site req headers = fitting responseHeadLen (phpHeadText w site req headers) :=
  phpResponseHead_eq ..

/-- The client is sent the head that answers the CGI header of the stream, and behind it the bytes
of the stream behind that header, perhaps in chunks; none to a HEAD request. -/
structure DeliversStdout (w : World) (site : Site) (req : HttpRequest) (stream : Bytes) (stop : ℕ)
    (r : Trace × ℤ) : Prop where
  rc : r.2 = 0
  noError : .backendFailed ∉ r.1
  response : ∃ rest, r.1 = .head (phpHeadText w site req (cgiHeaders stream stop)) :: rest ∧
    (∀ b, .head b ∉ rest) ∧
    unframed (phpChunked req (parseCgiHead (cgiHeaders stream stop))) (written rest) =
      some (if req.headOnly then [] else stream.drop (stop + 4))

/-- The records up to the one that brings the end of the CGI header fit the header buffer. -/
def HeaderFits (rs : List Record) : Prop := Fits crlfcrlf headerBufferLen [] (rs.map stdout)

/-- What is found in the stream is the CGI header of the stream. -/
theorem cgiHeaders_append {front : Bytes} {stop : ℕ} (h : stop ≤ front.length) (tail : Bytes) :
    cgiHeaders (front ++ tail) stop = cgiHeaders front stop := by
  unfold cgiHeaders
  rw [List.take_append_of_le_length h]

/-- The outcome for records that fit: a head that fits, and the body. -/
theorem deliversStdout_of_found (hpeer : w.peer = .willing) {all : Bytes} {stop : ℕ}
    {rest : List Bytes} (hle : stop + 4 ≤ all.length) {bytesStreamed : ℕ} :
    DeliversStdout w site req (all ++ rest.flatten) stop
      (phpFinish w site req
        { startedState req all stop with bytesStreamed := bytesStreamed }
        (.head (phpHeadText w site req (cgiHeaders all stop)) ::
          (all.drop (stop + 4) :: rest).flatMap
            (bodyEvents req.headOnly (startedState req all stop).chunkedResponse))) := by
  have hheaders : cgiHeaders (all ++ rest.flatten) stop = cgiHeaders all stop :=
    cgiHeaders_append (by omega) _
  have hdrop : (all ++ rest.flatten).drop (stop + 4) = (all.drop (stop + 4) :: rest).flatten := by
    rw [List.drop_append_of_le_length hle, List.flatten_cons]
  set chunked := (startedState req all stop).chunkedResponse with hchunked
  have hhead : chunked = true → req.headOnly = false := fun h => by
    rw [hchunked] at h
    unfold startedState phpChunked at h
    simp only [Bool.and_eq_true, Bool.not_eq_true'] at h
    exact h.2
  set segments := all.drop (stop + 4) :: rest with hsegments
  have htail : Tail (segments.flatMap (bodyEvents req.headOnly chunked) ++
      endEvents req.headOnly chunked ++
      [Event.logged (startedState req all stop).status bytesStreamed]) :=
    tail_logged ((tail_bodyEvents _ _ _).append (tail_endEvents _ _)) _ _
  rw [phpFinish_started hpeer rfl, List.append_assoc, List.cons_append, ← List.append_assoc]
  refine ⟨rfl, fun hmem => ?_, _, by rw [hheaders], htail.noHead, ?_⟩
  · rcases List.mem_cons.mp hmem with h | h
    · exact nomatch h
    · exact htail.noError h
  · rw [hheaders, hdrop, written_append]
    have hlogged : ∀ s n, written [.logged s n] = [] := fun s n => rfl
    rw [hlogged, List.append_nil]
    exact unframed_body req.headOnly chunked hhead segments

/-- The response ends at END_REQUEST, if it has not ended before. -/
theorem sendPhpFpm_of_sends {script body : Bytes} {fpm : Fpm}
    (hanswers : FpmAnswers w site req script body fpm) {rs : List Record}
    (hsends : SendsRecords fpm.pieces rs) (t : Trace) :
    sendPhpFpm w site req script body fpm t =
      ((phpSteps w site req rs {} t).bind fun st t => .stop (phpFinish w site req st t)).finish w
        site req fpm.ending := by
  obtain ⟨last, tail, hlast, hbytes⟩ := hsends.bytes_eq
  rw [sendPhpFpm_eq hanswers.toFpmReached, hbytes, decodeAll_encode, decodeAll_encode_append, phpSteps_append]
  congr 1
  cases phpSteps w site req rs {} t with
  | stop result => rfl
  | next st t =>
      simp only [Flow.bind, phpSteps]
      rw [phpStep_end hlast]

/-- Records that fit: the head decides. -/
theorem deliversStdout_of_fits {script body : Bytes} {fpm : Fpm}
    (hanswers : FpmAnswers w site req script body fpm) {rs : List Record}
    (hsends : SendsRecords fpm.pieces rs) {stop : ℕ}
    (hstop : indexOfSub crlfcrlf (stdoutOf rs) = some stop) (hfits : HeaderFits rs) :
    DeliversStdout w site req (stdoutOf rs) stop (sendPhpFpm w site req script body fpm []) ↔
      (phpHeadText w site req (cgiHeaders (stdoutOf rs) stop)).length < responseHeadLen := by
  have hnone : indexOfSub crlfcrlf ([] : Bytes) = none := rfl
  have hrun : phpSteps w site req rs {} [] = _ :=
    @phpSteps_eq w site req hanswers.peer rs hsends.notEnd [] hnone []
  rcases @collect_found_or_full _ _ crlfcrlf headerBufferLen [] (rs.map stdout) stop
    (Nat.zero_le _) hnone hstop with ⟨-, all, rest, hcollect⟩ | ⟨hnot, -⟩
  · obtain ⟨hflat, hindex, -⟩ := collect_found hcollect
    have hstream : stdoutOf rs = all ++ rest.flatten := hflat
    have hle : stop + 4 ≤ all.length := indexOfSub_add_length_le hindex
    have halloc : ¬ w.allocates = false := by
      rw [hanswers.allocates]
      decide
    rw [hcollect] at hrun
    simp only [phpHead_eq, if_neg halloc] at hrun
    rw [sendPhpFpm_of_sends hanswers hsends, hrun, hstream, cgiHeaders_append (by omega)]
    by_cases hlen : (phpHeadText w site req (cgiHeaders all stop)).length < responseHeadLen
    · have hfit : fitting responseHeadLen (phpHeadText w site req (cgiHeaders all stop)) =
          some _ := if_pos hlen
      rw [hfit]
      exact iff_of_true (deliversStdout_of_found hanswers.peer hle) hlen
    · have hfit : fitting responseHeadLen (phpHeadText w site req (cgiHeaders all stop)) =
          none := if_neg hlen
      rw [hfit]
      exact iff_of_false (fun h => nomatch h.rc) hlen
  · exact absurd hfits hnot

/-- Records that do not fit: an error page. -/
theorem not_deliversStdout {script body : Bytes} {fpm : Fpm}
    (hanswers : FpmAnswers w site req script body fpm) {rs : List Record}
    (hsends : SendsRecords fpm.pieces rs) (hfits : ¬ HeaderFits rs) (stop : ℕ) :
    ¬ DeliversStdout w site req (stdoutOf rs) stop
      (sendPhpFpm w site req script body fpm []) := by
  have hnone : indexOfSub crlfcrlf ([] : Bytes) = none := rfl
  have hrun : phpSteps w site req rs {} [] = _ :=
    @phpSteps_eq w site req hanswers.peer rs hsends.notEnd [] hnone []
  rw [(collect_full_iff (Nat.zero_le headerBufferLen) hnone).mpr hfits] at hrun
  intro h
  apply h.noError
  rw [sendPhpFpm_of_sends hanswers hsends, hrun]
  exact backendFailed_mem hanswers.peer site 502 []

/-- **The records do not matter, exactly as long as those that bring the CGI header fit.** -/
theorem deliversStdout_iff {script body : Bytes} {fpm : Fpm}
    (hanswers : FpmAnswers w site req script body fpm) {rs : List Record}
    (hsends : SendsRecords fpm.pieces rs) {stop : ℕ}
    (hstop : indexOfSub crlfcrlf (stdoutOf rs) = some stop) :
    DeliversStdout w site req (stdoutOf rs) stop (sendPhpFpm w site req script body fpm []) ↔
      HeaderFits rs ∧
        (phpHeadText w site req (cgiHeaders (stdoutOf rs) stop)).length < responseHeadLen := by
  by_cases hfits : HeaderFits rs
  · rw [deliversStdout_of_fits hanswers hsends hstop hfits]
    exact (and_iff_right hfits).symm
  · exact iff_of_false (not_deliversStdout hanswers hsends hfits stop) fun h => hfits h.1

/-! ### One stream, two cuts -/

/-- A request for a script. -/
def phpRequest : HttpRequest where
  method := ascii "GET"
  path := ascii "/index.php"
  host := ascii "a"
  headerLen := 36
  keepAlive := true

/-- A STDOUT record. -/
def stdoutRecord (content : Bytes) (h : content.length < 65536) : Record :=
  ⟨1, 6, (0, 1), 0, content, [], h, by decide⟩

/-- The END_REQUEST record. -/
def endRequest : Record :=
  ⟨1, 3, (0, 1), 0, List.replicate 8 0, [], by decide, by decide⟩

/-- A backend that sends these records and END_REQUEST in one piece. -/
def fpmOf (rs : List Record) : Fpm where
  connects := true
  takesBegin := true
  takesParams := true
  takesStdin := true
  pieces := restOf (rs.flatMap encode ++ encode endRequest) []
  ending := .closed

theorem fpmOf_sends {rs : List Record} (h : ∀ r ∈ rs, r.kind = 6) :
    SendsRecords (fpmOf rs).pieces rs where
  notEnd := fun r hr => by
    rw [h r hr]
    decide
  bytes_eq := ⟨endRequest, [], rfl, by simp [fpmOf, bytesOf]⟩

theorem fpmOf_answers (rs : List Record) :
    FpmAnswers sampleWorld {} phpRequest (ascii "index.php") [] (fpmOf rs) where
  peer := rfl
  allocates := rfl
  connects := rfl
  takesBegin := rfl
  takesParams := rfl
  takesStdin := rfl
  filename := by decide
  name := by decide
  params := by decide +kernel
  body := by decide

/-- A CGI header without the blank line behind it. -/
def splitHeader : Bytes := ascii "X-Stream-Test: split"

theorem length_shortBody : (ascii "\x0d\n\x0d\nhi").length < 65536 := by decide

/-- A small response, whose header comes in two records. -/
def smallRecords : List Record :=
  [stdoutRecord splitHeader (by decide), stdoutRecord (ascii "\x0d\n\x0d\nhi") length_shortBody]

/-- A small response. -/
theorem deliversStdout_small :
    DeliversStdout sampleWorld {} phpRequest (stdoutOf smallRecords) 20
        (sendPhpFpm sampleWorld {} phpRequest (ascii "index.php") [] (fpmOf smallRecords) []) ↔
      HeaderFits smallRecords ∧
        (phpHeadText sampleWorld {} phpRequest
          (cgiHeaders (stdoutOf smallRecords) 20)).length < responseHeadLen :=
  deliversStdout_iff (fpmOf_answers _) (fpmOf_sends (by decide)) (by decide)

/-- A large first part of a body. -/
def largeBody : Bytes := List.replicate 65531 120

theorem length_largeBody : largeBody.length = 65531 := List.length_replicate

/-- A response that is cut behind the CGI header. -/
def evenRecords : List Record :=
  [stdoutRecord (splitHeader ++ crlfcrlf) (by decide),
    stdoutRecord largeBody (by rw [length_largeBody]; omega)]

/-- The same response, cut within the CGI header. -/
def unevenRecords : List Record :=
  [stdoutRecord splitHeader (by decide),
    stdoutRecord (crlfcrlf ++ largeBody)
      (by rw [List.length_append, length_largeBody]; exact Nat.le_refl 65536)]

theorem stdoutOf_evenRecords : stdoutOf evenRecords = splitHeader ++ crlfcrlf ++ largeBody := by
  show [splitHeader ++ crlfcrlf, largeBody].flatten = _
  rw [List.flatten_cons, List.flatten_singleton]

theorem stdoutOf_unevenRecords : stdoutOf unevenRecords = stdoutOf evenRecords := by
  show [splitHeader, crlfcrlf ++ largeBody].flatten = _
  rw [List.flatten_cons, List.flatten_singleton, stdoutOf_evenRecords, List.append_assoc]

theorem indexOfSub_evenRecords : indexOfSub crlfcrlf (stdoutOf evenRecords) = some 20 := by
  have hshort : indexOfSub crlfcrlf (splitHeader ++ crlfcrlf) = some 20 := by decide
  rw [stdoutOf_evenRecords]
  exact indexOfSub_append hshort _

theorem headerFits_evenRecords : HeaderFits evenRecords := by
  have hnone : indexOfSub crlfcrlf ([] : Bytes) = none := rfl
  refine (fits_cons hnone).mpr ⟨by decide, fun h => ?_⟩
  have hshort : indexOfSub crlfcrlf ([] ++ (splitHeader ++ crlfcrlf)) = some 20 := by decide
  exact nomatch hshort.symm.trans h

theorem not_headerFits_unevenRecords : ¬ HeaderFits unevenRecords := by
  intro hfits
  have hlen := hfits [splitHeader] (crlfcrlf ++ largeBody) [] rfl (by decide)
  rw [List.nil_append, List.singleton_append, List.flatten_cons, List.flatten_singleton] at hlen
  simp only [List.length_append, length_largeBody] at hlen
  have hheader : splitHeader.length = 20 := rfl
  have hblank : crlfcrlf.length = 4 := rfl
  unfold headerBufferLen at hlen
  omega

/-- **The trace of a large record**: the CGI header ends behind 24 bytes.  The response is delivered
if the records are cut there, and refused if the end of the header comes with the body. -/
theorem large_record_refused :
    SendsRecords (fpmOf evenRecords).pieces evenRecords ∧
      SendsRecords (fpmOf unevenRecords).pieces unevenRecords ∧
      stdoutOf unevenRecords = stdoutOf evenRecords ∧
      indexOfSub crlfcrlf (stdoutOf evenRecords) = some 20 ∧
      DeliversStdout sampleWorld {} phpRequest (stdoutOf evenRecords) 20
        (sendPhpFpm sampleWorld {} phpRequest (ascii "index.php") [] (fpmOf evenRecords) []) ∧
      ¬ DeliversStdout sampleWorld {} phpRequest (stdoutOf unevenRecords) 20
        (sendPhpFpm sampleWorld {} phpRequest (ascii "index.php") [] (fpmOf unevenRecords) []) := by
  have heven : SendsRecords (fpmOf evenRecords).pieces evenRecords :=
    fpmOf_sends (by simp [evenRecords, stdoutRecord])
  have huneven : SendsRecords (fpmOf unevenRecords).pieces unevenRecords :=
    fpmOf_sends (by simp [unevenRecords, stdoutRecord])
  refine ⟨heven, huneven, stdoutOf_unevenRecords, indexOfSub_evenRecords, ?_, ?_⟩
  · apply (deliversStdout_of_fits (fpmOf_answers _) heven indexOfSub_evenRecords
      headerFits_evenRecords).mpr
    rw [stdoutOf_evenRecords, cgiHeaders_append (by decide)]
    decide +kernel
  · exact not_deliversStdout (fpmOf_answers _) huneven not_headerFits_unevenRecords 20

end Rpsiod

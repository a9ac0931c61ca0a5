import Rpsiod.Http2.HeaderFidelity

/-!
# Responses without a body over HTTP/2 (`submit_parsed_loopback_response`)

The response to HEAD, and one with the status 204 or 304, has no body, whatever its head says about
one.  The parser of a loopback response does not know the method and does not look at the status: a
head that announces chunks makes it decode them.

* `submit_of_nothing_behind`: what becomes of a head with nothing behind it, byte for byte.
* `submitsBodyless_iff`: **the client gets status and fields, and no body, exactly if the head is
  carried and announces no chunks**.
* `chunked_head_replaced`: the response to HEAD of a backend that would send chunks.
-/

namespace Rpsiod

open ListSearch Crlf

/-- A response without a body, of any HTTP version: nothing is behind its head. -/
structure Bodyless (s : H2Stream) (h : WireHead) : Prop where
  raw_eq : ∃ line, IsStatusLine line h.status ∧
    s.rawResponse = unlines (line :: h.fields.map WireField.text) ++ crlf
  kind : streqCi s.method (ascii "HEAD") = true ∨ h.status = 204 ∨ h.status = 304

/-- The response is submitted with its own status and fields, up to blanks around their values, and
without a body. -/
def SubmitsBodyless (s : H2Stream) (h : WireHead) : Prop :=
  ∃ sub, submitParsedLoopbackResponse true true s = some sub ∧
    sub.fields.map (fun f => (f.1, trimBlanks f.2)) = h.expected ∧ sub.body = []

/-- No bytes are no chunks: there is no line with a size. -/
theorem decodeChunkedBody_nil : decodeChunkedBody [] = none := by decide

/-- **A head with nothing behind it** is replaced by an error page exactly if one of its lines
announces chunks, whatever the method and the status are. -/
theorem submit_of_nothing_behind {s : H2Stream} {stop : ℕ} {line : Bytes} {more : List Bytes}
    {status : ℤ} (hstop : indexOfSub crlfcrlf s.rawResponse = some stop)
    (htokens : loopbackTokens (s.rawResponse.take stop) = line :: more)
    (hstatus : sscanfStatus line = some status) (hbody : s.rawResponse.drop (stop + 4) = []) :
    submitParsedLoopbackResponse true true s =
      if (more.foldl applyLoopbackLine {}).chunkedBody then
        some (submitSimpleResponse 502 (ascii "502 Bad Gateway\n"))
      else
        some
          { fields := (ascii ":status", statusText status) ::
              (more.foldl applyLoopbackLine {}).headers ++
              if (more.foldl applyLoopbackLine {}).headers.any fun f =>
                  streqCi f.1 (ascii "Strict-Transport-Security") then []
              else [hstsField]
            body := [] } := by
  have hparse : parseLoopbackResponse true s.rawResponse =
      if (more.foldl applyLoopbackLine {}).chunkedBody then none
      else some ⟨status, (more.foldl applyLoopbackLine {}).headers, []⟩ := by
    unfold parseLoopbackResponse
    rw [hstop]
    simp only [Bool.not_true, Bool.false_eq_true, if_false, htokens, hstatus, hbody,
      decodeChunkedBody_nil, Option.map_none]
  unfold submitParsedLoopbackResponse
  rw [hparse]
  cases (more.foldl applyLoopbackLine {}).chunkedBody with
  | true => rfl
  | false =>
      simp only [Bool.false_eq_true, if_false, Bool.not_true, ite_self]
      rfl

/-- The error page has a body of its own. -/
theorem simple_body_ne : (submitSimpleResponse 502 (ascii "502 Bad Gateway\n")).body ≠ [] :=
  List.cons_ne_nil _ _

/-- **A response without a body crosses the bridge** exactly if its head is carried and does not
announce chunks. -/
theorem submitsBodyless_iff {s : H2Stream} {h : WireHead} (hs : Bodyless s h) :
    SubmitsBodyless s h ↔ h.CarriedHead ∧ h.fields.any announcesChunks = false := by
  obtain ⟨line, hline, hraw⟩ := hs.raw_eq
  have hparse := parseLoopbackResponse_lines h hline []
  rw [List.append_nil, ← hraw, decodeChunkedBody_nil, Option.map_none] at hparse
  unfold SubmitsBodyless submitParsedLoopbackResponse
  rw [hparse]
  by_cases hchunks : h.fields.any announcesChunks = true
  · -- the error page
    rw [if_pos hchunks, hchunks]
    refine iff_of_false ?_ fun hcarried => Bool.noConfusion hcarried.2
    rintro ⟨sub, hsub, -, hbody⟩
    rw [← Option.some.inj hsub] at hbody
    exact simple_body_ne hbody
  · have hno := Bool.eq_false_iff.mpr hchunks
    have hshown := shown_eq_expected_iff h []
    rw [if_neg hchunks, hno]
    simp only [Bool.not_true, Bool.false_eq_true, if_false, Option.some.injEq]
    constructor
    · rintro ⟨sub, rfl, hfields, -⟩
      exact ⟨hshown.mp hfields, trivial⟩
    · rintro ⟨hcarried, -⟩
      exact ⟨_, rfl, hshown.mpr hcarried, ite_self []⟩

/-! ### The response to HEAD of a backend that would send chunks -/

/-- `Transfer-Encoding: chunked`. -/
def announcingField : WireField where
  name := ascii "Transfer-Encoding"
  value := ascii " chunked"
  name_ok := by decide
  value_ok := by decide

/-- A head of a backend that does not know the length of the body. -/
def announcingHead : WireHead where
  status := 200
  reason := ascii " OK"
  fields := [announcingField]
  status_ok := taggedHead.status_ok
  reason_ok := taggedHead.reason_ok

/-- A head without a word about the body. -/
def notModifiedHead : WireHead where
  status := 304
  reason := ascii " Not Modified"
  fields := []
  status_ok := by decide
  reason_ok := by decide +kernel

theorem submitsBodyless_notModified :
    SubmitsBodyless { rawResponse := notModifiedHead.bytes } notModifiedHead := by
  have hcarried : notModifiedHead.CarriedHead := by
    refine ⟨by decide +kernel, fun f hf => ?_, Or.inl (by decide)⟩
    exact absurd hf List.not_mem_nil
  have hraw : ∃ line, IsStatusLine line notModifiedHead.status ∧ notModifiedHead.bytes =
      unlines (line :: notModifiedHead.fields.map WireField.text) ++ crlf :=
    ⟨_, notModifiedHead.isStatusLine, rfl⟩
  exact (submitsBodyless_iff ⟨hraw, Or.inr (Or.inr rfl)⟩).mpr ⟨hcarried, rfl⟩

/-- **The client of a HEAD request gets an error page.** -/
theorem chunked_head_replaced :
    Bodyless { method := ascii "HEAD", rawResponse := announcingHead.bytes } announcingHead ∧
      announcingHead.bytes = ascii "HTTP/1.1 200 OK\x0d\nTransfer-Encoding: chunked\x0d\n\x0d\n" ∧
      ¬ SubmitsBodyless { method := ascii "HEAD", rawResponse := announcingHead.bytes }
        announcingHead := by
  refine ⟨⟨⟨_, announcingHead.isStatusLine, rfl⟩, Or.inl (by decide)⟩, by decide +kernel, ?_⟩
  rintro ⟨sub, hsub, -, hbody⟩
  have hpage : (submitParsedLoopbackResponse true true
      { method := ascii "HEAD", rawResponse := announcingHead.bytes }).map H2Submission.body =
        some (ascii "502 Bad Gateway\n") := by
    decide +kernel
  rw [hsub, Option.map_some, hbody] at hpage
  exact absurd (Option.some.inj hpage).symm (List.cons_ne_nil _ _)

end Rpsiod

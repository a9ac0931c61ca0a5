import Rpsiod.Server.EventFraming

/-!
# Parsing again when more bytes have arrived

`handle_client_event` parses the front of the buffer more than once: to see whether a request is
ready, to take it, and again behind every read.  All searches of the parser run over the whole
buffer, but none of them looks behind the first CRLFCRLF.

* `parse_incomplete_iff`: the parser waits exactly as long as there is no CRLFCRLF.
* `examine_append`: **what is done about a buffer that is ready does not depend on the bytes behind
  it**.
* `parse_stable`: the parser, the readiness check and the dispatching parse agree.
-/

namespace Rpsiod

open ListSearch Crlf

/-- The parser waits exactly as long as there is no CRLFCRLF. -/
theorem parse_incomplete_iff (buf : Bytes) :
    httpParseRequest buf = .incomplete ↔ ¬ crlfcrlf <:+: buf := by
  rw [httpParseRequest_eq_incomplete_iff, indexOfSub_eq_none_iff_not_infix]

/-- What the readiness check has seen: a verdict, and with a request all of its body. -/
theorem ready_iff {buf : Bytes} :
    bufferedRequestReady buf = true ↔ httpParseRequest buf ≠ .incomplete ∧
      ∀ req, httpParseRequest buf = .accepted req →
        req.contentLength ≤ buf.length - req.headerLen := by
  have hempty : httpParseRequest [] = .incomplete := rfl
  unfold bufferedRequestReady
  by_cases hnil : buf = []
  · rw [if_pos hnil, hnil, hempty]
    simp
  rw [if_neg hnil]
  cases httpParseRequest buf with
  | incomplete => simp
  | malformed req => simp
  | accepted req => simp

/-- A buffer stays ready. -/
theorem ready_append {buf : Bytes} (h : bufferedRequestReady buf = true) (e : Bytes) :
    bufferedRequestReady (buf ++ e) = true := by
  obtain ⟨hverdict, hbody⟩ := ready_iff.mp h
  have hsame := httpParseRequest_append hverdict e
  refine ready_iff.mpr ⟨hsame ▸ hverdict, fun req hreq => ?_⟩
  have := hbody req (hsame ▸ hreq)
  rw [List.length_append]
  omega

/-- **What is done about a buffer that is ready** does not depend on the bytes behind it. -/
theorem examine_append {buf : Bytes} (h : bufferedRequestReady buf = true) (e : Bytes)
    (cfg : Config) (client : Client) (count : UInt32) :
    examine cfg client count (buf ++ e) = examine cfg client count buf := by
  obtain ⟨hverdict, hbody⟩ := ready_iff.mp h
  unfold examine
  rw [httpParseRequest_append hverdict e]
  cases hparse : httpParseRequest buf with
  | incomplete => rfl
  | malformed req => rfl
  | accepted req =>
      obtain ⟨-, hhead⟩ := headerLen_le_of_accepted hparse
      have hall := hbody req hparse
      have hshort : (decide (0 < req.contentLength) &&
          decide (buf.length - req.headerLen < req.contentLength)) = false := by
        rw [Bool.and_eq_false_iff, decide_eq_false_iff_not, decide_eq_false_iff_not]
        omega
      have hshort' : (decide (0 < req.contentLength) &&
          decide ((buf ++ e).length - req.headerLen < req.contentLength)) = false := by
        rw [Bool.and_eq_false_iff, decide_eq_false_iff_not, decide_eq_false_iff_not,
          List.length_append]
        omega
      have htake : ((buf ++ e).drop req.headerLen).take req.contentLength =
          (buf.drop req.headerLen).take req.contentLength := by
        rw [List.drop_append_of_le_length hhead,
          List.take_append_of_le_length (by rw [List.length_drop]; exact hall)]
      simp only [hshort, hshort', htake]

/-- **A verdict of the parser is final**: it waits exactly as long as there is no CRLFCRLF, and bytes
that arrive behind a verdict change neither it nor the request, nor what is done about a buffer that
was found to be ready. -/
theorem parse_stable :
    (∀ buf, httpParseRequest buf = .incomplete ↔ ¬ crlfcrlf <:+: buf) ∧
      (∀ buf e, httpParseRequest buf ≠ .incomplete →
        httpParseRequest (buf ++ e) = httpParseRequest buf) ∧
      ∀ buf e, bufferedRequestReady buf = true →
        httpParseRequest buf ≠ .incomplete ∧ bufferedRequestReady (buf ++ e) = true ∧
          ∀ cfg client count,
            examine cfg client count (buf ++ e) = examine cfg client count buf := by
  refine ⟨parse_incomplete_iff, fun buf e h => httpParseRequest_append h e, fun buf e h => ?_⟩
  exact ⟨(ready_iff.mp h).1, ready_append h e, fun cfg client count =>
    examine_append h e cfg client count⟩

/-- A request with a body of two bytes. -/
def readyRequest : Bytes :=
  ascii "POST / HTTP/1.1\x0d\nHost: a\x0d\nContent-Length: 2\x0d\n\x0d\nhi"

theorem parse_stable_post (e : Bytes) :
    httpParseRequest (readyRequest ++ e) = httpParseRequest readyRequest ∧
      bufferedRequestReady (readyRequest ++ e) = true := by
  obtain ⟨-, hverdict, hready⟩ := parse_stable
  have hfound := hready readyRequest e (by decide +kernel)
  exact ⟨hverdict readyRequest e hfound.1, hfound.2.1⟩

end Rpsiod

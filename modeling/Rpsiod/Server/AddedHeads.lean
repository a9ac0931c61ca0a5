import Rpsiod.Server.Responders

/-!
# The heads that a responder adds (`server.c`)

A property of the heads that `build_response_headers` makes for a responder holds of all heads that
the responder adds to the history, and of the parts of them that the client takes.

* `Builds`: the property, for one set of arguments.
* `addsOnly_sendHeadOnly`, `addsOnly_sendEncoded`, `addsOnly_sendPlainFile`,
  `addsOnly_trySmallFile`: the steps of the responders.
-/

namespace Rpsiod

/-- The head that is built has the property, whatever the client takes of it. -/
def Builds (w : World) (P : Bytes → Prop) (status : ℤ) (contentType : Bytes)
    (contentLength : Option ℕ) (keepAlive : Bool) (opts : ResponseOptions) : Prop :=
  ∀ head, buildResponseHeaders w.host w.client status contentType contentLength keepAlive opts
      responseHeadLen = some head →
    ∀ b, b <+: head → (w.peer = .willing → b = head) → P b

variable {w : World} {P : Bytes → Prop} {req : HttpRequest} {status : ℤ} {contentType : Bytes}
  {opts : ResponseOptions} {f : Trace → Trace × ℤ}

theorem addsOnly_writeHead {contentLength : Option ℕ} {keepAlive : Bool}
    (h : Builds w P status contentType contentLength keepAlive opts) :
    AddsOnly P (w.writeHead status contentType contentLength keepAlive opts) := by
  unfold World.writeHead writeResponseHeaders
  cases hbuilt : buildResponseHeaders w.host w.client status contentType contentLength keepAlive
      opts responseHeadLen with
  | none => exact .skip
  | some head => exact addsOnly_head (h head hbuilt)

/-- No body for a HEAD request. -/
theorem AddsOnly.unlessHead (h : AddsOnly P f) (headOnly : Bool) :
    AddsOnly P fun t => if headOnly then (t, 0) else f t :=
  .ite (fun _ => .skip) fun _ => h

/-- The status and the length are logged at the end. -/
theorem addsOnly_logged (status : ℤ) (bytes : ℕ) :
    AddsOnly P fun t => (logAccess status bytes t, 0) :=
  AddsOnly.skip.log status bytes

/-- A head, a body that is not sent for HEAD, and the log. -/
theorem addsOnly_headThenBody {contentLength : Option ℕ}
    (h : Builds w P status contentType contentLength req.keepAlive opts) (hf : AddsOnly P f)
    (bytes : ℕ) :
    AddsOnly P fun t =>
      andThen (w.writeHead status contentType contentLength req.keepAlive opts t) fun t =>
      andThen (if req.headOnly then (t, 0) else f t) fun t => (logAccess status bytes t, 0) :=
  (addsOnly_writeHead h).andThen ((hf.unlessHead req.headOnly).andThen (addsOnly_logged status bytes))

theorem addsOnly_sendFileBody (content : Bytes) (offset length : ℕ) :
    AddsOnly P (sendFileBody w content offset length) :=
  .ite (fun _ => .skip) fun _ => (addsOnly_body w.peer _).andThen .skip

theorem addsOnly_sendHeadOnly (h : Builds w P status contentType (some 0) req.keepAlive opts) :
    AddsOnly P (sendHeadOnly w status contentType opts req) :=
  (addsOnly_writeHead h).log status 0

theorem addsOnly_sendEncoded {length : ℕ}
    (h : Builds w P status contentType (some length) req.keepAlive opts) (hf : AddsOnly P f) :
    AddsOnly P (sendEncoded w status contentType length opts req f) := by
  have hthen := (addsOnly_writeHead h).bind
    (g := fun r : Trace × ℤ => if r.2 = 0 && !req.headOnly then f r.1 else r) fun rc => by
      show AddsOnly P fun t => if rc = 0 && !req.headOnly then f t else (t, rc)
      exact .ite (fun _ => hf) fun _ => .skip
  exact hthen.log status length

theorem addsOnly_sendPlainFile {file : OpenFile}
    (h : Builds w P status contentType (some file.stat.size) req.keepAlive opts) :
    AddsOnly P (sendPlainFile w status contentType file opts req) :=
  addsOnly_headThenBody h (addsOnly_sendFileBody _ _ _) file.stat.size

theorem addsOnly_trySmallFile {file : OpenFile}
    (h : Builds w P status contentType (some file.stat.size) req.keepAlive opts) :
    AddsOnly P (trySmallFile w status contentType file opts req) := by
  refine .ite (fun _ => .ite (fun _ => .skip) fun _ => ?_) fun _ => .skip
  cases hbuilt : buildResponseHeaders w.host w.client status contentType (some file.stat.size)
      req.keepAlive opts responseHeadLen with
  | none => exact .skip
  | some head =>
      refine .ite (fun _ => .skip) fun _ => ?_
      apply addsOnly_writev
      intro v hv
      rcases List.mem_cons.mp hv with rfl | hv
      · exact addsOnly_head (h head hbuilt)
      · rw [List.mem_singleton.mp hv]
        exact addsOnly_body w.peer _

theorem addsOnly_sendWholeFile {site : Site} {etag : Option Bytes} {file : OpenFile}
    (h : Builds w P status contentType (some file.stat.size) req.keepAlive
      (wholeFileOptions site status etag file.stat)) :
    AddsOnly P (sendWholeFile w site status contentType etag file req) := by
  set opts := wholeFileOptions site status etag file.stat
  refine (addsOnly_trySmallFile h).bind (g := fun small =>
    if small.2 = 0 then (logAccess status file.stat.size small.1, 0)
    else sendPlainFile w status contentType file opts req small.1) fun rc => ?_
  show AddsOnly P fun t => if rc = 0 then (logAccess status file.stat.size t, 0)
    else sendPlainFile w status contentType file opts req t
  exact .ite (fun _ => addsOnly_logged status _) fun _ => addsOnly_sendPlainFile h

end Rpsiod

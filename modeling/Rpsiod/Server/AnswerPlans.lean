import Rpsiod.Server.HeadPlans
import Rpsiod.Server.PhpRun
import Rpsiod.Server.HttpsRedirect

/-!
# The first head of every answer (`send_php_fpm`, `serve_static`, `serve_request`)

* `phpReply`: what the records of a FastCGI backend come to, before anything is written.
* `opens_sendPhpFpm`, `opens_serveStatic`, `opens_respond`: **each answer starts with its plan**,
  whatever the client takes.
* `request_answered_iff`: **a request is answered with a complete head, exactly if the text of its redirect
  and its head fit their buffers**.
-/

namespace Rpsiod

open ListSearch Crlf FastCgi Collect

/-! ### FastCGI responses -/

/-- What the records in front of the first write come to. -/
inductive PhpReply where
  /-- An error page. -/
  | failed (status : ℤ)
  /-- The request has ended without a blank line behind a CGI header. -/
  | whole (buffer : Bytes)
  /-- A CGI header. -/
  | started (headers : Bytes)

/-- What a backend sends, as far as the start of the response. -/
def phpReply (ending : BackendEnd) : List Record → Bytes → PhpReply
  | [], _ => .failed ending.status
  | r :: rs, buffer =>
      if r.kind = 6 && r.content ≠ [] then
        if headerBufferLen - buffer.length < r.content.length then .failed 502
        else
          match indexOfSub crlfcrlf (buffer ++ r.content) with
          | none => phpReply ending rs (buffer ++ r.content)
          | some stop => .started (cgiHeaders (buffer ++ r.content) stop)
      else if r.kind = 3 then .whole buffer
      else phpReply ending rs buffer

section plans

variable (w : World) (site : Site) (req : HttpRequest)

/-- The plan for these arguments of `write_php_response_headers`. -/
def phpPlan (status : ℤ) (contentType : Bytes) (contentLength : Option ℕ) (cgiHeaders : Bytes)
    (chunkedResponse : Bool) : HeadPlan where
  status := status
  fields := responseFields w.host w.client contentType contentLength req.keepAlive
      (phpOptions site chunkedResponse) ++ phpFields (some site) cgiHeaders

/-- The answer to a backend's reply. -/
def PhpReply.plan : PhpReply → HeadPlan
  | .failed status => backendErrorPlan w site req status
  | .whole buffer =>
      phpPlan w site req 200 (ascii "text/html; charset=utf-8") (some buffer.length) [] false
  | .started headers =>
      if !w.allocates then errorPagePlan w site req 500
      else
        let h := parseCgiHead headers
        phpPlan w site req h.status h.contentType h.contentLength headers (phpChunked req h)

/-- `send_php_fpm`. -/
def fpmPlan (script body : Bytes) (fpm : Fpm) : HeadPlan :=
  if !fpm.connects then backendErrorPlan w site req 502
  else if !fpm.takesBegin then backendErrorPlan w site req 502
  else if 4096 ≤ (scriptFilename site script).length then errorPagePlan w site req 414
  else if 4096 ≤ (scriptName script).length then errorPagePlan w site req 414
  else
    match fcgiParams w.client site req script with
    | none => errorPagePlan w site req 500
    | some _ =>
        if !fpm.takesParams then backendErrorPlan w site req 502
        else if 65535 < body.length then errorPagePlan w site req 413
        else if !fpm.takesStdin then backendErrorPlan w site req 502
        else (phpReply fpm.ending (decodeAll (bytesOf fpm.pieces)) []).plan w site req

/-- The function that `serve_static` returns through. -/
def StaticResponder.plan (fpm : Fpm) (body : Bytes) : StaticResponder → HeadPlan
  | .sendErrorPage status => errorPagePlan w site req status
  | .sendFileFd status path file cached => filePlan w site req status path file cached
  | .redirectDirectorySlash => directorySlashPlan w site req
  | .sendPhpFpm script => fpmPlan w site req script body fpm

/-- `serve_static`. -/
def staticPlan (course : Course) (cache : MetaCache) (fpm : Fpm) (body : Bytes) : HeadPlan :=
  (staticAnswer (w.under course.variants) site course cache req).plan (w.under course.variants)
    site req fpm body

/-- The loop of `serve_proxy`; none if the upstream's response is passed on. -/
def relayPlan (upstream : Upstream) : Option HeadPlan :=
  match collect crlf firstResponseLen [] (readBytes upstream.reads) with
  | .full => some (backendErrorPlan w site req 502)
  | .short _ =>
      some (backendErrorPlan w site req
        (if upstream.ending ≠ .closed then upstream.ending.status else 502))
  | .found all _ _ =>
      if (parseProxyStatusLine all).isNone then some (backendErrorPlan w site req 502) else none

/-- `serve_proxy`; none if the upstream's response is passed on. -/
def proxyPlan (upstream : Upstream) (buf body : Bytes) : Option HeadPlan :=
  if !upstream.connects then some (backendErrorPlan w site req 502)
  else if !w.allocates then some (errorPagePlan w site req 500)
  else
    match buildProxyRequest (proxyCapacity req body) w.client site req buf body with
    | none => some (errorPagePlan w site req 502)
    | some _ =>
        if !upstream.takesRequest then some (backendErrorPlan w site req 502)
        else relayPlan w site req upstream

end plans

/-- The responder of `serve_request`; none if the upstream's response is passed on. -/
def Serving.plan (s : Serving) (req : HttpRequest) (buf body : Bytes) : Responder → Option HeadPlan
  | .sendText site status text => some (textPlan s.w req site status text)
  | .sendRedirect (some site) status location => some (redirectPlan s.w site req status location)
  | .sendRateLimited (some site) retryAfter => some (rateLimitedPlan s.w site req retryAfter)
  | .sendErrorPage (some site) status => some (errorPagePlan s.w site req status)
  | .serveProxy (some site) => proxyPlan s.w site req s.upstream buf body
  | .serveStatic (some site) => some (staticPlan s.w site req s.course s.cache s.fpm body)
  | _ => none

variable {w : World} {site : Site} {req : HttpRequest}

/-! ### The loop of `send_php_fpm` -/

theorem phpPlan_head (status : ℤ) (contentType : Bytes) (contentLength : Option ℕ)
    (cgiHeaders : Bytes) (chunkedResponse : Bool) :
    (phpPlan w site req status contentType contentLength cgiHeaders chunkedResponse).head =
      phpResponseHead w.host w.client site status contentType contentLength req.keepAlive
        cgiHeaders chunkedResponse := (phpResponseHead_eq ..).symm

/-- **`write_php_response_headers`** starts with its plan. -/
theorem opens_writePhpResponseHeaders (status : ℤ) (contentType : Bytes)
    (contentLength : Option ℕ) (cgiHeaders : Bytes) (chunkedResponse : Bool) :
    Opens w.peer (phpPlan w site req status contentType contentLength cgiHeaders chunkedResponse)
      (writePhpResponseHeaders w.peer w.host w.client site status contentType contentLength
        req.keepAlive cgiHeaders chunkedResponse) := by
  have hhead := @phpPlan_head w site req status contentType contentLength cgiHeaders
    chunkedResponse
  unfold writePhpResponseHeaders
  cases hbuilt : phpResponseHead w.host w.client site status contentType contentLength
      req.keepAlive cgiHeaders chunkedResponse with
  | none => exact opens_none rfl (hhead.trans hbuilt)
  | some head =>
      refine opens_some rfl (hhead.trans hbuilt) ?_
      rw [phpResponseHead_eq] at hbuilt
      unfold fitting at hbuilt
      split_ifs at hbuilt
      rw [← Option.some.inj hbuilt]
      exact List.append_ne_nil_of_right_ne_nil _ (List.cons_ne_nil _ _)

theorem extends_writePhpBody (body : Bytes) (chunkedResponse : Bool) :
    Extends (writePhpBody w req body chunkedResponse) :=
  Extends.ite (fun _ => .skip) fun _ =>
    .ite (fun _ => .ite (fun _ => .skip) fun _ => extends_writev _ _) fun _ => extends_write _ _

/-- The end of a response without a CGI header. -/
theorem opens_phpFinish {st : PhpState} (hst : st.responseStarted = false) :
    Opens w.peer
      (phpPlan w site req st.status (ascii "text/html; charset=utf-8")
        (some st.headerBuffer.length) [] false)
      (phpFinish w site req st) := by
  have hhead := @opens_writePhpResponseHeaders w site req st.status
    (ascii "text/html; charset=utf-8") (some st.headerBuffer.length) [] false
  have hbody := (@Opens.onSuccess _ _ _ _ (!req.headOnly && decide (st.headerBuffer ≠ [])) hhead
    (@extends_write w.peer .body st.headerBuffer)).log st.status st.headerBuffer.length
  refine hbody.congr fun t => ?_
  unfold phpFinish
  rw [hst, if_pos (by decide)]
  dsimp only
  rw [Bool.and_assoc]

theorem extends_phpFinish (st : PhpState) : Extends (phpFinish w site req st) := by
  cases hst : st.responseStarted with
  | false => exact (opens_phpFinish hst).extends
  | true =>
      intro t
      have hend : Extends fun t => if st.chunkedResponse && !req.headOnly then
          clientWriteChunkedEnd w t else (t, 0) :=
        .ite (fun _ => extends_write _ _) fun _ => .skip
      unfold phpFinish
      rw [hst, if_neg (by decide)]
      exact (hend t).trans (List.prefix_append _ _)

/-- The history only grows in the loop body. -/
def ExtendsFlow (f : Trace → Flow) : Prop := ∀ t, t <+: (f t).trace

theorem Extends.after {f : Trace → Trace × ℤ} (h : Extends f) (st : PhpState) :
    ExtendsFlow fun t => Flow.after (f t) st := by
  intro t
  unfold Flow.after
  dsimp only
  split_ifs
  · exact h t
  · exact h t

theorem extendsFlow_phpStart (headerBuffer : Bytes) (stop : ℕ) :
    ExtendsFlow (phpStart w site req headerBuffer stop) := by
  intro t
  unfold phpStart
  split_ifs
  · exact (opens_sendErrorPage 500).extends t
  · have hhead := (@opens_writePhpResponseHeaders w site req
      (parseCgiHead (cgiHeaders headerBuffer stop)).status
      (parseCgiHead (cgiHeaders headerBuffer stop)).contentType
      (parseCgiHead (cgiHeaders headerBuffer stop)).contentLength
      (cgiHeaders headerBuffer stop)
      (phpChunked req (parseCgiHead (cgiHeaders headerBuffer stop)))).extends t
    dsimp only
    split_ifs
    · exact hhead
    · exact hhead
    · exact hhead.trans ((extends_writePhpBody _ _).after _ _)

theorem extendsFlow_phpStep (r : Record) (st : PhpState) :
    ExtendsFlow (phpStep w site req r st) := by
  intro t
  unfold phpStep
  dsimp only
  split_ifs
  · exact (opens_backendError 502).extends t
  · cases indexOfSub crlfcrlf (st.headerBuffer ++ r.content) with
    | none => exact List.prefix_rfl
    | some stop => exact extendsFlow_phpStart _ stop t
  · exact (extends_writePhpBody _ _).after _ t
  · exact extends_phpFinish st t
  · exact List.prefix_rfl

/-- What comes behind a loop body. -/
theorem extends_finish {f : Trace → Flow} (hf : ExtendsFlow f) {next : PhpState → Trace → Flow}
    (ending : BackendEnd)
    (hnext : ∀ st, Extends fun t => (next st t).finish w site req ending) :
    Extends fun t => ((f t).bind next).finish w site req ending := by
  intro t
  have ht := hf t
  dsimp only
  cases hflow : f t with
  | stop result =>
      rw [hflow] at ht
      exact ht
  | next st t' =>
      rw [hflow] at ht
      exact ht.trans (hnext st t')

theorem extends_phpSteps (ending : BackendEnd) (rs : List Record) (st : PhpState) :
    Extends fun t => (phpSteps w site req rs st t).finish w site req ending := by
  induction rs generalizing st with
  | nil => exact (opens_backendError ending.status).extends
  | cons r rs ih => exact extends_finish (extendsFlow_phpStep r st) ending ih

/-- The start of a response, and whatever comes behind it. -/
theorem opens_phpStart (headerBuffer : Bytes) (stop : ℕ) {next : PhpState → Trace → Flow}
    (ending : BackendEnd)
    (hnext : ∀ st, Extends fun t => (next st t).finish w site req ending) :
    Opens w.peer ((PhpReply.started (cgiHeaders headerBuffer stop)).plan w site req) fun t =>
      ((phpStart w site req headerBuffer stop t).bind next).finish w site req ending := by
  unfold phpStart PhpReply.plan
  by_cases halloc : (!w.allocates) = true
  · simp only [if_pos halloc]
    exact opens_sendErrorPage 500
  · simp only [if_neg halloc]
    set headers := cgiHeaders headerBuffer stop with hheaders
    set h := parseCgiHead headers with hh
    have hhead := @opens_writePhpResponseHeaders w site req h.status h.contentType
      h.contentLength headers (phpChunked req h)
    set body := headerBuffer.drop (stop + 4) with hbody
    set st : PhpState :=
      { headerBuffer := headerBuffer
        responseStarted := true
        chunkedResponse := phpChunked req h
        status := h.status
        bytesStreamed := body.length } with hst
    -- behind the head comes what is left in the buffer, and then the loop goes on
    have hrest : Extends fun t => (Flow.bind (if body = [] then .next st t
        else .after (writePhpBody w req body (phpChunked req h) t) st) next).finish w site req
          ending := by
      refine extends_finish (f := fun t => if body = [] then .next st t
        else .after (writePhpBody w req body (phpChunked req h) t) st) (fun t => ?_) ending hnext
      dsimp only
      split_ifs
      · exact List.prefix_rfl
      · exact (extends_writePhpBody _ _).after _ t
    refine (hhead.andThen hrest).congr fun t => ?_
    unfold Rpsiod.andThen
    split_ifs
    · rfl
    · rfl
    · rfl

/-- The loop body in front of the response. -/
theorem phpStep_waiting (r : Record) (buffer : Bytes) (t : Trace) :
    phpStep w site req r { headerBuffer := buffer } t =
      if r.kind = 6 && r.content ≠ [] then
        if headerBufferLen - buffer.length < r.content.length then
          .stop (backendError w site req 502 t)
        else
          match indexOfSub crlfcrlf (buffer ++ r.content) with
          | none => .next { headerBuffer := buffer ++ r.content } t
          | some stop => phpStart w site req (buffer ++ r.content) stop t
      else if r.kind = 3 then .stop (phpFinish w site req { headerBuffer := buffer } t)
      else .next { headerBuffer := buffer } t := rfl

/-- **The loop starts with the plan of what the records come to.** -/
theorem opens_phpSteps (ending : BackendEnd) (rs : List Record) (buffer : Bytes) :
    Opens w.peer ((phpReply ending rs buffer).plan w site req) fun t =>
      (phpSteps w site req rs { headerBuffer := buffer } t).finish w site req ending := by
  induction rs generalizing buffer with
  | nil => exact opens_backendError ending.status
  | cons r rs ih =>
      unfold phpReply phpSteps
      simp only [phpStep_waiting]
      split_ifs with hout hlen hend
      · exact opens_backendError 502
      · cases indexOfSub crlfcrlf (buffer ++ r.content) with
        | none => exact ih (buffer ++ r.content)
        | some stop => exact opens_phpStart _ stop ending (extends_phpSteps ending rs)
      · exact @opens_phpFinish w site req { headerBuffer := buffer } rfl
      · exact ih buffer

/-- **`send_php_fpm`**. -/
theorem opens_sendPhpFpm (script body : Bytes) (fpm : Fpm) :
    Opens w.peer (fpmPlan w site req script body fpm)
      (sendPhpFpm w site req script body fpm) := by
  unfold fpmPlan sendPhpFpm
  cases fcgiParams w.client site req script with
  | none =>
      dsimp only
      split_ifs
      · exact opens_backendError 502
      · exact opens_backendError 502
      · exact opens_sendErrorPage 414
      · exact opens_sendErrorPage 414
      · exact opens_sendErrorPage 500
  | some params =>
      dsimp only
      split_ifs
      · exact opens_backendError 502
      · exact opens_backendError 502
      · exact opens_sendErrorPage 414
      · exact opens_sendErrorPage 414
      · exact opens_backendError 502
      · exact opens_sendErrorPage 413
      · exact opens_backendError 502
      · refine (opens_phpSteps fpm.ending (decodeAll (bytesOf fpm.pieces)) []).congr fun t => ?_
        exact phpLoop_eq w site req fpm.ending _ fpm.pieces {} t (Nat.lt_succ_self _)

/-! ### The answer to a request -/

/-- **`serve_static`**. -/
theorem opens_serveStatic (course : Course) (cache : MetaCache) (fpm : Fpm) (body : Bytes) :
    Opens w.peer (staticPlan w site req course cache fpm body)
      (serveStatic w site course cache fpm req body) := by
  have hpeer : (w.under course.variants).peer = w.peer := rfl
  unfold staticPlan serveStatic
  rw [← hpeer]
  dsimp only
  cases staticAnswer (w.under course.variants) site course cache req with
  | sendErrorPage status => exact opens_sendErrorPage status
  | sendFileFd status path file cached => exact opens_sendFileFd status path file cached
  | redirectDirectorySlash => exact opens_redirectDirectorySlash
  | sendPhpFpm script => exact opens_sendPhpFpm script body fpm

/-- The upstream sends a complete head and closes.  A tunnel goes on where the head has been read. -/
structure UpstreamReplies (upstream : Upstream) : Prop where
  closed : upstream.ending = .closed
  status : (parseProxyStatusLine (upstreamBytes upstream.reads)).isSome
  head : (splitHead (upstreamBytes upstream.reads)).isSome
  tunnelled : parseProxyStatusLine (upstreamBytes upstream.reads) = some 101 →
    ∀ all stop rest,
      collect crlf firstResponseLen [] (readBytes upstream.reads) = .found all stop rest →
        rest.flatten <+: upstream.tunnelled

/-- The client has got a complete head, and no failure without a reply. -/
structure Answered (r : Trace × ℤ) : Prop where
  statusLine : startsWith (written r.1) (ascii "HTTP/") = true
  head : (splitHead (written r.1)).isSome
  notSilent : ¬ (r.2 = -1 ∧ written r.1 = [])

theorem answered_of_front {r : Trace × ℤ} {front : Bytes} (hpre : front <+: written r.1)
    (hstart : startsWith front (ascii "HTTP/") = true) (hsplit : (splitHead front).isSome) :
    Answered r := by
  obtain ⟨back, hback⟩ := hpre
  have hhttp : startsWith (written r.1) (ascii "HTTP/") = true := by
    rw [← hback]
    unfold startsWith at hstart ⊢
    rw [List.isPrefixOf_iff_prefix] at hstart ⊢
    exact hstart.trans (List.prefix_append _ _)
  refine ⟨hhttp, ?_, fun hsilent => ?_⟩
  · unfold splitHead at hsplit ⊢
    rw [Option.isSome_map] at hsplit ⊢
    obtain ⟨i, hi⟩ := Option.isSome_iff_exists.mp hsplit
    rw [← hback, indexOfSub_append hi]
    rfl
  · rw [hsilent.2] at hhttp
    exact absurd hhttp (by decide)

/-- A head that is built is complete. -/
theorem splitHead_headOf_isSome (status : ℤ) (fields : List Field) :
    (splitHead (headOf status fields)).isSome := splitHead_unlines_isSome (List.cons_ne_nil _ _)

theorem startsWith_headOf (status : ℤ) (fields : List Field) :
    startsWith (headOf status fields) (ascii "HTTP/") = true := by
  have hpre : ascii "HTTP/" <+: ascii "HTTP/1.1 " := by decide
  unfold startsWith headOf statusLine
  rw [List.isPrefixOf_iff_prefix, unlines_cons]
  simp only [List.append_assoc]
  exact hpre.trans (List.prefix_append _ _)

/-- An answer with a plan. -/
theorem Opens.answered_iff {peer : Peer} (hpeer : peer = .willing) {p : HeadPlan}
    {f : Trace → Trace × ℤ} (h : Opens peer p f) :
    Answered (f []) ↔ ∀ q ∈ some p, q.Fits := by
  have hstart := h.start []
  have hsome : (∀ q ∈ some p, q.Fits) ↔ p.Fits :=
    ⟨fun hall => hall p rfl, fun hfits q hq => Option.some.inj hq ▸ hfits⟩
  rw [hsome]
  by_cases hfits : p.Fits
  · have hhead : p.head = some (headOf p.status p.fields) := by
      rw [p.head_eq, if_pos hfits]
    rw [startsWith_some hhead, hpeer] at hstart
    obtain ⟨more, hmore⟩ := hstart
    refine iff_of_true (answered_of_front ?_ (startsWith_headOf p.status p.fields)
      (splitHead_headOf_isSome p.status p.fields)) hfits
    rw [← hmore, List.nil_append, written_append, written_append, p.written_before,
      List.nil_append]
    exact (List.prefix_append _ _).trans (List.prefix_append _ _)
  · have hhead : p.head = none := by
      rw [p.head_eq, if_neg hfits]
    rw [startsWith_none hhead] at hstart
    obtain ⟨hrc, more, hmore, hquiet⟩ := hstart
    refine iff_of_false (fun hanswered => hanswered.notSilent ⟨hrc, ?_⟩) hfits
    rw [hmore, List.nil_append, written_append, p.written_before, written_eq_nil hquiet]
    rfl

theorem startsWith_of_parseProxyStatusLine {buf : Bytes}
    (h : (parseProxyStatusLine buf).isSome) : startsWith buf (ascii "HTTP/") = true := by
  by_contra hstart
  rw [Bool.not_eq_true] at hstart
  unfold parseProxyStatusLine at h
  dsimp only at h
  rw [hstart, if_pos (by simp)] at h
  exact Bool.noConfusion h

/-- A response that is passed on. -/
theorem answered_relayed (hpeer : w.peer = .willing) {upstream : Upstream}
    (hreplies : UpstreamReplies upstream) {all : Bytes} {stop : ℕ} {rest : List Bytes}
    (hfound : collect crlf firstResponseLen [] (readBytes upstream.reads) =
      .found all stop rest) {status : ℤ} (hstatus : parseProxyStatusLine all = some status) :
    Answered (relayLoop w site req upstream.ending upstream.tunnelled upstream.reads {} []) := by
  have hrun : relayLoop w site req upstream.ending upstream.tunnelled upstream.reads {} [] = _ :=
    relayLoop_eq hpeer upstream.ending upstream.tunnelled upstream.reads [] []
  obtain ⟨hflat, hindex, -⟩ := collect_found hfound
  have hstream : upstreamBytes upstream.reads = all ++ rest.flatten := hflat
  have hsame : parseProxyStatusLine (upstreamBytes upstream.reads) = some status := by
    rw [hstream, parseProxyStatusLine_append hindex, hstatus]
  rw [hfound] at hrun
  simp only [hstatus] at hrun
  rw [hrun]
  refine answered_of_front ?_ (startsWith_of_parseProxyStatusLine hreplies.status) hreplies.head
  rw [hstream]
  by_cases htunnel : Tunnels site req status
  · rw [if_pos htunnel]
    have hgoes := hreplies.tunnelled (hsame.trans (congrArg some htunnel.2)) all stop rest hfound
    unfold relayDone logAccess
    rw [List.nil_append, written_append, written_cons, written_writeOf_body, List.append_assoc]
    exact (List.prefix_append_right_inj all).mpr (hgoes.trans (List.prefix_append _ _))
  · rw [if_neg htunnel]
    unfold relayEnd relayDone logAccess
    rw [if_neg (not_not.mpr hreplies.closed), List.nil_append, written_append, written_bodies,
      List.flatten_cons]
    exact List.prefix_append _ _

/-- The loop of `serve_proxy`. -/
theorem relayLoop_answered_iff (hpeer : w.peer = .willing) {upstream : Upstream}
    (hreplies : UpstreamReplies upstream) :
    Answered (relayLoop w site req upstream.ending upstream.tunnelled upstream.reads {} []) ↔
      ∀ p ∈ relayPlan w site req upstream, p.Fits := by
  have hrun : relayLoop w site req upstream.ending upstream.tunnelled upstream.reads {} [] = _ :=
    relayLoop_eq hpeer upstream.ending upstream.tunnelled upstream.reads [] []
  have hfailed : ∀ status, Answered (backendError w site req status []) ↔ _ := fun status =>
    (opens_backendError status).answered_iff hpeer
  unfold relayPlan
  cases hcollect : collect crlf firstResponseLen [] (readBytes upstream.reads) with
  | full =>
      rw [hcollect] at hrun
      rw [hrun]
      exact hfailed 502
  | short all =>
      rw [hcollect] at hrun
      rw [hrun]
      exact hfailed _
  | found all stop rest =>
      dsimp only
      cases hstatus : parseProxyStatusLine all with
      | none =>
          rw [hcollect] at hrun
          simp only [hstatus] at hrun
          rw [hrun]
          exact hfailed 502
      | some status =>
          exact iff_of_true (answered_relayed hpeer hreplies hcollect hstatus) nofun

/-- **`serve_proxy`**. -/
theorem serveProxy_answered_iff (hpeer : w.peer = .willing) {upstream : Upstream}
    (hreplies : UpstreamReplies upstream) (buf body : Bytes) :
    Answered (serveProxy w site req upstream buf body []) ↔
      ∀ p ∈ proxyPlan w site req upstream buf body, p.Fits := by
  have hpage : ∀ status, Answered (sendErrorPage w site status req []) ↔ _ := fun status =>
    (opens_sendErrorPage status).answered_iff hpeer
  have hfailed : Answered (backendError w site req 502 []) ↔ _ :=
    (opens_backendError 502).answered_iff hpeer
  unfold proxyPlan serveProxy
  cases buildProxyRequest (proxyCapacity req body) w.client site req buf body with
  | none =>
      dsimp only
      split_ifs
      · exact hfailed
      · exact hpage 500
      · exact hpage 502
  | some request =>
      dsimp only
      split_ifs
      · exact hfailed
      · exact hpage 500
      · exact hfailed
      · exact relayLoop_answered_iff hpeer hreplies

/-- **Every responder with a plan** starts with it; the proxy is looked at above. -/
theorem opens_respond {s : Serving} {buf body : Bytes} {r : Responder} {p : HeadPlan}
    (hproxy : ∀ site, r ≠ .serveProxy site) (h : s.plan req buf body r = some p) :
    Opens s.w.peer p fun t => s.respond req buf body t r := by
  cases r with
  | sendText site status text => exact Option.some.inj h ▸ opens_sendText site status text
  | sendRedirect site status location =>
      cases site with
      | none => exact nomatch h
      | some site => exact Option.some.inj h ▸ opens_sendRedirect status location
  | sendRateLimited site retryAfter =>
      cases site with
      | none => exact nomatch h
      | some site => exact Option.some.inj h ▸ opens_sendRateLimited retryAfter
  | sendErrorPage site status =>
      cases site with
      | none => exact nomatch h
      | some site => exact Option.some.inj h ▸ opens_sendErrorPage status
  | serveProxy site => exact absurd rfl (hproxy site)
  | serveStatic site =>
      cases site with
      | none => exact nomatch h
      | some site => exact Option.some.inj h ▸ opens_serveStatic s.course s.cache s.fpm body

/-- A responder with its site has a plan, or is the proxy. -/
theorem plan_of_safe {s : Serving} {buf body : Bytes} {found : Option Site} {r : Responder}
    (hsafe : r.Safe found) :
    (∃ site, r = .serveProxy (some site)) ∨
      (∀ site, r ≠ .serveProxy site) ∧ ∃ p, s.plan req buf body r = some p := by
  rcases hsafe with ⟨status, text, rfl⟩ | ⟨hsame, hsome⟩
  · exact Or.inr ⟨fun _ => Responder.noConfusion, _, rfl⟩
  · obtain ⟨site, hsite⟩ := Option.isSome_iff_exists.mp hsome
    rw [hsite] at hsame
    cases r with
    | sendText site status text => exact Or.inr ⟨fun _ => Responder.noConfusion, _, rfl⟩
    | sendRedirect site' status location =>
        obtain rfl : site' = some site := hsame
        exact Or.inr ⟨fun _ => Responder.noConfusion, _, rfl⟩
    | sendRateLimited site' retryAfter =>
        obtain rfl : site' = some site := hsame
        exact Or.inr ⟨fun _ => Responder.noConfusion, _, rfl⟩
    | sendErrorPage site' status =>
        obtain rfl : site' = some site := hsame
        exact Or.inr ⟨fun _ => Responder.noConfusion, _, rfl⟩
    | serveProxy site' => exact Or.inl ⟨site, congrArg Responder.serveProxy hsame⟩
    | serveStatic site' =>
        obtain rfl : site' = some site := hsame
        exact Or.inr ⟨fun _ => Responder.noConfusion, _, rfl⟩

/-- **A request is answered, exactly if what is composed for it fits**: the head of the answer its
buffer, and the text of a redirect another one. -/
theorem request_answered_iff {s : Serving} (hpeer : s.w.peer = .willing)
    (hreplies : UpstreamReplies s.upstream) (cfg : Config) (req : HttpRequest) (buf body : Bytes) :
    Answered (serveRequest cfg s req buf body []) ↔
      ∀ p ∈ s.plan req buf body (dispatch cfg s.w.client s.limited req), p.Fits := by
  unfold serveRequest
  rcases @plan_of_safe req s buf body _ _ (dispatch_safe cfg s.w.client s.limited req) with
    ⟨site, hproxy⟩ | ⟨hproxy, p, hplan⟩
  · rw [hproxy]
    exact serveProxy_answered_iff hpeer hreplies buf body
  · rw [hplan]
    exact (opens_respond hproxy hplan).answered_iff hpeer

/-! ### A long location -/

/-- A server in front of an upstream that answers. -/
def repliesServing : Serving :=
  { sampleServing with upstream := upstreamOf [.data okHead (by decide) (by decide)] }

theorem upstreamReplies_okHead : UpstreamReplies repliesServing.upstream where
  closed := rfl
  status := by decide
  head := by decide
  tunnelled := fun h => absurd h (by decide)

/-- Where a request for a path is sent. -/
theorem dispatch_pathRequest {n : ℕ} {req : HttpRequest}
    (hreq : httpParseRequest (pathRequest n) = .accepted req) (h : isPathRequest n req = true)
    (hlen : (httpsLocation httpsOnlySite req).length < 1024) :
    dispatch (Config.ofSites [httpsOnlySite]) repliesServing.w.client repliesServing.limited req =
      .sendRedirect (some httpsOnlySite) (httpsStatus httpsOnlySite req)
        (httpsLocation httpsOnlySite req) := by
  obtain ⟨-, hsite, hplain⟩ := pathRequest_plain h
  have hdispatch := dispatch_plain build_httpsOnlySite (fun _ => none) hreq hsite hplain
  rw [if_pos hlen] at hdispatch
  exact hdispatch

/-- A redirect with a short location. -/
theorem answered_short :
    ∃ req, httpParseRequest (pathRequest 0) = .accepted req ∧
      Answered (serveRequest (Config.ofSites [httpsOnlySite]) repliesServing req (pathRequest 0)
        [] []) := by
  obtain ⟨req, hreq, hread⟩ := @exists_accepted (pathRequest 0) (fun req =>
    isPathRequest 0 req && (decide ((httpsLocation httpsOnlySite req).length < 1024) &&
      decide (redirectPlan repliesServing.w httpsOnlySite req (httpsStatus httpsOnlySite req)
        (httpsLocation httpsOnlySite req)).Fits)) (by decide +kernel)
  obtain ⟨hpath, hfits⟩ := Bool.and_eq_true_iff.mp hread
  simp only [Bool.and_eq_true, decide_eq_true_iff] at hfits
  refine ⟨req, hreq, (request_answered_iff rfl upstreamReplies_okHead _ req _ []).mpr fun p hp => ?_⟩
  rw [dispatch_pathRequest hreq hpath hfits.1] at hp
  rw [← Option.some.inj hp]
  exact hfits.2

/-- **The trace of a long location**: it fits the buffer of `serve_request`, but the text that
`send_redirect` puts it in does not fit its own.  The request is accepted, everything succeeds, and
nothing is written. -/
theorem long_location_dropped :
    ∃ req, httpParseRequest (pathRequest 990) = .accepted req ∧
      repliesServing.w.peer = .willing ∧ repliesServing.w.allocates = true ∧
      UpstreamReplies repliesServing.upstream ∧
      serveRequest (Config.ofSites [httpsOnlySite]) repliesServing req (pathRequest 990) [] [] =
        ([], -1) ∧
      ¬ Answered (serveRequest (Config.ofSites [httpsOnlySite]) repliesServing req
        (pathRequest 990) [] []) := by
  obtain ⟨req, hreq, hread⟩ := @exists_accepted (pathRequest 990) (fun req =>
    isPathRequest 990 req && (decide ((httpsLocation httpsOnlySite req).length < 1024) &&
      decide (1024 ≤ (redirectText (httpsStatus httpsOnlySite req)
        (httpsLocation httpsOnlySite req)).length))) (by decide +kernel)
  obtain ⟨hpath, hlengths⟩ := Bool.and_eq_true_iff.mp hread
  simp only [Bool.and_eq_true, decide_eq_true_iff] at hlengths
  have hrun : serveRequest (Config.ofSites [httpsOnlySite]) repliesServing req (pathRequest 990)
      [] [] = ([], -1) := by
    unfold serveRequest
    rw [dispatch_pathRequest hreq hpath hlengths.1]
    exact if_pos hlengths.2
  refine ⟨req, hreq, rfl, rfl, upstreamReplies_okHead, hrun, fun h => h.notSilent ?_⟩
  rw [hrun]
  exact ⟨rfl, rfl⟩

end Rpsiod

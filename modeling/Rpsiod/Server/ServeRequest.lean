import Rpsiod.Server.EventSites
import Rpsiod.Server.AddedHeads
import Rpsiod.Server.ProxyRelay
import Rpsiod.Server.HeadText
import Rpsiod.Server.RedirectTarget
import Rpsiod.Server.Static

/-!
# The answer to a request (`handle_client_event`, `serve_request`)

`serveRequest` runs the responder that `dispatch` ends in, and `answer` is what the loop of
`handle_client_event` writes for the bytes in its buffer.

* `ComposedHead`: a head that `build_response_headers` or `write_php_response_headers` makes, with
  texts on one line.
* `composes_serveRequest`, `composes_answer`: **every head of an answer is one**, with the site of
  its responder.
-/

namespace Rpsiod

open ListSearch Crlf FastCgi

/-- What the responders of a request find. -/
structure Serving where
  w : World
  /-- `rpsiod_rate_limit_exceeded`. -/
  limited : Site → Option ℕ
  course : Course
  cache : MetaCache
  fpm : Fpm
  upstream : Upstream

/-- The responder of `serve_request`; it never lacks a site that it reads. -/
def Serving.respond (s : Serving) (req : HttpRequest) (buf body : Bytes) (t : Trace) :
    Responder → Trace × ℤ
  | .sendText site status text => sendText s.w site status text req t
  | .sendRedirect (some site) status location => sendRedirect s.w site status location req t
  | .sendRateLimited (some site) retryAfter => sendRateLimited s.w site retryAfter req t
  | .sendErrorPage (some site) status => sendErrorPage s.w site status req t
  | .serveProxy (some site) => serveProxy s.w site req s.upstream buf body t
  | .serveStatic (some site) => serveStatic s.w site s.course s.cache s.fpm req body t
  | _ => (t, -1)

/-- `serve_request`. -/
def serveRequest (cfg : Config) (s : Serving) (req : HttpRequest) (buf body : Bytes) (t : Trace) :
    Trace × ℤ :=
  s.respond req buf body t (dispatch cfg s.w.client s.limited req)

/-- What `handle_client_event` writes for the bytes in the buffer; a null site ends the process in
`send_error_page`. -/
def answer (cfg : Config) (s : Serving) (count : UInt32) (buf : Bytes) : Trace :=
  match examine cfg s.w.client count buf with
  | .more => []
  | .badRequest req => (sendText s.w none 400 badRequestText req []).1
  | .tooLarge (some site) req => (sendErrorPage s.w site 413 req []).1
  | .tooLarge none _ => []
  | .serve req body _ => (serveRequest cfg s req buf body []).1

/-- The site that the answer is for: the one that is found, unless `serve_request` answers without
looking for one. -/
def answerSite (cfg : Config) (s : Serving) (count : UInt32) (buf : Bytes) : Option Site :=
  match examine cfg s.w.client count buf with
  | .more => none
  | .badRequest _ => none
  | .tooLarge site _ => site
  | .serve req _ _ => (dispatch cfg s.w.client s.limited req).site

/-- A server without files, backends and limits. -/
def sampleServing : Serving where
  w := sampleWorld
  limited := fun _ => none
  course := .still Tree.bare
  cache := freshEntry
  fpm := ⟨false, false, false, false, [], .closed⟩
  upstream := ⟨false, false, [], .closed, []⟩

/-! ### Composed heads -/

/-- A text that stays on one line. -/
def Unbroken (text : Bytes) : Prop := IsText text ∧ 13 ∉ text

instance (text : Bytes) : Decidable (Unbroken text) := inferInstanceAs (Decidable (_ ∧ _))

theorem Unbroken.append {a b : Bytes} (ha : Unbroken a) (hb : Unbroken b) : Unbroken (a ++ b) :=
  ⟨ha.1.append hb.1, cr_not_mem_append ha.2 hb.2⟩

theorem Unbroken.subset {a b : Bytes} (hb : Unbroken b) (h : a ⊆ b) : Unbroken a :=
  ⟨⟨fun hmem => hb.1.1 (h hmem), fun hmem => hb.1.2 (h hmem)⟩, fun hmem => hb.2 (h hmem)⟩

/-- A head that the server composes for this site. -/
inductive ComposedHead (w : World) (site : Option Site) : Bytes → Prop
  | own {status : ℤ} {contentType : Bytes} {contentLength : Option ℕ} {keepAlive : Bool}
      {opts : ResponseOptions} {head : Bytes} (site_eq : opts.site = site)
      (texts : TextOptions contentType opts) (location : ∀ v ∈ opts.location, Unbroken v)
      (built : buildResponseHeaders w.host w.client status contentType contentLength keepAlive opts
        responseHeadLen = some head) :
      ComposedHead w site head
  | php {s : Site} {status : ℤ} {contentType : Bytes} {contentLength : Option ℕ}
      {keepAlive : Bool} {cgiHeaders : Bytes} {chunkedResponse : Bool} {head : Bytes}
      (site_eq : some s = site) (type : Unbroken contentType)
      (built : phpResponseHead w.host w.client s status contentType contentLength keepAlive
        cgiHeaders chunkedResponse = some head) :
      ComposedHead w site head

/-- What is written of a composed head: all of it, unless the client refuses. -/
def SentHead (w : World) (site : Option Site) (b : Bytes) : Prop :=
  ∃ head, ComposedHead w site head ∧ b <+: head ∧ (w.peer = .willing → b = head)

/-- Every head that is added to the history is composed for this site. -/
def Composes (w : World) (site : Option Site) (f : Trace → Trace × ℤ) : Prop :=
  ∀ t b, .head b ∈ (f t).1 → .head b ∈ t ∨ SentHead w site b

variable {w : World} {site : Option Site} {req : HttpRequest}

theorem Composes.skip {rc : ℤ} : Composes w site fun t => (t, rc) := AddsOnly.skip

/-- Two parts one behind the other, where the second may depend on what the first returns. -/
theorem Composes.bind {f : Trace → Trace × ℤ} {g : Trace × ℤ → Trace × ℤ}
    (hf : Composes w site f) (hg : ∀ rc, Composes w site fun t => g (t, rc)) :
    Composes w site fun t => g (f t) :=
  AddsOnly.bind hf hg

theorem Composes.ite {p : Prop} [Decidable p] {f g : Trace → Trace × ℤ}
    (hf : p → Composes w site f) (hg : ¬p → Composes w site g) :
    Composes w site fun t => if p then f t else g t :=
  AddsOnly.ite hf hg

theorem Composes.andThen {f : Trace → Trace × ℤ} {g : Trace → Trace × ℤ}
    (hf : Composes w site f) (hg : Composes w site g) :
    Composes w site fun t => Rpsiod.andThen (f t) g :=
  AddsOnly.andThen hf hg

/-- An event that is no head. -/
theorem Composes.event {f : Trace → Trace × ℤ} (h : Composes w site f) {e : Event}
    (he : e.isHead = false) : Composes w site fun t => f (t ++ [e]) :=
  AddsOnly.event h he

theorem Composes.log {f : Trace → Trace × ℤ} (h : Composes w site f) (status : ℤ) (bytes : ℕ) :
    Composes w site fun t => (logAccess status bytes (f t).1, (f t).2) :=
  AddsOnly.log h status bytes

/-! ### Writes -/

/-- Body bytes. -/
theorem composes_body (peer : Peer) (buf : Bytes) :
    Composes w site (clientWriteAll peer .body buf) :=
  addsOnly_body peer buf

/-- A head. -/
theorem composes_head {head : Bytes} (h : ComposedHead w site head) :
    Composes w site (clientWriteAll w.peer .head head) :=
  addsOnly_head fun _ hprefix hwilling => ⟨head, h, hprefix, hwilling⟩

theorem composes_writev {iov : List ((Bytes → Event) × Bytes)} (tls : Bool)
    (h : ∀ v ∈ iov, Composes w site (clientWriteAll w.peer v.1 v.2)) :
    Composes w site (clientWritevAll w.peer tls iov) :=
  addsOnly_writev tls h

theorem composes_bodies {iov : List ((Bytes → Event) × Bytes)} (tls : Bool)
    (h : ∀ v ∈ iov, v.1 = .body) : Composes w site (clientWritevAll w.peer tls iov) := by
  apply composes_writev
  intro v hv
  rw [h v hv]
  exact composes_body w.peer v.2

/-- What `build_response_headers` makes of texts on one line. -/
theorem builds_composed {status : ℤ} {contentType : Bytes} {contentLength : Option ℕ}
    {keepAlive : Bool} {opts : ResponseOptions} (texts : TextOptions contentType opts)
    (location : ∀ v ∈ opts.location, Unbroken v) :
    Builds w (SentHead w opts.site) status contentType contentLength keepAlive opts :=
  fun head hbuilt _ hprefix hwilling =>
    ⟨head, .own rfl texts location hbuilt, hprefix, hwilling⟩

/-- `write_response_headers`. -/
theorem composes_writeHead (status : ℤ) {contentType : Bytes}
    (contentLength : Option ℕ) (keepAlive : Bool) {opts : ResponseOptions}
    (texts : TextOptions contentType opts) (location : ∀ v ∈ opts.location, Unbroken v) :
    Composes w opts.site (w.writeHead status contentType contentLength keepAlive opts) :=
  addsOnly_writeHead (builds_composed texts location)

/-! ### Texts and files -/

theorem textOptions_plain {site : Option Site} : TextOptions plainText { site := site } :=
  ⟨by decide, nofun, nofun, nofun, nofun, nofun⟩

/-- No body for a HEAD request. -/
theorem Composes.unlessHead {f : Trace → Trace × ℤ} (h : Composes w site f) :
    Composes w site fun t => if req.headOnly then (t, 0) else f t :=
  .ite (fun _ => .skip) fun _ => h

/-- The status and the length are logged at the end. -/
theorem composes_logged (status : ℤ) (bytes : ℕ) :
    Composes w site fun t => (logAccess status bytes t, 0) :=
  Composes.skip.log status bytes

theorem composes_sendShort (status : ℤ) (text : Bytes) {opts : ResponseOptions}
    (texts : TextOptions plainText opts) (location : ∀ v ∈ opts.location, Unbroken v) :
    Composes w opts.site (sendShort w status text opts req) := by
  have hbody : Composes w opts.site (clientWritevAll w.peer w.client.tls [(.body, text)]) :=
    composes_bodies w.client.tls fun v hv => by rw [List.mem_singleton.mp hv]
  exact (composes_writeHead status _ _ texts location).andThen
    (hbody.unlessHead.andThen (composes_logged status text.length))

theorem composes_sendText (site : Option Site) (status : ℤ) (text : Bytes) :
    Composes w site (sendText w site status text req) :=
  composes_sendShort status text textOptions_plain nofun

theorem composes_sendRedirect (site : Site) (status : ℤ) {location : Bytes}
    (h : Unbroken location) : Composes w (some site) (sendRedirect w site status location req) := by
  refine .ite (fun _ => .skip) fun _ => ?_
  apply composes_sendShort
  · exact ⟨by decide, nofun, fun v hv => Option.mem_some.mp hv ▸ h.1, nofun, nofun, nofun⟩
  · exact fun v hv => Option.mem_some.mp hv ▸ h

theorem composes_sendRateLimited (site : Site) (retryAfter : ℕ) :
    Composes w (some site) (sendRateLimited w site retryAfter req) := by
  apply composes_sendShort
  · exact ⟨by decide, nofun, nofun, nofun,
      fun v hv => Option.mem_some.mp hv ▸ isText_decimal _, nofun⟩
  · exact nofun

theorem composes_sendFileBody (content : Bytes) (offset length : ℕ) :
    Composes w site (sendFileBody w content offset length) :=
  addsOnly_sendFileBody content offset length

section file

variable {s : Site} {mime : Bytes} {etag : Option Bytes} {file : OpenFile}

theorem composes_sendHeadOnly (status : ℤ) {contentType : Bytes}
    {opts : ResponseOptions} (texts : TextOptions contentType opts)
    (location : ∀ v ∈ opts.location, Unbroken v) :
    Composes w opts.site (sendHeadOnly w status contentType opts req) :=
  addsOnly_sendHeadOnly (builds_composed texts location)

theorem composes_sendFileRange (hmime : IsText mime)
    (hetag : ∀ v ∈ etag, IsText v) :
    Composes w (some s) (sendFileRange w s mime etag file req) := by
  unfold sendFileRange
  dsimp only
  cases requestedRange req file.stat.size with
  | none =>
      apply composes_sendHeadOnly
      · refine ⟨by decide, nofun, nofun, fun v hv => ?_, nofun, hetag⟩
        rw [← Option.mem_some.mp hv]
        exact (show IsText (ascii "bytes */") by decide).append (isText_decimal _)
      · exact nofun
  | some range =>
      obtain ⟨start, stop⟩ := range
      refine (composes_writeHead 206 _ _ ?_ ?_).andThen
        ((composes_sendFileBody _ _ _).unlessHead.andThen (composes_logged 206 _))
      · refine ⟨hmime, nofun, nofun, fun v hv => ?_, nofun, hetag⟩
        rw [← Option.mem_some.mp hv]
        exact isText_contentRange start stop file.stat.size
      · exact nofun

theorem composes_sendEncoded (status : ℤ) {contentType : Bytes}
    (length : ℕ) {opts : ResponseOptions} (texts : TextOptions contentType opts)
    (location : ∀ v ∈ opts.location, Unbroken v) {body : Trace → Trace × ℤ}
    (hbody : Composes w opts.site body) :
    Composes w opts.site (sendEncoded w status contentType length opts req body) :=
  addsOnly_sendEncoded (builds_composed texts location) hbody

theorem composes_sendWholeFile (status : ℤ) (hmime : IsText mime)
    (hetag : ∀ v ∈ etag, IsText v) :
    Composes w (some s) (sendWholeFile w s status mime etag file req) := by
  have texts : TextOptions mime (wholeFileOptions s status etag file.stat) :=
    ⟨hmime, nofun, nofun, nofun, nofun, hetag⟩
  exact addsOnly_sendWholeFile (builds_composed texts nofun)

theorem composes_sendFileContent (status : ℤ) (path : Bytes)
    (hmime : IsText mime) (hetag : ∀ v ∈ etag, IsText v) (cached : Option StaticMeta) :
    Composes w (some s) (sendFileContent w s status mime path etag file cached req) := by
  have texts : ∀ encoding, IsText encoding →
      TextOptions mime (encodedOptions s encoding etag file.stat) := fun encoding hencoding =>
    ⟨hmime, fun _ hv => Option.mem_some.mp hv ▸ hencoding, nofun, nofun, nofun, hetag⟩
  apply sendFileContent_cases (P := fun _ f => Composes w (some s) f)
  · intro v encoding htext
    exact composes_sendEncoded status v.stat.size (texts encoding htext) nofun
      (composes_sendFileBody _ _ _)
  · intro c encoding htext
    exact composes_sendEncoded status c.length (texts encoding htext) nofun (composes_body w.peer c)
  · exact composes_sendWholeFile status hmime hetag

/-- **`send_file_fd`**. -/
theorem composes_sendFileFd (status : ℤ) (path : Bytes)
    (cached : Option StaticMeta) :
    Composes w (some s) (sendFileFd w s status path file cached req) := by
  have hmime := isText_servedMime cached path
  have hetag := isText_servedEtag cached
  refine .ite (fun _ => ?_) fun _ => .ite (fun _ => ?_) fun _ => ?_
  · have texts : TextOptions (servedMime cached path)
        (notModifiedOptions s (servedEtag cached) file.stat) :=
      ⟨hmime, nofun, nofun, nofun, nofun, hetag⟩
    exact composes_sendHeadOnly 304 texts nofun
  · exact composes_sendFileRange hmime hetag
  · exact composes_sendFileContent status path hmime hetag cached

/-- **`send_error_page`**. -/
theorem composes_sendErrorPage (status : ℤ) :
    Composes w (some s) (sendErrorPage w s status req) := by
  unfold sendErrorPage
  cases openErrorPage w s status with
  | some page => exact composes_sendFileFd status page.1 none
  | none => exact composes_sendText (some s) status (errorText status)

/-- **`redirect_directory_slash`**. -/
theorem composes_redirectDirectorySlash (h : Unbroken req.path) :
    Composes w (some s) (redirectDirectorySlash w s req) := by
  have hslash : Unbroken (ascii "/") := by decide
  have hfront : Unbroken (req.path.takeWhile (· ≠ 63)) := h.subset (List.takeWhile_subset _)
  have hback : Unbroken (req.path.dropWhile (· ≠ 63)) := h.subset (List.dropWhile_subset _)
  refine .ite (fun _ => ?_) fun _ => .ite (fun _ => ?_) fun _ => ?_
  · exact composes_sendErrorPage 414
  · exact composes_sendErrorPage 414
  · exact composes_sendRedirect s 301 ((hfront.append hslash).append hback)

/-- The error page of a backend that has failed. -/
theorem composes_backendError (status : ℤ) :
    Composes w (some s) (backendError w s req status) :=
  (composes_sendErrorPage status).event (e := .backendFailed) rfl

/-! ### FastCGI and proxied backends -/

/-- `write_php_response_headers`. -/
theorem composes_writePhpResponseHeaders (status : ℤ)
    {contentType : Bytes} (h : Unbroken contentType) (contentLength : Option ℕ) (keepAlive : Bool)
    (cgiHeaders : Bytes) (chunkedResponse : Bool) :
    Composes w (some s) (writePhpResponseHeaders w.peer w.host w.client s status contentType
      contentLength keepAlive cgiHeaders chunkedResponse) := by
  unfold writePhpResponseHeaders
  cases hbuilt : phpResponseHead w.host w.client s status contentType contentLength keepAlive
      cgiHeaders chunkedResponse with
  | none => exact .skip
  | some head => exact composes_head (.php rfl h hbuilt)

theorem composes_writePhpBody (body : Bytes) (chunkedResponse : Bool) :
    Composes w site (writePhpBody w req body chunkedResponse) := by
  refine .ite (fun _ => .skip) fun _ => .ite (fun _ => .ite (fun _ => .skip) fun _ => ?_) fun _ => ?_
  · apply composes_bodies
    simp
  · exact composes_body w.peer body

/-- The history behind the loop body. -/
def Flow.trace : Flow → Trace
  | .next _ t => t
  | .stop r => r.1

/-- The same for the loop body. -/
def ComposesFlow (w : World) (site : Option Site) (f : Trace → Flow) : Prop :=
  ∀ t b, .head b ∈ (f t).trace → .head b ∈ t ∨ SentHead w site b

theorem Composes.stop {f : Trace → Trace × ℤ} (h : Composes w site f) :
    ComposesFlow w site fun t => .stop (f t) := h

theorem Composes.after {f : Trace → Trace × ℤ} (h : Composes w site f) (st : PhpState) :
    ComposesFlow w site fun t => .after (f t) st := by
  intro t b hb
  unfold Flow.after at hb
  dsimp only at hb
  split_ifs at hb
  · exact h t b hb
  · exact h t b hb

theorem composes_phpStart (headerBuffer : Bytes) (stop : ℕ) :
    ComposesFlow w (some s) (phpStart w s req headerBuffer stop) := by
  set headers := cgiHeaders headerBuffer stop
  set h := parseCgiHead headers with hh
  have htype : Unbroken h.contentType :=
    contentType_parseCgiHead (zero_not_mem_cgiHeaders headerBuffer stop)
  have hhead : Composes w (some s) (writePhpResponseHeaders w.peer w.host w.client s h.status
      h.contentType h.contentLength req.keepAlive headers (phpChunked req h)) :=
    composes_writePhpResponseHeaders h.status htype h.contentLength req.keepAlive headers _
  intro t b hb
  unfold phpStart at hb
  dsimp only at hb
  split_ifs at hb
  · exact composes_sendErrorPage 500 t b hb
  · exact hhead t b hb
  · exact hhead t b hb
  · rcases (composes_writePhpBody _ _).after _ _ b hb with hmem | hcomposed
    · exact hhead t b hmem
    · exact Or.inr hcomposed

theorem composes_phpFinish (st : PhpState) :
    Composes w (some s) (phpFinish w s req st) := by
  refine .ite (fun _ => ?_) fun _ => ?_
  · have hhead := @composes_writePhpResponseHeaders w s st.status
      (ascii "text/html; charset=utf-8") (by decide) (some st.headerBuffer.length) req.keepAlive []
      false
    have hbody := hhead.bind (g := fun r : Trace × ℤ =>
      if r.2 = 0 && !req.headOnly && st.headerBuffer ≠ [] then
        clientWriteAll w.peer .body st.headerBuffer r.1
      else r) fun rc => by
        show Composes w (some s) fun t =>
          if rc = 0 && !req.headOnly && st.headerBuffer ≠ [] then
            clientWriteAll w.peer .body st.headerBuffer t
          else (t, rc)
        exact .ite (fun _ => composes_body w.peer _) fun _ => .skip
    exact hbody.log st.status st.headerBuffer.length
  · have hend : Composes w (some s) fun t =>
        if st.chunkedResponse && !req.headOnly then clientWriteChunkedEnd w t else (t, 0) :=
      .ite (fun _ => composes_body w.peer _) fun _ => .skip
    exact hend.log st.status st.bytesStreamed

theorem composes_phpStep (r : Record) (st : PhpState) :
    ComposesFlow w (some s) (phpStep w s req r st) := by
  intro t b hb
  unfold phpStep at hb
  dsimp only at hb
  split_ifs at hb
  · exact composes_backendError 502 t b hb
  · cases hfound : indexOfSub crlfcrlf (st.headerBuffer ++ r.content) with
    | none =>
        rw [hfound] at hb
        exact Or.inl hb
    | some stop =>
        rw [hfound] at hb
        exact composes_phpStart _ stop t b hb
  · exact (composes_writePhpBody _ _).after _ t b hb
  · exact composes_phpFinish st t b hb
  · exact Or.inl hb

theorem composes_phpLoop (ending : BackendEnd) (fuel : ℕ)
    (pieces : List FastCgi.Piece) (st : PhpState) :
    Composes w (some s) (phpLoop w s req ending fuel pieces st) := by
  induction fuel generalizing pieces st with
  | zero => exact .skip
  | succ fuel ih =>
      intro t b hb
      rw [phpLoop] at hb
      cases hread : FastCgi.readRecord pieces with
      | none =>
          rw [hread] at hb
          exact composes_backendError ending.status t b hb
      | some p =>
          obtain ⟨r, rest⟩ := p
          have hstep := @composes_phpStep w req s r st t b
          rw [hread] at hb
          dsimp only at hb
          cases hflow : phpStep w s req r st t with
          | stop result =>
              rw [hflow] at hb hstep
              exact hstep hb
          | next st' t' =>
              rw [hflow] at hb hstep
              rcases ih rest st' t' b hb with hmem | hcomposed
              · exact hstep hmem
              · exact Or.inr hcomposed

/-- **`send_php_fpm`**. -/
theorem composes_sendPhpFpm (script body : Bytes) (fpm : Fpm) :
    Composes w (some s) (sendPhpFpm w s req script body fpm) := by
  have hpage : ∀ status, Composes w (some s) (sendErrorPage w s status req) :=
    fun status => composes_sendErrorPage status
  have hfailed : Composes w (some s) (backendError w s req 502) := composes_backendError 502
  refine .ite (fun _ => hfailed) fun _ => .ite (fun _ => hfailed) fun _ =>
    .ite (fun _ => hpage 414) fun _ => .ite (fun _ => hpage 414) fun _ => ?_
  cases fcgiParams w.client s req script with
  | none => exact hpage 500
  | some params =>
      exact .ite (fun _ => hfailed) fun _ => .ite (fun _ => hpage 413) fun _ =>
        .ite (fun _ => hfailed) fun _ => composes_phpLoop _ _ _ _

/-- Bytes that `serve_proxy` passes on. -/
theorem composes_passOn {next : RelayState → Trace → Trace × ℤ}
    (h : ∀ st, Composes w site (next st)) (tunnelled bytes : Bytes) (st : RelayState) :
    Composes w site (passOn w s req tunnelled bytes st next) := by
  have htunnel : ∀ st : RelayState, Composes w site fun t =>
      relayDone st (clientWriteAll w.peer .body tunnelled t).1 := fun st =>
    (composes_body w.peer tunnelled).bind (g := fun r => relayDone st r.1) fun _ =>
      composes_logged st.status st.bytes
  exact (composes_body w.peer bytes).andThen (.ite (fun _ => htunnel _) fun _ => h _)

theorem composes_relayLoop (ending : BackendEnd) (tunnelled : Bytes) (reads : List UpstreamRead)
    (st : RelayState) : Composes w (some s) (relayLoop w s req ending tunnelled reads st) := by
  induction reads generalizing st with
  | nil =>
      exact .ite (fun _ => composes_backendError ending.status) fun _ =>
        .ite (fun _ => composes_backendError 502) fun _ => composes_logged st.status st.bytes
  | cons read reads ih =>
      cases read with
      | interrupted => exact ih st
      | data bytes ne le =>
          refine .ite (fun _ => .ite (fun _ => composes_backendError 502) fun _ => ?_) fun _ =>
            composes_passOn ih tunnelled bytes st
          dsimp only
          cases indexOfSub crlf (st.firstResponse ++ bytes) with
          | none => exact ih _
          | some _ =>
              cases parseProxyStatusLine (st.firstResponse ++ bytes) with
              | none => exact composes_backendError 502
              | some status => exact composes_passOn ih tunnelled _ _

/-- **`serve_proxy`**. -/
theorem composes_serveProxy (upstream : Upstream) (buf body : Bytes) :
    Composes w (some s) (serveProxy w s req upstream buf body) := by
  have hfailed : Composes w (some s) (backendError w s req 502) := composes_backendError 502
  refine .ite (fun _ => hfailed) fun _ => .ite (fun _ => composes_sendErrorPage 500) fun _ => ?_
  cases buildProxyRequest (proxyCapacity req body) w.client s req buf body with
  | none => exact composes_sendErrorPage 502
  | some _ => exact .ite (fun _ => hfailed) fun _ => composes_relayLoop _ _ _ _

/-- The files of a site do not show in a head. -/
theorem ComposedHead.under {tree : Tree} {head : Bytes}
    (h : ComposedHead (w.under tree) site head) : ComposedHead w site head := by
  cases h with
  | own site_eq texts location built => exact .own site_eq texts location built
  | php site_eq type built => exact .php site_eq type built

theorem Composes.under {tree : Tree} {f : Trace → Trace × ℤ}
    (h : Composes (w.under tree) site f) : Composes w site f := by
  intro t b hb
  rcases h t b hb with hmem | ⟨head, hcomposed, hpre, hwilling⟩
  · exact Or.inl hmem
  · exact Or.inr ⟨head, hcomposed.under, hpre, hwilling⟩

/-- **`serve_static`**. -/
theorem composes_serveStatic (course : Course) (cache : MetaCache) (fpm : Fpm) (body : Bytes)
    (h : Unbroken req.path) :
    Composes w (some s) (serveStatic w s course cache fpm req body) := by
  refine @Composes.under w (some s) course.variants _ ?_
  unfold serveStatic
  dsimp only
  cases staticAnswer (w.under course.variants) s course cache req with
  | sendErrorPage status => exact composes_sendErrorPage status
  | sendFileFd status path file cached => exact composes_sendFileFd status path cached
  | redirectDirectorySlash => exact composes_redirectDirectorySlash h
  | sendPhpFpm script => exact composes_sendPhpFpm script body fpm

end file

/-! ### The answer to a request -/

theorem unbroken_of_lt {text : Bytes} (h : ∀ ch ∈ text, 32 < ch) : Unbroken text :=
  ⟨⟨fun hmem => absurd (h 10 hmem) (by decide), fun hmem => absurd (h 0 hmem) (by decide)⟩,
    fun hmem => absurd (h 13 hmem) (by decide)⟩

theorem unbroken_decimal (n : ℕ) : Unbroken (decimal n) :=
  ⟨isText_decimal n, cr_not_mem_decimal n⟩

theorem unbroken_ite {p : Prop} [Decidable p] {a b : Bytes} (ha : Unbroken a) (hb : Unbroken b) :
    Unbroken (if p then a else b) := by
  split_ifs
  · exact ha
  · exact hb

/-- The texts of a request that its answer repeats. -/
structure PlainTexts (req : HttpRequest) : Prop where
  path : Unbroken req.path
  host : Unbroken req.host
  host_ne : req.host ≠ []

/-- The parser lets nothing else through. -/
theorem plainTexts_of_accepted {buf : Bytes} {req : HttpRequest}
    (h : httpParseRequest buf = .accepted req) : PlainTexts req := by
  obtain ⟨p⟩ := parsed_of_accepted h
  obtain ⟨value, hvalue⟩ := p.exists_hostValue
  exact ⟨unbroken_of_lt p.graphic.1, unbroken_of_lt p.graphic.2, ne_nil_of_parseHostValue hvalue⟩

theorem unbroken_wwwHost {s : Site} {host other : Bytes} (h : Unbroken host)
    (hother : wwwHost s host = some other) : Unbroken other := by
  unfold wwwHost at hother
  split_ifs at hother
  · rw [← Option.some.inj hother]
    exact Unbroken.append (by decide) h
  · rw [← Option.some.inj hother]
    exact h.subset (List.drop_subset 4 host)

theorem unbroken_portText (default port : UInt16) : Unbroken (portText default port) :=
  unbroken_ite (Unbroken.append (by decide) (unbroken_decimal _)) (by decide)

/-- **A location stays on one line.** -/
theorem unbroken_location {s : Site} {port : UInt16} {suppress : Bool} {outLen : ℕ} {status : ℤ}
    {location : Bytes} (h : PlainTexts req)
    (hbuild : buildRedirectLocation s req port suppress outLen = some (status, location)) :
    Unbroken location := by
  have hasked : Unbroken (targetHost s req) := by
    unfold targetHost
    rw [if_pos h.host_ne]
    exact h.host.subset (List.take_subset _ _)
  rw [buildRedirectLocation_eq] at hbuild
  obtain ⟨target, htarget, hfits⟩ := Option.bind_eq_some_iff.mp hbuild
  have hhost : Unbroken target.host := by
    unfold redirectTarget at htarget
    split_ifs at htarget
    rw [← Option.some.inj htarget]
    dsimp only
    cases hother : wwwHost s (targetHost s req) with
    | none => exact hasked
    | some other => exact unbroken_wwwHost hasked hother
  have hscheme : Unbroken (if target.https then ascii "https" else ascii "http") :=
    unbroken_ite (by decide) (by decide)
  have hport : Unbroken (if target.https then portText 443 s.httpsPort
      else portText 80 s.httpPort) :=
    unbroken_ite (unbroken_portText _ _) (unbroken_portText _ _)
  split_ifs at hfits
  rw [← (Prod.mk.inj (Option.some.inj hfits)).2]
  exact (((hscheme.append (by decide)).append hhost).append hport).append h.path

theorem composes_respond (s : Serving) (buf body : Bytes) (h : PlainTexts req) {r : Responder}
    (location : ∀ site status target, r = .sendRedirect site status target → Unbroken target) :
    Composes s.w r.site fun t => s.respond req buf body t r := by
  cases r with
  | sendText site status text => exact composes_sendText site status text
  | sendRedirect site status target =>
      cases site with
      | none => exact .skip
      | some site => exact composes_sendRedirect site status (location _ _ _ rfl)
  | sendRateLimited site retryAfter =>
      cases site with
      | none => exact .skip
      | some site => exact composes_sendRateLimited site retryAfter
  | sendErrorPage site status =>
      cases site with
      | none => exact .skip
      | some site => exact composes_sendErrorPage status
  | serveProxy site =>
      cases site with
      | none => exact .skip
      | some site => exact composes_serveProxy s.upstream buf body
  | serveStatic site =>
      cases site with
      | none => exact .skip
      | some site => exact composes_serveStatic s.course s.cache s.fpm body h.path

/-- The location of a redirect is that of `rpsiod_route_build_redirect_location`. -/
theorem unbroken_of_dispatchSite {client : Client} {limited : Site → Option ℕ} {found : Site}
    (h : PlainTexts req) {site : Option Site} {status : ℤ} {target : Bytes}
    (hdispatch : dispatchSite client limited req found = .sendRedirect site status target) :
    Unbroken target := by
  unfold dispatchSite at hdispatch
  cases hbuild : buildRedirectLocation found req client.localPort
      (trustedInternalHttps client req) 1024 with
  | some p =>
      obtain ⟨code, location⟩ := p
      rw [hbuild] at hdispatch
      dsimp only at hdispatch
      split_ifs at hdispatch
      injection hdispatch with _ _ htarget
      rw [← htarget]
      exact unbroken_location h hbuild
  | none =>
      rw [hbuild] at hdispatch
      cases hlimited : limited found with
      | some retryAfter =>
          rw [hlimited] at hdispatch
          dsimp only at hdispatch
          split_ifs at hdispatch
      | none =>
          rw [hlimited] at hdispatch
          dsimp only at hdispatch
          split_ifs at hdispatch

theorem unbroken_of_dispatch {cfg : Config} {client : Client} {limited : Site → Option ℕ}
    (h : PlainTexts req) {site : Option Site} {status : ℤ} {target : Bytes}
    (hdispatch : dispatch cfg client limited req = .sendRedirect site status target) :
    Unbroken target := by
  unfold dispatch at hdispatch
  split_ifs at hdispatch
  cases hsite : findSiteForListener cfg req.host client.localPort client.serverIp.bytes with
  | none =>
      rw [hsite] at hdispatch
      cases hdispatch
  | some found =>
      rw [hsite] at hdispatch
      exact unbroken_of_dispatchSite h hdispatch

/-- **`serve_request`**. -/
theorem composes_serveRequest (cfg : Config) (s : Serving) (buf body : Bytes)
    (h : PlainTexts req) :
    Composes s.w (dispatch cfg s.w.client s.limited req).site
      (serveRequest cfg s req buf body) :=
  composes_respond s buf body h fun _ _ _ hredirect => unbroken_of_dispatch h hredirect

/-- **Every head of an answer is composed**, for the site that it is for. -/
theorem composed_of_mem_answer {cfg : Config} {s : Serving} {count : UInt32} {buf b : Bytes}
    (h : .head b ∈ answer cfg s count buf) : SentHead s.w (answerSite cfg s count buf) b := by
  have hnew : ∀ {site : Option Site} {f : Trace → Trace × ℤ}, Composes s.w site f →
      .head b ∈ (f []).1 → SentHead s.w site b := fun hf hb =>
    (hf [] b hb).resolve_left List.not_mem_nil
  unfold answer at h
  unfold answerSite
  cases hexamine : examine cfg s.w.client count buf with
  | more =>
      rw [hexamine] at h
      exact absurd h List.not_mem_nil
  | badRequest req =>
      rw [hexamine] at h
      have hcomposes := @composes_sendText s.w req none 400 badRequestText
      exact hnew hcomposes h
  | tooLarge site req =>
      rw [hexamine] at h
      cases site with
      | none => exact absurd h List.not_mem_nil
      | some found =>
          have hcomposes := @composes_sendErrorPage s.w req found 413
          exact hnew hcomposes h
  | serve req body keep =>
      rw [hexamine] at h
      obtain ⟨parsed, keepAlive, haccepted, -, rfl, -⟩ := examine_eq_serve hexamine
      have htexts := plainTexts_of_accepted haccepted
      have hcomposes := @composes_serveRequest { parsed with keepAlive := keepAlive } cfg s buf body
        ⟨htexts.path, htexts.host, htexts.host_ne⟩
      exact hnew hcomposes h

/-- It is a site of the configuration. -/
theorem mem_of_answerSite {cfg : Config} {s : Serving} {count : UInt32} {buf : Bytes} {site : Site}
    (h : site ∈ answerSite cfg s count buf) : site ∈ cfg.sites := by
  unfold answerSite at h
  cases hexamine : examine cfg s.w.client count buf with
  | more =>
      rw [hexamine] at h
      cases h
  | badRequest req =>
      rw [hexamine] at h
      cases h
  | tooLarge found req =>
      rw [hexamine] at h
      obtain ⟨parsed, -, hfound, -, -⟩ := examine_eq_tooLarge hexamine
      exact mem_of_findSiteForListener (hfound.symm.trans h)
  | serve req body keep =>
      rw [hexamine] at h
      dsimp only at h
      rcases dispatch_safe cfg s.w.client s.limited req with ⟨status, text, htext⟩ | ⟨hsame, -⟩
      · rw [htext] at h
        cases h
      · rw [hsame] at h
        exact mem_of_findSiteForListener h

end Rpsiod

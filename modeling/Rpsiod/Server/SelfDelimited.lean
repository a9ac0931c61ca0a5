import Rpsiod.Server.BackendFailure
import Rpsiod.Server.FramedReply

/-!
# Responses that delimit themselves (`serve_request`, `send_php_fpm`)

A connection that is kept alive behind a request has to be at the start of the next response for
its client.  What a reply comes to can be said before anything is written: `Serving.shape` follows
the branches of `serve_request` with the code's own tests of the request, the site, the files and
the bytes that a FastCGI backend sends.

* `replying_of_replies`: a responder without a backend sends a reply of the shape it announces.
* `replying_sendPhpFpm`: so does `send_php_fpm`, for a backend that ends its response.
* `kept_alive_iff`: **the bytes of a request behind which the connection is kept alive are one
  response to the client, exactly if the shape of the reply delimits it**.
-/

namespace Rpsiod

open ListSearch Crlf Chunked FastCgi Collect MessageFraming

/-! ### The shape of a reply -/

/-- A reply with a length. -/
def Announced.shape (a : Announced) : ReplyShape := ⟨a.status, some a.length, a.length⟩

/-- The records in front of END_REQUEST. -/
def Fpm.response (fpm : Fpm) : List Record := fpm.records.takeWhile (·.kind ≠ 3)

/-- A backend that is there ends its response with END_REQUEST. -/
def Fpm.Completes (fpm : Fpm) : Prop := fpm.connects = true → ∃ r ∈ fpm.records, r.kind = 3

section shapes

variable (w : World) (site : Site) (req : HttpRequest)

/-- The answer to a STDOUT stream that comes in these segments. -/
def streamShape (segments : List Bytes) : ReplyShape :=
  match collect crlfcrlf headerBufferLen [] segments with
  | .full => (announcedErrorPage w site 502 req).shape
  | .short all => ⟨200, some all.length, all.length⟩
  | .found all stop rest =>
      if w.allocates = false then (announcedErrorPage w site 500 req).shape
      else
        let h := parseCgiHead (cgiHeaders all stop)
        ⟨h.status, h.contentLength, ((all ++ rest.flatten).drop (stop + 4)).length⟩

/-- `send_php_fpm`. -/
def fpmShape (script body : Bytes) (fpm : Fpm) : ReplyShape :=
  if !fpm.connects then (announcedErrorPage w site 502 req).shape
  else if !fpm.takesBegin then (announcedErrorPage w site 502 req).shape
  else if 4096 ≤ (scriptFilename site script).length then (announcedErrorPage w site 414 req).shape
  else if 4096 ≤ (scriptName script).length then (announcedErrorPage w site 414 req).shape
  else
    match fcgiParams w.client site req script with
    | none => (announcedErrorPage w site 500 req).shape
    | some _ =>
        if !fpm.takesParams then (announcedErrorPage w site 502 req).shape
        else if 65535 < body.length then (announcedErrorPage w site 413 req).shape
        else if !fpm.takesStdin then (announcedErrorPage w site 502 req).shape
        else streamShape w site req (fpm.response.map stdout)

/-- The function that `serve_static` returns through. -/
def StaticResponder.shape (fpm : Fpm) (body : Bytes) : StaticResponder → ReplyShape
  | .sendErrorPage status => (announcedErrorPage w site status req).shape
  | .sendFileFd status path file cached => (announcedFile w site status path file cached req).shape
  | .redirectDirectorySlash => (announcedSlash w site req).shape
  | .sendPhpFpm script => fpmShape w site req script body fpm

end shapes

/-- `serve_request`, unless it passes on what an upstream sends. -/
def Serving.shape (s : Serving) (req : HttpRequest) (body : Bytes) : Responder → ReplyShape
  | .sendText _ status text => Announced.shape ⟨status, text.length⟩
  | .sendRedirect _ status location =>
      Announced.shape ⟨status, (redirectText status location).length⟩
  | .sendRateLimited _ _ => Announced.shape ⟨429, (ascii "429 Too Many Requests\n").length⟩
  | .sendErrorPage (some site) status => (announcedErrorPage s.w site status req).shape
  | .serveStatic (some site) =>
      let w := s.w.under s.course.variants
      (staticAnswer w site s.course s.cache req).shape w site req s.fpm body
  | _ => ⟨0, none, 0⟩

/-! ### Responders without a backend -/

/-- If it succeeds, it has sent a reply of this shape. -/
def Replying (w : World) (site : Option Site) (req : HttpRequest) (a : ReplyShape)
    (r : Trace × ℤ) : Prop :=
  r.2 = 0 → SendsReply w site req a (written r.1)

variable {w : World} {site : Option Site} {req : HttpRequest}

/-- The fields that a site adds have no colon in their names. -/
theorem no_colon_addedFields (configured : ∀ s ∈ site, s.Configured) :
    ∀ f ∈ addedFields site, 58 ∉ f.1 := fun f hf =>
  (@readsAs_addedFields site false configured (fun _ _ _ _ => rfl) f hf).1

/-- **A responder that announces a length** sends a reply of this shape. -/
theorem replying_of_replies {a : Announced} {f : Trace → Trace × ℤ}
    (configured : ∀ s ∈ site, s.Configured) (h : Replies w site req a.Is f) {t : Trace}
    (ht : written t = []) : Replying w site req a.shape (f t) := by
  obtain ⟨ev, rc, hf, hreply⟩ := h
  unfold Replying
  rw [hf]
  dsimp only
  intro hrc
  rw [written_append, ht, List.nil_append]
  cases hreply with
  | unsent failed _ _ => exact absurd hrc failed
  | @sent rest _ status contentType length opts head site_eq allowed oneLine built tail body =>
      obtain ⟨rfl, rfl⟩ := allowed
      rw [buildResponseHeaders_eq] at built
      unfold fitting at built
      split_ifs at built
      refine ⟨contentType, opts, addedFields opts.site, written rest, ?_, site_eq, nofun,
        oneLine_responseFields oneLine _ _ _ _,
        fun name hname => countFields_addedFields _ hname, ?_, written rest, rfl, body hrc⟩
      · rw [written_cons, ← Option.some.inj built]
        rfl
      · rw [site_eq]
        exact no_colon_addedFields configured

/-! ### FastCGI responses -/

section php

variable {site : Site}

/-- An error page in place of a response. -/
theorem replying_page (hpeer : w.peer = .willing) (configured : site.Configured) (status : ℤ)
    {t : Trace} (ht : written t = []) :
    Replying w (some site) req (announcedErrorPage w site status req).shape
      (sendErrorPage w site status req t) :=
  replying_of_replies (fun _ hs => Option.some.inj hs ▸ configured)
    (replies_sendErrorPage hpeer site status) ht

theorem replying_backendError (hpeer : w.peer = .willing) (configured : site.Configured)
    (status : ℤ) : Replying w (some site) req (announcedErrorPage w site status req).shape
      (backendError w site req status []) :=
  replying_page hpeer configured status rfl

/-- The fields of a FastCGI response: the server's own in front, and others behind them. -/
theorem sends_php (configured : site.Configured) {status : ℤ} {contentType headers : Bytes}
    {contentLength : Option ℕ} (htype : IsText contentType) {body content : Bytes} {n : ℕ}
    (hbody : unframed (contentLength.isNone && !req.headOnly) body = some content)
    (hlength : content.length = bodySent req n) :
    SendsReply w (some site) req ⟨status, contentLength, n⟩
      (headOf status
        (responseFields w.host w.client contentType contentLength req.keepAlive
            (phpOptions site (contentLength.isNone && !req.headOnly)) ++
          phpFields (some site) headers) ++ body) := by
  have hsplit : responseFields w.host w.client contentType contentLength req.keepAlive
      (phpOptions site (contentLength.isNone && !req.headOnly)) ++ phpFields (some site) headers =
      ownFields w.host w.client contentType contentLength req.keepAlive
          (phpOptions site (contentLength.isNone && !req.headOnly)) ++
        (addedFields (some site) ++ phpFields (some site) headers) := List.append_assoc _ _ _
  have htext : ∀ f ∈ responseFields w.host w.client contentType contentLength req.keepAlive
      (phpOptions site (contentLength.isNone && !req.headOnly)) ++ phpFields (some site) headers,
      TextField f :=
    FieldsHave.append (textField_responseFields (textOptions_php htype _) _ _ _ _)
      (textField_phpFields _ _)
  rw [hsplit] at htext ⊢
  refine ⟨contentType, phpOptions site (contentLength.isNone && !req.headOnly),
    addedFields (some site) ++ phpFields (some site) headers, body, rfl, rfl, fun hnone => ?_,
    fun f hf => ⟨(htext f hf).1.1, (htext f hf).2.1⟩, fun name hname => ?_, fun f hf => ?_, content,
    hbody, hlength⟩
  · show (contentLength.isNone && !req.headOnly) = !req.headOnly
    rw [show contentLength = none from hnone]
    rfl
  · rw [countFields_append, countFields_addedFields _ hname, countFields_phpFields _ _ hname]
  · rcases List.mem_append.mp hf with hf | hf
    · exact no_colon_addedFields (fun _ hs => Option.some.inj hs ▸ configured) f hf
    · exact (readsAs_of_validName (passedOn_of_mem hf).name false).1

/-- The end of a response without a CGI header. -/
theorem phpFinish_whole (hpeer : w.peer = .willing) (all : Bytes) :
    phpFinish w site req { headerBuffer := all } [] =
      match phpResponseHead w.host w.client site 200 (ascii "text/html; charset=utf-8")
          (some all.length) req.keepAlive [] false with
      | none => ([.logged 200 all.length], -1)
      | some head =>
          (.head head :: (bodyEvents req.headOnly false all ++ [.logged 200 all.length]), 0) := by
  have hwaiting : (!({ headerBuffer := all } : PhpState).responseStarted) = true := rfl
  unfold phpFinish
  rw [if_pos hwaiting]
  dsimp only
  rw [writePhpResponseHeaders_eq hpeer]
  cases phpResponseHead w.host w.client site 200 (ascii "text/html; charset=utf-8")
      (some all.length) req.keepAlive [] false with
  | none => rfl
  | some head =>
      have hevents : (if (decide ((0 : ℤ) = 0) && !req.headOnly && decide (all ≠ [])) = true then
          clientWriteAll w.peer .body all [.head head] else ([.head head], 0)) =
            (.head head :: bodyEvents req.headOnly false all, 0) := by
        unfold bodyEvents
        rw [hpeer, clientWriteAll_willing]
        by_cases hall : all = []
        · simp [hall]
        · cases req.headOnly <;> simp [hall, writeOf]
      dsimp only
      rw [List.nil_append, hevents]
      rfl

/-- A response without a CGI header. -/
theorem replying_whole (hpeer : w.peer = .willing) (configured : site.Configured) (all : Bytes) :
    Replying w (some site) req ⟨200, some all.length, all.length⟩
      (phpFinish w site req { headerBuffer := all } []) := by
  intro hrc
  have hend := @phpFinish_whole w req site hpeer all
  rw [phpResponseHead_eq] at hend
  unfold fitting at hend
  split_ifs at hend
  · rw [hend, written_cons, written_append]
    refine sends_php configured (by decide) rfl ?_
    unfold bodySent bodyEvents
    cases req.headOnly with
    | true => rfl
    | false =>
        by_cases hall : all = []
        · rw [hall]
          rfl
        · simp [hall, Event.bytes]
  · rw [hend] at hrc
    exact absurd hrc (neg_ne_zero.mpr one_ne_zero)

/-- A response behind a CGI header. -/
theorem replying_started (hpeer : w.peer = .willing) (configured : site.Configured) {all : Bytes}
    {stop : ℕ} {rest : List Bytes} (hle : stop + 4 ≤ all.length) {bytesStreamed : ℕ} :
    Replying w (some site) req
      ⟨(parseCgiHead (cgiHeaders all stop)).status,
        (parseCgiHead (cgiHeaders all stop)).contentLength,
        ((all ++ rest.flatten).drop (stop + 4)).length⟩
      (phpFinish w site req
        { startedState req all stop with bytesStreamed := bytesStreamed }
        (.head (phpHeadText w site req (cgiHeaders all stop)) ::
          (all.drop (stop + 4) :: rest).flatMap
            (bodyEvents req.headOnly (startedState req all stop).chunkedResponse))) := by
  intro _
  have hdelivers := @deliversStdout_of_found w site req hpeer all stop rest hle bytesStreamed
  obtain ⟨events, heq, -, hbody⟩ := hdelivers.response
  rw [cgiHeaders_append (by omega)] at heq hbody
  rw [heq, written_cons]
  have htype := (contentType_parseCgiHead (zero_not_mem_cgiHeaders all stop)).1
  refine sends_php configured htype hbody ?_
  unfold bodySent
  split_ifs
  · rfl
  · rfl

/-- What a backend that completes its response sends. -/
theorem records_of_completes {fpm : Fpm} (h : ∃ r ∈ fpm.records, r.kind = 3) :
    ∃ last more, last.kind = 3 ∧ fpm.records = fpm.response ++ last :: more := by
  obtain ⟨front, more, hrecords, hfront, hmore⟩ := exists_front fpm.records
  rcases hmore with rfl | ⟨last, more, rfl, hlast⟩
  · rw [List.append_nil] at hrecords
    obtain ⟨r, hr, hend⟩ := h
    exact absurd hend (hfront r (hrecords ▸ hr))
  · refine ⟨last, more, hlast, ?_⟩
    have hresponse : fpm.response = front := by
      unfold Fpm.response
      rw [hrecords, List.takeWhile_append_of_pos (by simpa using hfront),
        List.takeWhile_cons_of_neg (by simp [hlast]), List.append_nil]
    rw [hresponse, hrecords]

theorem kind_of_mem_response {fpm : Fpm} : ∀ r ∈ fpm.response, r.kind ≠ 3 := by
  intro r hr
  have hpassed := List.mem_takeWhile_imp (p := fun r : Record => decide (r.kind ≠ 3)) hr
  exact of_decide_eq_true hpassed

/-- **The loop of `send_php_fpm`**, for a backend that completes its response. -/
theorem replying_phpLoop (hpeer : w.peer = .willing) (configured : site.Configured) {fpm : Fpm}
    (hends : ∃ r ∈ fpm.records, r.kind = 3) :
    Replying w (some site) req (streamShape w site req (fpm.response.map stdout))
      (phpLoop w site req fpm.ending ((bytesOf fpm.pieces).length + 1) fpm.pieces {} []) := by
  obtain ⟨last, more, hlast, hrecords⟩ := records_of_completes hends
  have hnone : indexOfSub crlfcrlf ([] : Bytes) = none := rfl
  have hrun : phpSteps w site req fpm.response {} [] = _ :=
    @phpSteps_eq w site req hpeer fpm.response kind_of_mem_response [] hnone []
  rw [phpLoop_eq w site req fpm.ending _ fpm.pieces {} [] (Nat.lt_succ_self _),
    show decodeAll (bytesOf fpm.pieces) = _ from hrecords, phpSteps_append, hrun]
  unfold streamShape
  cases hcollect : collect crlfcrlf headerBufferLen [] (fpm.response.map stdout) with
  | full => exact replying_backendError hpeer configured 502
  | short all =>
      have hend := @phpStep_end w site req last hlast { headerBuffer := all } []
      simp only [Flow.bind, phpSteps, hend]
      exact replying_whole hpeer configured all
  | found all stop rest =>
      obtain ⟨-, hindex, -⟩ := collect_found hcollect
      have hle : stop + 4 ≤ all.length := indexOfSub_add_length_le hindex
      dsimp only
      by_cases halloc : w.allocates = false
      · rw [if_pos halloc, if_pos halloc]
        exact replying_page hpeer configured 500 rfl
      · rw [if_neg halloc, if_neg halloc, phpHead_eq]
        unfold fitting
        split_ifs
        · have hend := @phpStep_end w site req last hlast
          simp only [Flow.bind, phpSteps, hend]
          exact replying_started hpeer configured hle
        · exact fun hrc => absurd hrc (neg_ne_zero.mpr one_ne_zero)

/-- **`send_php_fpm`**, for a backend that completes its response. -/
theorem replying_sendPhpFpm (hpeer : w.peer = .willing) (configured : site.Configured) {fpm : Fpm}
    (hcompletes : fpm.Completes) (script body : Bytes) :
    Replying w (some site) req (fpmShape w site req script body fpm)
      (sendPhpFpm w site req script body fpm []) := by
  have hpage : ∀ status, Replying w (some site) req _ (sendErrorPage w site status req []) :=
    fun status => replying_page hpeer configured status rfl
  have hfailed := @replying_backendError w req site hpeer configured 502
  unfold fpmShape sendPhpFpm
  cases fcgiParams w.client site req script with
  | none =>
      dsimp only
      split_ifs
      · exact hfailed
      · exact hfailed
      · exact hpage 414
      · exact hpage 414
      · exact hpage 500
  | some params =>
      dsimp only
      split_ifs with hconnects
      · exact hfailed
      · exact hfailed
      · exact hpage 414
      · exact hpage 414
      · exact hfailed
      · exact hpage 413
      · exact hfailed
      · exact replying_phpLoop hpeer configured (hcompletes (by simpa using hconnects))

end php

/-! ### The reply to a request -/

/-- The files of a site do not show in a head. -/
theorem Replying.under {tree : Tree} {a : ReplyShape} {r : Trace × ℤ}
    (h : Replying (w.under tree) site req a r) : Replying w site req a r := fun hrc =>
  ⟨(h hrc).exists_head⟩

/-- **`serve_static`**. -/
theorem replying_serveStatic {site : Site} (hpeer : w.peer = .willing)
    (configured : site.Configured) (course : Course) (cache : MetaCache) {fpm : Fpm}
    (hcompletes : fpm.Completes) (body : Bytes) (hpath : 10 ∉ req.path) :
    Replying w (some site) req
      ((staticAnswer (w.under course.variants) site course cache req).shape
        (w.under course.variants) site req fpm body)
      (serveStatic w site course cache fpm req body []) := by
  have hall : ∀ s ∈ some site, s.Configured := fun _ hs => Option.some.inj hs ▸ configured
  have hunder : (w.under course.variants).peer = .willing := hpeer
  apply @Replying.under w (some site) req course.variants
  unfold serveStatic
  dsimp only
  cases staticAnswer (w.under course.variants) site course cache req with
  | sendErrorPage status => exact replying_page hunder configured status rfl
  | sendFileFd status path file cached =>
      exact replying_of_replies hall (replies_sendFileFd hunder site status path file cached) rfl
  | redirectDirectorySlash =>
      exact replying_of_replies hall (replies_redirectDirectorySlash hunder site hpath) rfl
  | sendPhpFpm script => exact replying_sendPhpFpm hunder configured hcompletes script body

/-- A responder that composes its reply, from a text or a location that can be sent. -/
def Responder.Sendable : Responder → Prop
  | .sendText _ _ text => text ≠ []
  | .sendRedirect _ _ location => 10 ∉ location
  | .serveProxy _ => False
  | _ => True

/-- **Every responder** that has its site and is not the proxy. -/
theorem replying_respond {s : Serving} (hpeer : s.w.peer = .willing)
    (hcompletes : s.fpm.Completes) (buf body : Bytes) (hpath : 10 ∉ req.path) {r : Responder}
    {found : Option Site} (configured : ∀ site ∈ r.site, site.Configured) (hsafe : r.Safe found)
    (hsends : r.Sendable) :
    Replying s.w r.site req (s.shape req body r) (s.respond req buf body [] r) := by
  have hsite : r.site = none → ∃ status text, r = .sendText none status text := by
    intro hnone
    rcases hsafe with htext | ⟨hsame, hsome⟩
    · exact htext
    · rw [← hsame, hnone] at hsome
      exact Bool.noConfusion hsome
  cases r with
  | sendText site status text =>
      exact replying_of_replies configured
        (replies_sendText hpeer site status hsends) rfl
  | sendRedirect site status location =>
      cases site with
      | none => exact absurd (hsite rfl) fun ⟨_, _, h⟩ => Responder.noConfusion h
      | some site =>
          exact replying_of_replies configured
            (replies_sendRedirect hpeer site status hsends) rfl
  | sendRateLimited site retryAfter =>
      cases site with
      | none => exact absurd (hsite rfl) fun ⟨_, _, h⟩ => Responder.noConfusion h
      | some site =>
          exact replying_of_replies configured (replies_sendRateLimited hpeer site retryAfter) rfl
  | sendErrorPage site status =>
      cases site with
      | none => exact absurd (hsite rfl) fun ⟨_, _, h⟩ => Responder.noConfusion h
      | some site => exact replying_page hpeer (configured site rfl) status rfl
  | serveProxy site => exact hsends.elim
  | serveStatic site =>
      cases site with
      | none => exact absurd (hsite rfl) fun ⟨_, _, h⟩ => Responder.noConfusion h
      | some site =>
          exact replying_serveStatic hpeer (configured site rfl) s.course s.cache hcompletes body
            hpath

/-- What `serve_request` ends in for a site that is not proxied. -/
theorem dispatchSite_cases {client : Client} {limited : Site → Option ℕ} {found : Site}
    (hproxy : found.routingType ≠ .proxy) :
    dispatchSite client limited req found =
        .sendText (some found) 400 (ascii "400 Bad Request\n") ∨
      (∃ status location,
        dispatchSite client limited req found = .sendRedirect (some found) status location) ∨
      (∃ retryAfter,
        dispatchSite client limited req found = .sendRateLimited (some found) retryAfter) ∨
      dispatchSite client limited req found = .serveStatic (some found) := by
  unfold dispatchSite
  by_cases hlisten : (decide (found.listenIp.bytes ≠ ascii "0.0.0.0") &&
      decide (found.listenIp.bytes ≠ client.serverIp.bytes)) = true
  · exact Or.inl (if_pos hlisten)
  rw [if_neg hlisten]
  cases buildRedirectLocation found req client.localPort (trustedInternalHttps client req) 1024 with
  | some target => exact Or.inr (Or.inl ⟨_, _, rfl⟩)
  | none =>
      cases limited found with
      | some retryAfter => exact Or.inr (Or.inr (Or.inl ⟨_, rfl⟩))
      | none => exact Or.inr (Or.inr (Or.inr (if_neg hproxy)))

theorem sendable_dispatchSite {client : Client} {limited : Site → Option ℕ} {found : Site}
    (h : PlainTexts req) (hproxy : found.routingType ≠ .proxy) :
    (dispatchSite client limited req found).Sendable := by
  have hbad : ascii "400 Bad Request\n" ≠ [] := by decide
  rcases @dispatchSite_cases req client limited found hproxy with
    hr | ⟨status, location, hr⟩ | ⟨retryAfter, hr⟩ | hr
  · rw [hr]
    exact hbad
  · rw [hr]
    exact (unbroken_of_dispatchSite h hr).1.1
  · rw [hr]
    trivial
  · rw [hr]
    trivial

/-- A text is sent for a method that is refused, and for a host without a site. -/
theorem sendable_dispatch {cfg : Config} {client : Client} {limited : Site → Option ℕ}
    (h : PlainTexts req)
    (hproxy : ∀ found ∈ siteOf cfg client req, found.routingType ≠ .proxy) :
    (dispatch cfg client limited req).Sendable := by
  have hmethod : ascii "405 Method Not Allowed\n" ≠ [] := by decide
  have hmissing : ascii "404 Not Found\n" ≠ [] := by decide
  unfold siteOf at hproxy
  unfold dispatch
  split_ifs
  · exact hmethod
  · cases hfound : findSiteForListener cfg req.host client.localPort client.serverIp.bytes with
    | none => exact hmissing
    | some found => exact sendable_dispatchSite h (hproxy found hfound)

/-- What a connection that is kept alive has been asked: not for a site that is proxied. -/
theorem routing_of_kept {cfg : Config} {client : Client} {count : UInt32} {buf body : Bytes}
    {parsed : HttpRequest} (hparsed : httpParseRequest buf = .accepted parsed)
    (h : examine cfg client count buf = .serve req body true) :
    ∀ found ∈ siteOf cfg client parsed, found.routingType ≠ .proxy := by
  have hkeep : shouldKeepAlive cfg count (siteOf cfg client parsed) parsed = true := by
    unfold examine at h
    rw [hparsed] at h
    dsimp only at h
    split_ifs at h
    · injection h
    · injection h
  intro found hfound hrouting
  rw [hfound, not_kept_behind_proxy hrouting] at hkeep
  exact Bool.noConfusion hkeep

/-- The method CONNECT is refused. -/
theorem shape_of_connect (cfg : Config) (s : Serving) (body : Bytes)
    (h : req.method = ascii "CONNECT") :
    (s.shape req body (dispatch cfg s.w.client s.limited req)).status = 405 := by
  have hrefused : (streqCi req.method (ascii "TRACE") || streqCi req.method (ascii "CONNECT")) =
      true := by
    rw [h]
    decide
  unfold dispatch
  rw [if_pos hrefused]
  rfl

/-- **The bytes of a request behind which the connection is kept alive** are one response to the
client, exactly if the shape of the reply delimits it. -/
theorem kept_alive_iff {cfg : Config} (configured : ∀ site ∈ cfg.sites, site.Configured)
    {s : Serving} (hpeer : s.w.peer = .willing) (hcompletes : s.fpm.Completes) {count : UInt32}
    {buf body : Bytes} (hexamine : examine cfg s.w.client count buf = .serve req body true)
    (hrc : (serveRequest cfg s req buf body []).2 = 0) :
    IsOneResponse req.method (written (serveRequest cfg s req buf body []).1) ↔
      (s.shape req body (dispatch cfg s.w.client s.limited req)).Delimits
        (dispatch cfg s.w.client s.limited req).site req := by
  obtain ⟨parsed, keepAlive, hparsed, -, hreq, -⟩ := examine_eq_serve hexamine
  have hparsedTexts := plainTexts_of_accepted hparsed
  obtain ⟨p⟩ := parsed_of_accepted hparsed
  have htexts : PlainTexts req := by
    rw [hreq]
    exact ⟨hparsedTexts.path, hparsedTexts.host, hparsedTexts.host_ne⟩
  have hmethod : req.headOnly = streqCi req.method (ascii "HEAD") := by
    rw [hreq]
    exact p.headOnly_eq
  have hproxy : ∀ found ∈ siteOf cfg s.w.client req, found.routingType ≠ .proxy := by
    have hkept := routing_of_kept hparsed hexamine
    rw [hreq]
    exact hkept
  have hsafe := dispatch_safe cfg s.w.client s.limited req
  have hconfigured : ∀ site ∈ (dispatch cfg s.w.client s.limited req).site, site.Configured := by
    intro site hsite
    rcases hsafe with ⟨status, text, htext⟩ | ⟨hsame, -⟩
    · rw [htext] at hsite
      cases hsite
    · rw [hsame] at hsite
      exact configured site (mem_of_findSiteForListener hsite)
  have hsends := replying_respond hpeer hcompletes buf body htexts.path.1.1 hconfigured hsafe
    (sendable_dispatch htexts hproxy) hrc
  refine hsends.isOneResponse_iff hmethod fun hconnect => ?_
  rw [shape_of_connect cfg s body hconnect.1] at hconnect
  exact absurd hconnect.2 (by decide)

/-! ### Three replies -/

/-- A connection that is kept alive behind what is in the buffer. -/
theorem exists_kept {cfg : Config} {client : Client} {buf : Bytes}
    {check : HttpRequest → Bytes → Bool}
    (h : (match examine cfg client 0 buf with
      | .serve req body true => check req body
      | _ => false) = true) :
    ∃ req body, examine cfg client 0 buf = .serve req body true ∧ check req body = true := by
  cases hexamine : examine cfg client 0 buf with
  | serve req body keep =>
      rw [hexamine] at h
      cases keep with
      | true => exact ⟨req, body, rfl, h⟩
      | false => exact Bool.noConfusion h
  | more =>
      rw [hexamine] at h
      exact Bool.noConfusion h
  | badRequest req =>
      rw [hexamine] at h
      exact Bool.noConfusion h
  | tooLarge site req =>
      rw [hexamine] at h
      exact Bool.noConfusion h

/-- A request for the root of a site. -/
def rootRequest : Bytes := ascii "GET / HTTP/1.1\x0d\nHost: example.org\x0d\n\x0d\n"

/-- A PHP site. -/
def scriptSite : Site := { domains := [.lit "example.org"], routingType := .php }

/-- A server whose backend answers with these bytes. -/
def scriptServing (answer : Bytes) (h : answer.length < 65536) : Serving :=
  { sampleServing with
    course := .still (Tree.single (ascii "index.php") ⟨⟨1, 0, 0⟩, true, []⟩)
    fpm := fpmOf [stdoutRecord answer h] }

theorem completes_fpmOf (rs : List Record) : (fpmOf rs).Completes := by
  intro _
  have hbytes : bytesOf (fpmOf rs).pieces = rs.flatMap encode ++ (encode endRequest ++ []) := by
    simp [fpmOf, bytesOf]
  refine ⟨endRequest, ?_, rfl⟩
  show endRequest ∈ decodeAll (bytesOf (fpmOf rs).pieces)
  rw [hbytes, decodeAll_encode, decodeAll_encode_append]
  exact List.mem_append_right _ List.mem_cons_self

/-- A response of five bytes, whose length the script does not give. -/
def helloAnswer : Bytes := ascii "X: y\x0d\n\x0d\nhello"

theorem length_helloAnswer : helloAnswer.length < 65536 := by decide

/-- A response without a body. -/
def noContentAnswer : Bytes := ascii "Status: 204\x0d\n\x0d\n"

theorem length_noContentAnswer : noContentAnswer.length < 65536 := by decide

/-- The server in front of a script that answers with five bytes. -/
def helloServing : Serving := scriptServing helloAnswer length_helloAnswer

/-- The server in front of a script that answers with 204. -/
def noContentServing : Serving := scriptServing noContentAnswer length_noContentAnswer

/-- A response in chunks. -/
theorem kept_alive_script :
    ∃ req body,
      examine (Config.ofSites [scriptSite]) helloServing.w.client 0 rootRequest =
        .serve req body true ∧
      IsOneResponse req.method (written (serveRequest (Config.ofSites [scriptSite]) helloServing
        req rootRequest body []).1) ∧
      (IsOneResponse req.method (written (serveRequest (Config.ofSites [scriptSite]) helloServing
        req rootRequest body []).1) ↔
      (helloServing.shape req body (dispatch (Config.ofSites [scriptSite]) helloServing.w.client
        helloServing.limited req)).Delimits
        (dispatch (Config.ofSites [scriptSite]) helloServing.w.client helloServing.limited req).site
        req) := by
  obtain ⟨req, body, hexamine, hread⟩ := @exists_kept (Config.ofSites [scriptSite])
    helloServing.w.client rootRequest (fun req body =>
      decide ((serveRequest (Config.ofSites [scriptSite]) helloServing req rootRequest body
          []).2 = 0) &&
      decide (IsOneResponse req.method (written (serveRequest (Config.ofSites [scriptSite])
        helloServing req rootRequest body []).1))) (by decide +kernel)
  obtain ⟨hrc, hone⟩ := Bool.and_eq_true_iff.mp hread
  have hsites : ∀ site ∈ (Config.ofSites [scriptSite]).sites, site.Configured := by
    intro site hsite
    rw [List.mem_singleton.mp hsite]
    exact nofun
  exact ⟨req, body, hexamine, of_decide_eq_true hone,
    kept_alive_iff hsites rfl (completes_fpmOf _) hexamine (of_decide_eq_true hrc)⟩

/-- A site that removes the length. -/
def unframedSite : Site :=
  { domains := [.lit "example.org"]
    headersRemove := [.lit "Content-Length"] }

/-- **The traces of two replies**: a site removes `Content-Length` from its responses, and a text
goes out without any framing; a script answers with 204, and the last chunk is left over in front
of the next response.  Everything succeeds, and the connections are kept alive. -/
theorem undelimited_replies :
    (∃ req body,
      examine (Config.ofSites [unframedSite]) sampleServing.w.client 0 rootRequest =
        .serve req body true ∧
      unframedSite.Configured ∧ sampleServing.w.peer = .willing ∧ sampleServing.fpm.Completes ∧
      (serveRequest (Config.ofSites [unframedSite]) sampleServing req rootRequest body []).2 = 0 ∧
      ¬ IsOneResponse req.method (written (serveRequest (Config.ofSites [unframedSite])
        sampleServing req rootRequest body []).1)) ∧
    ∃ req body,
      examine (Config.ofSites [scriptSite]) noContentServing.w.client 0 rootRequest =
        .serve req body true ∧
      scriptSite.Configured ∧ noContentServing.w.peer = .willing ∧ noContentServing.fpm.Completes ∧
      (serveRequest (Config.ofSites [scriptSite]) noContentServing req rootRequest body []).2 = 0 ∧
      (readResponse req.method (written (serveRequest (Config.ofSites [scriptSite])
        noContentServing req rootRequest body []).1)).map Prod.snd =
          some (ascii "0\x0d\n\x0d\n") := by
  constructor
  · obtain ⟨req, body, hexamine, hread⟩ := @exists_kept (Config.ofSites [unframedSite])
      sampleServing.w.client rootRequest (fun req body =>
        decide ((serveRequest (Config.ofSites [unframedSite]) sampleServing req rootRequest body
          []).2 = 0) &&
        decide (¬ IsOneResponse req.method (written (serveRequest (Config.ofSites [unframedSite])
          sampleServing req rootRequest body []).1))) (by decide +kernel)
    obtain ⟨hrc, hbroken⟩ := Bool.and_eq_true_iff.mp hread
    exact ⟨req, body, hexamine, nofun, rfl, fun h => Bool.noConfusion h, of_decide_eq_true hrc,
      of_decide_eq_true hbroken⟩
  · obtain ⟨req, body, hexamine, hread⟩ := @exists_kept (Config.ofSites [scriptSite])
      noContentServing.w.client rootRequest (fun req body =>
        decide ((serveRequest (Config.ofSites [scriptSite]) noContentServing req rootRequest body
            []).2 = 0) &&
        decide ((readResponse req.method (written (serveRequest (Config.ofSites [scriptSite])
          noContentServing req rootRequest body []).1)).map Prod.snd =
            some (ascii "0\x0d\n\x0d\n"))) (by decide +kernel)
    obtain ⟨hrc, hleft⟩ := Bool.and_eq_true_iff.mp hread
    exact ⟨req, body, hexamine, nofun, rfl, completes_fpmOf _, of_decide_eq_true hrc,
      of_decide_eq_true hleft⟩

end Rpsiod

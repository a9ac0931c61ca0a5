import Rpsiod.Http.HeadTwin
import Rpsiod.Server.AnswerPlans
import Rpsiod.Server.PhpRequest
import Rpsiod.Server.SentFile

/-!
# HEAD and GET (`serve_request`)

* `bodiless_respond`: **no responder of a static or PHP site sends a body to a HEAD request**,
  whatever the client takes.
* `plan_asHead`: the plan for a HEAD request is that for the GET request, unless PHP streams a
  response or its parameters fit only with the shorter method.
* `head_mirrors_get`: **the head of the answer is the same**.
-/

namespace Rpsiod

open ListSearch Crlf FastCgi

variable {w : World} {site : Site} {req : HttpRequest}

/-! ### No body for HEAD -/

theorem Bodiless.ite {c : Prop} [Decidable c] {f g : Trace → Trace × ℤ} (hf : c → Bodiless f)
    (hg : ¬c → Bodiless g) : Bodiless fun t => if c then f t else g t := by
  split_ifs with h
  · exact hf h
  · exact hg h

theorem Bodiless.congr {f g : Trace → Trace × ℤ} (h : Bodiless g) (hfg : ∀ t, f t = g t) :
    Bodiless f := by
  rw [funext hfg]
  exact h

/-- The backend is seen to fail first. -/
theorem Bodiless.failed {f : Trace → Trace × ℤ} (h : Bodiless f) :
    Bodiless fun t => f (t ++ [.backendFailed]) := by
  refine ⟨fun t => ?_⟩
  obtain ⟨ev, hev, hbody⟩ := h.adds (t ++ [.backendFailed])
  refine ⟨.backendFailed :: ev, ?_, fun b hb => ?_⟩
  · rw [hev, List.append_assoc]
    rfl
  · rcases List.mem_cons.mp hb with hb | hb
    · exact nomatch hb
    · exact hbody b hb

/-- Nothing but heads and log entries is added in the loop body. -/
structure BodilessFlow (f : Trace → Flow) : Prop where
  adds : ∀ t, ∃ ev, (f t).trace = t ++ ev ∧ ∀ b, .body b ∉ ev

theorem bodiless_writePhpHead (status : ℤ) (contentType : Bytes) (contentLength : Option ℕ)
    (cgiHeaders : Bytes) (chunkedResponse : Bool) :
    Bodiless (writePhpResponseHeaders w.peer w.host w.client site status contentType contentLength
      req.keepAlive cgiHeaders chunkedResponse) := by
  unfold writePhpResponseHeaders
  split
  · exact bodiless_return _
  · exact bodiless_head _ _

section headOnly

variable (hhead : req.headOnly = true)

include hhead

theorem bodiless_sendShort (status : ℤ) (text : Bytes) (opts : ResponseOptions) :
    Bodiless fun t => sendShort w status text opts req t := by
  unfold sendShort
  simp only [hhead, if_true]
  exact (bodiless_writeHead ..).andThen
    ((bodiless_return 0).andThen ((bodiless_return 0).logged _ _ _))

theorem bodiless_sendRedirect (status : ℤ) (location : Bytes) :
    Bodiless fun t => sendRedirect w site status location req t :=
  .ite (fun _ => bodiless_return _) fun _ => bodiless_sendShort hhead ..

theorem bodiless_sendErrorPage (status : ℤ) :
    Bodiless fun t => sendErrorPage w site status req t := by
  unfold sendErrorPage
  cases openErrorPage w site status with
  | some page => exact bodiless_sendFileFd_head hhead ..
  | none => exact bodiless_sendShort hhead ..

theorem bodiless_redirectDirectorySlash :
    Bodiless fun t => redirectDirectorySlash w site req t :=
  .ite (fun _ => bodiless_sendErrorPage hhead 414) fun _ =>
    .ite (fun _ => bodiless_sendErrorPage hhead 414) fun _ => bodiless_sendRedirect hhead ..

theorem bodiless_backendError (status : ℤ) : Bodiless (backendError w site req status) :=
  (bodiless_sendErrorPage hhead status).failed

theorem writePhpBody_head (body : Bytes) (chunkedResponse : Bool) (t : Trace) :
    writePhpBody w req body chunkedResponse t = (t, 0) := if_pos hhead

theorem bodiless_phpFinish (st : PhpState) : Bodiless (phpFinish w site req st) := by
  unfold phpFinish
  simp only [hhead, Bool.not_true, Bool.and_false, Bool.false_and, Bool.false_eq_true, if_false]
  refine .ite (fun _ => ?_) fun _ => (bodiless_return 0).logged _ _ _
  exact (bodiless_writePhpHead _ _ _ _ _).logged _ _ _

/-- The loop body adds no body. -/
theorem bodiless_phpStep (r : Record) (st : PhpState) :
    BodilessFlow (phpStep w site req r st) := by
  refine ⟨fun t => ?_⟩
  have hgoes : ∀ st, ∃ ev, (Flow.next st t).trace = t ++ ev ∧ ∀ b, .body b ∉ ev := fun _ =>
    ⟨[], (List.append_nil t).symm, fun _ => List.not_mem_nil⟩
  unfold phpStep
  dsimp only
  split_ifs
  · exact (bodiless_backendError hhead 502).adds t
  · cases indexOfSub crlfcrlf (st.headerBuffer ++ r.content) with
    | none => exact hgoes _
    | some stop =>
        unfold phpStart
        dsimp only
        split_ifs
        · exact (bodiless_sendErrorPage hhead 500).adds t
        · exact (bodiless_writePhpHead _ _ _ _ _).adds t
        · exact (bodiless_writePhpHead _ _ _ _ _).adds t
        · rw [writePhpBody_head hhead]
          exact (bodiless_writePhpHead _ _ _ _ _).adds t
  · rw [writePhpBody_head hhead]
    exact hgoes _
  · exact (bodiless_phpFinish hhead st).adds t
  · exact hgoes _

theorem bodiless_phpSteps (ending : BackendEnd) (rs : List Record) (st : PhpState) :
    Bodiless fun t => (phpSteps w site req rs st t).finish w site req ending := by
  induction rs generalizing st with
  | nil => exact bodiless_backendError hhead ending.status
  | cons r rs ih =>
      refine ⟨fun t => ?_⟩
      obtain ⟨ev, hev, hbody⟩ := (bodiless_phpStep hhead r st).adds t
      unfold phpSteps
      cases hflow : phpStep w site req r st t with
      | stop result =>
          rw [hflow] at hev
          exact ⟨ev, hev, hbody⟩
      | next st' t' =>
          rw [hflow] at hev
          obtain ⟨more, hmore, hmorebody⟩ := (ih st').adds t'
          refine ⟨ev ++ more, ?_, fun b hb => ?_⟩
          · rw [← List.append_assoc, ← hev]
            exact hmore
          · exact (List.mem_append.mp hb).elim (hbody b) (hmorebody b)

/-- **`send_php_fpm`**. -/
theorem bodiless_sendPhpFpm (script body : Bytes) (fpm : Fpm) :
    Bodiless (sendPhpFpm w site req script body fpm) := by
  have hpage : ∀ status, Bodiless (sendErrorPage w site status req) := fun status =>
    bodiless_sendErrorPage hhead status
  have hfailed : Bodiless (backendError w site req 502) := bodiless_backendError hhead 502
  refine .ite (fun _ => hfailed) fun _ => .ite (fun _ => hfailed) fun _ =>
    .ite (fun _ => hpage 414) fun _ => .ite (fun _ => hpage 414) fun _ => ?_
  cases fcgiParams w.client site req script with
  | none => exact hpage 500
  | some params =>
      refine .ite (fun _ => hfailed) fun _ => .ite (fun _ => hpage 413) fun _ =>
        .ite (fun _ => hfailed) fun _ => ?_
      have hrun := @bodiless_phpSteps w site req hhead fpm.ending (decodeAll (bytesOf fpm.pieces)) {}
      exact hrun.congr fun t =>
        phpLoop_eq w site req fpm.ending _ fpm.pieces {} t (Nat.lt_succ_self _)

/-- **`serve_static`**. -/
theorem bodiless_serveStatic (course : Course) (cache : MetaCache) (fpm : Fpm) (body : Bytes) :
    Bodiless (serveStatic w site course cache fpm req body) := by
  unfold serveStatic
  dsimp only
  cases staticAnswer (w.under course.variants) site course cache req with
  | sendErrorPage status => exact bodiless_sendErrorPage hhead status
  | sendFileFd status path file cached => exact bodiless_sendFileFd_head hhead ..
  | redirectDirectorySlash => exact bodiless_redirectDirectorySlash hhead
  | sendPhpFpm script => exact bodiless_sendPhpFpm hhead script body fpm

/-- **No responder but the proxy sends a body to a HEAD request.** -/
theorem bodiless_respond (s : Serving) (buf body : Bytes) {r : Responder}
    (hproxy : ∀ site, r ≠ .serveProxy (some site)) :
    Bodiless fun t => s.respond req buf body t r := by
  cases r with
  | sendText site status text => exact bodiless_sendShort hhead ..
  | sendRedirect site status location =>
      cases site with
      | none => exact bodiless_return _
      | some site => exact bodiless_sendRedirect hhead ..
  | sendRateLimited site retryAfter =>
      cases site with
      | none => exact bodiless_return _
      | some site => exact bodiless_sendShort hhead ..
  | sendErrorPage site status =>
      cases site with
      | none => exact bodiless_return _
      | some site => exact bodiless_sendErrorPage hhead status
  | serveProxy site =>
      cases site with
      | none => exact bodiless_return _
      | some site => exact absurd rfl (hproxy site)
  | serveStatic site =>
      cases site with
      | none => exact bodiless_return _
      | some site => exact bodiless_serveStatic hhead s.course s.cache s.fpm body

end headOnly

/-! ### The plan for HEAD -/

section plans

variable (hget : req.method = ascii "GET")

include hget

/-- Both methods are taken. -/
theorem methods_asHead :
    (!streqCi req.method (ascii "GET") && !streqCi req.method (ascii "HEAD")) = false ∧
      (!streqCi req.asHead.method (ascii "GET") && !streqCi req.asHead.method (ascii "HEAD")) =
        false := by
  have hhead : req.asHead.method = ascii "HEAD" := rfl
  rw [hget, hhead]
  exact ⟨by decide, by decide⟩

theorem requestCacheValidatorMatches_asHead (st : FileStat) (etag : Option Bytes) :
    requestCacheValidatorMatches w req.asHead st etag =
      requestCacheValidatorMatches w req st etag := by
  obtain ⟨hmethod, hmethod'⟩ := methods_asHead hget
  unfold requestCacheValidatorMatches
  rw [hmethod, hmethod']
  rfl

theorem filePlan_asHead (status : ℤ) (path : Bytes) (file : OpenFile)
    (cached : Option StaticMeta) :
    filePlan w site req.asHead status path file cached =
      filePlan w site req status path file cached := by
  unfold filePlan
  rw [requestCacheValidatorMatches_asHead hget]
  rfl

theorem errorPagePlan_asHead (status : ℤ) :
    errorPagePlan w site req.asHead status = errorPagePlan w site req status := by
  unfold errorPagePlan
  cases openErrorPage w site status with
  | some page => exact filePlan_asHead hget ..
  | none => rfl

theorem backendErrorPlan_asHead (status : ℤ) :
    backendErrorPlan w site req.asHead status = backendErrorPlan w site req status := by
  unfold backendErrorPlan
  rw [errorPagePlan_asHead hget]

theorem directorySlashPlan_asHead :
    directorySlashPlan w site req.asHead = directorySlashPlan w site req := by
  unfold directorySlashPlan
  rw [errorPagePlan_asHead hget]
  rfl

/-- A response in chunks, which a HEAD request does not get. -/
def PhpReply.Chunked : PhpReply → Prop
  | .started headers => (parseCgiHead headers).contentLength = none
  | _ => False

theorem replyPlan_asHead {reply : PhpReply} (h : ¬ reply.Chunked) :
    reply.plan w site req.asHead = reply.plan w site req := by
  cases reply with
  | failed status => exact backendErrorPlan_asHead hget status
  | whole buffer => rfl
  | started headers =>
      obtain ⟨length, hlength⟩ := Option.ne_none_iff_exists'.mp h
      have hchunked : ∀ r : HttpRequest, phpChunked r (parseCgiHead headers) = false := fun r => by
        unfold phpChunked
        rw [hlength]
        rfl
      unfold PhpReply.plan
      rw [errorPagePlan_asHead hget]
      dsimp only
      rw [hchunked, hchunked]
      rfl

/-- The parameters of a HEAD request are one byte longer. -/
theorem length_fcgiParams_asHead (client : Client) (script : Bytes) :
    (pairsBytes (fcgiParamList client site req.asHead script)).length =
      (pairsBytes (fcgiParamList client site req script)).length + 1 := by
  have hmethod : (fcgiNameValue (ascii "REQUEST_METHOD") (ascii "HEAD")).length =
      (fcgiNameValue (ascii "REQUEST_METHOD") (ascii "GET")).length + 1 := by decide
  have hsplit : ∀ r : HttpRequest, fcgiParamList client site r script =
      (ascii "GATEWAY_INTERFACE", ascii "CGI/1.1") :: (ascii "SERVER_SOFTWARE", ascii "rpsiod") ::
        (ascii "REQUEST_METHOD", r.method) :: (fcgiParamList client site r script).drop 3 :=
    fun _ => rfl
  have hrest : (fcgiParamList client site req.asHead script).drop 3 =
      (fcgiParamList client site req script).drop 3 := rfl
  rw [hsplit req.asHead, hsplit req, hrest, hget, show req.asHead.method = ascii "HEAD" from rfl]
  simp only [pairsBytes_cons, List.length_append, hmethod]
  omega

end plans

theorem fcgiParams_isSome_iff (client : Client) (script : Bytes) :
    (fcgiParams client site req script).isSome ↔
      (pairsBytes (fcgiParamList client site req script)).length ≤ 8192 := by
  unfold fcgiParams
  rw [foldlM_fcgiAddParam 8192 _ (Nat.zero_le _), List.length_nil, Nat.zero_add]
  split_ifs with hlong
  · exact iff_of_false (by decide) (not_le.mpr hlong)
  · exact iff_of_true rfl (not_lt.mp hlong)

/-- PHP streams its response to this request in chunks. -/
structure StreamsPhp (w : World) (site : Site) (req : HttpRequest) (script body : Bytes)
    (fpm : Fpm) : Prop where
  reached : FpmReached w site req script body fpm
  chunked : (phpReply fpm.ending (decodeAll (bytesOf fpm.pieces)) []).Chunked

theorem fpmPlan_asHead (hget : req.method = ascii "GET") {script body : Bytes} {fpm : Fpm}
    (hsize : (pairsBytes (fcgiParamList w.client site req script)).length ≠ 8192)
    (hstream : ¬ StreamsPhp w site req script body fpm) :
    fpmPlan w site req.asHead script body fpm = fpmPlan w site req script body fpm := by
  have hparams := @fcgiParams_isSome_iff site req w.client script
  have hparams' := @fcgiParams_isSome_iff site req.asHead w.client script
  rw [length_fcgiParams_asHead hget] at hparams'
  unfold fpmPlan
  rw [errorPagePlan_asHead hget, errorPagePlan_asHead hget, errorPagePlan_asHead hget,
    backendErrorPlan_asHead hget]
  cases hfits : fcgiParams w.client site req script with
  | none =>
      have hnone : fcgiParams w.client site req.asHead script = none := by
        rw [← Option.not_isSome_iff_eq_none, hparams']
        rw [← Option.not_isSome_iff_eq_none, hparams] at hfits
        omega
      rw [hnone]
  | some params =>
      have hsome : (fcgiParams w.client site req.asHead script).isSome := by
        rw [hparams']
        have := hparams.mp (by rw [hfits]; rfl)
        omega
      obtain ⟨params', hparams'⟩ := Option.isSome_iff_exists.mp hsome
      rw [hparams']
      dsimp only
      split_ifs with hconnects hbegin hfile hname htakes hbody hstdin
      · rfl
      · rfl
      · rfl
      · rfl
      · rfl
      · rfl
      · rfl
      · refine replyPlan_asHead hget fun hchunked => hstream ⟨?_, hchunked⟩
        exact {
          connects := by simpa using hconnects
          takesBegin := by simpa using hbegin
          takesParams := by simpa using htakes
          takesStdin := by simpa using hstdin
          filename := not_le.mp hfile
          name := not_le.mp hname
          params := by
            rw [hfits]
            exact nofun
          body := not_lt.mp hbody }

/-! ### The answer -/

section answer

variable (hget : req.method = ascii "GET")

include hget

theorem serveFiles_asHead (course : Course) (cache : MetaCache) (decoded : Bytes) :
    serveFiles site course cache req.asHead decoded = serveFiles site course cache req decoded := by
  obtain ⟨hmethod, hmethod'⟩ := methods_asHead hget
  unfold serveFiles
  rw [hmethod, hmethod']
  rfl

theorem staticAnswer_asHead (hallows : site.allowsMethod (ascii "GET") = true) (course : Course)
    (cache : MetaCache) :
    staticAnswer w site course cache req.asHead = staticAnswer w site course cache req := by
  have hhead : site.allowsMethod (ascii "HEAD") = true := by
    have hother : streqCi (ascii "GET") (ascii "HEAD") = false := by decide
    have hsame : streqCi (ascii "HEAD") (ascii "HEAD") = true := by decide
    unfold Site.allowsMethod at hallows ⊢
    rw [hother, Bool.false_and, Bool.false_or] at hallows
    rw [hsame, hallows]
    rfl
  have hdecoded : ∀ decoded, serveDecoded site course cache req.asHead decoded =
      serveDecoded site course cache req decoded := fun decoded => by
    unfold serveDecoded
    rw [serveFiles_asHead hget]
    rfl
  unfold staticAnswer
  rw [hget, hallows, show req.asHead.method = ascii "HEAD" from rfl, hhead]
  simp only [hdecoded]
  rfl

theorem dispatch_asHead {cfg : Config} {client : Client} (limited : Site → Option ℕ)
    (hsite : findSiteForListener cfg req.host client.localPort client.serverIp.bytes = some site)
    (hrouting : site.routingType ≠ .proxy) :
    dispatch cfg client limited req.asHead = dispatch cfg client limited req := by
  have hmethod : (streqCi req.method (ascii "TRACE") || streqCi req.method (ascii "CONNECT")) =
      false := by
    rw [hget]
    decide
  have hmethod' : (streqCi (ascii "HEAD") (ascii "TRACE") ||
      streqCi (ascii "HEAD") (ascii "CONNECT")) = false := by decide
  have hsite' : findSiteForListener cfg req.asHead.host client.localPort client.serverIp.bytes =
      some site := hsite
  unfold dispatch
  rw [hmethod, show req.asHead.method = ascii "HEAD" from rfl, hmethod', hsite, hsite']
  dsimp only
  unfold dispatchSite
  simp only [if_neg hrouting]
  rfl

end answer

theorem dispatch_ne_serveProxy {cfg : Config} {client : Client} {limited : Site → Option ℕ}
    (hsite : findSiteForListener cfg req.host client.localPort client.serverIp.bytes = some site)
    (hrouting : site.routingType ≠ .proxy) (found : Option Site) :
    dispatch cfg client limited req ≠ .serveProxy found := by
  unfold dispatch
  rw [hsite]
  dsimp only
  unfold dispatchSite
  rw [if_neg hrouting]
  split_ifs
  · exact Responder.noConfusion
  · exact Responder.noConfusion
  · split
    · exact Responder.noConfusion
    · split
      · exact Responder.noConfusion
      · exact Responder.noConfusion

/-- The script that a request is handed to, with its site. -/
def Serving.phpScript (s : Serving) (cfg : Config) (req : HttpRequest) : Option (Site × Bytes) :=
  match dispatch cfg s.w.client s.limited req with
  | .serveStatic (some site) =>
      match staticAnswer (s.w.under s.course.variants) site s.course s.cache req with
      | .sendPhpFpm script => some (site, script)
      | _ => none
  | _ => none

theorem phpScript_eq_some {s : Serving} {cfg : Config} {script : Bytes}
    (h : s.phpScript cfg req = some (site, script)) :
    dispatch cfg s.w.client s.limited req = .serveStatic (some site) ∧
      staticAnswer (s.w.under s.course.variants) site s.course s.cache req =
        .sendPhpFpm script := by
  unfold Serving.phpScript at h
  split at h
  · rename_i found hdispatch
    split at h
    · rename_i name hanswer
      obtain ⟨rfl, rfl⟩ := Prod.mk.inj (Option.some.inj h)
      exact ⟨hdispatch, hanswer⟩
    · exact nomatch h
  · exact nomatch h

/-- PHP streams the response, or its parameters fit only with the shorter method. -/
def PhpDiffers (s : Serving) (cfg : Config) (req : HttpRequest) (body : Bytes) : Prop :=
  ∃ site script, s.phpScript cfg req = some (site, script) ∧
    ((pairsBytes (fcgiParamList s.w.client site req script)).length = 8192 ∨
      StreamsPhp (s.w.under s.course.variants) site req script body s.fpm)

theorem plan_asHead {s : Serving} {cfg : Config} {buf buf' body : Bytes}
    (hget : req.method = ascii "GET")
    (hsite : findSiteForListener cfg req.host s.w.client.localPort s.w.client.serverIp.bytes =
      some site) (hrouting : site.routingType ≠ .proxy)
    (hallows : site.allowsMethod (ascii "GET") = true) (hphp : ¬ PhpDiffers s cfg req body) :
    s.plan req.asHead buf' body (dispatch cfg s.w.client s.limited req) =
      s.plan req buf body (dispatch cfg s.w.client s.limited req) := by
  have hsafe := dispatch_safe cfg s.w.client s.limited req
  cases hr : dispatch cfg s.w.client s.limited req with
  | sendText found status text => rfl
  | sendRedirect found status location =>
      cases found with
      | none => rfl
      | some found => rfl
  | sendRateLimited found retryAfter =>
      cases found with
      | none => rfl
      | some found => rfl
  | sendErrorPage found status =>
      cases found with
      | none => rfl
      | some found => exact congrArg some (errorPagePlan_asHead hget status)
  | serveProxy found => exact absurd hr (dispatch_ne_serveProxy hsite hrouting found)
  | serveStatic found =>
      cases found with
      | none => rfl
      | some found =>
          obtain rfl : found = site := by
            rw [hr, hsite] at hsafe
            rcases hsafe with ⟨_, _, htext⟩ | ⟨hsame, -⟩
            · exact Responder.noConfusion htext
            · exact Option.some.inj hsame
          refine congrArg some ?_
          unfold staticPlan
          rw [staticAnswer_asHead hget hallows]
          cases hanswer : staticAnswer (s.w.under s.course.variants) found s.course s.cache req with
          | sendErrorPage status => exact errorPagePlan_asHead hget status
          | sendFileFd status path file cached => exact filePlan_asHead hget ..
          | redirectDirectorySlash => exact directorySlashPlan_asHead hget
          | sendPhpFpm script =>
              have hscript : s.phpScript cfg req = some (found, script) := by
                unfold Serving.phpScript
                rw [hr]
                dsimp only
                rw [hanswer]
              refine fpmPlan_asHead hget (fun hsize => hphp ?_) fun hstreams => hphp ?_
              · exact ⟨found, script, hscript, Or.inl hsize⟩
              · exact ⟨found, script, hscript, Or.inr hstreams⟩

/-! ### Both answers -/

/-- The status line and the header lines that the client gets. -/
def firstHead (t : Trace) : Option Bytes :=
  t.findSome? fun e =>
    match e with
    | .head b => some b
    | _ => none

theorem firstHead_eq_none {t : Trace} (h : ∀ e ∈ t, e.isWrite = false) : firstHead t = none := by
  refine List.findSome?_eq_none_iff.mpr fun e he => ?_
  have hquiet := h e he
  cases e with
  | head b => exact Bool.noConfusion hquiet
  | body b => rfl
  | logged status bytes => rfl
  | backendFailed => rfl

theorem firstHead_append {front : Trace} (hfront : ∀ e ∈ front, e.isWrite = false) (t : Trace) :
    firstHead (front ++ t) = firstHead t := by
  have hnone := firstHead_eq_none hfront
  unfold firstHead at hnone ⊢
  rw [List.findSome?_append, hnone]
  rfl

theorem HeadPlan.quiet_before (p : HeadPlan) : ∀ e ∈ p.before, e.isWrite = false := by
  unfold HeadPlan.before
  split_ifs
  · intro e he
    rw [List.mem_singleton.mp he]
    rfl
  · nofun

/-- What the client gets of the head of an answer with this plan. -/
theorem Opens.firstHead_eq {peer : Peer} {p : HeadPlan} {f : Trace → Trace × ℤ}
    (h : Opens peer p f) : firstHead (f []).1 = p.head.map (peer.takes p.before) := by
  have hstart := h.start []
  cases hhead : p.head with
  | some head =>
      rw [startsWith_some hhead] at hstart
      obtain ⟨more, hmore⟩ := hstart
      rw [← hmore, List.nil_append, List.append_assoc, firstHead_append p.quiet_before]
      rfl
  | none =>
      rw [startsWith_none hhead] at hstart
      obtain ⟨-, more, hmore, hquiet⟩ := hstart
      rw [hmore, List.nil_append, firstHead_append p.quiet_before, firstHead_eq_none hquiet]
      rfl

/-- The only site is the one that is found. -/
theorem find_single {host : Bytes} {client : Client}
    (h : (findSiteForListener (Config.ofSites [site]) host client.localPort
      client.serverIp.bytes).isSome) :
    findSiteForListener (Config.ofSites [site]) host client.localPort client.serverIp.bytes =
      some site := by
  obtain ⟨found, hfound⟩ := Option.isSome_iff_exists.mp h
  have hmem : found ∈ [site] := mem_of_findSiteForListener hfound
  rw [hfound, List.mem_singleton.mp hmem]

/-- A static site. -/
def plainSite : Site := { domains := [.lit "example.org"] }

/-- A request for the root, behind its method. -/
def plainRest : Bytes := ascii "/ HTTP/1.1\x0d\nHost: example.org\x0d\n\x0d\n"

/-- What is read of it: its site is found, and it does not go to PHP. -/
def isPlain (req : HttpRequest) : Bool :=
  (findSiteForListener (Config.ofSites [plainSite]) req.host sampleServing.w.client.localPort
    sampleServing.w.client.serverIp.bytes).isSome &&
  (sampleServing.phpScript (Config.ofSites [plainSite]) req).isNone

/-- A document root far down. -/
def deepRoot : Bytes := (List.replicate 19 (47 :: List.replicate 199 97)).flatten

/-- A PHP site. -/
def deepSite : Site :=
  { domains := [.lit "example.org"]
    routingType := .php
    staticRootReal := ⟨deepRoot, by decide +kernel⟩ }

/-- A server whose backend does not take the parameters. -/
def deepServing : Serving :=
  { sampleServing with
    course := .still (Tree.single (ascii "index.php") ⟨⟨1, 0, 0⟩, true, []⟩)
    fpm := ⟨true, true, false, false, [], .closed⟩ }

/-- A request behind its method. -/
def deepRest : Bytes :=
  ascii "/" ++ List.replicate 245 97 ++ ascii " HTTP/1.1\x0d\nHost: example.org\x0d\n\x0d\n"

/-- What `serve_static` finds there. -/
def deepWorld : World := deepServing.w.under deepServing.course.variants

/-- What is read of it: it goes to PHP with parameters of 8192 bytes, and the error pages 500 and 502
have different heads. -/
def isDeep (req : HttpRequest) : Bool :=
  (findSiteForListener (Config.ofSites [deepSite]) req.host deepServing.w.client.localPort
    deepServing.w.client.serverIp.bytes).isSome &&
  (((deepServing.phpScript (Config.ofSites [deepSite]) req).any fun p => p.2 = ascii "index.php") &&
  (decide ((pairsBytes (fcgiParamList deepWorld.client deepSite req
    (ascii "index.php"))).length = 8192) &&
  decide ((errorPagePlan deepWorld deepSite req 500).head ≠
    (backendErrorPlan deepWorld deepSite req 502).head)))

theorem length_scriptFilename_deep :
    (scriptFilename deepSite (ascii "index.php")).length < 4096 := by decide +kernel

/-- The plan behind the checks of the script's name. -/
theorem fpmPlan_deep (req : HttpRequest) :
    fpmPlan deepWorld deepSite req (ascii "index.php") [] deepServing.fpm =
      if (fcgiParams deepWorld.client deepSite req (ascii "index.php")).isNone then
        errorPagePlan deepWorld deepSite req 500
      else backendErrorPlan deepWorld deepSite req 502 := by
  unfold fpmPlan
  rw [if_neg (by decide), if_neg (by decide), if_neg (not_le.mpr length_scriptFilename_deep),
    if_neg (by decide)]
  cases fcgiParams deepWorld.client deepSite req (ascii "index.php") with
  | none => rfl
  | some params => rfl

/-- The head of an answer by PHP. -/
theorem firstHead_fpm {s : Serving} {cfg : Config} {buf body script : Bytes}
    (hpeer : s.w.peer = .willing)
    (hdispatch : dispatch cfg s.w.client s.limited req = .serveStatic (some site))
    (hanswer : staticAnswer (s.w.under s.course.variants) site s.course s.cache req =
      .sendPhpFpm script) :
    firstHead (serveRequest cfg s req buf body []).1 =
      (fpmPlan (s.w.under s.course.variants) site req script body s.fpm).head := by
  have hplan : staticPlan s.w site req s.course s.cache s.fpm body =
      fpmPlan (s.w.under s.course.variants) site req script body s.fpm := by
    unfold staticPlan
    rw [hanswer]
    rfl
  have hopens := @opens_serveStatic s.w site req s.course s.cache s.fpm body
  have hserve : serveRequest cfg s req buf body [] =
      serveStatic s.w site s.course s.cache s.fpm req body [] := by
    unfold serveRequest
    rw [hdispatch]
    rfl
  have htakes : Peer.willing.takes = fun _ head => head := rfl
  rw [hserve, hopens.firstHead_eq, hplan, hpeer, htakes, Option.map_id']

end Rpsiod

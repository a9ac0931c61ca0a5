import Rpsiod.Config.RouteTable
import Rpsiod.Http.Grammar
import Rpsiod.Server.Dispatch
import Rpsiod.Server.Replies

/-!
# Requests that have to come in over HTTPS

A site with `redirects.httpToHttps` answers a request on its plain port with a redirect.  The location
is built in a buffer of 1024 bytes, and `send_redirect` has another one for its body.

* `dispatch_plain`: what `serve_request` does with such a request; a location that does not fit goes
  on to the other responders.
* `answersHttps_iff`: **exactly which of these requests are answered with a redirect to HTTPS**.
-/

namespace Rpsiod

open ListSearch Crlf

/-! ### The redirect -/

/-- The host of a location, before its `www.` is changed. -/
def targetHost (site : Site) (req : HttpRequest) : Bytes :=
  safeCopy 256 (if req.host ≠ [] then req.host else (site.domains.head?.map (·.bytes)).getD [])

/-- The status of a redirect to HTTPS. -/
def httpsStatus (site : Site) (req : HttpRequest) : ℤ :=
  if (wwwHost site (targetHost site req)).isSome then site.redirectWwwStatus.code else 301

/-- The location of a redirect to HTTPS, whatever its length. -/
def httpsLocation (site : Site) (req : HttpRequest) : Bytes :=
  ascii "https" ++ ascii "://" ++ (wwwHost site (targetHost site req)).getD (targetHost site req) ++
    (if site.httpsPort ≠ 443 then ascii ":" ++ decimal site.httpsPort.toNat else []) ++ req.path

/-- The request has to come in over HTTPS, and does not. -/
structure PlainRequest (client : Client) (site : Site) (req : HttpRequest) : Prop where
  redirects : site.redirectHttpToHttps = true
  httpsPort : site.httpsPort ≠ 0
  port : client.localPort = site.httpPort
  untrusted : trustedInternalHttps client req = false
  method : (streqCi req.method (ascii "TRACE") || streqCi req.method (ascii "CONNECT")) = false

/-- The fields of the redirect. -/
def redirectFields (w : World) (site : Site) (status : ℤ) (location : Bytes) (req : HttpRequest) :
    List Field :=
  let body := decimalInt status ++ ascii " " ++ httpStatusText status ++ ascii "\n" ++ location ++
    ascii "\n"
  responseFields w.host w.client plainText (some body.length) req.keepAlive
    { site := some site, location := some location }

/-- The request is answered with a redirect to HTTPS. -/
def AnswersHttps (w : World) (cfg : Config) (limited : Site → Option ℕ) (req : HttpRequest) :
    Prop :=
  ∃ site status location,
    dispatch cfg w.client limited req = .sendRedirect (some site) status location ∧
    status ∈ [301, 302, 307, 308] ∧ startsWith location (ascii "https://") = true ∧
    (ascii "Location", location) ∈ redirectFields w site status location req ∧
    ∀ t, ∃ rest, sendRedirect w site status location req t =
      (t ++ .head (headOf status (redirectFields w site status location req)) :: rest, 0)

/-- The redirect fits into the buffers, and the site does not remove its Location. -/
structure RedirectFits (w : World) (site : Site) (req : HttpRequest) : Prop where
  body : (decimalInt (httpsStatus site req) ++ ascii " " ++
    httpStatusText (httpsStatus site req) ++ ascii "\n" ++ httpsLocation site req ++
    ascii "\n").length < 1024
  head : (headOf (httpsStatus site req) (redirectFields w site (httpsStatus site req)
    (httpsLocation site req) req)).length < responseHeadLen
  kept : headerRemoved (some site) (ascii "Location") = false

variable {cfg : Config} {w : World} {site : Site} {req : HttpRequest}

theorem buildRedirectLocation_plain {client : Client} (h : PlainRequest client site req)
    (outLen : ℕ) :
    buildRedirectLocation site req client.localPort (trustedInternalHttps client req) outLen =
      if (httpsLocation site req).length < outLen then
        some (httpsStatus site req, httpsLocation site req)
      else none := by
  have hhttps : (!trustedInternalHttps client req && site.redirectHttpToHttps &&
      decide (client.localPort = site.httpPort) && decide (site.httpsPort ≠ 0)) = true := by
    rw [h.untrusted, h.redirects, decide_eq_true h.port, decide_eq_true h.httpsPort]
    rfl
  unfold buildRedirectLocation
  simp only [hhttps]
  rfl

/-- The site that is found listens on the address of the connection. -/
theorem listens_of_found (hbuild : buildRouteTable cfg.sites = .ok cfg.routeTable)
    {client : Client} (hhost : req.host.length < 256)
    (hsite : findSiteForListener cfg req.host client.localPort client.serverIp.bytes = some site) :
    (decide (site.listenIp.bytes ≠ ascii "0.0.0.0") &&
      decide (site.listenIp.bytes ≠ client.serverIp.bytes)) = false := by
  have hreference := (findSiteForListener_eq hbuild hhost _ _).symm.trans hsite
  rcases listenIp_of_reference hreference with hany | hlocal
  · rw [hany]
    rfl
  · unfold localIp at hlocal
    split_ifs at hlocal
    · rw [hlocal, decide_eq_false (not_not.mpr rfl)]
      exact Bool.and_false _
    · rw [hlocal]
      rfl

/-- **What `serve_request` does with it**: it redirects, if the location fits. -/
theorem dispatch_plain (hbuild : buildRouteTable cfg.sites = .ok cfg.routeTable)
    (limited : Site → Option ℕ) {buf : Bytes} (haccepted : httpParseRequest buf = .accepted req)
    (hsite : findSiteForListener cfg req.host w.client.localPort w.client.serverIp.bytes =
      some site) (h : PlainRequest w.client site req) :
    dispatch cfg w.client limited req =
      if (httpsLocation site req).length < 1024 then
        .sendRedirect (some site) (httpsStatus site req) (httpsLocation site req)
      else
        match limited site with
        | some retryAfter => .sendRateLimited (some site) retryAfter
        | none =>
            if site.routingType = .proxy then
              if !site.allowsMethod req.method then .sendErrorPage (some site) 405
              else .serveProxy (some site)
            else .serveStatic (some site) := by
  obtain ⟨p⟩ := parsed_of_accepted haccepted
  have haddress := listens_of_found hbuild p.texts.2.2.1 hsite
  unfold dispatch
  rw [h.method, if_neg Bool.false_ne_true, hsite]
  dsimp only
  unfold dispatchSite
  rw [haddress, if_neg Bool.false_ne_true, buildRedirectLocation_plain h]
  by_cases hfits : (httpsLocation site req).length < 1024
  · rw [if_pos hfits, if_pos hfits]
  · rw [if_neg hfits]
    exact (if_neg hfits).symm

/-! ### The answer -/

theorem startsWith_httpsLocation (site : Site) (req : HttpRequest) :
    startsWith (httpsLocation site req) (ascii "https://") = true := by
  have hprefix : ascii "https://" = ascii "https" ++ ascii "://" := by decide
  unfold startsWith httpsLocation
  rw [List.isPrefixOf_iff_prefix, hprefix, List.append_assoc, List.append_assoc]
  exact List.prefix_append _ _

theorem httpsStatus_mem (site : Site) (req : HttpRequest) :
    httpsStatus site req ∈ [(301 : ℤ), 302, 307, 308] := by
  unfold httpsStatus
  split_ifs
  · cases site.redirectWwwStatus <;> decide
  · decide

theorem mem_fieldIf {site : Option Site} {present : Bool} {name value : Bytes} {f : Field} :
    f ∈ fieldIf site present name value ↔
      (present && !headerRemoved site name) = true ∧ f = (name, value) := by
  unfold fieldIf
  split_ifs with h
  · rw [List.mem_singleton]
    exact (and_iff_right h).symm
  · exact iff_of_false List.not_mem_nil fun hf => h hf.1

theorem mem_fieldOf {site : Option Site} {name : Bytes} {value : Option Bytes} {f : Field} :
    f ∈ fieldOf site name value ↔
      ∃ v ∈ value, headerRemoved site name = false ∧ f = (name, v) := by
  cases value with
  | none => exact iff_of_false List.not_mem_nil fun h => by simp at h
  | some v =>
      rw [show fieldOf site name (some v) = fieldIf site true name v from rfl, mem_fieldIf]
      simp

/-- The site does not add a field that the server has. -/
theorem not_mem_addedFields (site : Option Site) {name value : Bytes}
    (h : protectedResponseHeader name = true) : (name, value) ∉ addedFields site := by
  unfold addedFields
  cases site with
  | none => exact List.not_mem_nil
  | some s =>
      intro hmem
      obtain ⟨added, hadded, heq⟩ := List.mem_map.mp hmem
      have hallowed := (List.mem_filter.mp hadded).2
      rw [(Prod.mk.inj heq).1, h] at hallowed
      exact Bool.noConfusion hallowed

/-- A redirect has its Location unless the site removes it. -/
theorem location_mem_redirectFields (w : World) (site : Site) (status : ℤ) (location : Bytes)
    (req : HttpRequest) :
    (ascii "Location", location) ∈ redirectFields w site status location req ↔
      headerRemoved (some site) (ascii "Location") = false := by
  have hadded := @not_mem_addedFields (some site) (ascii "Location") location (by decide)
  have hnone : ∀ name, fieldOf (some site) name none = [] := fun _ => rfl
  have hsome : ∀ name value, fieldOf (some site) name (some value) =
      fieldIf (some site) true name value := fun _ _ => rfl
  have hetag : etagValue { site := some site, location := some location } = none := rfl
  unfold redirectFields responseFields leadingFields framingFields trailingFields
  -- every other field has another name
  simp +decide only [List.mem_append, hnone, hsome, hetag, Option.map_none, hadded,
    List.not_mem_nil, mem_fieldIf, Prod.mk.injEq, Bool.true_and, and_false, false_and, and_true,
    or_false, false_or, Bool.not_eq_true']

/-- `send_redirect` for a client that takes everything. -/
theorem sendRedirect_iff (hpeer : w.peer = .willing) (site : Site) (status : ℤ) (location : Bytes)
    (req : HttpRequest) (t : Trace) :
    (∃ rest, sendRedirect w site status location req t =
        (t ++ .head (headOf status (redirectFields w site status location req)) :: rest, 0)) ↔
      (decimalInt status ++ ascii " " ++ httpStatusText status ++ ascii "\n" ++ location ++
        ascii "\n").length < 1024 ∧
      (headOf status (redirectFields w site status location req)).length < responseHeadLen := by
  unfold sendRedirect
  set body := decimalInt status ++ ascii " " ++ httpStatusText status ++ ascii "\n" ++ location ++
    ascii "\n" with hbody
  have hbuild : buildResponseHeaders w.host w.client status plainText (some body.length) req.keepAlive
      { site := some site, location := some location } responseHeadLen =
      fitting responseHeadLen (headOf status (redirectFields w site status location req)) :=
    buildResponseHeaders_eq ..
  by_cases hlong : 1024 ≤ body.length
  · simp only [if_pos hlong]
    refine iff_of_false ?_ fun h => absurd h.1 (not_lt.mpr hlong)
    rintro ⟨rest, hrest⟩
    exact absurd (Prod.mk.inj hrest).2 (by decide)
  · simp only [if_neg hlong]
    by_cases hfits : (headOf status (redirectFields w site status location req)).length <
        responseHeadLen
    · refine iff_of_true ?_ ⟨not_le.mp hlong, hfits⟩
      rw [show fitting responseHeadLen (headOf status (redirectFields w site status location req)) =
        some _ from if_pos hfits] at hbuild
      have hne : body ≠ [] := List.append_ne_nil_of_right_ne_nil _ (by decide)
      unfold sendShort
      rw [writeHead_of_build hpeer hbuild, andThen_zero]
      cases req.headOnly with
      | true =>
          refine ⟨[.logged status body.length], ?_⟩
          simp [logAccess]
      | false =>
          refine ⟨[.body body, .logged status body.length], ?_⟩
          rw [if_neg Bool.false_ne_true, hpeer,
            clientWritevAll_willing ⟨_, List.mem_singleton_self _, hne⟩, List.flatMap_singleton,
            writeOf_of_ne hne, andThen_zero]
          simp [logAccess]
    · refine iff_of_false ?_ fun h => hfits h.2
      rw [show fitting responseHeadLen (headOf status (redirectFields w site status location req)) =
        none from if_neg hfits] at hbuild
      rintro ⟨rest, hrest⟩
      unfold sendShort at hrest
      rw [writeHead_of_none hbuild, andThen_neg] at hrest
      exact absurd (Prod.mk.inj hrest).2 (by decide)

/-- A site that has to be reached over HTTPS. -/
def httpsOnlySite : Site :=
  { domains := [.lit "example.org"]
    listenIp := .lit "127.0.0.1"
    redirectHttpToHttps := true }

/-- A request for a path of this length. -/
def pathRequest (n : ℕ) : Bytes :=
  ascii "GET /" ++ List.replicate n 97 ++ ascii " HTTP/1.1\x0d\nHost: example.org\x0d\n\x0d\n"

theorem build_httpsOnlySite :
    buildRouteTable [httpsOnlySite] = .ok (Config.ofSites [httpsOnlySite]).routeTable :=
  build_ofSites (by decide +kernel)

/-- What is read of a request for a path. -/
def isPathRequest (n : ℕ) (req : HttpRequest) : Bool :=
  decide (req.host = ascii "example.org") && decide (req.method = ascii "GET") &&
    decide (n < req.path.length) && !req.internalHttps

/-- Where it goes. -/
theorem pathRequest_plain {n : ℕ} {req : HttpRequest} (h : isPathRequest n req = true) :
    n < req.path.length ∧
      findSiteForListener (Config.ofSites [httpsOnlySite]) req.host sampleWorld.client.localPort
        sampleWorld.client.serverIp.bytes = some httpsOnlySite ∧
      PlainRequest sampleWorld.client httpsOnlySite req := by
  unfold isPathRequest at h
  simp only [Bool.and_eq_true, decide_eq_true_iff, Bool.not_eq_true'] at h
  obtain ⟨⟨⟨hhost, hmethod⟩, hpath⟩, hscheme⟩ := h
  have hdiffer : ClaimsDiffer [httpsOnlySite] :=
    ((buildRouteTable_ok_iff _).mp ⟨_, build_httpsOnlySite⟩).1
  refine ⟨hpath, ?_, rfl, by decide, rfl, ?_, ?_⟩
  · have hclaim : claimant [httpsOnlySite] ⟨some ((ascii "example.org").map tolower), 80,
        localIp (ascii "127.0.0.1")⟩ = some httpsOnlySite :=
      claimant_eq_some hdiffer (List.mem_singleton_self _) (by decide)
    rw [findSiteForListener_eq build_httpsOnlySite (by rw [hhost]; decide), hhost]
    unfold referenceSite
    rw [show claimant (Config.ofSites [httpsOnlySite]).sites
      ⟨some ((ascii "example.org").map tolower), sampleWorld.client.localPort,
        localIp sampleWorld.client.serverIp.bytes⟩ = _ from hclaim]
    rfl
  · unfold trustedInternalHttps
    rw [hscheme]
    rfl
  · rw [hmethod]
    decide

end Rpsiod

import Rpsiod.Server.HttpsRedirect

/-!
# Where a redirect leads

* `redirectTarget`: the scheme and the host that `rpsiod_route_build_redirect_location` writes, without
  the path and the buffer.
* `buildRedirectLocation_eq`: the location is the text of the target, if it fits.
* `staysHttps_iff`: **exactly when a location has the scheme `https`**.
-/

namespace Rpsiod

/-- Where a location leads: its scheme and its host. -/
structure Target where
  https : Bool
  host : Bytes
  deriving DecidableEq

/-- The port that a location names, or leaves to its scheme. -/
def Target.port (site : Site) (target : Target) : UInt16 :=
  if target.https then site.httpsPort else site.httpPort

/-- The text of a port, which is left out if it is the one of the scheme. -/
def portText (default port : UInt16) : Bytes :=
  if port ≠ default then ascii ":" ++ decimal port.toNat else []

/-- The text of a location. -/
def Target.location (site : Site) (target : Target) (path : Bytes) : Bytes :=
  (if target.https then ascii "https" else ascii "http") ++ ascii "://" ++ target.host ++
    (if target.https then portText 443 site.httpsPort else portText 80 site.httpPort) ++ path

/-- `https` in `rpsiod_route_build_redirect_location`: the request has to come in over HTTPS. -/
def upgrades (site : Site) (port : UInt16) (suppressHttpToHttps : Bool) : Bool :=
  !suppressHttpToHttps && site.redirectHttpToHttps && port = site.httpPort && site.httpsPort ≠ 0

/-- Where a request for this host on this port is redirected to. -/
def redirectTarget (site : Site) (host : Bytes) (port : UInt16) (suppressHttpToHttps : Bool) :
    Option Target :=
  if !upgrades site port suppressHttpToHttps && (wwwHost site host).isNone then none
  else
    some ⟨upgrades site port suppressHttpToHttps || site.serveAs = .https,
      (wwwHost site host).getD host⟩

/-- **The location is the text of the target**, if it fits. -/
theorem buildRedirectLocation_eq (site : Site) (req : HttpRequest) (port : UInt16)
    (suppressHttpToHttps : Bool) (outLen : ℕ) :
    buildRedirectLocation site req port suppressHttpToHttps outLen =
      (redirectTarget site (targetHost site req) port suppressHttpToHttps).bind fun target =>
        if (target.location site req.path).length < outLen then
          some (httpsStatus site req, target.location site req.path)
        else none := by
  have hupgrades : (!suppressHttpToHttps && site.redirectHttpToHttps && decide (port = site.httpPort) &&
      decide (site.httpsPort ≠ 0)) = upgrades site port suppressHttpToHttps := rfl
  have hhost : safeCopy 256 (if req.host ≠ [] then req.host
      else (site.domains.head?.map (·.bytes)).getD []) = targetHost site req := rfl
  unfold buildRedirectLocation redirectTarget httpsStatus
  simp only [hupgrades, hhost, redirectScheme, redirectPort, Target.location, portText]
  by_cases hnone : (!upgrades site port suppressHttpToHttps &&
      (wwwHost site (targetHost site req)).isNone) = true
  · rw [if_pos hnone, if_pos hnone, Option.bind_none]
  · rw [if_neg hnone, if_neg hnone, Option.bind_some]
    rfl

/-! ### The other form of the host -/

/-- The site redirects this host to its form with `www.`, or without it. -/
def ChangesWww (site : Site) (host : Bytes) : Prop :=
  site.redirectWwwEnabled = true ∧
    ((site.redirectWwwMode = .apexToWww ∧ startsWith host (ascii "www.") = false ∧
        host.length + 4 < 256) ∨
      (site.redirectWwwMode = .wwwToApex ∧ startsWith host (ascii "www.") = true))

/-- The other form. -/
def otherForm (site : Site) (host : Bytes) : Bytes :=
  if site.redirectWwwMode = .apexToWww then ascii "www." ++ host else host.drop 4

theorem length_www (host : Bytes) : (ascii "www." ++ host).length = host.length + 4 := by
  rw [List.length_append, show (ascii "www.").length = 4 by decide, Nat.add_comm]

theorem wwwHost_of_changes {site : Site} {host : Bytes} (h : ChangesWww site host) :
    wwwHost site host = some (otherForm site host) := by
  obtain ⟨henabled, ⟨hmode, hstart, hfits⟩ | ⟨hmode, hstart⟩⟩ := h
  · have hlt : (ascii "www." ++ host).length < 256 := by rw [length_www]; exact hfits
    simp only [wwwHost, otherForm, henabled, hmode, hstart, Bool.not_true, Bool.false_eq_true,
      if_false, decide_true, Bool.not_false, Bool.and_true, if_true, hlt]
  · have hother : WwwMode.wwwToApex ≠ .apexToWww := by decide
    simp only [wwwHost, otherForm, henabled, hmode, hstart, hother, Bool.not_true,
      Bool.false_eq_true, if_false, decide_true, decide_false, Bool.and_true, Bool.and_false,
      if_true]

theorem wwwHost_of_not_changes {site : Site} {host : Bytes} (h : ¬ ChangesWww site host) :
    wwwHost site host = none := by
  unfold wwwHost
  split_ifs with henabled hapex hfits hwww
  · rfl
  · rw [Bool.not_eq_true', Bool.not_eq_false] at henabled
    rw [Bool.and_eq_true, decide_eq_true_iff, Bool.not_eq_true'] at hapex
    rw [length_www] at hfits
    exact absurd ⟨henabled, Or.inl ⟨hapex.1, hapex.2, hfits⟩⟩ h
  · rfl
  · rw [Bool.not_eq_true', Bool.not_eq_false] at henabled
    rw [Bool.and_eq_true, decide_eq_true_iff] at hwww
    exact absurd ⟨henabled, Or.inr hwww⟩ h
  · rfl

/-- A redirect: the request has to come in over HTTPS, or the host has another form. -/
theorem redirectTarget_eq_none_iff {site : Site} {host : Bytes} {port : UInt16} {suppress : Bool} :
    redirectTarget site host port suppress = none ↔
      upgrades site port suppress = false ∧ ¬ ChangesWww site host := by
  unfold redirectTarget
  by_cases hchanges : ChangesWww site host
  · rw [wwwHost_of_changes hchanges]
    simp [hchanges]
  · rw [wwwHost_of_not_changes hchanges]
    simp [hchanges]

/-! ### The scheme -/

/-- The length of a location with the scheme `http` and the other form of the host. -/
def plainLength (site : Site) (host path : Bytes) : ℕ :=
  7 + (if site.redirectWwwMode = .apexToWww then host.length + 4 else host.length - 4) +
    (portText 80 site.httpPort).length + path.length

/-- The location has the scheme `https` and the HTTPS port of the site, which is left out if it is
443. -/
def NamesHttps (site : Site) (path location : Bytes) : Prop :=
  ∃ host, location = ascii "https" ++ ascii "://" ++ host ++ portText 443 site.httpsPort ++ path

/-- No location of the builder leads away from HTTPS. -/
def StaysHttps (site : Site) (req : HttpRequest) (port : UInt16) (suppress : Bool) (outLen : ℕ) :
    Prop :=
  ∀ status location, buildRedirectLocation site req port suppress outLen = some (status, location) →
    NamesHttps site req.path location

/-- The site is served as `https`, or the request is upgraded, or there is no other form of the
host, or the location with it does not fit. -/
def KeepsScheme (site : Site) (req : HttpRequest) (port : UInt16) (suppress : Bool) (outLen : ℕ) :
    Prop :=
  site.serveAs = .https ∨ upgrades site port suppress = true ∨
    ¬ ChangesWww site (targetHost site req) ∨ outLen ≤ plainLength site (targetHost site req) req.path

theorem length_plain_location (site : Site) (host path : Bytes) :
    (Target.location site ⟨false, otherForm site host⟩ path).length =
      plainLength site host path := by
  have hscheme : (ascii "http" ++ ascii "://").length = 7 := by decide
  unfold Target.location plainLength otherForm
  simp only [Bool.false_eq_true, if_false, List.length_append] at hscheme ⊢
  split_ifs
  · rw [length_www]
    omega
  · rw [List.length_drop]
    omega

/-- The fifth byte tells the schemes apart. -/
theorem take_of_namesHttps {site : Site} {path location : Bytes} (h : NamesHttps site path location) :
    location.take 5 = ascii "https" := by
  obtain ⟨host, rfl⟩ := h
  simp only [List.append_assoc]
  rfl

theorem namesHttps_location {site : Site} {target : Target} {path : Bytes} :
    NamesHttps site path (target.location site path) ↔ target.https = true := by
  cases hhttps : target.https with
  | true =>
      refine iff_of_true ⟨target.host, ?_⟩ rfl
      unfold Target.location
      rw [hhttps, if_pos rfl, if_pos rfl]
  | false =>
      refine iff_of_false ?_ Bool.false_ne_true
      intro hnames
      have hbytes := take_of_namesHttps hnames
      have hplain : ∀ rest : Bytes, (ascii "http" ++ (ascii "://" ++ rest)).take 5 = ascii "http:" :=
        fun rest => rfl
      unfold Target.location at hbytes
      rw [hhttps, if_neg Bool.false_ne_true] at hbytes
      simp only [List.append_assoc] at hbytes
      rw [hplain] at hbytes
      exact absurd hbytes (by decide)

/-- **Exactly when no location leads away from HTTPS.** -/
theorem staysHttps_iff (site : Site) (req : HttpRequest) (port : UInt16) (suppress : Bool)
    (outLen : ℕ) :
    StaysHttps site req port suppress outLen ↔ KeepsScheme site req port suppress outLen := by
  set host := targetHost site req with hhost
  unfold StaysHttps KeepsScheme
  rw [buildRedirectLocation_eq, ← hhost]
  constructor
  · intro h
    by_contra hnot
    rw [not_or, not_or, not_or, not_not, not_le] at hnot
    obtain ⟨hserve, hupgrades, hchanges, hfits⟩ := hnot
    rw [Bool.not_eq_true] at hupgrades
    have htarget : redirectTarget site host port suppress = some ⟨false, otherForm site host⟩ := by
      unfold redirectTarget
      rw [hupgrades, wwwHost_of_changes hchanges]
      simp [hserve]
    rw [htarget, Option.bind_some, if_pos (by rwa [length_plain_location])] at h
    exact Bool.false_ne_true (namesHttps_location.mp (h _ _ rfl))
  · intro h status location hbuild
    obtain ⟨target, htarget, hfits⟩ := Option.bind_eq_some_iff.mp hbuild
    split_ifs at hfits with hlt
    obtain ⟨-, rfl⟩ := Prod.mk.inj (Option.some.inj hfits)
    rw [namesHttps_location]
    unfold redirectTarget at htarget
    split_ifs at htarget with hnone
    obtain rfl := Option.some.inj htarget
    dsimp only
    rw [Bool.or_eq_true, decide_eq_true_iff]
    rcases h with hserve | hupgrades | hchanges | hlong
    · exact Or.inr hserve
    · exact Or.inl hupgrades
    · rw [wwwHost_of_not_changes hchanges, Option.isNone_none, Bool.and_true, Bool.not_eq_true',
        Bool.not_eq_false] at hnone
      exact Or.inl hnone
    · by_contra hplain
      rw [not_or] at hplain
      obtain ⟨hupgrades, hserve⟩ := hplain
      rw [Bool.not_eq_true] at hupgrades
      rw [hupgrades, Bool.not_false, Bool.true_and, Option.isNone_iff_eq_none] at hnone
      have hchanges : ChangesWww site host := by
        by_contra hchanges
        exact hnone (wwwHost_of_not_changes hchanges)
      rw [hupgrades, wwwHost_of_changes hchanges, decide_eq_false hserve, Bool.or_false,
        Option.getD_some, length_plain_location] at hlt
      omega

/-- The request came in over HTTPS: on the HTTPS port of the site, or through the loopback of a
connection that did. -/
def OverHttps (client : Client) (site : Site) (req : HttpRequest) : Prop :=
  (client.tls = true ∧ client.localPort = site.httpsPort) ∨ trustedInternalHttps client req = true

/-- A site with a redirect to its form with `www.`. -/
def wwwSite : Site :=
  { domains := [.lit "example.org"]
    redirectWwwEnabled := true }

/-- A client of its HTTPS port. -/
def tlsClient : Client := ⟨443, true, .lit "127.0.0.1", .lit "127.0.0.1"⟩

theorem build_wwwSite :
    buildRouteTable [wwwSite] = .ok (Config.ofSites [wwwSite]).routeTable :=
  build_ofSites (by decide +kernel)

/-- A request to a host of the site. -/
def wwwRequest (host : String) : Bytes :=
  ascii "GET / HTTP/1.1\x0d\nHost: " ++ ascii host ++ ascii "\x0d\n\x0d\n"

/-- **A request over HTTPS is sent to plain HTTP.** -/
theorem https_request_downgraded :
    ∃ req, httpParseRequest (wwwRequest "example.org") = .accepted req ∧
      findSiteForListener (Config.ofSites [wwwSite]) req.host tlsClient.localPort
        tlsClient.serverIp.bytes = some wwwSite ∧
      OverHttps tlsClient wwwSite req ∧
      buildRedirectLocation wwwSite req tlsClient.localPort (trustedInternalHttps tlsClient req)
        1024 = some (301, ascii "http://www.example.org/") ∧
      ¬ StaysHttps wwwSite req tlsClient.localPort (trustedInternalHttps tlsClient req) 1024 := by
  obtain ⟨req, hreq, hread⟩ := @exists_accepted (wwwRequest "example.org") (fun req =>
    decide (req.host = ascii "example.org") && (decide (req.path = ascii "/") &&
      !req.internalHttps)) (by decide +kernel)
  rw [Bool.and_eq_true, Bool.and_eq_true, decide_eq_true_iff, decide_eq_true_iff,
    Bool.not_eq_true'] at hread
  obtain ⟨hhost, hpath, hinternal⟩ := hread
  have htrusted : trustedInternalHttps tlsClient req = false := by
    unfold trustedInternalHttps
    rw [hinternal, Bool.false_and]
  have htarget : targetHost wwwSite req = ascii "example.org" := by
    unfold targetHost
    rw [hhost]
    decide
  have hbuild : buildRedirectLocation wwwSite req tlsClient.localPort
      (trustedInternalHttps tlsClient req) 1024 = some (301, ascii "http://www.example.org/") := by
    rw [buildRedirectLocation_eq, httpsStatus, htarget, htrusted, hpath]
    decide +kernel
  refine ⟨req, hreq, ?_, Or.inl ⟨rfl, rfl⟩, hbuild, ?_⟩
  · rw [findSiteForListener_eq build_wwwSite (by rw [hhost]; decide), hhost]
    exact referenceSite_singleton (by decide +kernel) _
  · intro hstays
    exact absurd (take_of_namesHttps (hstays _ _ hbuild)) (by decide)

end Rpsiod

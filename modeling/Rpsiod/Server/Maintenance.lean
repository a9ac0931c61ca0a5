import Rpsiod.Server.AskedNames
import Rpsiod.Server.AnswerPlans

/-!
# Maintenance (`serve_request`, `serve_static`)

A site in maintenance answers with its maintenance page, or with the error page of the maintenance
status.  `serve_static` is where this is looked at, and `serve_request` does not always get there.

* `Page`: a status with the configured file that is sent for it.
* `Maintained`: the maintenance page answers, and nothing else has an influence.
* `maintained_iff`: **this is so exactly if** the site is not a proxy, up to a corner, and the
  status is not 200 for a request that asks for part of a file.
-/

namespace Rpsiod

open Collect

variable {w : World} {site : Site} {req : HttpRequest} {cfg : Config} {client : Client}
  {limited : Site → Option ℕ}

/-! ### Pages -/

/-- A status with the configured file that is sent for it, if there is one. -/
structure Page where
  status : ℤ
  file : Option (Bytes × OpenFile)

/-- The error page of a status. -/
def errorPageOf (w : World) (site : Site) (status : ℤ) : Page :=
  ⟨status, openErrorPage w site status⟩

/-- The page of a site in maintenance. -/
def maintenancePageOf (w : World) (site : Site) : Page :=
  match if site.maintenancePage.bytes ≠ [] then w.openPage site.maintenancePage.bytes else none with
  | some file =>
      if file.regular then ⟨site.maintenanceStatus, some (site.maintenancePage.bytes, file)⟩
      else errorPageOf w site site.maintenanceStatus
  | none => errorPageOf w site site.maintenanceStatus

/-- Sending a page: the file, or the text of the status. -/
def sendPage (w : World) (site : Site) (page : Page) (req : HttpRequest) (t : Trace) : Trace × ℤ :=
  match page.file with
  | some (path, file) => sendFileFd w site page.status path file none req t
  | none => sendText w (some site) page.status (errorText page.status) req t

/-- The head of a page. -/
def Page.plan (w : World) (site : Site) (req : HttpRequest) (page : Page) : HeadPlan :=
  match page.file with
  | some (path, file) => filePlan w site req page.status path file none
  | none => textPlan w req (some site) page.status (errorText page.status)

/-- The page that `serve_static` returns through. -/
def StaticResponder.page (w : World) (site : Site) : StaticResponder → Option Page
  | .sendErrorPage status => some (errorPageOf w site status)
  | .sendFileFd status path file none => some ⟨status, some (path, file)⟩
  | _ => none

/-- The page that `serve_request` returns through. -/
def Serving.page (s : Serving) (req : HttpRequest) : Responder → Option Page
  | .sendErrorPage (some site) status => some (errorPageOf s.w site status)
  | .serveStatic (some site) => (staticAnswer s.w site s.course s.cache req).page s.w site
  | _ => none

theorem sendErrorPage_eq (w : World) (site : Site) (status : ℤ) (req : HttpRequest) (t : Trace) :
    sendErrorPage w site status req t = sendPage w site (errorPageOf w site status) req t := by
  unfold sendErrorPage sendPage errorPageOf
  cases openErrorPage w site status with
  | none => rfl
  | some page => rfl

/-- **A page is sent with its own head.** -/
theorem opens_sendPage (page : Page) :
    Opens w.peer (page.plan w site req) (sendPage w site page req) := by
  obtain ⟨status, file⟩ := page
  cases file with
  | none => exact opens_sendText (some site) status (errorText status)
  | some found => exact opens_sendFileFd status found.1 found.2 none

@[simp] theorem status_maintenancePageOf (w : World) (site : Site) :
    (maintenancePageOf w site).status = site.maintenanceStatus := by
  unfold maintenancePageOf
  split
  · split_ifs <;> rfl
  · rfl

/-- The file that is sent for maintenance is one of the two that are configured. -/
theorem path_of_maintenancePageOf {path : Bytes} {file : OpenFile}
    (h : (maintenancePageOf w site).file = some (path, file)) :
    path ≠ [] ∧ (path = site.maintenancePage.bytes ∨
      site.errorPage site.maintenanceStatus = some path) := by
  unfold maintenancePageOf at h
  split at h
  · rename_i found hfound
    split_ifs at h hfound with hregular hempty
    · obtain ⟨rfl, -⟩ := Prod.mk.inj (Option.some.inj h)
      exact ⟨hempty, Or.inl rfl⟩
    · exact ⟨(errorPage_of_open h).1, Or.inr (errorPage_of_open h).2⟩
  · exact ⟨(errorPage_of_open h).1, Or.inr (errorPage_of_open h).2⟩

/-- The files below the document root do not matter for the choice of the page. -/
theorem maintenancePageOf_under (tree : Tree) :
    maintenancePageOf (w.under tree) site = maintenancePageOf w site := rfl

/-- A page with another status than 200 has no variants. -/
theorem sendPage_under {page : Page} (hstatus : page.status ≠ 200) (tree : Tree) (t : Trace) :
    sendPage (w.under tree) site page req t = sendPage w site page req t := by
  unfold sendPage
  cases page.file with
  | none => rfl
  | some found =>
      have hnone : ∀ w : World, ∀ mime, usableEncodings w site page.status mime found.1
          found.2.stat req = (false, false) := by
        intro w mime
        unfold usableEncodings
        simp only [hstatus, decide_false, Bool.false_and]
      dsimp only
      unfold sendFileFd sendFileContent
      simp only [hstatus, decide_false, Bool.false_and, Bool.false_eq_true, if_false, hnone]
      rfl

/-- The names below the document root that are asked for the variants of the pages. -/
def pageVariants (site : Site) : List Bytes := (askedForPages site).map AskedName.name

theorem mem_pageVariants {path : Bytes} (h : path = site.maintenancePage.bytes ∨
    site.errorPage site.maintenanceStatus = some path) : variantNames path ⊆ pageVariants site := by
  unfold pageVariants askedForPages
  rw [List.flatMap_cons, List.flatMap_singleton, List.map_append, map_name_variants,
    map_name_variants]
  rcases h with rfl | h
  · exact List.subset_append_left _ _
  · rw [h]
    exact List.subset_append_right _ _

/-- **No other name below the document root has an influence.** -/
theorem sendPage_congr {tree tree' : Tree} (h : tree.AgreeOn (pageVariants site) tree')
    (t : Trace) :
    sendPage (w.under tree) site (maintenancePageOf w site) req t =
      sendPage (w.under tree') site (maintenancePageOf w site) req t := by
  unfold sendPage
  cases hfile : (maintenancePageOf w site).file with
  | none => rfl
  | some found =>
      obtain ⟨path, file⟩ := found
      exact sendFileFd_congr (h.mono (mem_pageVariants (path_of_maintenancePageOf hfile).2))

/-! ### The status of a page -/

/-- A request that a file need not be sent for with the status 200. -/
def AsksForPart (req : HttpRequest) : Prop :=
  req.rangePresent = true ∨
    (streqCi req.method (ascii "GET") || streqCi req.method (ascii "HEAD")) = true ∧
      req.ifNoneMatch = [] ∧ req.ifModifiedSince ≠ []

instance (req : HttpRequest) : Decidable (AsksForPart req) := inferInstanceAs (Decidable (_ ∨ _))

theorem status_contentPlan (status : ℤ) (mime path : Bytes) (etag : Option Bytes) (file : OpenFile)
    (cached : Option StaticMeta) :
    (contentPlan w site req status mime path etag file cached).status = status := by
  unfold contentPlan
  dsimp only
  split
  · rfl
  · split <;> rfl

/-- Without an entity tag, only the time of the file can match. -/
theorem validator_without_etag (st : FileStat) :
    requestCacheValidatorMatches w req st none =
      ((streqCi req.method (ascii "GET") || streqCi req.method (ascii "HEAD")) &&
        decide (req.ifNoneMatch = [] ∧ req.ifModifiedSince ≠ []) &&
        (w.parseHttpTime req.ifModifiedSince).any fun since => st.mtime ≤ since) := by
  unfold requestCacheValidatorMatches ifNoneMatchMatches
  cases streqCi req.method (ascii "GET") <;> cases streqCi req.method (ascii "HEAD") <;>
    by_cases hmatch : req.ifNoneMatch = [] <;> by_cases hsince : req.ifModifiedSince = [] <;>
    simp [hmatch, hsince]

theorem status_filePlan {status : ℤ} (path : Bytes) (file : OpenFile)
    (h : status = 200 → ¬ AsksForPart req) :
    (filePlan w site req status path file none).status = status := by
  have hetag : servedEtag none = none := rfl
  unfold filePlan
  rw [hetag, validator_without_etag]
  by_cases hstatus : status = 200
  · have hwhole := h hstatus
    unfold AsksForPart at hwhole
    rw [not_or] at hwhole
    have hrange : req.rangePresent = false := Bool.eq_false_of_not_eq_true hwhole.1
    have hvalidator : ((streqCi req.method (ascii "GET") || streqCi req.method (ascii "HEAD")) &&
        decide (req.ifNoneMatch = [] ∧ req.ifModifiedSince ≠ [])) = false := by
      rw [Bool.and_eq_false_iff, decide_eq_false_iff_not, ← Bool.not_eq_true]
      exact not_and_or.mp hwhole.2
    rw [hvalidator, hrange]
    simp only [Bool.false_and, Bool.and_false, Bool.false_eq_true, if_false]
    exact status_contentPlan _ _ _ _ _ _
  · simp only [hstatus, decide_false, Bool.false_and, Bool.false_eq_true, if_false]
    exact status_contentPlan _ _ _ _ _ _

theorem status_rangePlan_ne (mime : Bytes) (etag : Option Bytes) (file : OpenFile) :
    (rangePlan w site req mime etag file).status ≠ 200 := by
  unfold rangePlan
  split
  · exact (by decide : (416 : ℤ) ≠ 200)
  · exact (by decide : (206 : ℤ) ≠ 200)

/-- A request for a part of a file does not get the status 200, if every date is late enough. -/
theorem status_filePlan_ne (path : Bytes) (file : OpenFile) (h : AsksForPart req)
    (hlate : ∀ text, w.parseHttpTime text = some file.stat.mtime) :
    (filePlan w site req 200 path file none).status ≠ 200 := by
  have hetag : servedEtag none = none := rfl
  unfold filePlan
  rw [hetag, validator_without_etag, hlate]
  cases hrange : req.rangePresent with
  | true =>
      simp only [Bool.not_true, Bool.and_false, Bool.false_and, Bool.false_eq_true, if_false,
        decide_true, Bool.and_true, if_true]
      exact status_rangePlan_ne _ _ _
  | false =>
      obtain ⟨hmethod, hdate⟩ := h.resolve_left (by rw [hrange]; exact Bool.false_ne_true)
      have hpart : decide (req.ifNoneMatch = [] ∧ req.ifModifiedSince ≠ []) = true :=
        decide_eq_true hdate
      rw [hmethod, hpart, if_pos]
      · exact (by decide : (304 : ℤ) ≠ 200)
      · simp

/-! ### Requests that get to the site -/

/-- A request for a site that is neither redirected nor limited. -/
structure ReachesSite (cfg : Config) (client : Client) (limited : Site → Option ℕ)
    (req : HttpRequest) (site : Site) : Prop where
  accepted : ∃ buf parsed keepAlive, httpParseRequest buf = .accepted parsed ∧
    req = { parsed with keepAlive := keepAlive }
  method : (streqCi req.method (ascii "TRACE") || streqCi req.method (ascii "CONNECT")) = false
  found : findSiteForListener cfg req.host client.localPort client.serverIp.bytes = some site
  redirect : buildRedirectLocation site req client.localPort (trustedInternalHttps client req)
    1024 = none
  unlimited : limited site = none

/-- **What is left of `serve_request`.** -/
theorem dispatch_of_reaches (hbuild : buildRouteTable cfg.sites = .ok cfg.routeTable)
    (h : ReachesSite cfg client limited req site) :
    dispatch cfg client limited req =
      if site.routingType = .proxy then
        if !site.allowsMethod req.method then .sendErrorPage (some site) 405
        else .serveProxy (some site)
      else .serveStatic (some site) := by
  obtain ⟨buf, parsed, keepAlive, haccepted, hreq⟩ := h.accepted
  obtain ⟨p⟩ := parsed_of_accepted haccepted
  have hhost : req.host.length < 256 := by
    rw [hreq]
    exact p.texts.2.2.1
  unfold dispatch
  rw [h.method, if_neg Bool.false_ne_true, h.found]
  dsimp only
  unfold dispatchSite
  rw [listens_of_found hbuild hhost h.found, if_neg Bool.false_ne_true, h.redirect]
  dsimp only
  rw [h.unlimited]

/-! ### What `serve_static` does in maintenance -/

theorem page_serveMaintenance : (serveMaintenance w site).page w site =
    some (maintenancePageOf w site) := by
  unfold serveMaintenance maintenancePageOf
  cases if site.maintenancePage.bytes ≠ [] then w.openPage site.maintenancePage.bytes else none with
  | none => rfl
  | some file =>
      dsimp only
      split_ifs <;> rfl

theorem page_of_static {s : Serving} (hmaintenance : site.maintenanceEnabled = true) :
    s.page req (.serveStatic (some site)) = some (maintenancePageOf s.w site) := by
  unfold Serving.page staticAnswer
  dsimp only
  rw [if_pos hmaintenance]
  exact page_serveMaintenance

/-- **`serve_static` sends the page**, and nothing is asked of PHP-FPM or of the document root. -/
theorem serveStatic_eq_sendPage (hmaintenance : site.maintenanceEnabled = true) (course : Course)
    (cache : MetaCache) (fpm : Fpm) (body : Bytes) (t : Trace) :
    serveStatic w site course cache fpm req body t =
      sendPage (w.under course.variants) site (maintenancePageOf w site) req t := by
  have hpage := @page_serveMaintenance (w.under course.variants) site
  unfold serveStatic staticAnswer
  dsimp only
  rw [if_pos hmaintenance]
  rw [maintenancePageOf_under] at hpage
  cases hanswer : serveMaintenance (w.under course.variants) site with
  | sendErrorPage status =>
      rw [hanswer] at hpage
      rw [← Option.some.inj hpage]
      exact sendErrorPage_eq _ _ _ _ _
  | sendFileFd status path file cached =>
      rw [hanswer] at hpage
      cases cached with
      | none =>
          rw [← Option.some.inj hpage]
          rfl
      | some entry => exact nomatch hpage
  | redirectDirectorySlash =>
      rw [hanswer] at hpage
      exact nomatch hpage
  | sendPhpFpm script =>
      rw [hanswer] at hpage
      exact nomatch hpage

/-! ### Maintenance -/

/-- The maintenance page answers, with its status, and neither the upstream, PHP-FPM and the caches
nor a file below the document root has an influence, variants of the configured pages apart. -/
structure Maintained (cfg : Config) (s : Serving) (req : HttpRequest) (site : Site) : Prop where
  page : s.page req (dispatch cfg s.w.client s.limited req) = some (maintenancePageOf s.w site)
  status : ((maintenancePageOf s.w site).plan s.w site req).status = site.maintenanceStatus
  sent : ∀ buf body t, serveRequest cfg s req buf body t =
    sendPage (s.w.under s.course.variants) site (maintenancePageOf s.w site) req t
  alone : ∀ s' : Serving, s'.w = s.w → s'.limited = s.limited →
    (site.maintenanceStatus = 200 →
      s.course.variants.AgreeOn (pageVariants site) s'.course.variants) →
    ∀ buf body t, serveRequest cfg s' req buf body t = serveRequest cfg s req buf body t

/-- When maintenance covers a request. -/
structure InMaintenance (site : Site) (req : HttpRequest) : Prop where
  routed : site.routingType ≠ .proxy ∨
    site.allowsMethod req.method = false ∧ site.maintenanceStatus = 405 ∧
      (site.maintenancePage.bytes = [] ∨ site.errorPage 405 = some site.maintenancePage.bytes)
  whole : site.maintenanceStatus = 200 → AsksForPart req →
    site.maintenancePage.bytes = [] ∧ (site.errorPage 200).getD [] = []

theorem status_maintenancePlan (h : InMaintenance site req) :
    ((maintenancePageOf w site).plan w site req).status = site.maintenanceStatus := by
  unfold Page.plan
  rw [status_maintenancePageOf]
  cases hfile : (maintenancePageOf w site).file with
  | none => rfl
  | some found =>
      obtain ⟨path, file⟩ := found
      refine status_filePlan path file fun hstatus hpart => ?_
      obtain ⟨hnone, herror⟩ := h.whole hstatus hpart
      obtain ⟨hne, rfl | hpage⟩ := path_of_maintenancePageOf hfile
      · exact hne hnone
      · rw [hstatus] at hpage
        rw [hpage] at herror
        exact hne herror

/-- The corner: a method that a proxy does not allow, where the page of 405 is that of
maintenance. -/
theorem errorPageOf_405 (hstatus : site.maintenanceStatus = 405)
    (h : site.maintenancePage.bytes = [] ∨ site.errorPage 405 = some site.maintenancePage.bytes) :
    errorPageOf w site 405 = maintenancePageOf w site := by
  unfold maintenancePageOf
  rw [hstatus]
  by_cases hpage : site.maintenancePage.bytes = []
  · rw [if_neg (not_not.mpr hpage)]
  · rw [if_pos hpage]
    have herror := h.resolve_left hpage
    cases hopen : w.openPage site.maintenancePage.bytes with
    | none => rfl
    | some file =>
        dsimp only
        split_ifs with hregular
        · unfold errorPageOf openErrorPage
          rw [herror]
          dsimp only
          rw [if_neg hpage, hopen]
          dsimp only
          rw [if_pos hregular]
        · rfl

theorem maintained_of_static {s : Serving} (hmaintenance : site.maintenanceEnabled = true)
    (hcondition : InMaintenance site req)
    (hdispatch : dispatch cfg s.w.client s.limited req = .serveStatic (some site)) :
    Maintained cfg s req site := by
  have hsent : ∀ s' : Serving, s'.w = s.w → s'.limited = s.limited → ∀ buf body t,
      serveRequest cfg s' req buf body t =
        sendPage (s.w.under s'.course.variants) site (maintenancePageOf s.w site) req t := by
    intro s' hw hlimited buf body t
    unfold serveRequest
    rw [hw, hlimited, hdispatch, ← hw]
    exact serveStatic_eq_sendPage hmaintenance _ _ _ _ _
  refine ⟨?_, status_maintenancePlan hcondition, hsent s rfl rfl, ?_⟩
  · rw [hdispatch]
    exact page_of_static hmaintenance
  · intro s' hw hlimited hagree buf body t
    rw [hsent s' hw hlimited, hsent s rfl rfl]
    by_cases hstatus : site.maintenanceStatus = 200
    · exact (sendPage_congr (hagree hstatus) t).symm
    · have hpage : (maintenancePageOf s.w site).status ≠ 200 := by
        rw [status_maintenancePageOf]
        exact hstatus
      rw [sendPage_under hpage, sendPage_under hpage]

theorem maintained_of_refused {s : Serving} (hcondition : InMaintenance site req)
    (hstatus : site.maintenanceStatus = 405)
    (hpage : site.maintenancePage.bytes = [] ∨ site.errorPage 405 = some site.maintenancePage.bytes)
    (hdispatch : dispatch cfg s.w.client s.limited req = .sendErrorPage (some site) 405) :
    Maintained cfg s req site := by
  have hsame := @errorPageOf_405 s.w site hstatus hpage
  have hne : (maintenancePageOf s.w site).status ≠ 200 := by
    rw [status_maintenancePageOf, hstatus]
    decide
  have hsent : ∀ s' : Serving, s'.w = s.w → s'.limited = s.limited → ∀ buf body t,
      serveRequest cfg s' req buf body t =
        sendPage s.w site (maintenancePageOf s.w site) req t := by
    intro s' hw hlimited buf body t
    unfold serveRequest
    rw [hw, hlimited, hdispatch, ← hsame, ← sendErrorPage_eq, ← hw]
    rfl
  refine ⟨?_, status_maintenancePlan hcondition, ?_, ?_⟩
  · rw [hdispatch, ← hsame]
    rfl
  · intro buf body t
    rw [hsent s rfl rfl, sendPage_under hne]
  · intro s' hw hlimited _ buf body t
    rw [hsent s' hw hlimited, hsent s rfl rfl]

/-! ### When something else answers -/

/-- A server whose configured pages are these. -/
def pagesServing (client : Client) (limited : Site → Option ℕ)
    (pages : Bytes → Option OpenFile) : Serving :=
  { sampleServing with
    w := { sampleWorld with
      client := client
      openPage := pages
      parseHttpTime := fun _ => some 0 }
    limited := limited }

/-- A small file. -/
def smallPage : OpenFile := ⟨⟨0, 0, 0⟩, true, []⟩

theorem file_of_opened {file : OpenFile} (hregular : file.regular = true)
    (hopen : w.openPage site.maintenancePage.bytes = some file)
    (hpage : site.maintenancePage.bytes ≠ []) :
    (maintenancePageOf w site).file = some (site.maintenancePage.bytes, file) := by
  unfold maintenancePageOf
  rw [if_pos hpage, hopen]
  dsimp only
  rw [if_pos hregular]

/-- A page is sent as soon as one is configured, if all can be opened. -/
theorem exists_file_of_configured {file : OpenFile} (hregular : file.regular = true)
    (hopen : ∀ path, w.openPage path = some file)
    (h : ¬ (site.maintenancePage.bytes = [] ∧
      (site.errorPage site.maintenanceStatus).getD [] = [])) :
    ∃ path, (maintenancePageOf w site).file = some (path, file) := by
  by_cases hpage : site.maintenancePage.bytes = []
  · have herror : (site.errorPage site.maintenanceStatus).getD [] ≠ [] := fun hempty =>
      h ⟨hpage, hempty⟩
    cases hconfigured : site.errorPage site.maintenanceStatus with
    | none =>
        rw [hconfigured] at herror
        exact absurd rfl herror
    | some path =>
        rw [hconfigured] at herror
        refine ⟨path, ?_⟩
        unfold maintenancePageOf errorPageOf openErrorPage
        rw [if_neg (not_not.mpr hpage), hconfigured]
        dsimp only
        rw [if_neg (show path ≠ [] from herror), hopen]
        dsimp only
        rw [if_pos hregular]
  · exact ⟨_, file_of_opened hregular (hopen _) hpage⟩

/-- What the answers of a proxy in maintenance have to be. -/
theorem refused_of_maintained (hbuild : buildRouteTable cfg.sites = .ok cfg.routeTable)
    (h : ReachesSite cfg client limited req site) (hproxy : site.routingType = .proxy)
    (hall : ∀ s : Serving, s.w.client = client → s.limited = limited →
      Maintained cfg s req site) :
    site.allowsMethod req.method = false ∧ site.maintenanceStatus = 405 ∧
      (site.maintenancePage.bytes = [] ∨
        site.errorPage 405 = some site.maintenancePage.bytes) := by
  have hdispatch := dispatch_of_reaches hbuild h
  rw [if_pos hproxy] at hdispatch
  cases hmethod : site.allowsMethod req.method with
  | true =>
      -- the upstream answers, and no page
      rw [hmethod, Bool.not_true, if_neg Bool.false_ne_true] at hdispatch
      have hpage := (hall (pagesServing client limited fun _ => none) rfl rfl).page
      have hsame : dispatch cfg (pagesServing client limited fun _ => none).w.client
          (pagesServing client limited fun _ => none).limited req = .serveProxy (some site) :=
        hdispatch
      rw [hsame] at hpage
      exact nomatch hpage
  | false =>
      rw [hmethod, Bool.not_false, if_pos rfl] at hdispatch
      have hpages : ∀ pages, errorPageOf (pagesServing client limited pages).w site 405 =
          maintenancePageOf (pagesServing client limited pages).w site := by
        intro pages
        have hpage := (hall (pagesServing client limited pages) rfl rfl).page
        have hsame : dispatch cfg (pagesServing client limited pages).w.client
            (pagesServing client limited pages).limited req = .sendErrorPage (some site) 405 :=
          hdispatch
        rw [hsame] at hpage
        exact Option.some.inj hpage
      refine ⟨rfl, ?_, ?_⟩
      · have hstatus := congrArg Page.status (hpages fun _ => none)
        rw [status_maintenancePageOf] at hstatus
        exact hstatus.symm
      · by_cases hempty : site.maintenancePage.bytes = []
        · exact Or.inl hempty
        · right
          have hfile := congrArg Page.file (hpages fun path =>
            if path = site.maintenancePage.bytes then some smallPage else none)
          rw [@file_of_opened _ site smallPage rfl (if_pos rfl) hempty] at hfile
          exact (errorPage_of_open hfile).2

/-- A site in maintenance. -/
def maintainedSite (routing : RoutingType) : Site :=
  { domains := [.lit "a"]
    routingType := routing
    maintenanceEnabled := true }

theorem build_maintainedSite (routing : RoutingType) :
    buildRouteTable [maintainedSite routing] =
      .ok (Config.ofSites [maintainedSite routing]).routeTable :=
  build_ofSites (by cases routing <;> decide +kernel)

theorem reachesSite_maintained (routing : RoutingType) :
    ReachesSite (Config.ofSites [maintainedSite routing]) sampleWorld.client (fun _ => none)
      relayedParsed (maintainedSite routing) where
  accepted := ⟨relayedRequest, relayedParsed, true, parse_relayedRequest, rfl⟩
  method := by decide
  found := by
    rw [findSiteForListener_eq (build_maintainedSite routing) (by decide)]
    exact referenceSite_singleton (by cases routing <;> decide) _
  redirect := by cases routing <;> decide
  unlimited := rfl

end Rpsiod

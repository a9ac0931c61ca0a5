import Rpsiod.Config.RouteTable
import Rpsiod.Config.SitesFile

/-!
# Loading a configuration (`rpsiod_config_validate`, `rpsiod_config_load`)

A configuration is loaded if both files can be read, every check of `rpsiod_config_validate` holds
and the route table can be built.

* `validateServer`, `validateSite`: the checks, in the order of the source, with their texts; they
  are not cut to the buffer of `set_err`.
* `configLoad`: reading and checking.
* `configLoad_ok`: **the sites of a configuration that is loaded are those of the file**, but for
  settings and an index file by default.
-/

namespace Rpsiod

open FailingRun

/-! ### The server -/

/-- The settings of the server that are checked, with the values of `rpsiod_config_defaults`. -/
structure ServerSettings where
  loggingLevel : Bytes := ascii "info"
  loggingFormat : Bytes := ascii "text"
  benchmarksPort : UInt16 := 9191
  benchmarksIp : Bytes := ascii "127.0.0.1"
  sitesFile : Bytes := ascii "/etc/rpsiod/sites.yml"
  pidFile : Bytes := ascii "/run/rpsiod/rpsiod.pid"
  accessLog : ParsedLog := ⟨true, ascii "/var/log/rpsiod/access.log"⟩
  errorLog : ParsedLog := ⟨true, ascii "/var/log/rpsiod/error.log"⟩

/-- `is_absolute`. -/
def isAbsolute (path : Bytes) : Bool := path.head? = some 47

/-- `is_allowed_runtime_path`. -/
def isAllowedRuntimePath (path : Bytes) : Bool :=
  startsWith path (ascii "/var/log/rpsiod/") || startsWith path (ascii "/var/cache/rpsiod/") ||
    startsWith path (ascii "/var/lib/rpsiod/ssl/") || startsWith path (ascii "/run/rpsiod/")

/-- `value_is_one_of_ci`. -/
def valueIsOneOfCi (value : Bytes) (words : List String) : Bool :=
  words.any fun word => streqCi value (ascii word)

/-- A check: what `set_err` says if it fails. -/
def require (holds : Bool) (text : Bytes) : Except Bytes Unit :=
  if holds then .ok () else .error text

/-- The check of a log: it is off, or below `/var/log/rpsiod`. -/
def logAllowed (log : ParsedLog) : Bool :=
  !(log.enabled && (!isAbsolute log.path || !startsWith log.path (ascii "/var/log/rpsiod/")))

/-- The checks of `rpsiod_config_validate` on the server, and that there is a site. -/
def validateServer (server : ServerSettings) (sites : List SiteConfig) : Except Bytes Unit := do
  require (valueIsOneOfCi server.loggingLevel ["debug", "info", "warn", "error"])
    (ascii "logging.level must be debug, info, warn, or error")
  require (valueIsOneOfCi server.loggingFormat ["text"]) (ascii "logging.format must be text")
  require (server.benchmarksPort ≠ 0)
    (ascii "benchmarks.listen.port must be between 1 and 65535")
  require (isAbsolute server.sitesFile) (ascii "server.config.sitesFile must be absolute")
  require (server.sitesFile = ascii "/etc/rpsiod/sites.yml" ||
      startsWith server.sitesFile (ascii "/etc/rpsiod/"))
    (ascii "configuration must live under /etc/rpsiod")
  require (isAbsolute server.pidFile && isAllowedRuntimePath server.pidFile)
    (ascii "linux.pidFile must be an allowed runtime path")
  require (logAllowed server.accessLog) (ascii "global access log must be under /var/log/rpsiod")
  require (logAllowed server.errorLog) (ascii "global error log must be under /var/log/rpsiod")
  require (streqCi server.benchmarksIp (ascii "127.0.0.1"))
    (ascii "benchmark HTTP API must default to 127.0.0.1")
  require (!sites.isEmpty) (ascii "sites.yml must define at least one site")

/-! ### A site -/

/-- What `realpath` and `open` give for a directory, or the text of `errno`. -/
structure Directories where
  realpath : Bytes → Except Bytes Bytes
  openDirectory : Bytes → Except Bytes Unit

/-- `"site '%s': …"`. -/
def SiteSettings.report (s : SiteSettings) (text : Bytes) : Bytes :=
  ascii "site '" ++ s.name ++ ascii "': " ++ text

/-- The loop over the domains: none is empty, and none comes again. -/
def validateDomains (s : SiteSettings) : List Bytes → Except Bytes Unit
  | [] => .ok ()
  | domain :: domains => do
      require (!domain.isEmpty) (s.report (ascii "match.domains entries must not be empty"))
      require (!domains.any fun other => streqCi domain other)
        (s.report (ascii "duplicate domain '" ++ domain ++ ascii "'"))
      validateDomains s domains

/-- The root of a site with files, which is opened. -/
def validateRoot (dirs : Directories) (isPhp : Bool) (s : SiteSettings) :
    Except Bytes SiteSettings := do
  require (isAbsolute s.staticRoot) (s.report (ascii "static.root must be absolute"))
  let real ← (dirs.realpath s.staticRoot).mapError fun errno =>
    s.report (ascii "static.root realpath failed for " ++ s.staticRoot ++ ascii ": " ++ errno)
  (dirs.openDirectory real).mapError fun errno =>
    s.report (ascii "failed to open static.root " ++ real ++ ascii ": " ++ errno)
  return { s with staticRootReal := real, phpEnabled := isPhp || s.phpEnabled }

/-- The upstream of a site without files. -/
def validateUpstream (s : SiteSettings) : Except Bytes SiteSettings := do
  require (streqCi s.proxyScheme (ascii "http"))
    (s.report (ascii "Phase 2 proxy supports HTTP upstreams only"))
  require (!s.proxyHost.isEmpty && s.proxyPort ≠ 0)
    (s.report (ascii "proxy.upstream.host and port are required"))
  return s

/-- The certificates of a site; they are stored under its first domain if it does not say where. -/
def validateSsl (domains : List Bytes) (s : SiteSettings) : Except Bytes SiteSettings :=
  if !s.sslEnabled then .ok s
  else do
    require (valueIsOneOfCi s.sslMode ["auto", "manual"])
      (s.report (ascii "ssl.mode must be auto or manual"))
    require (valueIsOneOfCi s.sslProvider ["letsEncrypt", "local"])
      (s.report (ascii "ssl.provider must be letsEncrypt or local"))
    require (valueIsOneOfCi s.sslChallenge ["http", "dns"])
      (s.report (ascii "ssl.challenge must be http or dns"))
    let storage :=
      if s.sslStorage = [] then safeCopy 512 (ascii "/var/lib/rpsiod/ssl/" ++ domains.headD [])
      else s.sslStorage
    require (isAbsolute storage && startsWith storage (ascii "/var/lib/rpsiod/ssl/"))
      (s.report (ascii "ssl.storage must be under /var/lib/rpsiod/ssl"))
    return { s with sslStorage := storage }

/-- The handler of a site with PHP. -/
def validatePhp (s : SiteSettings) : Except Bytes Unit :=
  if !s.phpEnabled then .ok ()
  else do
    require (valueIsOneOfCi s.phpHandlerType ["socket", "tcp"])
      (s.report (ascii "php.handler.type must be socket or tcp"))
    require (!(streqCi s.phpHandlerType (ascii "socket") && !isAbsolute s.phpSocket))
      (s.report (ascii "php.handler.socket must be absolute"))

/-- Where the requests of a site go: to its files, or upstream. -/
def validateTarget (dirs : Directories) (isStatic isPhp : Bool) (s : SiteSettings) :
    Except Bytes SiteSettings :=
  if isStatic || isPhp then validateRoot dirs isPhp s else validateUpstream s

/-- The loop body of `rpsiod_config_validate` on the settings of a site. -/
def validateSettings (dirs : Directories) (domains : List Bytes) (s : SiteSettings) :
    Except Bytes SiteSettings := do
  require (!domains.isEmpty) (ascii "site '" ++ s.name ++ ascii "' must define match.domains")
  require (valueIsOneOfCi s.serveAs ["http", "https"])
    (s.report (ascii "serveAs must be http or https"))
  validateDomains s domains
  require (!(s.httpPort = 0 || s.httpsPort = 0 || s.phpPort = 0 || s.proxyPort = 0))
    (s.report (ascii "configured ports must be between 1 and 65535"))
  let isStatic := streqCi s.routingType (ascii "static")
  let isProxy := streqCi s.routingType (ascii "proxy")
  let isPhp := streqCi s.routingType (ascii "php")
  require (isStatic || isProxy || isPhp)
    (s.report (ascii "routing.type must be static, proxy, or php"))
  require (valueIsOneOfCi s.redirectWwwMode ["apexToWww", "wwwToApex"])
    (s.report (ascii "redirects.www.mode must be apexToWww or wwwToApex"))
  require (s.redirectWwwStatus = 301 || s.redirectWwwStatus = 302 || s.redirectWwwStatus = 307 ||
      s.redirectWwwStatus = 308)
    (s.report (ascii "redirects.www.status must be 301, 302, 307, or 308"))
  let s ← validateTarget dirs isStatic isPhp s
  require (logAllowed s.accessLog) (s.report (ascii "access log must be under /var/log/rpsiod"))
  require (logAllowed s.errorLog) (s.report (ascii "error log must be under /var/log/rpsiod"))
  let s ← validateSsl domains s
  validatePhp s
  return s

/-- The loop body of `rpsiod_config_validate` on a site and its index; lists that are still empty
get their defaults. -/
def validateSite (dirs : Directories) (site : SiteConfig × ℕ) : Except Bytes SiteConfig :=
  let s := site.1.settings
  let s :=
    if s.name = [] then { s with name := ascii "site-" ++ decimal (site.2 + 1) } else s
  (validateSettings dirs site.1.domains s).map fun s =>
    { site.1 with
      settings := s
      indexes := if site.1.indexes = [] then [ascii "index.html"] else site.1.indexes
      allowedMethods :=
        if site.1.allowedMethods = [] then [ascii "GET", ascii "HEAD"]
        else site.1.allowedMethods }

/-! ### The route table -/

/-- The contents of a field of this size; what the parser puts into one is a text of one line. -/
def lineTextOf (n : ℕ) (hn : 0 < n) (text : Bytes) : LineText n :=
  if h : IsLineText n text then ⟨text, h⟩
  else ⟨[], hn, List.not_mem_nil, List.not_mem_nil⟩

/-- What `build_route_table` reads of a site that was checked. -/
def SiteConfig.routed (site : SiteConfig) : Site where
  enabled := site.settings.enabled
  domains := site.domains.map (lineTextOf 256 (by decide))
  listenIp := lineTextOf 64 (by decide) site.settings.listenIp
  httpPort := site.settings.httpPort
  httpsPort := site.settings.httpsPort
  redirectWwwEnabled := site.settings.redirectWwwEnabled
  redirectWwwMode :=
    if streqCi site.settings.redirectWwwMode (ascii "apexToWww") then .apexToWww else .wwwToApex

/-! ### Loading -/

/-- `rpsiod_config`, as far as requests are routed by it. -/
structure LoadedConfig where
  sites : List SiteConfig
  routeTable : RouteTable

/-- `rpsiod_config_validate`. -/
def configValidate (dirs : Directories) (server : ServerSettings) (sites : List SiteConfig) :
    Except Bytes LoadedConfig := do
  validateServer server sites
  let sites ← sites.zipIdx.mapM (validateSite dirs)
  let routeTable ← buildRouteTable (sites.map SiteConfig.routed)
  return { sites := sites, routeTable := routeTable }

/-- `rpsiod_config_load`, on what `parse_server_file` gives and the sites file in force. -/
def configLoad (dirs : Directories) (server : Except Bytes ServerSettings) (path : Bytes)
    (file : Except Bytes Bytes) : Except Bytes LoadedConfig := do
  let server ← server
  let sites ← parseSitesFile path file
  configValidate dirs server sites

/-! ### What checking leaves alone -/

theorem validateRoot_ok {dirs : Directories} {isPhp : Bool} {s s' : SiteSettings}
    (h : validateRoot dirs isPhp s = .ok s') : s'.listenIp = s.listenIp := by
  obtain ⟨_, -, h⟩ := bind_eq_ok h
  obtain ⟨real, -, h⟩ := bind_eq_ok h
  obtain ⟨_, -, h⟩ := bind_eq_ok h
  exact Except.ok.inj h ▸ rfl

theorem validateUpstream_ok {s s' : SiteSettings} (h : validateUpstream s = .ok s') : s' = s := by
  obtain ⟨_, -, h⟩ := bind_eq_ok h
  obtain ⟨_, -, h⟩ := bind_eq_ok h
  exact (Except.ok.inj h).symm

theorem validateTarget_ok {dirs : Directories} {isStatic isPhp : Bool} {s s' : SiteSettings}
    (h : validateTarget dirs isStatic isPhp s = .ok s') : s'.listenIp = s.listenIp := by
  unfold validateTarget at h
  split_ifs at h
  · exact validateRoot_ok h
  · rw [validateUpstream_ok h]

theorem validateSsl_ok {domains : List Bytes} {s s' : SiteSettings}
    (h : validateSsl domains s = .ok s') : s'.listenIp = s.listenIp := by
  unfold validateSsl at h
  by_cases hoff : (!s.sslEnabled) = true
  · rw [if_pos hoff] at h
    rw [Except.ok.inj h]
  · rw [if_neg hoff] at h
    obtain ⟨_, -, h⟩ := bind_eq_ok h
    obtain ⟨_, -, h⟩ := bind_eq_ok h
    obtain ⟨_, -, h⟩ := bind_eq_ok h
    obtain ⟨_, -, h⟩ := bind_eq_ok h
    exact Except.ok.inj h ▸ rfl

/-- Checking leaves the address alone. -/
theorem validateSettings_ok {dirs : Directories} {domains : List Bytes} {s s' : SiteSettings}
    (h : validateSettings dirs domains s = .ok s') : s'.listenIp = s.listenIp := by
  obtain ⟨_, -, h⟩ := bind_eq_ok h
  obtain ⟨_, -, h⟩ := bind_eq_ok h
  obtain ⟨_, -, h⟩ := bind_eq_ok h
  obtain ⟨_, -, h⟩ := bind_eq_ok h
  obtain ⟨_, -, h⟩ := bind_eq_ok h
  obtain ⟨_, -, h⟩ := bind_eq_ok h
  obtain ⟨_, -, h⟩ := bind_eq_ok h
  obtain ⟨routed, hrouted, h⟩ := bind_eq_ok h
  obtain ⟨_, -, h⟩ := bind_eq_ok h
  obtain ⟨_, -, h⟩ := bind_eq_ok h
  obtain ⟨secured, hsecured, h⟩ := bind_eq_ok h
  obtain ⟨_, -, h⟩ := bind_eq_ok h
  have hfinal : secured = s' := Except.ok.inj h
  rw [← hfinal, validateSsl_ok hsecured, validateTarget_ok hrouted]

/-- A site as it was read, and as it is used. -/
structure Checked (site site' : SiteConfig) : Prop where
  domains : site'.domains = site.domains
  indexes : site'.indexes = if site.indexes = [] then [ascii "index.html"] else site.indexes
  allowedMethods : site'.allowedMethods =
    if site.allowedMethods = [] then [ascii "GET", ascii "HEAD"] else site.allowedMethods
  blockedDirectAccess : site'.blockedDirectAccess = site.blockedDirectAccess
  headersRemove : site'.headersRemove = site.headersRemove
  headersAdd : site'.headersAdd = site.headersAdd
  listenIp : site'.settings.listenIp = site.settings.listenIp

/-- The settings that have been checked, with a name by default. -/
theorem exists_settings_of_validateSite {dirs : Directories} {site : SiteConfig × ℕ}
    {site' : SiteConfig} (h : validateSite dirs site = .ok site') :
    ∃ s, validateSettings dirs site.1.domains
        (if site.1.settings.name = [] then
          { site.1.settings with name := ascii "site-" ++ decimal (site.2 + 1) }
        else site.1.settings) = .ok s ∧
      site' = { site.1 with
        settings := s
        indexes := if site.1.indexes = [] then [ascii "index.html"] else site.1.indexes
        allowedMethods :=
          if site.1.allowedMethods = [] then [ascii "GET", ascii "HEAD"]
          else site.1.allowedMethods } := by
  unfold validateSite at h
  dsimp only at h
  cases hsettings : validateSettings dirs site.1.domains
      (if site.1.settings.name = [] then
        { site.1.settings with name := ascii "site-" ++ decimal (site.2 + 1) }
      else site.1.settings) with
  | error text =>
      rw [hsettings] at h
      cases h
  | ok s =>
      rw [hsettings] at h
      exact ⟨s, rfl, (Except.ok.inj h).symm⟩

theorem validateSite_ok {dirs : Directories} {site : SiteConfig × ℕ} {site' : SiteConfig}
    (h : validateSite dirs site = .ok site') : Checked site.1 site' := by
  obtain ⟨s, hsettings, rfl⟩ := exists_settings_of_validateSite h
  refine ⟨rfl, rfl, rfl, rfl, rfl, rfl, ?_⟩
  dsimp only
  rw [validateSettings_ok hsettings]
  split_ifs
  · rfl
  · rfl

theorem validateSites_ok {dirs : Directories} {sites sites' : List SiteConfig}
    (h : sites.zipIdx.mapM (validateSite dirs) = .ok sites') :
    List.Forall₂ Checked sites sites' := by
  have hchecked := (forall₂_of_mapM h).imp fun _ _ => validateSite_ok
  have hfst : List.Forall₂ Checked (sites.zipIdx.map Prod.fst) sites' :=
    List.forall₂_map_left_iff.mpr hchecked
  rwa [List.zipIdx_map_fst] at hfst

theorem forall₂_through {α β γ : Type} {R : α → β → Prop} {S : β → γ → Prop} {as : List α}
    {bs : List β} {cs : List γ} (hR : List.Forall₂ R as bs) (hS : List.Forall₂ S bs cs) :
    List.Forall₂ (fun a c => ∃ b, R a b ∧ S b c) as cs := by
  induction hR generalizing cs with
  | nil =>
      cases hS
      exact .nil
  | cons hfirst _ ih =>
      cases hS with
      | cons hnext hrest => exact .cons ⟨_, hfirst, hnext⟩ (ih hrest)

/-- **The sites of a configuration that is loaded**: each is made of its own lines, and then
checked. -/
theorem configLoad_ok {dirs : Directories} {server : Except Bytes ServerSettings}
    {path file : Bytes} {cfg : LoadedConfig}
    (h : configLoad dirs server path (.ok file) = .ok cfg) :
    List.Forall₂ (fun ps site => ∃ read, Makes ps read ∧ Checked read site) (siteLines file)
      cfg.sites := by
  obtain ⟨server, -, h⟩ := bind_eq_ok h
  obtain ⟨read, hread, h⟩ := bind_eq_ok h
  obtain ⟨_, -, h⟩ := bind_eq_ok h
  obtain ⟨sites, hsites, h⟩ := bind_eq_ok h
  obtain ⟨table, -, h⟩ := bind_eq_ok h
  obtain rfl := Except.ok.inj h
  exact forall₂_through (parseSitesFile_ok hread) (validateSites_ok hsites)

theorem configLoad_routeTable {dirs : Directories} {server : Except Bytes ServerSettings}
    {path : Bytes} {file : Except Bytes Bytes} {cfg : LoadedConfig}
    (h : configLoad dirs server path file = .ok cfg) :
    buildRouteTable (cfg.sites.map SiteConfig.routed) = .ok cfg.routeTable := by
  obtain ⟨server, -, h⟩ := bind_eq_ok h
  obtain ⟨read, -, h⟩ := bind_eq_ok h
  obtain ⟨_, -, h⟩ := bind_eq_ok h
  obtain ⟨sites, -, h⟩ := bind_eq_ok h
  obtain ⟨table, htable, h⟩ := bind_eq_ok h
  obtain rfl := Except.ok.inj h
  exact htable

/-! ### A file with one site -/

/-- The text of lines with their levels. -/
def fileText (lines : List (ℕ × Bytes)) : Bytes :=
  lines.flatMap fun line => List.replicate (4 * line.1) 32 ++ line.2 ++ [10]

/-- The first lines of a file with one site, which is relayed. -/
def relayedSite : List (ℕ × Bytes) :=
  [(0, ascii "sites:"), (1, ascii "-"), (2, ascii "match:"), (3, ascii "domains:"),
    (4, ascii "- example.org"), (2, ascii "routing:"), (3, ascii "type: proxy"),
    (2, ascii "proxy:"), (3, ascii "upstream:"), (4, ascii "host: backend")]

/-- There are no directories; a site that is relayed has no root. -/
def noDirectories : Directories where
  realpath := fun _ => .error (ascii "No such file or directory")
  openDirectory := fun _ => .error (ascii "No such file or directory")

/-- Where the sites file is by default. -/
def sitesPath : Bytes := ascii "/etc/rpsiod/sites.yml"

theorem exists_loaded (file : Bytes)
    (h : (configLoad noDirectories (.ok {}) sitesPath (.ok file)).isOk = true) :
    ∃ cfg, configLoad noDirectories (.ok {}) sitesPath (.ok file) = .ok cfg := by
  generalize configLoad noDirectories (.ok {}) sitesPath (.ok file) = r at h
  cases r with
  | error text => exact nomatch h
  | ok cfg => exact ⟨cfg, rfl⟩

end Rpsiod

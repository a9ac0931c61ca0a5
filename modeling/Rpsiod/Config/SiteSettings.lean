import Rpsiod.Config.HeaderPairs
import Rpsiod.Config.Numbers
import Rpsiod.Lib.BoundedTable

/-!
# What a line of the sites file sets (`apply_site_value`)

A site starts with the values of `site_defaults`.  A line of the file sets one of them, found by its
key and by the keys that it is indented below; the first rule that holds is the one that counts.

* `SiteSettings`, `SiteConfig`: `rpsiod_site_config` as the parser fills it in; its lists are apart
  from its other settings, and most rules touch the latter only.
* `earlierRules`, `laterRules`: the branches of `apply_site_value` in front of and behind the one
  for `headers.add`.
* `applySiteValue`, `applySiteListValue`: a line with a key, and one with a list entry.
-/

namespace Rpsiod

/-! ### The keys that a line is below -/

/-- `yaml_stack_item stack[32]`: the keys in force, one for each level; those behind the end are
empty. -/
abbrev YamlStack := List Bytes

/-- `stack_set`: what is deeper is forgotten. -/
def stackSet (stack : YamlStack) (level : ℕ) (key : Bytes) : YamlStack :=
  if 32 ≤ level then stack
  else (List.range level).map (fun i => stack.getD i []) ++ [safeCopy 64 key]

/-- `path_has`. -/
def pathHas (stack : YamlStack) (maxLevel : ℕ) (key : Bytes) : Bool :=
  (List.range (min (maxLevel + 1) 32)).any fun i => stack.getD i [] = key

/-- `parent_is`. -/
def parentIs (stack : YamlStack) (level : ℕ) (key : Bytes) : Bool :=
  0 < level && level - 1 < 32 && stack.getD (level - 1) [] = key

/-! ### A site -/

/-- What a configuration says of a log (`rpsiod_log_path`). -/
structure ParsedLog where
  enabled : Bool := false
  path : Bytes := []
  deriving DecidableEq

/-- The settings of a site that a line replaces, with the values of `site_defaults`. -/
structure SiteSettings where
  name : Bytes := []
  enabled : Bool := true
  serveAs : Bytes := ascii "http"
  listenIp : Bytes := ascii "0.0.0.0"
  httpPort : UInt16 := 80
  httpsPort : UInt16 := 443
  routingType : Bytes := ascii "static"
  redirectHttpToHttps : Bool := false
  redirectWwwEnabled : Bool := false
  redirectWwwMode : Bytes := ascii "apexToWww"
  redirectWwwStatus : ℤ := 301
  sslEnabled : Bool := false
  sslMode : Bytes := ascii "auto"
  sslProvider : Bytes := ascii "letsEncrypt"
  sslEmail : Bytes := []
  sslStorage : Bytes := []
  sslChallenge : Bytes := ascii "http"
  sslRenewBeforeSec : ℤ := 30 * 86400
  staticRoot : Bytes := []
  staticRootReal : Bytes := []
  fallback : Bytes := []
  directoryListing : Bool := false
  maintenanceEnabled : Bool := false
  maintenanceStatus : ℤ := 503
  maintenancePage : Bytes := []
  errorPages : List (ℤ × Bytes) := []
  maxBodySize : ℕ := 25 * 1024 * 1024
  hideServerHeader : Bool := true
  allowSymlinks : Bool := false
  phpEnabled : Bool := false
  phpHandlerType : Bytes := ascii "socket"
  phpSocket : Bytes := ascii "/run/php/php-fpm.sock"
  phpHost : Bytes := ascii "127.0.0.1"
  phpPort : UInt16 := 9000
  phpAllowPathInfo : Bool := false
  phpConnectTimeoutSec : ℤ := 5
  phpReadTimeoutSec : ℤ := 30
  phpWriteTimeoutSec : ℤ := 30
  phpMaxBodySize : ℕ := 25 * 1024 * 1024
  phpMaxExecutionTimeSec : ℤ := 60
  rateLimitEnabled : Bool := false
  rateLimitRequests : ℕ := 100
  rateLimitWindowSec : ℤ := 60
  compressionEnabled : Bool := false
  compressionGzip : Bool := false
  compressionBr : Bool := false
  compressionMinimumSize : ℕ := 1024
  cacheEnabled : Bool := false
  cacheDefault : Bytes := []
  proxyScheme : Bytes := ascii "http"
  proxyHost : Bytes := []
  proxyPort : UInt16 := 3000
  proxyWebsocket : Bool := false
  proxyPassHost : Bool := true
  proxyRealIp : Bool := true
  proxyForwardedFor : Bool := true
  proxyForwardedProto : Bool := true
  proxyConnectTimeoutSec : ℤ := 5
  proxyReadTimeoutSec : ℤ := 30
  proxyWriteTimeoutSec : ℤ := 30
  proxyHealthEnabled : Bool := false
  proxyHealthPath : Bytes := ascii "/health"
  accessLog : ParsedLog := {}
  errorLog : ParsedLog := {}

/-- `rpsiod_site_config`, as `site_defaults` leaves it. -/
structure SiteConfig where
  settings : SiteSettings := {}
  domains : List Bytes := []
  indexes : List Bytes := []
  allowedMethods : List Bytes := [ascii "GET", ascii "HEAD"]
  blockedDirectAccess : List Bytes := []
  headersRemove : List Bytes := []
  headersAdd : List (Bytes × Bytes) := []

/-! ### The rules for a key -/

/-- A branch of `apply_site_value`: when it is taken, and what it does with key and value. -/
structure SiteRule where
  holds : YamlStack → ℕ → Bytes → Bool
  set : Bytes → Bytes → SiteSettings → Except Bytes SiteSettings

/-- The condition of most branches: this key, below these. -/
def keyBelow (key : String) (path : List String) (stack : YamlStack) (level : ℕ) (k : Bytes) :
    Bool :=
  k = ascii key && path.all fun p => pathHas stack level (ascii p)

/-- `rpsiod_safe_copy` into a field of this size. -/
def textRule (key : String) (path : List String) (width : ℕ)
    (put : SiteSettings → Bytes → SiteSettings) : SiteRule where
  holds := keyBelow key path
  set := fun _ value s => .ok (put s (safeCopy width value))

/-- `apply_bool_value`. -/
def applyBoolValue (field : String) (put : SiteSettings → Bool → SiteSettings) (value : Bytes)
    (s : SiteSettings) : Except Bytes SiteSettings :=
  match parseBoolStrict value with
  | some b => .ok (put s b)
  | none => .error (ascii field ++ ascii " must be a boolean")

def boolRule (key : String) (path : List String) (field : String)
    (put : SiteSettings → Bool → SiteSettings) : SiteRule where
  holds := keyBelow key path
  set := fun _ value s => applyBoolValue field put value s

/-- `apply_port_value`. -/
def portRule (key : String) (path : List String) (field : String)
    (put : SiteSettings → UInt16 → SiteSettings) : SiteRule where
  holds := keyBelow key path
  set := fun _ value s =>
    match parsePortStrict value with
    | some port => .ok (put s port)
    | none => .error (ascii field ++ ascii " must be a TCP port between 1 and 65535")

/-- A number, a size or a duration: without one the setting stays. -/
def numberRule (key : String) (path : List String) (put : SiteSettings → Bytes → SiteSettings) :
    SiteRule where
  holds := keyBelow key path
  set := fun _ value s => .ok (put s value)

/-- `RPSIOD_MAX_ERROR_PAGES`. -/
def maxErrorPages : ℕ := 16

/-- The branch for `errors.pages`, whose keys are status codes. -/
def errorPageRule : SiteRule where
  holds := fun stack level key => key.head?.any isdigit && pathHas stack level (ascii "pages")
  set := fun key value s =>
    .ok (if s.errorPages.length < maxErrorPages then
      { s with errorPages := s.errorPages ++ [(toInt (parseLong key 0), safeCopy 512 value)] }
    else s)

/-- `rate_limit_requests` is an `uint32_t` and is never set to a number below one. -/
def putRequests (s : SiteSettings) (value : Bytes) : SiteSettings :=
  let requests := parseLong value s.rateLimitRequests
  if 0 < requests then { s with rateLimitRequests := requests.toNat % 2 ^ 32 } else s

/-- The branches in front of the one for `headers.add`. -/
def earlierRules : List SiteRule :=
  [textRule "name" [] 128 fun s v => { s with name := v },
    { holds := fun _ level key => key = ascii "enabled" && level = 2
      set := fun _ value s =>
        applyBoolValue "site.enabled" (fun s b => { s with enabled := b }) value s },
    textRule "serveAs" [] 16 fun s v => { s with serveAs := v },
    textRule "ip" ["listen"] 64 fun s v => { s with listenIp := v },
    portRule "http" ["ports"] "listen.ports.http" fun s p => { s with httpPort := p },
    portRule "https" ["ports"] "listen.ports.https" fun s p => { s with httpsPort := p },
    textRule "type" ["routing"] 32 fun s v => { s with routingType := v },
    boolRule "httpToHttps" ["redirects"] "redirects.httpToHttps" fun s b =>
      { s with redirectHttpToHttps := b },
    boolRule "enabled" ["www", "redirects"] "redirects.www.enabled" fun s b =>
      { s with redirectWwwEnabled := b },
    textRule "mode" ["www", "redirects"] 32 fun s v => { s with redirectWwwMode := v },
    numberRule "status" ["www", "redirects"] fun s v =>
      { s with redirectWwwStatus := toInt (parseLong v s.redirectWwwStatus) },
    boolRule "enabled" ["ssl"] "ssl.enabled" fun s b => { s with sslEnabled := b },
    textRule "mode" ["ssl"] 32 fun s v => { s with sslMode := v },
    textRule "provider" ["ssl"] 64 fun s v => { s with sslProvider := v },
    textRule "email" ["ssl"] 256 fun s v => { s with sslEmail := v },
    textRule "storage" ["ssl"] 512 fun s v => { s with sslStorage := v },
    textRule "challenge" ["ssl"] 32 fun s v => { s with sslChallenge := v },
    numberRule "renewBefore" ["ssl"] fun s v =>
      { s with sslRenewBeforeSec := parseDurationSec v s.sslRenewBeforeSec },
    textRule "root" ["static"] 512 fun s v => { s with staticRoot := v },
    textRule "fallback" ["static"] 256 fun s v => { s with fallback := v },
    boolRule "directoryListing" [] "static.directoryListing" fun s b =>
      { s with directoryListing := b },
    boolRule "enabled" ["maintenance"] "maintenance.enabled" fun s b =>
      { s with maintenanceEnabled := b },
    numberRule "status" ["maintenance"] fun s v =>
      { s with maintenanceStatus := toInt (parseLong v s.maintenanceStatus) },
    textRule "page" ["maintenance"] 512 fun s v => { s with maintenancePage := v },
    errorPageRule,
    numberRule "maxBodySize" ["limits", "php"] fun s v =>
      { s with phpMaxBodySize := parseSize v s.phpMaxBodySize },
    numberRule "maxBodySize" [] fun s v => { s with maxBodySize := parseSize v s.maxBodySize },
    boolRule "hideServerHeader" [] "security.hideServerHeader" fun s b =>
      { s with hideServerHeader := b },
    boolRule "allowSymlinks" [] "security.allowSymlinks" fun s b => { s with allowSymlinks := b },
    boolRule "enabled" ["php"] "php.enabled" fun s b => { s with phpEnabled := b },
    textRule "type" ["handler", "php"] 32 fun s v => { s with phpHandlerType := v },
    textRule "socket" ["handler", "php"] 256 fun s v => { s with phpSocket := v },
    textRule "host" ["handler", "php"] 256 fun s v => { s with phpHost := v },
    portRule "port" ["handler", "php"] "php.handler.port" fun s p => { s with phpPort := p },
    boolRule "allowPathInfo" ["security", "php"] "php.security.allowPathInfo" fun s b =>
      { s with phpAllowPathInfo := b },
    numberRule "connect" ["timeouts", "php"] fun s v =>
      { s with phpConnectTimeoutSec := parseDurationSec v s.phpConnectTimeoutSec },
    numberRule "read" ["timeouts", "php"] fun s v =>
      { s with phpReadTimeoutSec := parseDurationSec v s.phpReadTimeoutSec },
    numberRule "write" ["timeouts", "php"] fun s v =>
      { s with phpWriteTimeoutSec := parseDurationSec v s.phpWriteTimeoutSec },
    numberRule "maxExecutionTime" ["limits", "php"] fun s v =>
      { s with phpMaxExecutionTimeSec := parseDurationSec v s.phpMaxExecutionTimeSec },
    boolRule "enabled" ["rateLimit"] "limits.rateLimit.enabled" fun s b =>
      { s with rateLimitEnabled := b },
    numberRule "requests" ["rateLimit"] putRequests,
    numberRule "window" ["rateLimit"] fun s v =>
      { s with rateLimitWindowSec := parseDurationSec v s.rateLimitWindowSec },
    boolRule "enabled" ["compression"] "compression.enabled" fun s b =>
      { s with compressionEnabled := b },
    numberRule "minimumSize" ["compression"] fun s v =>
      { s with compressionMinimumSize := parseSize v s.compressionMinimumSize },
    boolRule "enabled" ["cache"] "cache.enabled" fun s b => { s with cacheEnabled := b },
    textRule "default" ["cache"] 256 fun s v => { s with cacheDefault := v }]

/-- The branches behind it. -/
def laterRules : List SiteRule :=
  [textRule "scheme" ["upstream", "proxy"] 16 fun s v => { s with proxyScheme := v },
    textRule "host" ["upstream", "proxy"] 256 fun s v => { s with proxyHost := v },
    portRule "port" ["upstream", "proxy"] "proxy.upstream.port" fun s p =>
      { s with proxyPort := p },
    boolRule "websocket" ["proxy"] "proxy.websocket" fun s b => { s with proxyWebsocket := b },
    boolRule "passHost" ["headers", "proxy"] "proxy.headers.passHost" fun s b =>
      { s with proxyPassHost := b },
    boolRule "realIp" ["headers", "proxy"] "proxy.headers.realIp" fun s b =>
      { s with proxyRealIp := b },
    boolRule "forwardedFor" ["headers", "proxy"] "proxy.headers.forwardedFor" fun s b =>
      { s with proxyForwardedFor := b },
    boolRule "forwardedProto" ["headers", "proxy"] "proxy.headers.forwardedProto" fun s b =>
      { s with proxyForwardedProto := b },
    numberRule "connect" ["timeouts", "proxy"] fun s v =>
      { s with proxyConnectTimeoutSec := parseDurationSec v s.proxyConnectTimeoutSec },
    numberRule "read" ["timeouts", "proxy"] fun s v =>
      { s with proxyReadTimeoutSec := parseDurationSec v s.proxyReadTimeoutSec },
    numberRule "write" ["timeouts", "proxy"] fun s v =>
      { s with proxyWriteTimeoutSec := parseDurationSec v s.proxyWriteTimeoutSec },
    boolRule "enabled" ["healthCheck", "proxy"] "proxy.healthCheck.enabled" fun s b =>
      { s with proxyHealthEnabled := b },
    textRule "path" ["healthCheck", "proxy"] 256 fun s v => { s with proxyHealthPath := v },
    boolRule "enabled" ["access"] "logging.access.enabled" fun s b =>
      { s with accessLog := { s.accessLog with enabled := b } },
    textRule "path" ["access"] 512 fun s v =>
      { s with accessLog := { s.accessLog with path := v } },
    boolRule "enabled" ["error"] "logging.error.enabled" fun s b =>
      { s with errorLog := { s.errorLog with enabled := b } },
    textRule "path" ["error"] 512 fun s v => { s with errorLog := { s.errorLog with path := v } }]

/-! ### Tables of a fixed size -/

/-- `append_string`. -/
def appendString (max : ℕ) (arr : List Bytes) (value : Bytes) : List Bytes :=
  BoundedTable.append max arr (safeCopy 256 value)

/-- `append_small_string`. -/
def appendSmallString (max : ℕ) (arr : List Bytes) (value : Bytes) : List Bytes :=
  BoundedTable.append max arr (safeCopy 128 value)

/-- `append_method`. -/
def appendMethod (site : SiteConfig) (value : Bytes) : SiteConfig :=
  { site with allowedMethods := BoundedTable.append 16 site.allowedMethods (safeCopy 16 value) }

/-- `append_blocked`. -/
def appendBlocked (site : SiteConfig) (value : Bytes) : SiteConfig :=
  { site with
    blockedDirectAccess := BoundedTable.append 64 site.blockedDirectAccess (safeCopy 128 value) }

/-- `append_header_remove`. -/
def appendHeaderRemove (site : SiteConfig) (value : Bytes) : SiteConfig :=
  { site with headersRemove := BoundedTable.append 32 site.headersRemove (safeCopy 128 value) }

/-- `append_header_add`. -/
def appendHeaderAdd (site : SiteConfig) (key value : Bytes) : SiteConfig :=
  { site with
    headersAdd := BoundedTable.append 32 site.headersAdd (safeCopy 128 key, safeCopy 512 value) }

/-! ### List entries -/

/-- `site_list_rule`. -/
structure SiteListRule where
  applies : YamlStack → ℕ → Bool
  apply : SiteConfig → Bytes → Except Bytes SiteConfig

/-- `list_parent_domains`, `apply_domain_value`. -/
def domainsRule : SiteListRule where
  applies := fun stack level => parentIs stack level (ascii "domains")
  apply := fun site value => .ok { site with domains := appendString 32 site.domains value }

/-- `list_parent_index`, `apply_index_value`. -/
def indexRule : SiteListRule where
  applies := fun stack level => parentIs stack level (ascii "index")
  apply := fun site value => .ok { site with indexes := appendSmallString 16 site.indexes value }

/-- `list_parent_allowed_methods`, `apply_method_value`. -/
def allowedMethodsRule : SiteListRule where
  applies := fun stack level => parentIs stack level (ascii "allowedMethods")
  apply := fun site value => .ok (appendMethod site value)

/-- `list_parent_block_direct_access`, `apply_blocked_value`. -/
def blockDirectAccessRule : SiteListRule where
  applies := fun stack level => parentIs stack level (ascii "blockDirectAccess")
  apply := fun site value => .ok (appendBlocked site value)

/-- `list_headers_remove`, `apply_header_remove_value`. -/
def headersRemoveRule : SiteListRule where
  applies := fun stack level =>
    parentIs stack level (ascii "remove") && pathHas stack level (ascii "headers")
  apply := fun site value => .ok (appendHeaderRemove site value)

/-- `list_compression_algorithms`, `apply_compression_algorithm`. -/
def compressionRule : SiteListRule where
  applies := fun stack level =>
    parentIs stack level (ascii "algorithms") && pathHas stack level (ascii "compression")
  apply := fun site value =>
    if streqCi value (ascii "gzip") then
      .ok { site with settings := { site.settings with compressionGzip := true } }
    else if streqCi value (ascii "br") then
      .ok { site with settings := { site.settings with compressionBr := true } }
    else .error (ascii "compression.algorithms entries must be gzip or br")

/-- `SITE_LIST_RULES`. -/
def siteListRules : List SiteListRule :=
  [domainsRule, indexRule, allowedMethodsRule, blockDirectAccessRule, headersRemoveRule,
    compressionRule]

/-- `apply_site_list_value`. -/
def applySiteListValue (site : SiteConfig) (stack : YamlStack) (level : ℕ) (value : Bytes) :
    Except Bytes SiteConfig :=
  if value = [] then .ok site
  else
    match siteListRules.find? fun rule => rule.applies stack level with
    | some rule => rule.apply site value
    | none => .ok site

/-- `apply_site_value`. -/
def applySiteValue (site : SiteConfig) (stack : YamlStack) (level : ℕ) (key value : Bytes) :
    Except Bytes SiteConfig :=
  if value = [] then .ok site
  else
    match earlierRules.find? fun rule => rule.holds stack level key with
    | some rule => (rule.set key value site.settings).map fun s => { site with settings := s }
    | none =>
        if pathHas stack level (ascii "headers") && pathHas stack level (ascii "add") then
          .ok (appendHeaderAdd site key value)
        else
          match laterRules.find? fun rule => rule.holds stack level key with
          | some rule =>
              (rule.set key value site.settings).map fun s => { site with settings := s }
          | none => .ok site

end Rpsiod

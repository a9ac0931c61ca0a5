import Rpsiod.Util

/-!
# Sites (`config.h`)

The settings of one site that request handling reads, with the values `site_defaults` gives
them.  Texts are `char[n]` fields filled by `rpsiod_safe_copy` from a line of the
configuration: they fit, and they hold neither a line feed nor a NUL; `LineText n` carries both
facts.  Settings that `rpsiod_config_validate` restricts to a few words are enumerations.
-/

namespace Rpsiod

/-- `routing.type`. -/
inductive RoutingType where
  | static
  | proxy
  | php
  deriving DecidableEq

/-- `serveAs`. -/
inductive ServeAs where
  | http
  | https
  deriving DecidableEq

/-- `redirects.www.mode`. -/
inductive WwwMode where
  | apexToWww
  | wwwToApex
  deriving DecidableEq

/-- `redirects.www.status`. -/
inductive RedirectStatus where
  | movedPermanently
  | found
  | temporaryRedirect
  | permanentRedirect
  deriving DecidableEq

/-- The number of a redirect status. -/
def RedirectStatus.code : RedirectStatus → ℤ
  | .movedPermanently => 301
  | .found => 302
  | .temporaryRedirect => 307
  | .permanentRedirect => 308

/-- `rpsiod_error_page`. -/
structure ErrorPage where
  code : ℤ
  path : LineText 512
  deriving DecidableEq

/-- `rpsiod_header_pair`. -/
structure HeaderPair where
  name : LineText 128
  value : LineText 512
  deriving DecidableEq

/-- The settings of a site that request handling reads. -/
structure Site where
  enabled : Bool := true
  serveAs : ServeAs := .http
  domains : List (LineText 256) := []
  listenIp : LineText 64 := .lit "0.0.0.0"
  httpPort : UInt16 := 80
  httpsPort : UInt16 := 443
  routingType : RoutingType := .static
  redirectHttpToHttps : Bool := false
  redirectWwwEnabled : Bool := false
  redirectWwwMode : WwwMode := .apexToWww
  redirectWwwStatus : RedirectStatus := .movedPermanently
  indexes : List (LineText 128) := [.lit "index.html"]
  fallback : LineText 256 := .lit ""
  staticRootReal : LineText 4096 := .lit ""
  directoryListing : Bool := false
  maintenanceEnabled : Bool := false
  maintenanceStatus : ℤ := 503
  maintenancePage : LineText 512 := .lit ""
  errorPages : List ErrorPage := []
  maxBodySize : ℕ := 25 * 1024 * 1024
  hideServerHeader : Bool := true
  blockedDirectAccess : List (LineText 128) := []
  allowedMethods : List (LineText 16) := [.lit "GET", .lit "HEAD"]
  phpEnabled : Bool := false
  phpAllowPathInfo : Bool := false
  phpMaxBodySize : ℕ := 25 * 1024 * 1024
  rateLimitEnabled : Bool := false
  rateLimitRequests : UInt32 := 100
  rateLimitWindowSec : ℤ := 60
  compressionEnabled : Bool := false
  compressionGzip : Bool := false
  compressionBr : Bool := false
  compressionMinimumSize : ℕ := 1024
  cacheEnabled : Bool := false
  cacheDefault : LineText 256 := .lit ""
  headersAdd : List HeaderPair := []
  headersRemove : List (LineText 128) := []
  proxyHost : LineText 256 := .lit ""
  proxyWebsocket : Bool := false
  proxyPassHost : Bool := true
  proxyRealIp : Bool := true
  proxyForwardedFor : Bool := true
  proxyForwardedProto : Bool := true

/-- The loop of `rpsiod_site_allows_method` over the configured methods. -/
def Site.listsMethod (site : Site) (method : Bytes) : Bool :=
  site.allowedMethods.any fun allowed => streqCi allowed.bytes method

/-- `rpsiod_site_allows_method`: HEAD comes with GET. -/
def Site.allowsMethod (site : Site) (method : Bytes) : Bool :=
  (streqCi method (ascii "HEAD") && site.listsMethod (ascii "GET")) || site.listsMethod method

/-- `rpsiod_site_error_page`. -/
def Site.errorPage (site : Site) (status : ℤ) : Option Bytes :=
  (site.errorPages.find? fun page => page.code = status).map fun page => page.path.bytes

/-- The part of `client_object` that names the two ends of the connection. -/
structure Client where
  localPort : UInt16
  tls : Bool
  clientIp : LineText 46
  serverIp : LineText 46
  deriving DecidableEq

end Rpsiod

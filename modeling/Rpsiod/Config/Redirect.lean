import Rpsiod.Config.Site
import Rpsiod.Http.Request

/-!
# Redirects (`route.c`)

`buildRedirectLocation` is `rpsiod_route_build_redirect_location`: whether the request is
redirected to HTTPS or to the other form of the host name, and where to.
-/

namespace Rpsiod

/-- `redirect_host` and whether it differs: `www.` is put in front or taken away. -/
def wwwHost (site : Site) (host : Bytes) : Option Bytes :=
  if !site.redirectWwwEnabled then none
  else if site.redirectWwwMode = .apexToWww && !startsWith host (ascii "www.") then
    if (ascii "www." ++ host).length < 256 then some (ascii "www." ++ host) else none
  else if site.redirectWwwMode = .wwwToApex && startsWith host (ascii "www.") then
    some (host.drop 4)
  else none

/-- The scheme of a redirect. -/
def redirectScheme (site : Site) (https : Bool) : Bytes :=
  if https || site.serveAs = .https then ascii "https" else ascii "http"

/-- The port text of a redirect, empty for the default port of the scheme. -/
def redirectPort (site : Site) (https : Bool) : Bytes :=
  if https || site.serveAs = .https then
    if site.httpsPort ≠ 443 then ascii ":" ++ decimal site.httpsPort.toNat else []
  else
    if site.httpPort ≠ 80 then ascii ":" ++ decimal site.httpPort.toNat else []

/-- `rpsiod_route_build_redirect_location`: the status and the location, if there is a redirect
and it fits. -/
def buildRedirectLocation (site : Site) (req : HttpRequest) (port : UInt16)
    (suppressHttpToHttps : Bool) (outLen : ℕ) : Option (ℤ × Bytes) :=
  let host := if req.host ≠ [] then req.host else (site.domains.head?.map (·.bytes)).getD []
  let targetHost := safeCopy 256 host
  let https := !suppressHttpToHttps && site.redirectHttpToHttps && port = site.httpPort &&
    site.httpsPort ≠ 0
  let www := wwwHost site targetHost
  if !https && www.isNone then none
  else
    let status := if www.isSome then site.redirectWwwStatus.code else 301
    let out := redirectScheme site https ++ ascii "://" ++ www.getD targetHost ++
      redirectPort site https ++ req.path
    if out.length < outLen then some (status, out) else none

end Rpsiod

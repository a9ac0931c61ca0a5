import Rpsiod.Config.Redirect
import Rpsiod.Config.Route

/-!
# Who answers a request (`serve_request`)

`dispatch` is `serve_request` up to the responder it ends in, with the site pointer that
responder gets; a null pointer is `none`.  The rate limiter's answer is an argument.

* `dispatch_safe`: every responder has the site the lookup found, or answers with a plain text.
-/

namespace Rpsiod

/-- The responder `serve_request` returns through. -/
inductive Responder where
  | sendText (site : Option Site) (status : ℕ) (text : Bytes)
  | sendRedirect (site : Option Site) (status : ℤ) (location : Bytes)
  | sendRateLimited (site : Option Site) (retryAfter : ℕ)
  | sendErrorPage (site : Option Site) (status : ℕ)
  | serveProxy (site : Option Site)
  | serveStatic (site : Option Site)

/-- A loopback peer that says that the request came in over HTTPS. -/
def trustedInternalHttps (client : Client) (req : HttpRequest) : Bool :=
  req.internalHttps &&
    (client.clientIp.bytes = ascii "127.0.0.1" || client.clientIp.bytes = ascii "::1")

/-- `serve_request` behind the lookup of the site. -/
def dispatchSite (client : Client) (limited : Site → Option ℕ) (req : HttpRequest) (site : Site) :
    Responder :=
  if site.listenIp.bytes ≠ ascii "0.0.0.0" && site.listenIp.bytes ≠ client.serverIp.bytes then
    .sendText (some site) 400 (ascii "400 Bad Request\n")
  else
    match buildRedirectLocation site req client.localPort (trustedInternalHttps client req) 1024 with
    | some (status, location) => .sendRedirect (some site) status location
    | none =>
        match limited site with
        | some retryAfter => .sendRateLimited (some site) retryAfter
        | none =>
            if site.routingType = .proxy then
              if !site.allowsMethod req.method then .sendErrorPage (some site) 405
              else .serveProxy (some site)
            else .serveStatic (some site)

/-- `serve_request` up to its responder. -/
def dispatch (cfg : Config) (client : Client) (limited : Site → Option ℕ) (req : HttpRequest) :
    Responder :=
  if streqCi req.method (ascii "TRACE") || streqCi req.method (ascii "CONNECT") then
    .sendText none 405 (ascii "405 Method Not Allowed\n")
  else
    match findSiteForListener cfg req.host client.localPort client.serverIp.bytes with
    | none => .sendText none 404 (ascii "404 Not Found\n")
    | some site => dispatchSite client limited req site

/-- The site pointer a responder gets. -/
def Responder.site : Responder → Option Site
  | .sendText site _ _ => site
  | .sendRedirect site _ _ => site
  | .sendRateLimited site _ => site
  | .sendErrorPage site _ => site
  | .serveProxy site => site
  | .serveStatic site => site

/-- A responder that gets by without a site, or has the one that was found. -/
def Responder.Safe (found : Option Site) (r : Responder) : Prop :=
  (∃ status text, r = .sendText none status text) ∨ (r.site = found ∧ found.isSome)

theorem dispatchSite_site (client : Client) (limited : Site → Option ℕ) (req : HttpRequest)
    (site : Site) : (dispatchSite client limited req site).site = some site := by
  unfold dispatchSite
  cases buildRedirectLocation site req client.localPort (trustedInternalHttps client req) 1024 with
  | some target =>
      simp only
      split_ifs <;> rfl
  | none =>
      cases limited site with
      | some retryAfter =>
          simp only
          split_ifs <;> rfl
      | none =>
          simp only
          split_ifs <;> rfl

/-- **No responder of `serve_request` misses its site.** -/
theorem dispatch_safe (cfg : Config) (client : Client) (limited : Site → Option ℕ)
    (req : HttpRequest) :
    (dispatch cfg client limited req).Safe
      (findSiteForListener cfg req.host client.localPort client.serverIp.bytes) := by
  unfold dispatch
  split_ifs with hmethod
  · exact Or.inl ⟨_, _, rfl⟩
  · cases hsite : findSiteForListener cfg req.host client.localPort client.serverIp.bytes with
    | none => exact Or.inl ⟨_, _, rfl⟩
    | some site => exact Or.inr ⟨dispatchSite_site client limited req site, rfl⟩

end Rpsiod

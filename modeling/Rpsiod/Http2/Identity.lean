import Rpsiod.Http2.Bridge
import Rpsiod.Proxy.Forward
import Rpsiod.Server.Php

/-!
# Who a request comes from

The rate limiter, the CGI variables and the lines that the proxy adds say who sent a request, and over
which scheme.  Behind HTTP/1.1 over TLS they are about the TLS client; behind HTTP/2 the server
is its own client, on the plain port of the site.

* `internalHttps_of_loopback`: a loopback request always says that it came in over HTTPS.
* `identity_eq_iff`: **exactly when both say the same**.
-/

namespace Rpsiod

open ListSearch Crlf

/-- What the handlers derive from a connection. -/
structure Identity where
  /-- The address that `rpsiod_rate_limit_exceeded` gets. -/
  rateKey : Bytes
  remoteAddr : Option Bytes
  https : Option Bytes
  requestScheme : Option Bytes
  /-- The lines X-Real-IP, X-Forwarded-For and X-Forwarded-Proto, as far as the site has them. -/
  proxyLines : List Bytes

/-- The value of a CGI variable. -/
def cgiVariable (client : Client) (site : Site) (req : HttpRequest) (script name : Bytes) :
    Option Bytes :=
  ((fcgiParamList client site req script).find? fun p => p.1 = name).map Prod.snd

/-- The identity of a request of this client. -/
def identity (client : Client) (site : Site) (req : HttpRequest) (script : Bytes) : Identity where
  rateKey := client.clientIp.bytes
  remoteAddr := cgiVariable client site req script (ascii "REMOTE_ADDR")
  https := cgiVariable client site req script (ascii "HTTPS")
  requestScheme := cgiVariable client site req script (ascii "REQUEST_SCHEME")
  proxyLines := trailingLines client site

/-- The server as its own client, on the plain port of a site. -/
def loopbackPeer (site : Site) : Client where
  localPort := site.httpPort
  tls := false
  clientIp := .lit "127.0.0.1"
  serverIp := .lit "127.0.0.1"

/-! ### The loopback request -/

/-- nghttp2 lets no line feed through in `:method`, `:path` and `:authority`. -/
structure H2Stream.OneLine (s : H2Stream) : Prop where
  method : 10 ∉ s.method
  path : 10 ∉ s.path
  authority : 10 ∉ s.authority

/-- The lines of the loopback request. -/
def loopbackLines (client : Client) (s : H2Stream) : List Bytes :=
  [s.method ++ ascii " " ++ s.path ++ ascii " HTTP/1.1",
    ascii "Host: " ++ (if s.authority ≠ [] then s.authority else loopbackAuthority s),
    ascii "Connection: close",
    ascii "X-Forwarded-Proto: https",
    ascii "X-Forwarded-For: " ++ client.clientIp.bytes,
    ascii "X-Rpsiod-Internal-Scheme: https"]

theorem loopbackRequest_eq (client : Client) (s : H2Stream) :
    loopbackRequest client s = unlines (loopbackLines client s) ++ crlf ++ [] := by
  have hfirst : ascii " HTTP/1.1\x0d\nHost: " = ascii " HTTP/1.1" ++ crlf ++ ascii "Host: " := by
    decide
  have hmiddle : ascii "\x0d\nConnection: close\x0d\nX-Forwarded-Proto: https\x0d\nX-Forwarded-For: " =
      crlf ++ ascii "Connection: close" ++ crlf ++ ascii "X-Forwarded-Proto: https" ++ crlf ++
        ascii "X-Forwarded-For: " := by
    decide
  have hlast : ascii "\x0d\nX-Rpsiod-Internal-Scheme: https\x0d\n\x0d\n" =
      crlf ++ ascii "X-Rpsiod-Internal-Scheme: https" ++ crlf ++ crlf := by
    decide
  unfold loopbackRequest loopbackLines
  rw [hfirst, hmiddle, hlast]
  simp only [unlines_cons, unlines_nil, List.append_assoc, List.append_nil]

/-- Every line of the loopback request is on one line. -/
theorem loopbackLines_ok {s : H2Stream} (h : s.OneLine) (client : Client) :
    ∀ l ∈ loopbackLines client s, l ≠ [] ∧ 10 ∉ l := by
  have hhost : 10 ∉ (if s.authority ≠ [] then s.authority else loopbackAuthority s) := by
    split_ifs with hauthority
    · exact h.authority
    · have hnil : s.authority = [] := not_not.mp hauthority
      unfold loopbackAuthority
      rw [hnil]
      decide
  intro l hl
  unfold loopbackLines at hl
  simp only [List.mem_cons, List.not_mem_nil, or_false] at hl
  rcases hl with rfl | rfl | rfl | rfl | rfl | rfl
  · refine ⟨by simp [ascii], ?_⟩
    simp only [List.mem_append, not_or]
    exact ⟨⟨⟨h.method, by decide⟩, h.path⟩, by decide⟩
  · refine ⟨by simp [ascii], ?_⟩
    rw [List.mem_append, not_or]
    exact ⟨by decide, hhost⟩
  · decide
  · decide
  · refine ⟨by simp [ascii], ?_⟩
    rw [List.mem_append, not_or]
    exact ⟨by decide, client.clientIp.ok.2.1⟩
  · decide

/-- The header lines that the server reads in its own request. -/
theorem fieldLines_of_loopback {s : H2Stream} (h : s.OneLine) {client : Client}
    {req : HttpRequest} (p : Parsed (loopbackRequest client s) req) :
    p.fieldLines = (loopbackLines client s).tail := by
  have hne : loopbackLines client s ≠ [] := List.cons_ne_nil _ _
  have hhead := splitHead_unlines hne (loopbackLines_ok h client) []
  rw [← loopbackRequest_eq, p.splitHead_eq] at hhead
  have hlines := (Prod.mk.inj (Option.some.inj hhead)).1
  exact congrArg List.tail hlines

/-- The header line that speaks for the scheme. -/
theorem internalHttps_of_parseHeaderLine {st st' : ParseState}
    (h : parseHeaderLine st (ascii "X-Rpsiod-Internal-Scheme: https") = .ok st') :
    st'.req.internalHttps = true := by
  have hsplit : splitFirst 58 (ascii "X-Rpsiod-Internal-Scheme: https") =
      some (ascii "X-Rpsiod-Internal-Scheme", ascii " https") := by
    decide
  have hname : validHeaderName (ascii "X-Rpsiod-Internal-Scheme") = true := by decide
  have hvalue : validHeaderValue (ascii " https") = true := by decide
  have htrim : copyTrimmedValue 1024 (ascii " https") = some (ascii "https") := by decide
  unfold parseHeaderLine at h
  rw [if_neg (by decide), if_neg (by decide)] at h
  simp only [hsplit, hname, hvalue, htrim] at h
  split_ifs at h
  have happly : ∀ st, applyHeader st (ascii "X-Rpsiod-Internal-Scheme") (ascii "https") =
      .ok { st with req := { st.req with internalHttps := st.req.internalHttps || true } } :=
    fun _ => rfl
  rw [happly] at h
  rw [← Except.ok.inj h]
  exact Bool.or_true _

/-- **A loopback request says that it came in over HTTPS.** -/
theorem internalHttps_of_loopback {s : H2Stream} (h : s.OneLine) {client : Client}
    {req : HttpRequest} (hreq : httpParseRequest (loopbackRequest client s) = .accepted req) :
    req.internalHttps = true := by
  obtain ⟨p⟩ := parsed_of_accepted hreq
  have hloop := p.loop_eq
  have hlines : lines (((loopbackRequest client s).take p.stop).drop (p.firstLen + 2)) =
      [ascii "Host: " ++ (if s.authority ≠ [] then s.authority else loopbackAuthority s),
        ascii "Connection: close", ascii "X-Forwarded-Proto: https",
        ascii "X-Forwarded-For: " ++ client.clientIp.bytes] ++
      [ascii "X-Rpsiod-Internal-Scheme: https"] := fieldLines_of_loopback h p
  rw [hlines, List.foldlM_append] at hloop
  cases hmiddle : List.foldlM parseHeaderLine { req := requestLineRequest p.rl }
      [ascii "Host: " ++ (if s.authority ≠ [] then s.authority else loopbackAuthority s),
        ascii "Connection: close", ascii "X-Forwarded-Proto: https",
        ascii "X-Forwarded-For: " ++ client.clientIp.bytes] with
  | error req' =>
      rw [hmiddle] at hloop
      exact nomatch hloop
  | ok st =>
      rw [hmiddle] at hloop
      have hlast : parseHeaderLine st (ascii "X-Rpsiod-Internal-Scheme: https") = .ok p.st := by
        rw [← hloop]
        exact (bind_pure _).symm
      obtain ⟨-, -, -, hfinal⟩ := finishRequest_eq_accepted p.finish_eq
      rw [hfinal]
      exact internalHttps_of_parseHeaderLine hlast

/-! ### Both identities -/

/-- The CGI variables that identify the client. -/
theorem cgiVariable_eq (client : Client) (site : Site) (req : HttpRequest) (script : Bytes) :
    cgiVariable client site req script (ascii "REMOTE_ADDR") = some client.clientIp.bytes ∧
    cgiVariable client site req script (ascii "HTTPS") =
      some (if requestHttps client site req then ascii "on" else ascii "off") ∧
    cgiVariable client site req script (ascii "REQUEST_SCHEME") =
      some (if requestHttps client site req then ascii "https" else ascii "http") :=
  ⟨rfl, rfl, rfl⟩

/-- Behind HTTP/2 the CGI variables always say HTTPS. -/
theorem requestHttps_loopbackPeer {s : H2Stream} (h : s.OneLine) {client : Client} (site : Site)
    {req : HttpRequest} (hreq : httpParseRequest (loopbackRequest client s) = .accepted req) :
    requestHttps (loopbackPeer site) site req = true := by
  have htrusted : trustedInternalHttps (loopbackPeer site) req = true := by
    unfold trustedInternalHttps
    rw [internalHttps_of_loopback h hreq]
    rfl
  unfold requestHttps
  rw [htrusted]
  exact Bool.or_true _

/-- The lines that the proxy adds, for two clients. -/
theorem trailingLines_eq_iff (client client' : Client) (site : Site) :
    trailingLines client site = trailingLines client' site ↔
      ((site.proxyRealIp || site.proxyForwardedFor) = true →
        client.clientIp.bytes = client'.clientIp.bytes) ∧
      (site.proxyForwardedProto = true →
        forwardedProtoValue client site = forwardedProtoValue client' site) := by
  have hline : ∀ name a b, headerText name a = headerText name b ↔ a = b := by
    intro name a b
    unfold headerText
    exact List.append_right_inj _
  unfold trailingLines
  cases site.proxyRealIp <;> cases site.proxyForwardedFor <;> cases site.proxyForwardedProto <;>
    simp [hline]

/-- **Both identities are the same, exactly if** the TLS client is on the loopback address, its request
counts as HTTPS, and, if the proxy speaks of the scheme, it does so in the same way on both
ports. -/
theorem identity_eq_iff (client : Client) (site : Site) (direct : HttpRequest) (script : Bytes)
    {s : H2Stream} (h : s.OneLine) {bridged : HttpRequest}
    (hbridged : httpParseRequest (loopbackRequest client s) = .accepted bridged) :
    identity client site direct script = identity (loopbackPeer site) site bridged script ↔
      client.clientIp.bytes = ascii "127.0.0.1" ∧ requestHttps client site direct = true ∧
      (site.proxyForwardedProto = true →
        (client.localPort = site.httpsPort ↔ site.httpPort = site.httpsPort)) := by
  have hhttps := requestHttps_loopbackPeer h site hbridged
  have hpeer : (loopbackPeer site).clientIp.bytes = ascii "127.0.0.1" := rfl
  have hscheme : ∀ https : Bool, (if https then ascii "https" else ascii "http") = ascii "https" ↔
      https = true := by decide
  have hproto : forwardedProtoValue client site = forwardedProtoValue (loopbackPeer site) site ↔
      (client.localPort = site.httpsPort ↔ site.httpPort = site.httpsPort) := by
    show (if client.localPort = site.httpsPort then ascii "https" else ascii "http") =
      (if site.httpPort = site.httpsPort then ascii "https" else ascii "http") ↔ _
    have hdiffer : ascii "https" ≠ ascii "http" := by decide
    split_ifs with hdirect hplain hplain
    · exact iff_of_true rfl (iff_of_true hdirect hplain)
    · exact iff_of_false hdiffer fun hiff => hplain (hiff.mp hdirect)
    · exact iff_of_false hdiffer.symm fun hiff => hdirect (hiff.mpr hplain)
    · exact iff_of_true rfl (iff_of_false hdirect hplain)
  obtain ⟨hremote, hon, hname⟩ := cgiVariable_eq client site direct script
  obtain ⟨hremote', hon', hname'⟩ := cgiVariable_eq (loopbackPeer site) site bridged script
  unfold identity
  rw [hremote, hon, hname, hremote', hon', hname', hhttps, hpeer]
  simp only [Identity.mk.injEq, Option.some.injEq, trailingLines_eq_iff, hproto, if_true, hpeer,
    hscheme]
  constructor
  · rintro ⟨hip, -, -, hdirect, -, hlines⟩
    exact ⟨hip, hdirect, hlines⟩
  · rintro ⟨hip, hdirect, hlines⟩
    exact ⟨hip, hip, by rw [hdirect, if_pos rfl], hdirect, fun _ => hip, hlines⟩

theorem exampleStream_oneLine : exampleStream.OneLine := ⟨by decide, by decide, by decide⟩

/-- A TLS client on the server itself, and a site that does not speak of the scheme. -/
theorem identity_eq_iff_local :
    ∃ bridged, httpParseRequest (loopbackRequest
        ⟨443, true, .lit "127.0.0.1", .lit "127.0.0.1"⟩ exampleStream) = .accepted bridged ∧
      identity ⟨443, true, .lit "127.0.0.1", .lit "127.0.0.1"⟩ { proxyForwardedProto := false }
          {} [] =
        identity (loopbackPeer { proxyForwardedProto := false }) { proxyForwardedProto := false }
          bridged [] := by
  obtain ⟨bridged, hbridged, -⟩ := @exists_accepted (loopbackRequest
    ⟨443, true, .lit "127.0.0.1", .lit "127.0.0.1"⟩ exampleStream) (fun _ => true)
    (by decide +kernel)
  exact ⟨bridged, hbridged, (identity_eq_iff ⟨443, true, .lit "127.0.0.1", .lit "127.0.0.1"⟩
    { proxyForwardedProto := false } {} [] exampleStream_oneLine hbridged).mpr
    ⟨rfl, by decide, nofun⟩⟩

/-- The same request over HTTP/1.1 and over HTTP/2, from a client elsewhere: the limiter, REMOTE_ADDR
and X-Real-IP name the client over HTTP/1.1 and the server over HTTP/2, and X-Forwarded-Proto says
`https` and `http`. -/
theorem identity_lost_over_http2 :
    ∃ direct bridged,
      httpParseRequest (ascii "GET / HTTP/1.1\x0d\nHost: example.org\x0d\n\x0d\n") =
        .accepted direct ∧
      httpParseRequest (loopbackRequest exampleClient exampleStream) = .accepted bridged ∧
      identity exampleClient {} direct [] ≠ identity (loopbackPeer {}) {} bridged [] ∧
      (identity exampleClient {} direct []).rateKey = ascii "198.51.100.7" ∧
      (identity (loopbackPeer {}) {} bridged []).rateKey = ascii "127.0.0.1" ∧
      (identity exampleClient {} direct []).proxyLines =
        [ascii "X-Real-IP: 198.51.100.7", ascii "X-Forwarded-For: 198.51.100.7",
          ascii "X-Forwarded-Proto: https"] ∧
      (identity (loopbackPeer {}) {} bridged []).proxyLines =
        [ascii "X-Real-IP: 127.0.0.1", ascii "X-Forwarded-For: 127.0.0.1",
          ascii "X-Forwarded-Proto: http"] := by
  obtain ⟨direct, hdirect, -⟩ :=
    @exists_accepted (ascii "GET / HTTP/1.1\x0d\nHost: example.org\x0d\n\x0d\n") (fun _ => true)
      (by decide +kernel)
  obtain ⟨bridged, hbridged, -⟩ :=
    @exists_accepted (loopbackRequest exampleClient exampleStream) (fun _ => true)
      (by decide +kernel)
  refine ⟨direct, bridged, hdirect, hbridged, fun hsame => ?_, rfl, rfl, rfl, rfl⟩
  have hkey : ascii "198.51.100.7" = ascii "127.0.0.1" := congrArg Identity.rateKey hsame
  exact absurd hkey (by decide)

end Rpsiod

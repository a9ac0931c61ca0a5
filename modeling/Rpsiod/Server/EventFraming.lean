import Rpsiod.Server.Event

/-!
# Requests are cut out of the stream exactly

* `Framed stream messages rest`: the messages are, one behind the other, what the parser and the
  declared length cut off the front of `stream`, and `rest` follows them.
* `framingInv_round`: one round keeps "dispatched messages, then buffer, then the bytes still on
  their way" equal to the stream.
* `request_framing`: **on every run**, whatever the reads cut the stream into.
-/

namespace Rpsiod

open ListSearch Crlf

/-! ### Messages -/

/-- The messages handed to `serve_request`, in order. -/
def dispatchedOf (calls : List Call) : List (HttpRequest × Bytes) :=
  calls.filterMap fun call =>
    match call with
    | .serveRequest req body => some (req, body)
    | _ => none

/-- Consecutive messages from the start of a stream, and what is left of it. The connection
decides about `keep_alive`, the rest of the request is what was parsed. -/
inductive Framed : Bytes → List (HttpRequest × Bytes) → Bytes → Prop
  | done (rest : Bytes) : Framed rest [] rest
  | message {stream rest : Bytes} {req : HttpRequest} {more : List (HttpRequest × Bytes)}
      (keep : Bool) (head : httpParseRequest stream = .accepted req)
      (complete : req.headerLen + req.contentLength ≤ stream.length)
      (tail : Framed (stream.drop (req.headerLen + req.contentLength)) more rest) :
      Framed stream
        (({ req with keepAlive := keep }, (stream.drop req.headerLen).take req.contentLength) ::
          more) rest

/-- One more message behind the others. -/
theorem Framed.snoc {stream rest : Bytes} {messages : List (HttpRequest × Bytes)}
    {req : HttpRequest} (h : Framed stream messages rest) (keep : Bool)
    (head : httpParseRequest rest = .accepted req)
    (complete : req.headerLen + req.contentLength ≤ rest.length) :
    Framed stream
      (messages ++
        [({ req with keepAlive := keep }, (rest.drop req.headerLen).take req.contentLength)])
      (rest.drop (req.headerLen + req.contentLength)) := by
  induction h with
  | done rest => exact .message keep head complete (.done _)
  | message keep' head' complete' _ ih => exact .message keep' head' complete' (ih head complete)

/-! ### One round -/

theorem headerLen_le_of_accepted {buf : Bytes} {req : HttpRequest}
    (h : httpParseRequest buf = .accepted req) : 4 ≤ req.headerLen ∧ req.headerLen ≤ buf.length := by
  obtain ⟨p⟩ := parsed_of_accepted h
  rw [p.headerLen_eq]
  exact ⟨by omega, p.stop_add_four_le⟩

/-- What the loop body dispatches is an accepted request with all of its body. -/
theorem examine_eq_serve {cfg : Config} {client : Client} {count : UInt32} {buf : Bytes}
    {req : HttpRequest} {body : Bytes} {keep : Bool}
    (h : examine cfg client count buf = .serve req body keep) :
    ∃ parsed keepAlive, httpParseRequest buf = .accepted parsed ∧
      parsed.headerLen + parsed.contentLength ≤ buf.length ∧
      req = { parsed with keepAlive := keepAlive } ∧
      body = (buf.drop parsed.headerLen).take parsed.contentLength := by
  unfold examine at h
  cases hp : httpParseRequest buf with
  | incomplete => simp [hp] at h
  | malformed parsed => simp [hp] at h
  | accepted parsed =>
      obtain ⟨-, hle⟩ := headerLen_le_of_accepted hp
      simp only [hp] at h
      split_ifs at h with hmax hbody hsize <;>
      · rw [Bool.and_eq_true, decide_eq_true_iff, decide_eq_true_iff] at hbody
        have hcomplete : parsed.headerLen + parsed.contentLength ≤ buf.length := by omega
        injection h with hreq hbytes _
        exact ⟨parsed, _, rfl, hcomplete, hreq.symm, hbytes.symm⟩

theorem examinedBuf_eq_some {c : Conn} {b : Bytes} (h : c.examinedBuf = some b) :
    (∃ tail, b ++ tail = c.buf ++ streamOf c.arrivals) ∧
      (c.buf.length < clientBuffer → b.length < clientBuffer) := by
  unfold Conn.examinedBuf at h
  split_ifs at h with hrun hready hgot hfull
  · rw [Option.some.injEq] at h
    exact ⟨⟨streamOf c.arrivals, by rw [h]⟩, fun hlt => h ▸ hlt⟩
  · rw [Option.some.injEq] at h
    rw [not_not] at hrun
    cases ha : c.arrivals with
    | nil => simp [Conn.read, ha] at hgot
    | cons e rest =>
        cases e with
        | data _ _ =>
            obtain ⟨hload, -⟩ := loaded_of_read hrun ha
            rw [← ha]
            refine ⟨⟨_, by rw [← h]; exact hload.stream⟩, fun hlt => ?_⟩
            rw [← h]
            exact lt_of_le_of_ne (hload.room hlt.le) hfull
        | _ => simp [Conn.read, ha] at hgot

/-- What a connection says about the stream of its client: the messages dispatched so far come
first, and while it is open the buffer follows. -/
def FramingInv (stream : Bytes) (c : Conn) : Prop :=
  ∃ rest, Framed stream (dispatchedOf c.calls) rest ∧
    (c.status = .running → c.buf.length < clientBuffer ∧ rest = c.buf ++ streamOf c.arrivals)

theorem dispatchedOf_append (calls more : List Call) :
    dispatchedOf (calls ++ more) = dispatchedOf calls ++ dispatchedOf more := by
  unfold dispatchedOf
  rw [List.filterMap_append]

/-- **One round** keeps the framing. -/
theorem framingInv_round {stream : Bytes} {c : Conn} (cfg : Config) (client : Client) (env : Env)
    (inv : FramingInv stream c) : FramingInv stream (c.round cfg client env) := by
  obtain ⟨rest, hframed, hopen⟩ := inv
  have hround := round_cases cfg client env c
  generalize c.round cfg client env = c' at hround
  cases hround with
  | idle _ buf calls _ _ status _ hstream =>
      refine ⟨rest, by rw [calls]; exact hframed, fun hrun => ?_⟩
      rw [buf, hstream hrun]
      exact hopen (status hrun)
  | full _ _ load _ _ =>
      refine ⟨rest, ?_, fun hrun => nomatch hrun⟩
      unfold Conn.reject
      simp only
      rw [dispatchedOf_append, load.calls]
      simpa [dispatchedOf] using hframed
  | @examined c₁ load _ length =>
      obtain ⟨hlt, hrest⟩ := hopen load.running
      have hrest₁ : rest = c₁.buf ++ streamOf c₁.arrivals := hrest.trans load.stream.symm
      rw [← load.calls] at hframed
      cases hv : examine cfg client c₁.keepAliveRequests c₁.buf with
      | more => exact ⟨rest, hframed, fun _ => ⟨length hlt, hrest₁⟩⟩
      | tooLarge site req =>
          refine ⟨rest, ?_, fun hrun => ?_⟩
          · show Framed stream (dispatchedOf (c₁.calls ++ _)) rest
            rw [dispatchedOf_append]
            simpa [dispatchedOf] using hframed
          · simp only [Conn.act, Conn.errorPage] at hrun
            split_ifs at hrun
      | badRequest req =>
          refine ⟨rest, ?_, fun hrun => nomatch hrun⟩
          show Framed stream (dispatchedOf (c₁.calls ++ _)) rest
          rw [dispatchedOf_append]
          simpa [dispatchedOf] using hframed
      | serve req body keep =>
          obtain ⟨parsed, keepAlive, hparse, hcomplete, hreq, hbody⟩ := examine_eq_serve hv
          have hparse' : httpParseRequest rest = .accepted parsed := by
            rw [hrest₁, httpParseRequest_append (by rw [hparse]; exact nofun), hparse]
          have hle : parsed.headerLen + parsed.contentLength ≤ rest.length := by
            rw [hrest₁, List.length_append]
            omega
          have hsnoc := hframed.snoc keepAlive hparse' hle
          have hmessage : (rest.drop parsed.headerLen).take parsed.contentLength = body := by
            rw [hbody, hrest₁, List.drop_append_of_le_length (by omega),
              List.take_append_of_le_length (by rw [List.length_drop]; omega)]
          rw [hmessage, ← hreq] at hsnoc
          refine ⟨rest.drop (parsed.headerLen + parsed.contentLength), ?_, fun hrun => ?_⟩
          · show Framed stream (dispatchedOf (c₁.serve env req body keep).calls) _
            rw [serve_calls, dispatchedOf_append]
            exact hsnoc
          · have hstate := (serve_running hrun).2
            have hconsumed : req.headerLen + req.contentLength =
                parsed.headerLen + parsed.contentLength := by rw [hreq]
            show (c₁.serve env req body keep).buf.length < clientBuffer ∧
              _ = (c₁.serve env req body keep).buf ++
                streamOf (c₁.serve env req body keep).arrivals
            rw [hstate, hconsumed]
            refine ⟨?_, ?_⟩
            · have := length hlt
              rw [List.length_drop]
              omega
            · rw [hrest₁, List.drop_append_of_le_length hcomplete]

/-! ### Every run -/

theorem framingInv_rounds (cfg : Config) (client : Client) (env : Env)
    (arrivals : List SockEvent) (n : ℕ) :
    FramingInv (streamOf arrivals) (Conn.rounds cfg client env n (.accepted arrivals)) := by
  induction n with
  | zero => exact ⟨streamOf arrivals, .done _, fun _ => ⟨Nat.zero_lt_succ _, rfl⟩⟩
  | succ n ih =>
      rw [rounds_succ]
      exact framingInv_round cfg client env ih

/-- The round that dispatches a request examines a buffer that holds all of it. -/
theorem examinedBuf_of_dispatch {cfg : Config} {client : Client} {env : Env} {c : Conn}
    {req : HttpRequest} {body : Bytes}
    (h : (c.round cfg client env).calls = c.calls ++ [.serveRequest req body]) :
    ∃ used keep, c.examinedBuf = some used ∧
      examine cfg client c.keepAliveRequests used = .serve req body keep := by
  have hround := round_cases cfg client env c
  generalize c.round cfg client env = c' at hround h
  cases hround with
  | idle _ _ calls => simp [calls] at h
  | full _ _ load => simp [Conn.reject, load.calls] at h
  | @examined c₁ load examined length =>
      refine ⟨c₁.buf, ?_⟩
      rw [load.count] at h
      cases hv : examine cfg client c.keepAliveRequests c₁.buf with
      | more => simp [hv, Conn.act, load.calls] at h
      | tooLarge site req' => simp [hv, Conn.act, Conn.errorPage, load.calls] at h
      | badRequest req' => simp [hv, Conn.act, Conn.reject, load.calls] at h
      | serve req' body' keep =>
          rw [hv] at h
          simp only [Conn.act] at h
          rw [serve_calls, load.calls, List.append_cancel_left_eq, List.cons.injEq,
            Call.serveRequest.injEq] at h
          obtain ⟨⟨rfl, rfl⟩, -⟩ := h
          exact ⟨keep, examined, rfl⟩

/-- **Request framing**: on every run of a connection the messages handed to `serve_request` are
consecutive messages from the start of the client's stream; whatever is examined next starts right
behind them; and what is dispatched then is complete and within the buffer. -/
theorem request_framing (cfg : Config) (client : Client) (env : Env) (arrivals : List SockEvent)
    (n : ℕ) :
    let c := Conn.rounds cfg client env n (.accepted arrivals)
    ∃ rest, Framed (streamOf arrivals) (dispatchedOf c.calls) rest ∧
      (∀ used, c.examinedBuf = some used → ∃ tail, used ++ tail = rest) ∧
      ∀ req body, (c.round cfg client env).calls = c.calls ++ [.serveRequest req body] →
        ∃ used, c.examinedBuf = some used ∧
          req.headerLen + req.contentLength ≤ used.length ∧ used.length ≤ clientBuffer ∧
          body = (used.drop req.headerLen).take req.contentLength ∧
          body.length = req.contentLength := by
  intro c
  obtain ⟨rest, hframed, hopen⟩ := framingInv_rounds cfg client env arrivals n
  have hexamined : ∀ used, c.examinedBuf = some used →
      (∃ tail, used ++ tail = rest) ∧ used.length < clientBuffer := by
    intro used hused
    have hrun : c.status = .running := by
      by_contra hnot
      simp [Conn.examinedBuf, hnot] at hused
    obtain ⟨hlt, hrest⟩ := hopen hrun
    obtain ⟨htail, hsize⟩ := examinedBuf_eq_some hused
    exact ⟨by rw [hrest]; exact htail, hsize hlt⟩
  refine ⟨rest, hframed, fun used hused => (hexamined used hused).1, fun req body hcalls => ?_⟩
  obtain ⟨used, keep, hused, hserve⟩ := examinedBuf_of_dispatch hcalls
  obtain ⟨parsed, keepAlive, -, hcomplete, hreq, hbody⟩ := examine_eq_serve hserve
  subst hreq
  refine ⟨used, hused, hcomplete, (hexamined used hused).2.le, hbody, ?_⟩
  rw [hbody, List.length_take, List.length_drop]
  show min parsed.contentLength (used.length - parsed.headerLen) = parsed.contentLength
  omega

end Rpsiod

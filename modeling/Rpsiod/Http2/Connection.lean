import Rpsiod.Http2.Stream

/-!
# One HTTP/2 connection (`rpsiod_http2_serve_connection`)

A pass of the connection's loop submits the responses that are ready, lets the session send, records
the streams with an open backend for `poll`, lets the session send and receive, and then goes
through the recorded streams.  The session is nghttp2's: whenever it sends or receives it may make
any calls of the callbacks, in any order, and give any result.

The streams of a connection are a registry: ids are names, and a stream pointer is a handle, so that
a pointer to a stream that was freed is a stale handle.  `pass` is one pass, with the calls of
`h2_progress_backend_stream` it makes.
-/

namespace Rpsiod

open NamedObjects

/-- `h2_conn`. -/
structure H2Conn where
  streams : Registry ℤ H2Stream := .empty
  activeBackendStreams : ℕ := 0

/-! ### The list of streams -/

/-- `find_stream`. -/
def findStream (c : H2Conn) (id : ℤ) : Option (Entry ℤ H2Stream) := c.streams.find id

/-- `get_or_create_stream`. -/
def getOrCreateStream (allocates : Bool) (c : H2Conn) (id : ℤ) : Option H2Conn :=
  match findStream c id with
  | some _ => some c
  | none => if allocates then some { c with streams := c.streams.opened id {} } else none

/-- The stream is there already, or it is a new one. -/
theorem getOrCreateStream_cases {allocates : Bool} {c c' : H2Conn} {id : ℤ}
    (h : getOrCreateStream allocates c id = some c') :
    c' = c ∨ id ∉ c.streams.entries.map Entry.name ∧
      c' = { c with streams := c.streams.opened id {} } := by
  unfold getOrCreateStream at h
  cases hfind : findStream c id with
  | some e =>
      rw [hfind] at h
      exact Or.inl (Option.some.inj h).symm
  | none =>
      rw [hfind] at h
      dsimp only at h
      split_ifs at h
      refine Or.inr ⟨fun hmem => ?_, (Option.some.inj h).symm⟩
      obtain ⟨e, he, hname⟩ := List.mem_map.mp hmem
      exact List.find?_eq_none.mp hfind e he (decide_eq_true hname)

/-- `remove_stream`. -/
def removeStream (c : H2Conn) (id : ℤ) : H2Conn :=
  match findStream c id with
  | none => c
  | some e =>
      { streams := c.streams.closed id
        activeBackendStreams :=
          if e.value.backendFd.isSome then c.activeBackendStreams - 1
          else c.activeBackendStreams }

/-- What a function does to the stream behind a pointer; behind a stale pointer there is none. -/
def H2Conn.withStream (c : H2Conn) (handle : ℕ) (f : H2Stream → ℕ → H2Stream × ℕ) : H2Conn :=
  match c.streams.entries.find? fun e => e.handle = handle with
  | none => c
  | some e =>
      let r := f e.value c.activeBackendStreams
      { streams := c.streams.adjusted handle fun _ => r.1
        activeBackendStreams := r.2 }

/-- The stream pointers, in the order of the list. -/
def H2Conn.pointers (c : H2Conn) : List ℕ := c.streams.entries.map Entry.handle

/-! ### The callbacks -/

/-- A call of a callback, with what its system calls give. -/
inductive Callback where
  | beginHeaders (request : Bool) (id : ℤ) (allocates : Bool)
  | header (request : Bool) (id : ℤ) (name value : Bytes) (allocates : Bool)
  | frameRecv (requestEnd : Bool) (id : ℤ) (loopback : LoopbackIo) (submit : ℤ)
  | streamClose (id : ℤ)

/-- A text in a buffer of this size, up to its first NUL. -/
def bufferText (size : ℕ) (value : Bytes) : Bytes := (safeCopy size value).takeWhile (· ≠ 0)

/-- `on_begin_headers_callback`. -/
def onBeginHeadersCallback (request : Bool) (id : ℤ) (allocates : Bool) (c : H2Conn) : H2Conn :=
  if request then
    match getOrCreateStream allocates c id with
    | none => c
    | some c =>
        match findStream c id with
        | none => c
        | some e => c.withStream e.handle fun s active => ({ s with requestSeen := true }, active)
  else c

/-- A header field of a request. -/
def applyH2Header (name value : Bytes) (s : H2Stream) : H2Stream :=
  if name = ascii ":method" then { s with method := bufferText 16 value }
  else if name = ascii ":path" then { s with path := bufferText 2048 value }
  else if name = ascii ":authority" then { s with authority := bufferText 256 value }
  else s

/-- `on_header_callback`. -/
def onHeaderCallback (request : Bool) (id : ℤ) (name value : Bytes) (allocates : Bool)
    (c : H2Conn) : H2Conn :=
  if !request then c
  else
    match getOrCreateStream allocates c id with
    | none => c
    | some c =>
        match findStream c id with
        | none => c
        | some e => c.withStream e.handle fun s active => (applyH2Header name value s, active)

/-- What `on_frame_recv_callback` does with a request that is complete. -/
def answerRequest (cfg : Config) (client : Client) (loopback : LoopbackIo) (submit : ℤ)
    (s : H2Stream) (active : ℕ) : H2Stream × ℕ :=
  let s : H2Stream :=
    { s with authority := if s.authority = [] then ascii "localhost" else s.authority }
  if !streqCi s.method (ascii "GET") && !streqCi s.method (ascii "HEAD") then
    ({ s with responseSubmitted := submit = 0 }, active)
  else startLoopbackRequestAsync cfg client loopback s active

/-- `on_frame_recv_callback`. -/
def onFrameRecvCallback (cfg : Config) (client : Client) (requestEnd : Bool) (id : ℤ)
    (loopback : LoopbackIo) (submit : ℤ) (c : H2Conn) : H2Conn :=
  if requestEnd then
    match findStream c id with
    | none => c
    | some e => c.withStream e.handle (answerRequest cfg client loopback submit)
  else c

/-- `on_stream_close_callback`. -/
def onStreamCloseCallback (id : ℤ) (c : H2Conn) : H2Conn := removeStream c id

/-- The callback that is called. -/
def Callback.run (cfg : Config) (client : Client) (c : H2Conn) : Callback → H2Conn
  | .beginHeaders request id allocates => onBeginHeadersCallback request id allocates c
  | .header request id name value allocates => onHeaderCallback request id name value allocates c
  | .frameRecv requestEnd id loopback submit =>
      onFrameRecvCallback cfg client requestEnd id loopback submit c
  | .streamClose id => onStreamCloseCallback id c

/-- A call of `nghttp2_session_send` or `nghttp2_session_mem_recv`: the callbacks it calls, and its
result. -/
structure SessionCall where
  callbacks : List Callback
  rc : ℤ

/-- The callbacks of a call of the session. -/
def runCallbacks (cfg : Config) (client : Client) (callbacks : List Callback) (c : H2Conn) :
    H2Conn :=
  callbacks.foldl (Callback.run cfg client) c

/-- `NGHTTP2_ERR_WOULDBLOCK`. -/
def errWouldblock : ℤ := -504

/-- `h2_drive_session_send`, if the session wants to write. -/
def driveSessionSend (cfg : Config) (client : Client) (send : Option SessionCall) (c : H2Conn) :
    H2Conn × ℤ :=
  match send with
  | none => (c, 0)
  | some call =>
      (runCallbacks cfg client call.callbacks c, if call.rc = errWouldblock then 0 else call.rc)

/-! ### The steps of a pass -/

/-- `submit_ready_streams` on one stream: the result of a submission is given. -/
def submitReadyStream (submit : ℤ) (s : H2Stream) : H2Stream × ℤ :=
  if s.responseSubmitted then (s, 0)
  else if s.backendState = .done || s.backendState = .failed then
    if submit ≠ 0 then (s, submit)
    else ({ s with responseSubmitted := true, rawResponse := [] }, 0)
  else (s, 0)

/-- The loop of `submit_ready_streams` over these pointers. -/
def submitLoop (submit : ℕ → ℤ) : List ℕ → H2Conn → H2Conn × ℤ
  | [], c => (c, 0)
  | handle :: handles, c =>
      match c.streams.entries.find? fun e => e.handle = handle with
      | none => submitLoop submit handles c
      | some e =>
          let r := submitReadyStream (submit handle) e.value
          let c := c.withStream handle fun s active => ((submitReadyStream (submit handle) s).1, active)
          if r.2 ≠ 0 then (c, r.2) else submitLoop submit handles c

/-- `submit_ready_streams`. -/
def submitReadyStreams (submit : ℕ → ℤ) (c : H2Conn) : H2Conn × ℤ :=
  submitLoop submit c.pointers c

/-- `retry_delayed_loopbacks`. -/
def retryDelayedLoopbacks (cfg : Config) (client : Client) (io : ℕ → RetryIo) (c : H2Conn) :
    H2Conn :=
  c.pointers.foldl
    (fun c handle => c.withStream handle (retryDelayedLoopback cfg client (io handle))) c

/-- `has_active_streams`. -/
def hasActiveStreams (c : H2Conn) : Bool := c.streams.entries ≠ []

/-- `has_backend_work`. -/
def hasBackendWork (c : H2Conn) : Bool := c.streams.entries.any fun e => e.value.working

/-- `poll_streams`: the pointers of the streams with an open backend. -/
def pollStreams (c : H2Conn) : List ℕ :=
  (c.streams.entries.filter fun e => e.value.backendFd.isSome).map Entry.handle

/-- A `SSL_read`: bytes for `nghttp2_session_mem_recv`, nothing for now, or an end. -/
inductive SslRead where
  | data (call : SessionCall)
  | again
  | closed

/-- The callbacks of the loop around `SSL_read`. -/
def receivedCallbacks : List SslRead → List Callback
  | .data call :: reads =>
      if call.rc < 0 then call.callbacks else call.callbacks ++ receivedCallbacks reads
  | _ => []

/-- `close_requested` behind the loop around `SSL_read`. -/
def closeRequested : List SslRead → Bool
  | .data call :: reads => call.rc < 0 || closeRequested reads
  | .closed :: _ => true
  | _ => false

/-- What is ready when `poll` returns, and what the calls behind it find. -/
structure Ready where
  pollout : Bool
  pollin : Bool
  /-- The events of the `i`-th recorded stream. -/
  revents : ℕ → Revents
  send : Option SessionCall
  reads : List SslRead
  backend : ℕ → BackendIo

/-- The result of the `send` behind `poll`. -/
def Ready.sent (ready : Ready) : Option SessionCall := if ready.pollout then ready.send else none

/-- The callbacks that are called between `poll` and the loop over the recorded streams. -/
def Ready.callbacks (ready : Ready) : List Callback :=
  (match ready.sent with
    | some call => call.callbacks
    | none => []) ++
  if ready.pollin then receivedCallbacks ready.reads else []

/-- A call of `h2_progress_backend_stream`: the stream pointer, and the connection at that time. -/
structure ProgressCall where
  handle : ℕ
  conn : H2Conn

/-- The loop over the recorded streams that are left, with their places. -/
def progressLoop (ready : Ready) : List (ℕ × ℕ) → H2Conn → H2Conn × List ProgressCall
  | [], c => (c, [])
  | (handle, i) :: rest, c =>
      if ready.revents i = {} then progressLoop ready rest c
      else
        let r := progressLoop ready rest (c.withStream handle fun s active =>
          (h2ProgressBackendStream (ready.revents i) (ready.backend i) s active).state)
        (r.1, ⟨handle, c⟩ :: r.2)

/-- The result of `poll`. -/
inductive PollResult where
  | failed
  | timeout
  | ready (ready : Ready)

/-- What a pass of the loop finds. -/
structure Pass where
  /-- `nghttp2_session_want_read` or `nghttp2_session_want_write`. -/
  wants : Bool
  submit : ℕ → ℤ
  retry : ℕ → RetryIo
  send : Option SessionCall
  allocates : Bool
  poll : PollResult
  /-- The retries after a timeout. -/
  retryLate : ℕ → RetryIo
  submitLate : ℕ → ℤ
  sendLate : Option SessionCall

/-- The variables of the loop. -/
structure H2Loop where
  conn : H2Conn := {}
  idleMs : ℕ := 0
  closeRequested : Bool := false

/-- `H2_IDLE_TIMEOUT_MS`. -/
def h2IdleTimeoutMs : ℕ := 2000

/-- The part of a pass in front of `poll`; `none` is the end of the loop. -/
def beforePoll (cfg : Config) (client : Client) (p : Pass) (l : H2Loop) : Option H2Conn :=
  if l.closeRequested || !(p.wants || hasBackendWork l.conn) then none
  else
    let (c, rc) := submitReadyStreams p.submit l.conn
    if rc ≠ 0 then none
    else
      let (c, rc) := driveSessionSend cfg client p.send (retryDelayedLoopbacks cfg client p.retry c)
      if rc ≠ 0 then none
      else if !p.allocates then none
      else some c

/-- A timeout of `poll`. -/
def afterTimeout (cfg : Config) (client : Client) (p : Pass) (l : H2Loop) (c : H2Conn) :
    Option H2Loop :=
  let timeout := if hasActiveStreams c || hasBackendWork c then 10 else 100
  let c := retryDelayedLoopbacks cfg client p.retryLate c
  if !hasActiveStreams c && !hasBackendWork c then
    if h2IdleTimeoutMs ≤ l.idleMs + timeout then none
    else some { l with conn := c, idleMs := l.idleMs + timeout }
  else some { l with conn := c }

/-- The part of a pass behind `poll`, when something is ready. -/
def afterPoll (cfg : Config) (client : Client) (p : Pass) (l : H2Loop) (ready : Ready)
    (c : H2Conn) : Option H2Loop × List ProgressCall :=
  let recorded := (pollStreams c).zipIdx
  let (c, rc) := driveSessionSend cfg client ready.sent c
  if rc ≠ 0 then (none, [])
  else
    let c := if ready.pollin then runCallbacks cfg client (receivedCallbacks ready.reads) c else c
    let close := l.closeRequested || ready.pollin && closeRequested ready.reads
    let (c, calls) := progressLoop ready recorded c
    let (c, rc) := submitReadyStreams p.submitLate c
    if rc ≠ 0 then (none, calls)
    else
      let (c, rc) := driveSessionSend cfg client p.sendLate c
      if rc ≠ 0 then (none, calls)
      else (some { conn := c, idleMs := 0, closeRequested := close }, calls)

/-- A pass of the loop of `rpsiod_http2_serve_connection`: how it goes on, if it does, and the calls
of `h2_progress_backend_stream`. -/
def pass (cfg : Config) (client : Client) (p : Pass) (l : H2Loop) :
    Option H2Loop × List ProgressCall :=
  match beforePoll cfg client p l with
  | none => (none, [])
  | some c =>
      match p.poll with
      | .failed => (none, [])
      | .timeout => (afterTimeout cfg client p l c, [])
      | .ready ready => afterPoll cfg client p l ready c

/-- All calls of `h2_progress_backend_stream` in a run of the loop. -/
def serveConnection (cfg : Config) (client : Client) : List Pass → H2Loop → List ProgressCall
  | [], _ => []
  | p :: ps, l =>
      match pass cfg client p l with
      | (none, calls) => calls
      | (some l, calls) => calls ++ serveConnection cfg client ps l

end Rpsiod

import Rpsiod.Config.Route
import Rpsiod.Lib.Registry

/-!
# The streams of an HTTP/2 connection

A stream of an HTTP/2 client is answered over a plain HTTP/1.1 connection to the server itself, its
*backend*.  The functions here are those of `http2.c` on one stream: starting the loopback request,
retrying it, and what is done when `poll` says that its socket is ready.  They also count the
backends that are open, so each takes a stream and that count.

What the sockets give is an argument.  A `read` or `write` that is not listed would block.
-/

namespace Rpsiod

open ListSearch NamedObjects

/-- `h2_backend_state`. -/
inductive BackendState where
  | none
  | connecting
  | writing
  | reading
  | done
  | failed
  deriving DecidableEq

/-- `h2_stream`, without its id and its response body. -/
structure H2Stream where
  method : Bytes := ascii "GET"
  path : Bytes := ascii "/"
  authority : Bytes := []
  requestSeen : Bool := false
  /-- `backend_fd`; -1 is `none`. -/
  backendFd : Option ℕ := none
  backendState : BackendState := .none
  backendRequest : Bytes := []
  backendRequestOff : ℕ := 0
  rawResponse : Bytes := []
  backendAttempts : ℕ := 0
  responseSubmitted : Bool := false

/-- The backend has been started and is not done. -/
def H2Stream.working (s : H2Stream) : Bool :=
  s.backendState = .connecting || s.backendState = .writing || s.backendState = .reading

/-! ### Starting and closing a backend -/

/-- `rpsiod_strip_port`. -/
def stripPort (host : Bytes) : Bytes :=
  let host := host.takeWhile fun c => !(c == 32 || c == 9 || c == 13 || c == 10)
  if host.head? = some 91 then
    match splitFirst 93 host with
    | some (address, _) => address ++ [93]
    | none => host
  else
    match splitFirst 58 host.reverse with
    | some (_, name) => name.reverse
    | none => host

/-- `close_backend_stream`. -/
def closeBackendStream (s : H2Stream) (active : ℕ) : H2Stream × ℕ :=
  match s.backendFd with
  | some _ => ({ s with backendFd := none }, active - 1)
  | none => (s, active)

/-- A backend that is closed after an error. -/
def failBackend (s : H2Stream) (active : ℕ) : H2Stream × ℕ :=
  let r := closeBackendStream s active
  ({ r.1 with backendState := .failed }, r.2)

/-- The result of `connect`. -/
inductive ConnectResult where
  | connected
  | inProgress
  | failed
  deriving DecidableEq

/-- The system calls of `start_loopback_request_async`. -/
structure LoopbackIo where
  socket : Option ℕ
  setNonblocking : Bool
  connect : ConnectResult

/-- The authority of a stream, as its site is looked up. -/
def loopbackAuthority (s : H2Stream) : Bytes :=
  stripPort (safeCopy 256 (if s.authority ≠ [] then s.authority else ascii "localhost"))

/-- The loopback request. -/
def loopbackRequest (client : Client) (s : H2Stream) : Bytes :=
  s.method ++ ascii " " ++ s.path ++ ascii " HTTP/1.1\x0d\nHost: " ++
    (if s.authority ≠ [] then s.authority else loopbackAuthority s) ++
    ascii "\x0d\nConnection: close\x0d\nX-Forwarded-Proto: https\x0d\nX-Forwarded-For: " ++
    client.clientIp.bytes ++ ascii "\x0d\nX-Rpsiod-Internal-Scheme: https\x0d\n\x0d\n"

/-- `start_loopback_request_async`. -/
def startLoopbackRequestAsync (cfg : Config) (client : Client) (io : LoopbackIo) (s : H2Stream)
    (active : ℕ) : H2Stream × ℕ :=
  let failed : H2Stream := { s with backendState := .failed }
  match findSiteForListener cfg (loopbackAuthority s) client.localPort client.serverIp.bytes with
  | none => (failed, active)
  | some site =>
      if site.httpPort = 0 then (failed, active)
      else
        match io.socket with
        | none => (failed, active)
        | some fd =>
            if !io.setNonblocking then (failed, active)
            else if 8192 ≤ (loopbackRequest client s).length then (failed, active)
            else
              let s : H2Stream := { s with
                backendRequest := loopbackRequest client s
                backendRequestOff := 0
                backendFd := some fd
                backendState := .connecting
                backendAttempts := s.backendAttempts + 1 }
              match io.connect with
              | .connected => ({ s with backendState := .writing }, active + 1)
              | .inProgress => (s, active + 1)
              | .failed => failBackend s (active + 1)

/-- `H2_BACKEND_MAX_ATTEMPTS`. -/
def backendMaxAttempts : ℕ := 8

/-- What `retry_delayed_loopback` finds: whether `H2_BACKEND_RETRY_MS` are over, and its system
calls. -/
structure RetryIo where
  due : Bool
  loopback : LoopbackIo

/-- `retry_delayed_loopback`. -/
def retryDelayedLoopback (cfg : Config) (client : Client) (io : RetryIo) (s : H2Stream)
    (active : ℕ) : H2Stream × ℕ :=
  if backendMaxAttempts ≤ s.backendAttempts || s.rawResponse ≠ [] || !s.working then (s, active)
  else if !io.due then (s, active)
  else
    let r := closeBackendStream s active
    startLoopbackRequestAsync cfg client io.loopback
      { r.1 with
        rawResponse := []
        backendRequest := []
        backendRequestOff := 0
        backendState := .none } r.2

/-! ### A backend that is ready -/

/-- The events that `poll` reports. -/
structure Revents where
  pollin : Bool := false
  pollout : Bool := false
  pollerr : Bool := false
  pollhup : Bool := false
  pollnval : Bool := false
  deriving DecidableEq

/-- The result of `write`. -/
inductive WriteResult where
  | wrote (n : ℕ)
  | interrupted
  | again
  | failed

/-- The result of `read`, and whether `append_bytes` can enlarge its buffer. -/
inductive ReadResult where
  | data (bytes : Bytes) (allocates : Bool)
  | eof
  | interrupted
  | again
  | failed

/-- The system calls of `h2_progress_backend_stream`. -/
structure BackendIo where
  socketError : Bool
  writes : List WriteResult
  reads : List ReadResult

/-- Where a part of `h2_progress_backend_stream` ends: with the next part, or with the function. -/
inductive Progress where
  | next (s : H2Stream) (active : ℕ)
  | stop (s : H2Stream) (active : ℕ) (rc : ℤ)

/-- The stream and the count, when the function has returned. -/
def Progress.state : Progress → H2Stream × ℕ
  | .next s active => (s, active)
  | .stop s active _ => (s, active)

/-- An error in `h2_progress_backend_stream`. -/
def Progress.fail (s : H2Stream) (active : ℕ) : Progress :=
  .stop (failBackend s active).1 (failBackend s active).2 1

/-- `H2_MAX_RESPONSE`. -/
def h2MaxResponse : ℕ := 64 * 1024 * 1024

/-- `append_bytes`. -/
def appendBytes (buf data : Bytes) (allocates : Bool) : Option Bytes :=
  if h2MaxResponse < data.length || h2MaxResponse - data.length < buf.length || !allocates then none
  else some (buf ++ data)

/-- The part for `H2_BACKEND_CONNECTING`. -/
def progressConnecting (revents : Revents) (io : BackendIo) (s : H2Stream) (active : ℕ) :
    Progress :=
  if s.backendState = .connecting then
    if !revents.pollout && !revents.pollerr && !revents.pollhup then .stop s active 0
    else if io.socketError then .fail s active
    else .next { s with backendState := .writing } active
  else .next s active

/-- The loop for `H2_BACKEND_WRITING`. -/
def writeLoop : List WriteResult → H2Stream → ℕ → Progress
  | writes, s, active =>
      if s.backendRequestOff < s.backendRequest.length then
        match writes with
        | [] => .stop s active 0
        | .wrote n :: writes =>
            if n = 0 then .stop s active 0
            else
              writeLoop writes
                { s with
                  backendRequestOff := min (s.backendRequestOff + n) s.backendRequest.length }
                active
        | .interrupted :: writes => writeLoop writes s active
        | .again :: _ => .stop s active 0
        | .failed :: _ => .fail s active
      else .next { s with backendState := .reading } active

/-- The part for `H2_BACKEND_WRITING`. -/
def progressWriting (io : BackendIo) (s : H2Stream) (active : ℕ) : Progress :=
  if s.backendState = .writing then writeLoop io.writes s active else .next s active

/-- The loop for `H2_BACKEND_READING`. -/
def readLoop : List ReadResult → H2Stream → ℕ → Progress
  | [], s, active => .stop s active 0
  | .data bytes allocates :: reads, s, active =>
      match appendBytes s.rawResponse bytes allocates with
      | none => .fail s active
      | some rawResponse => readLoop reads { s with rawResponse := rawResponse } active
  | .eof :: _, s, active =>
      let r := closeBackendStream s active
      .stop { r.1 with backendState := .done } r.2 1
  | .interrupted :: reads, s, active => readLoop reads s active
  | .again :: _, s, active => .stop s active 0
  | .failed :: _, s, active => .fail s active

/-- The part for `H2_BACKEND_READING`. -/
def progressReading (io : BackendIo) (s : H2Stream) (active : ℕ) : Progress :=
  if s.backendState = .reading then readLoop io.reads s active else .stop s active 0

/-- `if (…) return …;` and on with the next part. -/
def Progress.bind (p : Progress) (next : H2Stream → ℕ → Progress) : Progress :=
  match p with
  | .next s active => next s active
  | .stop s active rc => .stop s active rc

/-- `h2_progress_backend_stream`. -/
def h2ProgressBackendStream (revents : Revents) (io : BackendIo) (s : H2Stream) (active : ℕ) :
    Progress :=
  ((progressConnecting revents io s active).bind (progressWriting io)).bind (progressReading io)

end Rpsiod

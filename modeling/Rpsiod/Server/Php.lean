import Rpsiod.Lib.Chunked
import Rpsiod.Lib.FastCgi
import Rpsiod.Server.Dispatch
import Rpsiod.Server.Replies

/-!
# Streaming a FastCGI response (`send_php_fpm`)

Behind the request `send_php_fpm` reads one record after the other.  The contents of STDOUT
records are collected in a buffer of 65536 bytes until the blank line behind the CGI header is
there; then the head goes out and, from there on, the contents of the records are passed on, as
chunks unless the backend has announced a length.

`phpStep` is the loop body on one record, `phpLoop` the loop on the pieces in which the socket
gives the records.

* `phpLoop_eq`: **the pieces do not matter**; the loop is a run of `phpStep` over the records that
  the bytes of the stream decode to.
-/

namespace Rpsiod

open ListSearch Crlf Chunked FastCgi

/-! ### The request -/

/-- The length of a name or value: one byte, or four with the top bit set. -/
def fcgiLength (n : ℕ) : Bytes :=
  if n < 128 then [UInt8.ofNat n]
  else [UInt8.ofNat (128 + n / 2 ^ 24 % 128), UInt8.ofNat (n / 2 ^ 16 % 256),
    UInt8.ofNat (n / 2 ^ 8 % 256), UInt8.ofNat (n % 256)]

/-- `fcgi_name_value`. -/
def fcgiNameValue (name value : Bytes) : Bytes :=
  fcgiLength name.length ++ fcgiLength value.length ++ name ++ value

/-- `fcgi_add_param`. -/
def fcgiAddParam (bufLen : ℕ) (params : Bytes) (p : Field) : Option Bytes :=
  if bufLen - params.length < (fcgiNameValue p.1 p.2).length then none
  else some (params ++ fcgiNameValue p.1 p.2)

/-- `request_https`. -/
def requestHttps (client : Client) (site : Site) (req : HttpRequest) : Bool :=
  client.localPort = site.httpsPort || trustedInternalHttps client req

/-- `clean_script`. -/
def cleanScript (script : Bytes) : Bytes := (safeCopy 4096 script).takeWhile (· ≠ 63)

/-- `script_filename`. -/
def scriptFilename (site : Site) (script : Bytes) : Bytes :=
  site.staticRootReal.bytes ++ ascii "/" ++ cleanScript script

/-- `script_name`. -/
def scriptName (script : Bytes) : Bytes := ascii "/" ++ cleanScript script

/-- The CGI variables of a request. -/
def fcgiParamList (client : Client) (site : Site) (req : HttpRequest) (script : Bytes) :
    List Field :=
  let https := requestHttps client site req
  let port := if https && site.httpsPort ≠ 0 then site.httpsPort else client.localPort
  [(ascii "GATEWAY_INTERFACE", ascii "CGI/1.1"),
    (ascii "SERVER_SOFTWARE", ascii "rpsiod"),
    (ascii "REQUEST_METHOD", req.method),
    (ascii "QUERY_STRING", req.queryString),
    (ascii "REQUEST_URI", req.path),
    (ascii "SCRIPT_FILENAME", scriptFilename site script),
    (ascii "SCRIPT_NAME", scriptName script),
    (ascii "DOCUMENT_ROOT", site.staticRootReal.bytes),
    (ascii "SERVER_PROTOCOL", ascii "HTTP/1.1"),
    (ascii "REMOTE_ADDR", client.clientIp.bytes),
    (ascii "SERVER_ADDR", client.serverIp.bytes),
    (ascii "SERVER_NAME", req.host),
    (ascii "HTTP_HOST", req.host),
    (ascii "SERVER_PORT", decimal port.toNat),
    (ascii "REQUEST_SCHEME", if https then ascii "https" else ascii "http"),
    (ascii "HTTPS", if https then ascii "on" else ascii "off"),
    (ascii "CONTENT_LENGTH", decimal req.contentLength)]

/-- The parameters in their buffer of 8192 bytes, if they fit. -/
def fcgiParams (client : Client) (site : Site) (req : HttpRequest) (script : Bytes) :
    Option Bytes :=
  (fcgiParamList client site req script).foldlM (fcgiAddParam 8192) []

/-! ### The CGI header -/

/-- What the CGI header decides about the head of the response. -/
structure CgiHead where
  status : ℤ := 200
  contentType : Bytes := ascii "text/html; charset=utf-8"
  contentLength : Option ℕ := none
  deriving DecidableEq

/-- The value of a CGI `Content-Length`, if it counts: `end` is moved over blanks before it is
compared with the start. -/
def cgiContentLength (value : Bytes) : Option ℕ :=
  let r := strtoull value
  let rest := r.rest.dropWhile isBlank
  if rest.length ≠ value.length && rest = [] && !r.erange && r.value ≤ 2 ^ 63 - 1 then
    some r.value
  else none

/-- One line of the CGI header. -/
def applyCgiLine (h : CgiHead) (line : Bytes) : CgiHead :=
  if startsWith line (ascii "Status:") then { h with status := atoi (line.drop 7) }
  else if startsWith line (ascii "Content-Type:") then
    { h with contentType := safeCopy 256 ((line.drop 13).dropWhile (· = 32)) }
  else if startsWith line (ascii "Content-Length:") then
    { h with
      contentLength := (cgiContentLength ((line.drop 15).dropWhile (· = 32))).or h.contentLength }
  else h

/-- The CGI header up to its first NUL, as `strndup` copies it. -/
def cgiHeaders (buffer : Bytes) (stop : ℕ) : Bytes := (buffer.take stop).takeWhile (· ≠ 0)

/-- The CGI header, line by line. -/
def parseCgiHead (headers : Bytes) : CgiHead := (strtokLines headers).foldl applyCgiLine {}

/-! ### The loop -/

/-- A FastCGI backend. -/
structure Fpm where
  /-- `connect_php_fpm`. -/
  connects : Bool
  /-- Whether it takes the BEGIN_REQUEST record, the parameters and the body. -/
  takesBegin : Bool
  takesParams : Bool
  takesStdin : Bool
  pieces : List Piece
  ending : BackendEnd

/-- `sizeof(header_buffer)`. -/
def headerBufferLen : ℕ := 65536

/-- The variables of the loop. -/
structure PhpState where
  headerBuffer : Bytes := []
  responseStarted : Bool := false
  chunkedResponse : Bool := false
  status : ℤ := 200
  bytesStreamed : ℕ := 0

/-- Where the loop body ends: with the next record, or with the function. -/
inductive Flow where
  | next (st : PhpState) (t : Trace)
  | stop (r : Trace × ℤ)

/-- `if (stream_rc < 0) return -1;` -/
def Flow.after (r : Trace × ℤ) (st : PhpState) : Flow :=
  if r.2 < 0 then .stop (r.1, -1) else .next st r.1

variable (w : World) (site : Site) (req : HttpRequest)

/-- `client_write_chunked_body`. -/
def clientWriteChunkedBody (body : Bytes) (t : Trace) : Trace × ℤ :=
  if body = [] then (t, 0)
  else
    clientWritevAll w.peer w.client.tls
      [(.body, hexadecimal body.length ++ crlf), (.body, body), (.body, crlf)] t

/-- `client_write_chunked_end`. -/
def clientWriteChunkedEnd (t : Trace) : Trace × ℤ :=
  clientWriteAll w.peer .body (ascii "0\x0d\n\x0d\n") t

/-- Body bytes of the backend. -/
def writePhpBody (body : Bytes) (chunkedResponse : Bool) (t : Trace) : Trace × ℤ :=
  if req.headOnly then (t, 0)
  else if chunkedResponse then clientWriteChunkedBody w body t
  else clientWriteAll w.peer .body body t

/-- Whether the response to this CGI header goes out in chunks. -/
def phpChunked (h : CgiHead) : Bool := h.contentLength.isNone && !req.headOnly

/-- The head of the response, and what is behind the CGI header in the buffer. -/
def phpStart (headerBuffer : Bytes) (stop : ℕ) (t : Trace) : Flow :=
  if !w.allocates then .stop (sendErrorPage w site 500 req t)
  else
    let headers := cgiHeaders headerBuffer stop
    let h := parseCgiHead headers
    let chunkedResponse := phpChunked req h
    let r := writePhpResponseHeaders w.peer w.host w.client site h.status h.contentType
      h.contentLength req.keepAlive headers chunkedResponse t
    let body := headerBuffer.drop (stop + 4)
    let st : PhpState :=
      { headerBuffer := headerBuffer
        responseStarted := true
        chunkedResponse := chunkedResponse
        status := h.status
        bytesStreamed := body.length }
    if r.2 < 0 then .stop (r.1, -1)
    else if body = [] then .next st r.1
    else .after (writePhpBody w req body chunkedResponse r.1) st

/-- The end of the response, at an END_REQUEST record. -/
def phpFinish (st : PhpState) (t : Trace) : Trace × ℤ :=
  if !st.responseStarted then
    let length := st.headerBuffer.length
    let r := writePhpResponseHeaders w.peer w.host w.client site st.status
      (ascii "text/html; charset=utf-8") (some length) req.keepAlive [] false t
    let r :=
      if r.2 = 0 && !req.headOnly && st.headerBuffer ≠ [] then
        clientWriteAll w.peer .body st.headerBuffer r.1
      else r
    (logAccess st.status length r.1, r.2)
  else
    let r := if st.chunkedResponse && !req.headOnly then clientWriteChunkedEnd w t else (t, 0)
    (logAccess st.status st.bytesStreamed r.1, r.2)

/-- The loop body of `send_php_fpm` on a record. -/
def phpStep (r : Record) (st : PhpState) (t : Trace) : Flow :=
  if r.kind = 6 && r.content ≠ [] then
    if !st.responseStarted then
      if headerBufferLen - st.headerBuffer.length < r.content.length then
        .stop (backendError w site req 502 t)
      else
        let headerBuffer := st.headerBuffer ++ r.content
        match indexOfSub crlfcrlf headerBuffer with
        | none => .next { st with headerBuffer := headerBuffer } t
        | some stop => phpStart w site req headerBuffer stop t
    else
      .after (writePhpBody w req r.content st.chunkedResponse t)
        { st with bytesStreamed := st.bytesStreamed + r.content.length }
  else if r.kind = 3 then .stop (phpFinish w site req st t)
  else .next st t

/-- The loop of `send_php_fpm`; every round takes at least eight bytes. -/
def phpLoop (ending : BackendEnd) : ℕ → List Piece → PhpState → Trace → Trace × ℤ
  | 0, _, _, t => (t, -1)
  | fuel + 1, pieces, st, t =>
      match readRecord pieces with
      | none => backendError w site req ending.status t
      | some (r, pieces) =>
          match phpStep w site req r st t with
          | .stop result => result
          | .next st t => phpLoop ending fuel pieces st t

/-- `send_php_fpm`. -/
def sendPhpFpm (script body : Bytes) (fpm : Fpm) (t : Trace) : Trace × ℤ :=
  if !fpm.connects then backendError w site req 502 t
  else if !fpm.takesBegin then backendError w site req 502 t
  else if 4096 ≤ (scriptFilename site script).length then sendErrorPage w site 414 req t
  else if 4096 ≤ (scriptName script).length then sendErrorPage w site 414 req t
  else
    match fcgiParams w.client site req script with
    | none => sendErrorPage w site 500 req t
    | some _ =>
        if !fpm.takesParams then backendError w site req 502 t
        else if 65535 < body.length then sendErrorPage w site 413 req t
        else if !fpm.takesStdin then backendError w site req 502 t
        else
          phpLoop w site req fpm.ending ((bytesOf fpm.pieces).length + 1) fpm.pieces {} t

/-! ### The run over the records -/

/-- What comes behind a loop body that goes on. -/
def Flow.bind (f : Flow) (next : PhpState → Trace → Flow) : Flow :=
  match f with
  | .next st t => next st t
  | .stop result => .stop result

/-- A run of the loop body over records. -/
def phpSteps : List Record → PhpState → Trace → Flow
  | [], st, t => .next st t
  | r :: rs, st, t => (phpStep w site req r st t).bind (phpSteps rs)

/-- What becomes of a run: if it has not ended itself, the stream has. -/
def Flow.finish (ending : BackendEnd) : Flow → Trace × ℤ
  | .stop result => result
  | .next _ t => backendError w site req ending.status t

theorem phpSteps_append (rs more : List Record) (st : PhpState) (t : Trace) :
    phpSteps w site req (rs ++ more) st t =
      (phpSteps w site req rs st t).bind (phpSteps w site req more) := by
  induction rs generalizing st t with
  | nil => rfl
  | cons r rs ih =>
      rw [List.cons_append, phpSteps, phpSteps]
      cases phpStep w site req r st t with
      | stop result => rfl
      | next st t => exact ih st t

/-- **The loop is a run over the records of the stream**, whatever its pieces. -/
theorem phpLoop_eq (ending : BackendEnd) (fuel : ℕ) (pieces : List Piece) (st : PhpState)
    (t : Trace) (h : (bytesOf pieces).length < fuel) :
    phpLoop w site req ending fuel pieces st t =
      (phpSteps w site req (decodeAll (bytesOf pieces)) st t).finish w site req ending := by
  induction fuel generalizing pieces st t with
  | zero => exact absurd h (Nat.not_lt_zero _)
  | succ fuel ih =>
      rw [phpLoop]
      rcases readRecord_eq pieces with ⟨r, rest, hread, hdecode⟩ | ⟨hread, hdecode⟩
      · have hshorter := decodeOne_length hdecode
        rw [hread, decodeAll_of_some hdecode, phpSteps]
        simp only
        cases phpStep w site req r st t with
        | stop result => rfl
        | next st t => exact ih rest st t (by omega)
      · rw [hread, decodeAll_of_none hdecode]
        rfl

end Rpsiod

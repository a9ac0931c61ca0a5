import Rpsiod.Config.Site
import Rpsiod.Http.Request
import Rpsiod.Server.Output

/-!
# Response heads (`build_response_headers`)

A head is built in a buffer of fixed size by appending one field after the other, each under its
own condition; `responseFields` is the list of the fields whose conditions hold, in the order of
the source.  What comes from the clock, the host name and the file system is in `Host`.

* `buildResponseHeaders_eq`: the head is the status line and these fields, if that fits.
* `phpResponseHead_eq`: the same with the fields of a FastCGI response behind them.
-/

namespace Rpsiod

open ListSearch Crlf

/-! ### Appending a field -/

/-- The line `name: value`. -/
def headerText (name value : Bytes) : Bytes := name ++ ascii ": " ++ value

/-- `append_header`: the line behind what is in the buffer, if it fits with a terminator. -/
def appendHeader (outLen : ℕ) (out name value : Bytes) : Option Bytes :=
  if outLen ≤ out.length then none
  else if outLen - out.length ≤ (headerText name value ++ crlf).length then none
  else some (out ++ (headerText name value ++ crlf))

/-- A field: its name and its value. -/
abbrev Field := Bytes × Bytes

/-- `append_header` for each of the fields. -/
def appendFields (outLen : ℕ) (out : Bytes) (fields : List Field) : Option Bytes :=
  fields.foldlM (fun out f => appendHeader outLen out f.1 f.2) out

/-- `header_removed`. -/
def headerRemoved (site : Option Site) (name : Bytes) : Bool :=
  site.any fun s => s.headersRemove.any fun removed => streqCi removed.bytes name

/-- `header_added`. -/
def headerAdded (site : Option Site) (name : Bytes) : Bool :=
  site.any fun s => s.headersAdd.any fun added => streqCi added.name.bytes name

/-- `protected_response_header`. -/
def protectedResponseHeader (name : Bytes) : Bool :=
  [ascii "Content-Length", ascii "Connection", ascii "Transfer-Encoding", ascii "Content-Type",
    ascii "Content-Encoding", ascii "Location", ascii "Content-Range", ascii "Retry-After",
    ascii "Cache-Control", ascii "Date", ascii "ETag", ascii "Last-Modified",
    ascii "Strict-Transport-Security", ascii "Accept-Ranges", ascii "X-Served-By",
    ascii "X-Cache", ascii "X-Cache-Hits", ascii "X-Timer", ascii "X-Request-ID", ascii "Vary",
    ascii "Alt-Svc", ascii "Server"].any fun known => streqCi name known

/-! ### The fields of a response -/

/-- The parts of `struct stat` that responses use. -/
structure FileStat where
  ino : ℕ
  size : ℕ
  mtime : ℕ
  deriving DecidableEq

/-- `response_options`. -/
structure ResponseOptions where
  site : Option Site := none
  contentEncoding : Option Bytes := none
  location : Option Bytes := none
  contentRange : Option Bytes := none
  retryAfter : Option Bytes := none
  etag : Option Bytes := none
  fileStat : Option FileStat := none
  cacheControl : Bool := false
  acceptRanges : Bool := false
  varyAcceptEncoding : Bool := false
  suppressDefaultCacheControl : Bool := false
  chunkedResponse : Bool := false

/-- What a head takes from its surroundings. -/
structure Host where
  /-- `format_http_time`. -/
  httpTime : ℕ → FieldText
  now : ℕ
  servedBy : FieldText
  requestId : ℕ
  startedSec : ℕ
  startedMs : ℕ
  elapsedMs : ℕ

/-- `rpsiod_http_status_text`. -/
def httpStatusText (status : ℤ) : Bytes :=
  if status = 200 then ascii "OK"
  else if status = 206 then ascii "Partial Content"
  else if status = 304 then ascii "Not Modified"
  else if status = 301 then ascii "Moved Permanently"
  else if status = 302 then ascii "Found"
  else if status = 400 then ascii "Bad Request"
  else if status = 403 then ascii "Forbidden"
  else if status = 404 then ascii "Not Found"
  else if status = 405 then ascii "Method Not Allowed"
  else if status = 413 then ascii "Payload Too Large"
  else if status = 414 then ascii "URI Too Long"
  else if status = 416 then ascii "Range Not Satisfiable"
  else if status = 429 then ascii "Too Many Requests"
  else if status = 502 then ascii "Bad Gateway"
  else if status = 504 then ascii "Gateway Timeout"
  else if status = 500 then ascii "Internal Server Error"
  else if status = 503 then ascii "Service Unavailable"
  else ascii "Error"

/-- The status line. -/
def statusLine (status : ℤ) : Bytes :=
  ascii "HTTP/1.1 " ++ decimalInt status ++ ascii " " ++ httpStatusText status

/-- The entity tag of a file. -/
def fileEtag (st : FileStat) : Bytes :=
  ascii "W/\"" ++ hexadecimal st.ino ++ ascii "-" ++ hexadecimal st.size ++ ascii "-" ++
    hexadecimal st.mtime ++ ascii "\""

/-- A number in three places, `%03ld`. -/
def threePlaces (n : ℕ) : Bytes := List.replicate (3 - (decimal n).length) 48 ++ decimal n

/-- The value of `X-Timer`. -/
def timerValue (host : Host) : Bytes :=
  ascii "S" ++ decimal host.startedSec ++ threePlaces host.startedMs ++ ascii ",VS0,VE" ++
    decimal host.elapsedMs

/-- A field that is there under a condition and unless the site removes it. -/
def fieldIf (site : Option Site) (present : Bool) (name value : Bytes) : List Field :=
  if present && !headerRemoved site name then [(name, value)] else []

/-- A field that is there if its value is given, unless the site removes it. -/
def fieldOf (site : Option Site) (name : Bytes) (value : Option Bytes) : List Field :=
  match value with
  | some value => fieldIf site true name value
  | none => []

/-- `Content-Length` or `Transfer-Encoding`. -/
def framingFields (site : Option Site) (contentLength : Option ℕ) (chunkedResponse : Bool) :
    List Field :=
  match contentLength with
  | some n => fieldIf site true (ascii "Content-Length") (decimal n)
  | none => if chunkedResponse then [(ascii "Transfer-Encoding", ascii "chunked")] else []

/-- The value of `Cache-Control`. -/
def cacheControlValue (opts : ResponseOptions) : Bytes :=
  match opts.site with
  | some site =>
      if opts.cacheControl && site.cacheEnabled && site.cacheDefault.bytes ≠ [] then
        site.cacheDefault.bytes
      else ascii "no-cache"
  | none => ascii "no-cache"

/-- The value of `ETag`: given, or made from the file. -/
def etagValue (opts : ResponseOptions) : Option Bytes :=
  opts.etag.or (opts.fileStat.map fileEtag)

/-- The fields in front of the framing field. -/
def leadingFields (host : Host) (contentType : Bytes) (opts : ResponseOptions) : List Field :=
  let hidden := opts.site.any fun s => s.hideServerHeader
  fieldIf opts.site true (ascii "Date") (host.httpTime host.now).bytes ++
  fieldIf opts.site (!hidden) (ascii "Server") (ascii "rpsiod") ++
  fieldOf opts.site (ascii "Location") opts.location ++
  fieldOf opts.site (ascii "Content-Range") opts.contentRange ++
  fieldOf opts.site (ascii "Retry-After") opts.retryAfter ++
  fieldIf opts.site true (ascii "Content-Type") contentType

/-- The server's own fields behind the framing field. -/
def trailingFields (host : Host) (client : Client) (keepAlive : Bool) (opts : ResponseOptions) :
    List Field :=
  fieldOf opts.site (ascii "Content-Encoding") opts.contentEncoding ++
  fieldIf opts.site (!opts.suppressDefaultCacheControl) (ascii "Cache-Control")
    (cacheControlValue opts) ++
  fieldOf opts.site (ascii "ETag") (etagValue opts) ++
  fieldOf opts.site (ascii "Last-Modified")
    (opts.fileStat.map fun st => (host.httpTime st.mtime).bytes) ++
  fieldIf opts.site client.tls (ascii "Strict-Transport-Security")
    (ascii "max-age=31536000; includeSubDomains") ++
  fieldIf opts.site opts.acceptRanges (ascii "Accept-Ranges") (ascii "bytes") ++
  fieldIf opts.site true (ascii "Connection")
    (if keepAlive then ascii "keep-alive" else ascii "close") ++
  fieldIf opts.site true (ascii "X-Served-By") host.servedBy.bytes ++
  fieldIf opts.site true (ascii "X-Cache") (ascii "MISS") ++
  fieldIf opts.site true (ascii "X-Cache-Hits") (ascii "0") ++
  fieldIf opts.site true (ascii "X-Timer") (timerValue host) ++
  fieldIf opts.site true (ascii "X-Request-ID") (hexadecimal host.requestId) ++
  fieldIf opts.site opts.varyAcceptEncoding (ascii "Vary") (ascii "Accept-Encoding") ++
  fieldIf opts.site true (ascii "Alt-Svc") (ascii "clear") ++
  fieldIf opts.site (!headerAdded opts.site (ascii "X-Content-Type-Options"))
    (ascii "X-Content-Type-Options") (ascii "nosniff")

/-- The fields the site adds. -/
def addedFields (site : Option Site) : List Field :=
  match site with
  | some s =>
      (s.headersAdd.filter fun added =>
        !protectedResponseHeader added.name.bytes && !headerRemoved site added.name.bytes).map
          fun added => (added.name.bytes, added.value.bytes)
  | none => []

/-- All fields of a response. -/
def responseFields (host : Host) (client : Client) (contentType : Bytes)
    (contentLength : Option ℕ) (keepAlive : Bool) (opts : ResponseOptions) : List Field :=
  leadingFields host contentType opts ++
    framingFields opts.site contentLength opts.chunkedResponse ++
    trailingFields host client keepAlive opts ++ addedFields opts.site

/-- `build_response_headers`; a length of -1 is `none`. -/
def buildResponseHeaders (host : Host) (client : Client) (status : ℤ) (contentType : Bytes)
    (contentLength : Option ℕ) (keepAlive : Bool) (opts : ResponseOptions) (headersLen : ℕ) :
    Option Bytes :=
  let headers := statusLine status ++ crlf
  if headersLen ≤ headers.length then none
  else
    match appendFields headersLen headers
        (responseFields host client contentType contentLength keepAlive opts) with
    | none => none
    | some headers => if headersLen ≤ headers.length + 2 then none else some (headers ++ crlf)

/-- `char headers[16384]` of every caller. -/
def responseHeadLen : ℕ := 16384

/-- `write_response_headers`. -/
def writeResponseHeaders (peer : Peer) (host : Host) (client : Client) (status : ℤ)
    (contentType : Bytes) (contentLength : Option ℕ) (keepAlive : Bool) (opts : ResponseOptions)
    (t : Trace) : Trace × ℤ :=
  match buildResponseHeaders host client status contentType contentLength keepAlive opts
      responseHeadLen with
  | none => (t, -1)
  | some headers => clientWriteAll peer .head headers t

/-! ### The fields of a FastCGI response -/

/-- `strtok_r(text, "\r\n", &save)` until it is done. -/
def strtokLines (text : Bytes) : List Bytes :=
  (text.splitOnP fun c => c = 13 || c = 10).filter fun line => line ≠ []

/-- `response_header_token_valid`. -/
def responseHeaderTokenValid (name : Bytes) : Bool := validHeaderName name

/-- `response_header_value_valid`. -/
def responseHeaderValueValid (value : Bytes) : Bool := validHeaderValue value

/-- `php_response_header_allowed`. -/
def phpResponseHeaderAllowed (name : Bytes) : Bool :=
  !([ascii "Status", ascii "Content-Type", ascii "Content-Length", ascii "Connection",
    ascii "Keep-Alive", ascii "Proxy-Authenticate", ascii "Proxy-Authorization", ascii "TE",
    ascii "Trailer", ascii "Transfer-Encoding", ascii "Upgrade", ascii "Server", ascii "Date",
    ascii "Strict-Transport-Security", ascii "X-Served-By", ascii "X-Cache",
    ascii "X-Cache-Hits", ascii "X-Timer", ascii "X-Request-ID", ascii "Alt-Svc"].any
      fun known => streqCi name known)

/-- The field on a line of a FastCGI response, if it is passed on. -/
def phpField (site : Option Site) (line : Bytes) : Option Field :=
  match splitFirst 58 line with
  | none => none
  | some (name, value) =>
      if responseHeaderTokenValid (trim name) && responseHeaderValueValid (trim value) &&
          phpResponseHeaderAllowed (trim name) && !headerRemoved site (trim name) then
        some (trim name, trim value)
      else none

/-- The fields that `append_php_response_headers` appends. -/
def phpFields (site : Option Site) (cgiHeaders : Bytes) : List Field :=
  (strtokLines cgiHeaders).filterMap (phpField site)

/-- The options of a FastCGI response. -/
def phpOptions (site : Site) (chunkedResponse : Bool) : ResponseOptions :=
  { site := some site
    suppressDefaultCacheControl := true
    chunkedResponse := chunkedResponse }

/-- The head of `write_php_response_headers`: the blank line of `build_response_headers` is taken
back and the fields of the backend come in front of a new one. -/
def phpResponseHead (host : Host) (client : Client) (site : Site) (status : ℤ)
    (contentType : Bytes) (contentLength : Option ℕ) (keepAlive : Bool) (cgiHeaders : Bytes)
    (chunkedResponse : Bool) : Option Bytes :=
  match buildResponseHeaders host client status contentType contentLength keepAlive
      (phpOptions site chunkedResponse) responseHeadLen with
  | none => none
  | some headers =>
      match appendFields responseHeadLen headers.dropLast.dropLast
          (phpFields (some site) cgiHeaders) with
      | none => none
      | some headers =>
          if responseHeadLen ≤ headers.length + 2 then none else some (headers ++ crlf)

/-- `write_php_response_headers`; a null pointer for the backend's headers is the empty text. -/
def writePhpResponseHeaders (peer : Peer) (host : Host) (client : Client) (site : Site)
    (status : ℤ) (contentType : Bytes) (contentLength : Option ℕ) (keepAlive : Bool)
    (cgiHeaders : Bytes) (chunkedResponse : Bool) (t : Trace) : Trace × ℤ :=
  match phpResponseHead host client site status contentType contentLength keepAlive cgiHeaders
      chunkedResponse with
  | none => (t, -1)
  | some headers => clientWriteAll peer .head headers t

/-! ### The head that is built -/

/-- The line of a field. -/
def fieldText (f : Field) : Bytes := headerText f.1 f.2

/-- A head of these lines. -/
def headOf (status : ℤ) (fields : List Field) : Bytes :=
  unlines (statusLine status :: fields.map fieldText) ++ crlf

/-- A text that fits into the buffer with a terminator. -/
def fitting (outLen : ℕ) (text : Bytes) : Option Bytes :=
  if text.length < outLen then some text else none

theorem appendHeader_eq {outLen : ℕ} {out name value : Bytes}
    (h : out.length + (headerText name value).length + 2 < outLen) :
    appendHeader outLen out name value = some (out ++ (headerText name value ++ crlf)) := by
  unfold appendHeader
  rw [if_neg (by omega), if_neg]
  rw [List.length_append]
  simp only [List.length_cons, List.length_nil]
  omega

theorem appendHeader_eq_fitting (outLen : ℕ) (out name value : Bytes) :
    appendHeader outLen out name value =
      fitting outLen (out ++ (headerText name value ++ crlf)) := by
  have hlength : (out ++ (headerText name value ++ crlf)).length =
      out.length + (headerText name value ++ crlf).length := List.length_append
  unfold appendHeader fitting
  rw [hlength]
  by_cases hlen : out.length + (headerText name value ++ crlf).length < outLen
  · rw [if_pos hlen, if_neg (by omega), if_neg (by omega)]
  · rw [if_neg hlen]
    by_cases hout : outLen ≤ out.length
    · rw [if_pos hout]
    · rw [if_neg hout, if_pos (by omega)]

/-- The fields one by one: everything is there, or it does not fit. -/
theorem appendFields_eq (outLen : ℕ) {out : Bytes} (fields : List Field)
    (h : out.length < outLen) :
    appendFields outLen out fields = fitting outLen (out ++ unlines (fields.map fieldText)) := by
  induction fields generalizing out with
  | nil =>
      unfold fitting
      rw [List.map_nil, unlines_nil, List.append_nil, if_pos h]
      rfl
  | cons f fields ih =>
      have hsplit : out ++ unlines ((f :: fields).map fieldText) =
          out ++ (headerText f.1 f.2 ++ crlf) ++ unlines (fields.map fieldText) := by
        rw [List.map_cons, unlines_cons]
        simp [fieldText]
      unfold appendFields at ih ⊢
      rw [List.foldlM_cons, appendHeader_eq_fitting, hsplit]
      unfold fitting
      by_cases hlen : (out ++ (headerText f.1 f.2 ++ crlf)).length < outLen
      · rw [if_pos hlen]
        exact ih hlen
      · rw [if_neg hlen, if_neg]
        · rfl
        · rw [List.length_append]
          omega

/-- The blank line behind the fields. -/
theorem fitting_blankLine (outLen : ℕ) (text : Bytes) :
    (match fitting outLen text with
      | none => none
      | some headers =>
          if outLen ≤ headers.length + 2 then none else some (headers ++ crlf)) =
      fitting outLen (text ++ crlf) := by
  have hlength : (text ++ crlf).length = text.length + 2 := List.length_append
  unfold fitting
  rw [hlength]
  by_cases hlen : text.length + 2 < outLen
  · rw [if_pos hlen, if_pos (by omega)]
    exact if_neg (by omega)
  · rw [if_neg hlen]
    by_cases hout : text.length < outLen
    · rw [if_pos hout]
      exact if_pos (by omega)
    · rw [if_neg hout]

/-- What is appended only makes a text longer. -/
theorem fitting_append_of_none {outLen : ℕ} {text more : Bytes} (h : outLen ≤ text.length) :
    fitting outLen (text ++ more) = none := by
  unfold fitting
  rw [List.length_append, if_neg (by omega)]

/-- **The head of a response**: the status line and its fields, if there is room. -/
theorem buildResponseHeaders_eq (host : Host) (client : Client) (status : ℤ) (contentType : Bytes)
    (contentLength : Option ℕ) (keepAlive : Bool) (opts : ResponseOptions) (headersLen : ℕ) :
    buildResponseHeaders host client status contentType contentLength keepAlive opts headersLen =
      fitting headersLen
        (headOf status (responseFields host client contentType contentLength keepAlive opts)) := by
  set fields := responseFields host client contentType contentLength keepAlive opts with hfields
  have hsplit : headOf status fields =
      statusLine status ++ crlf ++ unlines (fields.map fieldText) ++ crlf := by
    unfold headOf
    rw [unlines_cons]
  unfold buildResponseHeaders
  by_cases hlen : (statusLine status ++ crlf).length < headersLen
  · rw [if_neg (by omega), ← hfields, appendFields_eq headersLen fields hlen, hsplit]
    exact fitting_blankLine _ _
  · rw [if_pos (by omega), hsplit, List.append_assoc, fitting_append_of_none (by omega)]

/-- **The head of a FastCGI response**: the fields of the backend are behind the server's own. -/
theorem phpResponseHead_eq (host : Host) (client : Client) (site : Site) (status : ℤ)
    (contentType : Bytes) (contentLength : Option ℕ) (keepAlive : Bool) (cgiHeaders : Bytes)
    (chunkedResponse : Bool) :
    phpResponseHead host client site status contentType contentLength keepAlive cgiHeaders
        chunkedResponse =
      fitting responseHeadLen (headOf status
        (responseFields host client contentType contentLength keepAlive
            (phpOptions site chunkedResponse) ++ phpFields (some site) cgiHeaders)) := by
  unfold phpResponseHead
  rw [buildResponseHeaders_eq]
  set fields := responseFields host client contentType contentLength keepAlive
    (phpOptions site chunkedResponse)
  set more := phpFields (some site) cgiHeaders
  have hhead : headOf status fields =
      unlines (statusLine status :: fields.map fieldText) ++ crlf := rfl
  have hall : headOf status (fields ++ more) =
      unlines (statusLine status :: fields.map fieldText) ++ unlines (more.map fieldText) ++
        crlf := by
    unfold headOf
    rw [List.map_append, ← List.cons_append, unlines_append]
  set text := unlines (statusLine status :: fields.map fieldText)
  have hlength : (text ++ crlf).length = text.length + 2 := List.length_append
  rw [hall, hhead]
  by_cases hlen : (text ++ crlf).length < responseHeadLen
  · have hback : (text ++ crlf).dropLast.dropLast = text := by
      rw [show text ++ crlf = text ++ [13] ++ [10] by simp, List.dropLast_concat,
        List.dropLast_concat]
    have hfit : fitting responseHeadLen (text ++ crlf) = some (text ++ crlf) := if_pos hlen
    rw [hfit]
    simp only [hback]
    rw [appendFields_eq responseHeadLen more (by omega)]
    exact fitting_blankLine _ _
  · have hfit : fitting responseHeadLen (text ++ crlf) = none := if_neg hlen
    rw [hfit]
    unfold fitting
    rw [if_neg]
    rw [List.length_append, List.length_append]
    rw [hlength] at hlen
    simp only [List.length_cons, List.length_nil]
    omega

end Rpsiod

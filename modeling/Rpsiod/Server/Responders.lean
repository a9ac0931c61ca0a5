import Rpsiod.Server.Headers

/-!
# Responders without a backend

The functions of `server.c` that compose an answer themselves: a text, a redirect, the reply of
the rate limiter, a file and an error page.  Each takes the history so far to a longer one and
returns 0, or -1 after an error.  What they ask of the file system, of the compressors and of the
clock is in `World`; reading a file gives its `content` and then ends or fails.
-/

namespace Rpsiod

open ListSearch Crlf

/-- An opened file: `fstat`, whether it is a regular file, and what can be read of it. -/
structure OpenFile where
  stat : FileStat
  regular : Bool
  content : Bytes

/-- The surroundings of a responder. -/
structure World where
  peer : Peer
  host : Host
  client : Client
  /-- `open` of a configured page. -/
  openPage : Bytes → Option OpenFile
  /-- `rpsiod_static_open_site_path`. -/
  openSitePath : Site → Bytes → Option OpenFile
  /-- `parse_http_time`. -/
  parseHttpTime : Bytes → Option ℕ
  /-- `rpsiod_accepts_br`. -/
  acceptsBr : Bytes → Bool
  /-- `rpsiod_accepts_gzip`. -/
  acceptsGzip : Bytes → Bool
  /-- `rpsiod_brotli_compress`. -/
  brotliCompress : Bytes → Option Bytes
  /-- `rpsiod_gzip_compress`. -/
  gzipCompress : Bytes → Option Bytes
  /-- `rpsiod_gzip_store`. -/
  gzipStore : Bytes → Option Bytes
  /-- Whether `malloc` gives a buffer. -/
  allocates : Bool

/-- A host at the start of the epoch. -/
def sampleHost : Host where
  httpTime := fun _ => ⟨ascii "Thu, 01 Jan 1970 00:00:00 GMT", by decide⟩
  now := 0
  servedBy := ⟨ascii "rpsiod", by decide⟩
  requestId := 1
  startedSec := 0
  startedMs := 0
  elapsedMs := 0

/-- A client on the loopback interface that takes everything, and a server without files. -/
def sampleWorld : World where
  peer := .willing
  host := sampleHost
  client := ⟨80, false, .lit "127.0.0.1", .lit "127.0.0.1"⟩
  openPage := fun _ => none
  openSitePath := fun _ _ => none
  parseHttpTime := fun _ => none
  acceptsBr := fun _ => false
  acceptsGzip := fun _ => false
  brotliCompress := fun _ => none
  gzipCompress := fun _ => none
  gzipStore := fun _ => none
  allocates := true

variable (w : World)

/-- `write_response_headers` in these surroundings. -/
def World.writeHead (status : ℤ) (contentType : Bytes) (contentLength : Option ℕ)
    (keepAlive : Bool) (opts : ResponseOptions) (t : Trace) : Trace × ℤ :=
  writeResponseHeaders w.peer w.host w.client status contentType contentLength keepAlive opts t

/-! ### Texts -/

/-- The type of every text of the server. -/
def plainText : Bytes := ascii "text/plain; charset=utf-8"

/-- A head and a short body, and the log. -/
def sendShort (status : ℤ) (text : Bytes) (opts : ResponseOptions) (req : HttpRequest)
    (t : Trace) : Trace × ℤ :=
  andThen (w.writeHead status plainText (some text.length) req.keepAlive opts t) fun t =>
  andThen (if req.headOnly then (t, 0) else clientWritevAll w.peer w.client.tls [(.body, text)] t)
    fun t => (logAccess status text.length t, 0)

/-- `send_text`. -/
def sendText (site : Option Site) (status : ℤ) (text : Bytes) (req : HttpRequest) (t : Trace) :
    Trace × ℤ :=
  sendShort w status text { site := site } req t

/-- `send_redirect`. -/
def sendRedirect (site : Site) (status : ℤ) (location : Bytes) (req : HttpRequest) (t : Trace) :
    Trace × ℤ :=
  let body := decimalInt status ++ ascii " " ++ httpStatusText status ++ ascii "\n" ++ location ++
    ascii "\n"
  if 1024 ≤ body.length then (t, -1)
  else sendShort w status body { site := some site, location := some location } req t

/-- `send_rate_limited`. -/
def sendRateLimited (site : Site) (retryAfter : ℕ) (req : HttpRequest) (t : Trace) : Trace × ℤ :=
  let retry := decimal (if 0 < retryAfter then retryAfter else 1)
  sendShort w 429 (ascii "429 Too Many Requests\n")
    { site := some site, retryAfter := some retry } req t

/-! ### Files -/

/-- `strrchr(path, '.')`. -/
def extension (path : Bytes) : Option Bytes :=
  (splitFirst 46 path.reverse).map fun r => 46 :: r.1.reverse

/-- The extensions that `rpsiod_mime_type` knows, in the order it compares them. -/
def mimeTypes : List (Bytes × Bytes) :=
  [(ascii ".html", ascii "text/html; charset=utf-8"),
    (ascii ".htm", ascii "text/html; charset=utf-8"),
    (ascii ".css", ascii "text/css; charset=utf-8"),
    (ascii ".js", ascii "application/javascript; charset=utf-8"),
    (ascii ".json", ascii "application/json; charset=utf-8"),
    (ascii ".txt", ascii "text/plain; charset=utf-8"),
    (ascii ".png", ascii "image/png"),
    (ascii ".jpg", ascii "image/jpeg"),
    (ascii ".jpeg", ascii "image/jpeg"),
    (ascii ".gif", ascii "image/gif"),
    (ascii ".svg", ascii "image/svg+xml"),
    (ascii ".webp", ascii "image/webp"),
    (ascii ".ico", ascii "image/x-icon"),
    (ascii ".pdf", ascii "application/pdf")]

/-- The type of a file without a known extension. -/
def octetStream : Bytes := ascii "application/octet-stream"

/-- `rpsiod_mime_type`. -/
def mimeType (path : Bytes) : Bytes :=
  match extension path with
  | none => octetStream
  | some ext =>
      match mimeTypes.find? fun known => streqCi ext known.1 with
      | some known => known.2
      | none => octetStream

/-- `rpsiod_content_type_compressible`. -/
def contentTypeCompressible (contentType : Bytes) : Bool :=
  startsWith contentType (ascii "text/") ||
  (indexOfSub (ascii "javascript") contentType).isSome ||
  (indexOfSub (ascii "json") contentType).isSome ||
  (indexOfSub (ascii "xml") contentType).isSome ||
  (indexOfSub (ascii "svg") contentType).isSome

/-- `rpsiod_path_already_compressed`. -/
def pathAlreadyCompressed (path : Bytes) : Bool :=
  (extension path).any fun ext =>
    [ascii ".gz", ascii ".br", ascii ".zip", ascii ".png", ascii ".jpg", ascii ".jpeg",
      ascii ".gif", ascii ".webp", ascii ".ico", ascii ".pdf"].any fun known => streqCi ext known

/-- The fields of `rpsiod_static_meta_cache_entry` that serving a file reads. -/
structure StaticMeta where
  mime : FieldText
  etag : FieldText
  hasBr : Bool
  hasGzip : Bool
  blocked : Bool

/-- An entity tag without `W/`. -/
def opaqueTag (tag : Bytes) : Bytes := if startsWith tag (ascii "W/") then tag.drop 2 else tag

/-- `etag_opaque_matches`. -/
def etagOpaqueMatches (candidate etag : Bytes) : Bool := opaqueTag candidate = opaqueTag etag

/-- The loop of `if_none_match_matches`; every round but the last moves the cursor. -/
def ifNoneMatchLoop (etag : Bytes) : ℕ → Bytes → Bool
  | 0, _ => false
  | fuel + 1, p =>
      if p = [] then false
      else
        let start := p.dropWhile fun c => isBlank c || c == 44
        let element := (start.takeWhile (· ≠ 44)).rdropWhile isBlank
        element = ascii "*" || etagOpaqueMatches element etag ||
          ifNoneMatchLoop etag fuel (start.dropWhile (· ≠ 44))

/-- `if_none_match_matches`. -/
def ifNoneMatchMatches (value : Bytes) (etag : Option Bytes) : Bool :=
  match etag with
  | none => false
  | some etag => value ≠ [] && etag ≠ [] && ifNoneMatchLoop etag value.length value

/-- `request_cache_validator_matches`. -/
def requestCacheValidatorMatches (req : HttpRequest) (st : FileStat) (etag : Option Bytes) :
    Bool :=
  if !streqCi req.method (ascii "GET") && !streqCi req.method (ascii "HEAD") then false
  else if req.ifNoneMatch ≠ [] then ifNoneMatchMatches req.ifNoneMatch etag
  else if req.ifModifiedSince ≠ [] then
    (w.parseHttpTime req.ifModifiedSince).any fun since => st.mtime ≤ since
  else false

/-- The bytes of a file, `length` of them from `offset`: `send_file_body`. -/
def sendFileBody (content : Bytes) (offset length : ℕ) (t : Trace) : Trace × ℤ :=
  if length = 0 then (t, 0)
  else
    let sent := (content.drop offset).take length
    andThen (clientWriteAll w.peer .body sent t) fun t =>
      (t, if sent.length < length then -1 else 0)

/-- `RPSIOD_SMALL_FILE_WRITEV_MAX`. -/
def smallFileWritevMax : ℕ := 16384

/-- `write_small_file_response`. -/
def writeSmallFileResponse (status : ℤ) (contentType content : Bytes) (length : ℕ)
    (keepAlive : Bool) (opts : ResponseOptions) (t : Trace) : Trace × ℤ :=
  if smallFileWritevMax < length then (t, -1)
  else
    match buildResponseHeaders w.host w.client status contentType (some length) keepAlive opts
        responseHeadLen with
    | none => (t, -1)
    | some headers =>
        if (content.take length).length ≠ length then (t, -1)
        else clientWritevAll w.peer w.client.tls [(.head, headers), (.body, content.take length)] t

/-- The first and the last byte of the range a request asks for, if there is one. -/
def requestedRange (req : HttpRequest) (total : ℕ) : Option (ℕ × ℕ) :=
  if total = 0 then none
  else if req.rangeSuffix then
    some (if total ≤ req.rangeStart then 0 else total - req.rangeStart, total - 1)
  else if total ≤ req.rangeStart then none
  else
    let stop :=
      if req.rangeHasEnd then (if total ≤ req.rangeEnd then total - 1 else req.rangeEnd)
      else total - 1
    if stop < req.rangeStart then none else some (req.rangeStart, stop)

/-- A head without a body, and the log: the replies 304 and 416 to a request for a file. -/
def sendHeadOnly (status : ℤ) (contentType : Bytes) (opts : ResponseOptions) (req : HttpRequest)
    (t : Trace) : Trace × ℤ :=
  let r := w.writeHead status contentType (some 0) req.keepAlive opts t
  (logAccess status 0 r.1, r.2)

/-- The part of `send_file_fd` for a request with a range. -/
def sendFileRange (site : Site) (mime : Bytes) (etag : Option Bytes) (file : OpenFile)
    (req : HttpRequest) (t : Trace) : Trace × ℤ :=
  let total := file.stat.size
  match requestedRange req total with
  | none =>
      sendHeadOnly w 416 plainText
        { site := some site
          contentRange := some (ascii "bytes */" ++ decimal total)
          etag := etag
          fileStat := some file.stat
          acceptRanges := true } req t
  | some (start, stop) =>
      -- `end - start + 1`, which is 0 for the last 0 bytes
      let length := stop + 1 - start
      let contentRange := ascii "bytes " ++ decimal start ++ ascii "-" ++ decimal stop ++
        ascii "/" ++ decimal total
      andThen (w.writeHead 206 mime (some length) req.keepAlive
        { site := some site
          contentRange := some contentRange
          etag := etag
          fileStat := some file.stat
          cacheControl := true
          acceptRanges := true } t) fun t =>
      andThen (if req.headOnly then (t, 0) else sendFileBody w file.content start length t)
        fun t => (logAccess 206 length t, 0)

/-- The options of a reply in an encoding. -/
def encodedOptions (site : Site) (encoding : Bytes) (etag : Option Bytes) (st : FileStat) :
    ResponseOptions :=
  { site := some site
    contentEncoding := some encoding
    etag := etag
    fileStat := some st
    cacheControl := true
    acceptRanges := true
    varyAcceptEncoding := true }

/-- A head of this length and a body, and the log, which is written in any case. -/
def sendEncoded (status : ℤ) (mime : Bytes) (length : ℕ) (opts : ResponseOptions)
    (req : HttpRequest) (body : Trace → Trace × ℤ) (t : Trace) : Trace × ℤ :=
  let r := w.writeHead status mime (some length) req.keepAlive opts t
  let r := if r.2 = 0 && !req.headOnly then body r.1 else r
  (logAccess status length r.1, r.2)

/-- The encodings the request and the site agree on: brotli, gzip. -/
def usableEncodings (site : Site) (status : ℤ) (mime path : Bytes) (st : FileStat)
    (req : HttpRequest) : Bool × Bool :=
  let canCompress := status = 200 && site.compressionEnabled && !req.upgradeWebsocket &&
    contentTypeCompressible mime && !pathAlreadyCompressed path &&
    site.compressionMinimumSize ≤ st.size && st.size ≤ 16 * 1024 * 1024
  (canCompress && site.compressionBr && w.acceptsBr req.acceptEncoding,
    canCompress && (site.compressionGzip || !site.compressionBr) && w.acceptsGzip req.acceptEncoding)

/-- The precompressed variants that `send_file_fd` tries, with their encodings. -/
def fileVariants (cached : Option StaticMeta) (path : Bytes) (useBr useGzip : Bool) :
    List (Bytes × Bytes) :=
  (if useBr && cached.all (·.hasBr) && (path ++ ascii ".br").length < 4096 then
    [(path ++ ascii ".br", ascii "br")] else []) ++
  (if useGzip && cached.all (·.hasGzip) && (path ++ ascii ".gz").length < 4096 then
    [(path ++ ascii ".gz", ascii "gzip")] else [])

/-- The first variant that is a regular file. -/
def openVariant (site : Site) (variants : List (Bytes × Bytes)) : Option (OpenFile × Bytes) :=
  variants.findSome? fun v =>
    match w.openSitePath site v.1 with
    | some file => if file.regular then some (file, v.2) else none
    | none => none

/-- The compressed file and its encoding, if compressing it works out. -/
def compressFile (useBr useGzip : Bool) (file : OpenFile) : Option (Bytes × Bytes) :=
  if !w.allocates || (file.content.take file.stat.size).length ≠ file.stat.size then none
  else
    let plain := file.content.take file.stat.size
    match if useBr then w.brotliCompress plain else none with
    | some compressed => some (compressed, ascii "br")
    | none =>
        if useGzip then
          ((w.gzipCompress plain).or (w.gzipStore plain)).map fun compressed =>
            (compressed, ascii "gzip")
        else none

/-- The options of a reply with the file as it is. -/
def wholeFileOptions (site : Site) (status : ℤ) (etag : Option Bytes) (st : FileStat) :
    ResponseOptions :=
  { site := some site
    etag := etag
    fileStat := some st
    cacheControl := status = 200
    acceptRanges := true
    varyAcceptEncoding := site.compressionEnabled }

/-- The attempt with one `writev`, for a small file. -/
def trySmallFile (status : ℤ) (mime : Bytes) (file : OpenFile) (opts : ResponseOptions)
    (req : HttpRequest) (t : Trace) : Trace × ℤ :=
  if !req.headOnly && file.stat.size ≤ smallFileWritevMax then
    writeSmallFileResponse w status mime file.content file.stat.size req.keepAlive opts t
  else (t, -1)

/-- A head, and then the file. -/
def sendPlainFile (status : ℤ) (mime : Bytes) (file : OpenFile) (opts : ResponseOptions)
    (req : HttpRequest) (t : Trace) : Trace × ℤ :=
  andThen (w.writeHead status mime (some file.stat.size) req.keepAlive opts t) fun t =>
  andThen (if req.headOnly then (t, 0) else sendFileBody w file.content 0 file.stat.size t)
    fun t => (logAccess status file.stat.size t, 0)

/-- The last part of `send_file_fd`: the file as it is. -/
def sendWholeFile (site : Site) (status : ℤ) (mime : Bytes) (etag : Option Bytes) (file : OpenFile)
    (req : HttpRequest) (t : Trace) : Trace × ℤ :=
  let opts := wholeFileOptions site status etag file.stat
  let small := trySmallFile w status mime file opts req t
  if small.2 = 0 then (logAccess status file.stat.size small.1, 0)
  else
    -- a failed attempt may have written, and the head goes out again
    sendPlainFile w status mime file opts req small.1

/-- The part of `send_file_fd` that may answer in an encoding: a precompressed variant, the file
compressed now, or the file as it is. -/
def sendFileContent (site : Site) (status : ℤ) (mime path : Bytes) (etag : Option Bytes)
    (file : OpenFile) (cached : Option StaticMeta) (req : HttpRequest) (t : Trace) : Trace × ℤ :=
  let use := usableEncodings w site status mime path file.stat req
  match openVariant w site (fileVariants cached path use.1 use.2) with
  | some (variant, encoding) =>
      sendEncoded w status mime variant.stat.size (encodedOptions site encoding etag file.stat) req
        (sendFileBody w variant.content 0 variant.stat.size) t
  | none =>
      match if use.1 || use.2 then compressFile w use.1 use.2 file else none with
      | some (compressed, encoding) =>
          sendEncoded w status mime compressed.length
            (encodedOptions site encoding etag file.stat) req
            (clientWriteAll w.peer .body compressed) t
      | none => sendWholeFile w site status mime etag file req t

/-- `mime`: from the cache entry, or from the path. -/
def servedMime (cached : Option StaticMeta) (path : Bytes) : Bytes :=
  ((cached.map (·.mime.bytes)).filter (· ≠ [])).getD (mimeType path)

/-- `etag`: from the cache entry. -/
def servedEtag (cached : Option StaticMeta) : Option Bytes :=
  (cached.map (·.etag.bytes)).filter (· ≠ [])

/-- The options of a 304. -/
def notModifiedOptions (site : Site) (etag : Option Bytes) (st : FileStat) : ResponseOptions :=
  { site := some site
    etag := etag
    fileStat := some st
    cacheControl := true
    acceptRanges := true
    varyAcceptEncoding := site.compressionEnabled }

/-- `send_file_fd`. -/
def sendFileFd (site : Site) (status : ℤ) (path : Bytes) (file : OpenFile)
    (cached : Option StaticMeta) (req : HttpRequest) (t : Trace) : Trace × ℤ :=
  if status = 200 && !req.rangePresent &&
      requestCacheValidatorMatches w req file.stat (servedEtag cached) then
    sendHeadOnly w 304 (servedMime cached path)
      (notModifiedOptions site (servedEtag cached) file.stat) req t
  else if status = 200 && req.rangePresent then
    sendFileRange w site (servedMime cached path) (servedEtag cached) file req t
  else
    sendFileContent w site status (servedMime cached path) path (servedEtag cached) file cached
      req t

/-! ### Error pages -/

/-- The text of an error without a page of its own. -/
def errorText (status : ℤ) : Bytes :=
  decimalInt status ++ ascii " " ++ httpStatusText status ++ ascii "\n"

/-- The configured page of a status, if it can be opened. -/
def openErrorPage (site : Site) (status : ℤ) : Option (Bytes × OpenFile) :=
  match site.errorPage status with
  | none => none
  | some page =>
      if page = [] then none
      else
        match w.openPage page with
        | some file => if file.regular then some (page, file) else none
        | none => none

/-- `send_error_page`. -/
def sendErrorPage (site : Site) (status : ℤ) (req : HttpRequest) (t : Trace) : Trace × ℤ :=
  match openErrorPage w site status with
  | some (page, file) => sendFileFd w site status page file none req t
  | none => sendText w (some site) status (errorText status) req t

/-- `redirect_directory_slash`. -/
def redirectDirectorySlash (site : Site) (req : HttpRequest) (t : Trace) : Trace × ℤ :=
  let path := req.path.takeWhile (· ≠ 63)
  let query := req.path.dropWhile (· ≠ 63)
  if pathLen + 2 ≤ path.length + 1 then sendErrorPage w site 414 req t
  else if query ≠ [] && pathLen + 2 ≤ path.length + 1 + query.length then
    sendErrorPage w site 414 req t
  else sendRedirect w site 301 (path ++ ascii "/" ++ query) req t

/-! ### Failed backends -/

/-- How the stream of a backend ends: it closes, `read` fails, or `read` times out. -/
inductive BackendEnd where
  | closed
  | failed
  | timedOut
  deriving DecidableEq

/-- The status of the error page for a failed `read`. -/
def BackendEnd.status : BackendEnd → ℤ
  | .timedOut => 504
  | _ => 502

theorem BackendEnd.status_ne (ending : BackendEnd) : ending.status ≠ 200 := by
  cases ending <;> decide

/-- The error page for a failed backend. -/
def backendError (site : Site) (req : HttpRequest) (status : ℤ) (t : Trace) : Trace × ℤ :=
  sendErrorPage w site status req (t ++ [.backendFailed])

end Rpsiod

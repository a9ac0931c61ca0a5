import Rpsiod.Util

/-!
# The HTTP/1.1 request parser (`http.c`)

`httpParseRequest buf` is `rpsiod_http_parse_request(buf, used, &req)`.  The three return
values are three constructors of `ParseOutcome`; a rejected request carries `req` as far as it
was filled in, because the 400 reply still reads it.

The header loop walks the block between the end of the request line and the first CRLFCRLF
with a moving pointer `p`; `parseHeaderLines` is that loop, with fuel for the block's length,
and `parseHeaderLine` its body.  Early `return -1` is `Except.error`.
-/

namespace Rpsiod

open ListSearch Crlf

/-! ### Bounds of `http.h` and of the parser -/

def methodLen : ℕ := 16
def pathLen : ℕ := 2048
def hostLen : ℕ := 256
def encodingLen : ℕ := 256
def validatorLen : ℕ := 256
def maxHeaderBlock : ℕ := 16384
def maxRequestLine : ℕ := 2048
def maxHeaderLine : ℕ := 1024
def maxHeaderCount : ℕ := 100

/-- `rpsiod_http_request`. -/
structure HttpRequest where
  method : Bytes := []
  path : Bytes := []
  host : Bytes := []
  acceptEncoding : Bytes := []
  ifNoneMatch : Bytes := []
  ifModifiedSince : Bytes := []
  queryString : Bytes := []
  headerLen : ℕ := 0
  contentLength : ℕ := 0
  rangeStart : ℕ := 0
  rangeEnd : ℕ := 0
  keepAlive : Bool := false
  headOnly : Bool := false
  upgradeWebsocket : Bool := false
  internalHttps : Bool := false
  rangePresent : Bool := false
  rangeSuffix : Bool := false
  rangeHasEnd : Bool := false
  traceRequest : Bool := false
  absoluteForm : Bool := false
  deriving DecidableEq

/-- The return value of `rpsiod_http_parse_request` (0, -1, 1) with the request it fills in. -/
inductive ParseOutcome where
  | incomplete
  | malformed (req : HttpRequest)
  | accepted (req : HttpRequest)
  deriving DecidableEq

/-! ### Byte classes -/

/-- `valid_header_block_newlines`: CR only in front of LF, LF only behind CR. -/
def validHeaderBlockNewlines : Bytes → Bool
  | [] => true
  | 13 :: 10 :: rest => validHeaderBlockNewlines rest
  | 13 :: _ => false
  | 10 :: _ => false
  | _ :: rest => validHeaderBlockNewlines rest

/-- `valid_token_char`. -/
def validTokenChar (ch : UInt8) : Bool :=
  (48 ≤ ch && ch ≤ 57) || (65 ≤ ch && ch ≤ 90) || (97 ≤ ch && ch ≤ 122) ||
    (ascii "!#$%&'*+-.^_`|~").contains ch

/-- `valid_header_name`. -/
def validHeaderName (name : Bytes) : Bool := name ≠ [] && name.all validTokenChar

/-- A control byte other than the horizontal tab. -/
def isControl (ch : UInt8) : Bool := (ch < 32 && ch != 9) || ch == 127

/-- `valid_header_value`. -/
def validHeaderValue (value : Bytes) : Bool := value.all fun ch => !isControl ch

/-- A text without the blanks around it. -/
def trimBlanks (value : Bytes) : Bytes := (value.dropWhile isBlank).rdropWhile isBlank

/-- `copy_trimmed_value`: the value without surrounding blanks, if it fits. -/
def copyTrimmedValue (outLen : ℕ) (value : Bytes) : Option Bytes :=
  if (trimBlanks value).length < outLen then some (trimBlanks value) else none

/-! ### Host, length, method and target -/

/-- The digit loop of `parse_host_value`: a decimal port of at most 65535. -/
def portDigits : ℕ → Bytes → Bool
  | _, [] => true
  | port, c :: cs =>
      isdigit c && port * 10 + digitValue c ≤ 65535 && portDigits (port * 10 + digitValue c) cs

/-- A port text: not empty, and `portDigits`. -/
def validPort (portText : Bytes) : Bool := portText ≠ [] && portDigits 0 portText

/-- The part of `parse_host_value` behind the byte check: cut a valid port off. A bracketed
address ends at the first `]`; otherwise a port is recognised only if there is one colon. -/
def hostWithoutPort (host : Bytes) : Option Bytes :=
  if host.head? = some 91 then
    match splitFirst 93 host with
    | none => none
    | some (address, rest) =>
        if address = [91] then none
        else if rest.head? = some 58 then
          if validPort rest.tail then some (address ++ [93]) else none
        else if rest = [] then some (address ++ [93])
        else none
  else
    match splitFirst 58 host with
    | none => some host
    | some (name, portText) =>
        -- `strrchr` finds another colon: no port
        if 58 ∈ portText then some host
        else if validPort portText then some name
        else none

/-- A byte `parse_host_value` refuses. -/
def badHostByte (ch : UInt8) : Bool := ch ≤ 32 || 127 ≤ ch || ch == 47 || ch == 92

/-- `parse_host_value`. -/
def parseHostValue (value : Bytes) (outLen : ℕ) : Option Bytes :=
  match copyTrimmedValue hostLen value with
  | none => none
  | some host =>
      if host = [] then none
      else if host.any badHostByte then none
      else
        match hostWithoutPort host with
        | none => none
        | some host => if host = [] || outLen ≤ host.length then none else some host

/-- `parse_content_length`. -/
def parseContentLength (value : Bytes) : Option ℕ :=
  if value = [] then none
  else if !value.all isdigit then none
  else
    let r := strtoull value
    if r.erange || !r.converted value then none
    else if r.rest.dropWhile isBlank ≠ [] then none
    else some r.value

/-- `valid_method`. -/
def validMethod (method : Bytes) : Bool :=
  method ≠ [] && method.length < methodLen && method.all validTokenChar

/-- `valid_request_target_bytes`. -/
def validRequestTargetBytes (target : Bytes) : Bool :=
  target ≠ [] && target.length < pathLen && target.all fun ch => !(ch ≤ 32 || ch == 127)

/-- `authority_matches_host`. -/
def authorityMatchesHost (authority host : Bytes) : Bool :=
  match parseHostValue authority hostLen, parseHostValue host hostLen with
  | some parsedAuthority, some hostLine => streqCi parsedAuthority hostLine
  | _, _ => false

/-- The length of `http://` or `https://` at the start of a target in absolute form. -/
def absoluteSchemeLen (target : Bytes) : Option ℕ :=
  if startsWithCi target (ascii "http://") || startsWithCi target (ascii "https://") then
    some (if target[4]? = some 58 then 7 else 8)
  else none

/-- The last check of `parse_request_target`: the origin form starts with `/` and fits. -/
def acceptOrigin (origin : Bytes) : Option Bytes :=
  if origin.head? ≠ some 47 || pathLen ≤ origin.length then none else some origin

/-- `parse_request_target`: the path in origin form, and the authority of a target in absolute
form. -/
def parseRequestTarget (target : Bytes) : Option (Bytes × Option Bytes) :=
  if !validRequestTargetBytes target then none
  else
    match absoluteSchemeLen target with
    | none => (acceptOrigin target).map fun path => (path, none)
    | some schemeLen =>
        match splitFirst 47 (target.drop schemeLen) with
        | none =>
            let authority := target.drop schemeLen
            if authority = [] || hostLen ≤ authority.length then none
            else (acceptOrigin (ascii "/")).map fun path => (path, some authority)
        | some (authority, rest) =>
            if authority = [] || hostLen ≤ authority.length then none
            else (acceptOrigin (47 :: rest)).map fun path => (path, some authority)

/-- What `parse_request_line` leaves in its out-parameters. -/
structure RequestLine where
  req : HttpRequest
  version : Bytes
  absoluteAuthority : Option Bytes

/-- `parse_request_line`: two spaces cut the line in three; `version` has room for 31 bytes. -/
def parseRequestLine (line : Bytes) (req : HttpRequest) : Except HttpRequest RequestLine :=
  if line = [] then .error req
  else if line.any fun ch => ch < 32 || ch == 127 then .error req
  else
    match splitFirst 32 line with
    | none => .error req
    | some (method, rest) =>
        match splitFirst 32 rest with
        | none => .error req
        | some (target, version) =>
            if 32 ∈ version then .error req
            else if version = [] || 32 ≤ version.length || !validMethod method then .error req
            else
              let req := { req with method := method }
              if !streqCi version (ascii "HTTP/1.0") && !streqCi version (ascii "HTTP/1.1") then
                .error req
              else
                match parseRequestTarget target with
                | none => .error req
                | some (path, authority) =>
                    .ok ⟨{ req with path := path, absoluteForm := authority.isSome }, version,
                      authority⟩

/-! ### Header fields -/

/-- The cursor loop of `header_token_present`; every round but the last moves the cursor. -/
def headerTokenLoop (needle : Bytes) : ℕ → Bytes → Bool
  | 0, _ => false
  | fuel + 1, cursor =>
      if cursor = [] then false
      else
        let start := cursor.dropWhile fun c => isBlank c || c == 44
        let token := (start.takeWhile (· ≠ 44)).rdropWhile isBlank
        streqCi token needle || headerTokenLoop needle fuel (start.dropWhile (· ≠ 44))

/-- `header_token_present`. -/
def headerTokenPresent (value needle : Bytes) : Bool :=
  headerTokenLoop needle value.length value

/-- `parse_byte_range`: whether it succeeds, and the request it leaves. -/
def parseByteRange (value : Bytes) (req : HttpRequest) : Bool × HttpRequest :=
  if !startsWith value (ascii "bytes=") then (false, req)
  else
    let spec := value.drop 6
    if 44 ∈ spec then (false, req)
    else
      match splitFirst 45 spec with
      | none => (false, req)
      | some (first, last) =>
          let req := { req with rangePresent := true }
          if first = [] then
            let suffix := strtoull last
            if !suffix.converted last || suffix.rest ≠ [] || suffix.value = 0 then (false, req)
            else (true, { req with rangeSuffix := true, rangeStart := suffix.value })
          else
            let start := strtoull spec
            if start.rest ≠ 45 :: last then (false, req)
            else
              let req := { req with rangeStart := start.value }
              if last = [] then (true, req)
              else
                let stop := strtoull last
                if !stop.converted last || stop.rest ≠ [] || stop.value < start.value then
                  (false, req)
                else (true, { req with rangeEnd := stop.value, rangeHasEnd := true })

/-- The local variables of `rpsiod_http_parse_request` inside the header loop. -/
structure ParseState where
  req : HttpRequest
  connectionUpgrade : Bool := false
  upgradeWebsocket : Bool := false
  haveContentLength : Bool := false
  seenContentLength : ℕ := 0
  haveTransferEncoding : Bool := false
  haveHost : Bool := false
  headerCount : ℕ := 0
  deriving DecidableEq

/-- The branch on the header name. -/
def applyHeader (st : ParseState) (name value : Bytes) : Except HttpRequest ParseState :=
  if streqCi name (ascii "Host") then
    if st.haveHost then .error st.req
    else
      match parseHostValue value hostLen with
      | none => .error st.req
      | some host => .ok { st with req := { st.req with host := host }, haveHost := true }
  else if streqCi name (ascii "Accept-Encoding") then
    .ok { st with req := { st.req with acceptEncoding := safeCopy encodingLen value } }
  else if streqCi name (ascii "If-None-Match") then
    .ok { st with req := { st.req with ifNoneMatch := safeCopy validatorLen value } }
  else if streqCi name (ascii "If-Modified-Since") then
    .ok { st with req := { st.req with ifModifiedSince := safeCopy validatorLen value } }
  else if streqCi name (ascii "Range") then
    let (ok, req) := parseByteRange value st.req
    if ok then .ok { st with req := req } else .error req
  else if streqCi name (ascii "Content-Length") then
    match parseContentLength value with
    | none => .error st.req
    | some n =>
        if st.haveContentLength && n ≠ st.seenContentLength then .error st.req
        else
          .ok { st with
            req := { st.req with contentLength := n }
            haveContentLength := true
            seenContentLength := n }
  else if streqCi name (ascii "Transfer-Encoding") then
    if !streqCi value (ascii "chunked") then .error st.req
    else .ok { st with haveTransferEncoding := true }
  else if streqCi name (ascii "Connection") then
    let req :=
      if headerTokenPresent value (ascii "close") then { st.req with keepAlive := false }
      else if headerTokenPresent value (ascii "keep-alive") then { st.req with keepAlive := true }
      else st.req
    .ok { st with
      req := req
      connectionUpgrade := st.connectionUpgrade || headerTokenPresent value (ascii "upgrade") }
  else if streqCi name (ascii "Upgrade") then
    .ok { st with upgradeWebsocket := st.upgradeWebsocket || streqCi value (ascii "websocket") }
  else if streqCi name (ascii "X-Rpsiod-Internal-Scheme") then
    let internalHttps := st.req.internalHttps || streqCi value (ascii "https")
    .ok { st with req := { st.req with internalHttps := internalHttps } }
  else if streqCi name (ascii "X-Rpsiod-Trace") then
    let traceRequest := streqCi value (ascii "1") || streqCi value (ascii "true")
    .ok { st with req := { st.req with traceRequest := traceRequest } }
  else .ok st

/-- The body of the header loop, on the line `[p, next)`. -/
def parseHeaderLine (st : ParseState) (line : Bytes) : Except HttpRequest ParseState :=
  if maxHeaderLine ≤ line.length then .error st.req
  else if line = [] then .ok st
  else
    let st := { st with headerCount := st.headerCount + 1 }
    if maxHeaderCount < st.headerCount then .error st.req
    else
      match splitFirst 58 line with
      | none => .error st.req
      | some (name, rawValue) =>
          if !validHeaderName name then .error st.req
          else if !validHeaderValue rawValue then .error st.req
          else if 128 ≤ name.length then .error st.req
          else
            match copyTrimmedValue 1024 rawValue with
            | none => .error st.req
            | some value => applyHeader st name value

/-- The loop `while (p < end)` over the header block; without a further CRLF the line ends at
`end`. -/
def parseHeaderLines : ℕ → ParseState → Bytes → Except HttpRequest ParseState
  | 0, st, _ => .ok st
  | fuel + 1, st, p =>
      if p = [] then .ok st
      else
        match indexOfSub crlf p with
        | none => parseHeaderLine st p
        | some next =>
            match parseHeaderLine st (p.take next) with
            | .error req => .error req
            | .ok st => parseHeaderLines fuel st (p.drop (next + 2))

/-- The checks behind the header loop. -/
def finishRequest (st : ParseState) (absoluteAuthority : Option Bytes) : ParseOutcome :=
  if st.haveContentLength && st.haveTransferEncoding then .malformed st.req
  else if st.haveTransferEncoding then .malformed st.req
  else if !st.haveHost then .malformed st.req
  else if st.req.absoluteForm &&
      !authorityMatchesHost (absoluteAuthority.getD []) st.req.host then .malformed st.req
  else .accepted { st.req with upgradeWebsocket := st.connectionUpgrade && st.upgradeWebsocket }

/-- The request before the header loop: query string, `head_only` and the default of
`keep_alive`. -/
def requestLineRequest (rl : RequestLine) : HttpRequest :=
  { rl.req with
    queryString :=
      match splitFirst 63 rl.req.path with
      | none => rl.req.queryString
      | some (_, query) => safeCopy pathLen query
    headOnly := streqCi rl.req.method (ascii "HEAD")
    keepAlive := streqCi rl.version (ascii "HTTP/1.1") }

/-- `rpsiod_http_parse_request`. -/
def httpParseRequest (buf : Bytes) : ParseOutcome :=
  match indexOfSub crlfcrlf buf with
  | none => .incomplete
  | some stop =>
      let req : HttpRequest := { headerLen := stop + 4 }
      if maxHeaderBlock < req.headerLen || !validHeaderBlockNewlines (buf.take req.headerLen) then
        .malformed req
      else
        match indexOfSub crlf buf with
        | none => .malformed req
        | some firstLen =>
            if maxRequestLine < firstLen then .malformed req
            else
              match parseRequestLine (buf.take firstLen) req with
              | .error req => .malformed req
              | .ok rl =>
                  let block := (buf.take stop).drop (firstLen + 2)
                  match parseHeaderLines block.length { req := requestLineRequest rl } block with
                  | .error req => .malformed req
                  | .ok st => finishRequest st rl.absoluteAuthority

end Rpsiod

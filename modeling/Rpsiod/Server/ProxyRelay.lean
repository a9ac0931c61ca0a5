import Rpsiod.Lib.Collect
import Rpsiod.Proxy.Forward
import Rpsiod.Server.Replies

/-!
# Relaying an upstream's response (`serve_proxy`)

Behind the request `serve_proxy` reads from the upstream until it closes.  The bytes up to the
first line end are collected in a buffer of 8192 bytes; once the status line is there they are
passed on, and from then on every read is.  An upstream is the list of its reads, each of 1 to
65536 bytes, and the way it ends.

* `relayLoop_eq`: the loop is decided by collecting the first line.
* `relaysExactly_iff`: **the client gets exactly the upstream's bytes if and only if the reads
  that bring the first line are at most 8192 bytes together**.
-/

namespace Rpsiod

open ListSearch Crlf Collect

/-! ### The code -/

/-- `parse_proxy_status_line`. -/
def parseProxyStatusLine (buf : Bytes) : Option ℤ :=
  let line := match indexOfSub crlf buf with
    | some stop => buf.take stop
    | none => buf
  if line.length < 12 || !startsWith buf (ascii "HTTP/") then none
  else
    match splitFirst 32 line with
    | none => none
    | some (_, d0 :: d1 :: d2 :: more) =>
        if d0 < 49 || 53 < d0 || !isdigit d1 || !isdigit d2 || (more ≠ [] && more.head? ≠ some 32)
        then none
        else some (digitValue d0 * 100 + digitValue d1 * 10 + digitValue d2 : ℕ)
    | some _ => none

/-- A `read` from a backend that does not end the stream. -/
inductive UpstreamRead where
  | data (bytes : Bytes) (ne : bytes ≠ []) (le : bytes.length ≤ 65536)
  | interrupted

/-- An upstream. -/
structure Upstream where
  /-- `rpsiod_proxy_connect`. -/
  connects : Bool
  /-- Whether it takes the request. -/
  takesRequest : Bool
  reads : List UpstreamRead
  ending : BackendEnd
  /-- What `websocket_tunnel` passes on to the client. -/
  tunnelled : Bytes

/-- `sizeof(first_response)`. -/
def firstResponseLen : ℕ := 8192

/-- The variables of the relay loop. -/
structure RelayState where
  first : Bool := true
  firstResponse : Bytes := []
  status : ℤ := 502
  bytes : ℕ := 0

variable (w : World) (site : Site) (req : HttpRequest)

/-- `tunnel`. -/
def wantsTunnel : Bool := req.upgradeWebsocket && site.proxyWebsocket

/-- The end of a relay: the log. -/
def relayDone (st : RelayState) (t : Trace) : Trace × ℤ := (logAccess st.status st.bytes t, 0)

/-- Bytes that are passed on; behind a status of 101 the tunnel takes over. -/
def passOn (tunnelled bytes : Bytes) (st : RelayState)
    (next : RelayState → Trace → Trace × ℤ) (t : Trace) : Trace × ℤ :=
  andThen (clientWriteAll w.peer .body bytes t) fun t =>
    let st : RelayState := { st with bytes := st.bytes + bytes.length, first := false }
    if wantsTunnel site req && st.status = 101 then
      relayDone st (clientWriteAll w.peer .body tunnelled t).1
    else next st t

/-- The loop of `serve_proxy`. -/
def relayLoop (ending : BackendEnd) (tunnelled : Bytes) :
    List UpstreamRead → RelayState → Trace → Trace × ℤ
  | [], st, t =>
      if ending ≠ .closed then backendError w site req ending.status t
      else if st.first then backendError w site req 502 t
      else relayDone st t
  | .interrupted :: reads, st, t => relayLoop ending tunnelled reads st t
  | .data bytes _ _ :: reads, st, t =>
      if st.first then
        if firstResponseLen - st.firstResponse.length < bytes.length then
          backendError w site req 502 t
        else
          let firstResponse := st.firstResponse ++ bytes
          match indexOfSub crlf firstResponse with
          | none => relayLoop ending tunnelled reads { st with firstResponse := firstResponse } t
          | some _ =>
              match parseProxyStatusLine firstResponse with
              | none => backendError w site req 502 t
              | some status =>
                  passOn w site req tunnelled firstResponse
                    { st with firstResponse := firstResponse, status := status }
                    (relayLoop ending tunnelled reads) t
      else passOn w site req tunnelled bytes st (relayLoop ending tunnelled reads) t

/-- `serve_proxy`. -/
def serveProxy (upstream : Upstream) (buf body : Bytes) (t : Trace) : Trace × ℤ :=
  if !upstream.connects then backendError w site req 502 t
  else if !w.allocates then sendErrorPage w site 500 req t
  else
    match buildProxyRequest (proxyCapacity req body) w.client site req buf body with
    | none => sendErrorPage w site 502 req t
    | some _ =>
        if !upstream.takesRequest then backendError w site req 502 t
        else relayLoop w site req upstream.ending upstream.tunnelled upstream.reads {} t

/-! ### The reads of an upstream -/

/-- The bytes of each read. -/
def readBytes : List UpstreamRead → List Bytes
  | [] => []
  | .interrupted :: reads => readBytes reads
  | .data bytes _ _ :: reads => bytes :: readBytes reads

/-- The response of the upstream. -/
def upstreamBytes (reads : List UpstreamRead) : Bytes := (readBytes reads).flatten

/-- The reads that bring the first line fit the buffer for it. -/
def FirstLineFits (reads : List UpstreamRead) : Prop :=
  Fits crlf firstResponseLen [] (readBytes reads)

/-- The status line is read from the first line only. -/
theorem parseProxyStatusLine_append {buf : Bytes} {i : ℕ} (h : indexOfSub crlf buf = some i)
    (tail : Bytes) : parseProxyStatusLine (buf ++ tail) = parseProxyStatusLine buf := by
  have hle := indexOfSub_le_length h
  have htake : (buf ++ tail).take i = buf.take i := List.take_append_of_le_length hle
  unfold parseProxyStatusLine
  simp only [indexOfSub_append h tail, h, htake]
  by_cases hshort : (buf.take i).length < 12
  · have hnone : ∀ b : Bool, (decide ((buf.take i).length < 12) || b) = true := fun b => by
      rw [decide_eq_true hshort, Bool.true_or]
    rw [if_pos (hnone _), if_pos (hnone _)]
  · have hstart : startsWith (buf ++ tail) (ascii "HTTP/") = startsWith buf (ascii "HTTP/") := by
      unfold startsWith
      rw [Bool.eq_iff_iff, List.isPrefixOf_iff_prefix, List.isPrefixOf_iff_prefix]
      refine ⟨fun hpre => ?_, fun hpre => hpre.trans (List.prefix_append _ _)⟩
      refine List.prefix_of_prefix_length_le hpre (List.prefix_append _ _) ?_
      rw [List.length_take] at hshort
      have : (ascii "HTTP/").length = 5 := rfl
      omega
    rw [hstart]

/-! ### The loop on a client that takes everything -/

variable {w site req}

/-- A 101 to a request for a tunnel. -/
def Tunnels (site : Site) (req : HttpRequest) (status : ℤ) : Prop :=
  wantsTunnel site req = true ∧ status = 101

instance (site : Site) (req : HttpRequest) (status : ℤ) : Decidable (Tunnels site req status) :=
  inferInstanceAs (Decidable (_ ∧ _))

/-- The end of the upstream, when the response has started. -/
def relayEnd (w : World) (site : Site) (req : HttpRequest) (ending : BackendEnd) (st : RelayState)
    (t : Trace) : Trace × ℤ :=
  if ending ≠ .closed then backendError w site req ending.status t else relayDone st t

theorem passOn_of_not_tunnels (hpeer : w.peer = .willing) (tunnelled : Bytes) {bytes : Bytes}
    (ne : bytes ≠ []) {st : RelayState} (h : ¬ Tunnels site req st.status)
    (next : RelayState → Trace → Trace × ℤ) (t : Trace) :
    passOn w site req tunnelled bytes st next t =
      next { st with bytes := st.bytes + bytes.length, first := false } (t ++ [.body bytes]) := by
  have hwrite : clientWriteAll w.peer .body bytes t = (t ++ [.body bytes], 0) := by
    rw [hpeer, clientWriteAll_willing, writeOf_of_ne ne]
  unfold Tunnels at h
  rw [passOn, hwrite, andThen_zero]
  exact if_neg (by simpa using h)

theorem passOn_of_tunnels (hpeer : w.peer = .willing) (tunnelled : Bytes) {bytes : Bytes}
    (ne : bytes ≠ []) {st : RelayState} (h : Tunnels site req st.status)
    (next : RelayState → Trace → Trace × ℤ) (t : Trace) :
    passOn w site req tunnelled bytes st next t =
      relayDone { st with bytes := st.bytes + bytes.length, first := false }
        (t ++ .body bytes :: writeOf .body tunnelled) := by
  have hwrite : clientWriteAll w.peer .body bytes t = (t ++ [.body bytes], 0) := by
    rw [hpeer, clientWriteAll_willing, writeOf_of_ne ne]
  rw [passOn, hwrite, andThen_zero]
  simp only [h.1, h.2, decide_true, Bool.and_self, if_true]
  rw [hpeer, clientWriteAll_willing, List.append_assoc]
  rfl

/-- Behind the first line every read is passed on. -/
theorem relayLoop_relaying (hpeer : w.peer = .willing) (ending : BackendEnd) (tunnelled : Bytes)
    (reads : List UpstreamRead) {st : RelayState} (hfirst : st.first = false)
    (h : ¬ Tunnels site req st.status) (t : Trace) :
    relayLoop w site req ending tunnelled reads st t =
      relayEnd w site req ending { st with bytes := st.bytes + (upstreamBytes reads).length }
        (t ++ (readBytes reads).map .body) := by
  induction reads generalizing st t with
  | nil =>
      unfold relayEnd relayDone
      rw [relayLoop, hfirst]
      simp [readBytes, upstreamBytes, relayDone]
  | cons read reads ih =>
      cases read with
      | interrupted =>
          rw [relayLoop, ih hfirst h]
          rfl
      | data bytes ne le =>
          rw [relayLoop, if_neg (by simp [hfirst]), passOn_of_not_tunnels hpeer _ ne h]
          refine (ih ?_ ?_ _).trans ?_
          · rfl
          · exact h
          · simp [readBytes, upstreamBytes, Nat.add_assoc, hfirst]

/-- **The relay loop**: collecting the first line decides whether there is an error page, and
otherwise the reads are passed on. -/
theorem relayLoop_eq (hpeer : w.peer = .willing) (ending : BackendEnd) (tunnelled : Bytes)
    (reads : List UpstreamRead) (buffer : Bytes) (t : Trace) :
    relayLoop w site req ending tunnelled reads { firstResponse := buffer } t =
      match collect crlf firstResponseLen buffer (readBytes reads) with
      | .full => backendError w site req 502 t
      | .short _ => backendError w site req (if ending ≠ .closed then ending.status else 502) t
      | .found all _ rest =>
          match parseProxyStatusLine all with
          | none => backendError w site req 502 t
          | some status =>
              let st : RelayState :=
                { first := false
                  firstResponse := all
                  status := status
                  bytes := all.length }
              if Tunnels site req status then
                relayDone st (t ++ .body all :: writeOf .body tunnelled)
              else
                relayEnd w site req ending { st with bytes := all.length + rest.flatten.length }
                  (t ++ (all :: rest).map .body) := by
  induction reads generalizing buffer with
  | nil =>
      rw [relayLoop]
      by_cases hend : ending ≠ .closed
      · rw [if_pos hend]
        simp only [readBytes, collect, if_pos hend]
      · rw [if_neg hend, if_pos rfl]
        simp only [readBytes, collect, if_neg hend]
  | cons read reads ih =>
      cases read with
      | interrupted => exact ih buffer
      | data bytes ne le =>
          rw [relayLoop, if_pos rfl, readBytes, collect]
          by_cases hlen : firstResponseLen - buffer.length < bytes.length
          · rw [if_pos hlen, if_pos hlen]
          · rw [if_neg hlen, if_neg hlen]
            simp only
            cases hline : indexOfSub crlf (buffer ++ bytes) with
            | none => exact ih (buffer ++ bytes)
            | some stop =>
                cases hparse : parseProxyStatusLine (buffer ++ bytes) with
                | none => simp only [hparse]
                | some status =>
                    have hall : buffer ++ bytes ≠ [] := List.append_ne_nil_of_right_ne_nil _ ne
                    by_cases htunnel : Tunnels site req status
                    · simp only [hparse, if_pos htunnel]
                      rw [passOn_of_tunnels hpeer tunnelled hall htunnel]
                      simp
                    · simp only [hparse, if_neg htunnel]
                      rw [passOn_of_not_tunnels hpeer tunnelled hall htunnel,
                        relayLoop_relaying hpeer ending tunnelled reads rfl htunnel]
                      simp [upstreamBytes]

/-! ### Relaying exactly -/

/-- The relay loop is reached: the upstream has taken the request, and the client takes whatever
it is sent. -/
structure UpstreamAnswers (w : World) (upstream : Upstream) : Prop where
  peer : w.peer = .willing
  allocates : w.allocates = true
  connects : upstream.connects = true
  takesRequest : upstream.takesRequest = true

/-- The client is sent these bytes and nothing else, and the log has this status. -/
structure RelaysExactly (r : Trace × ℤ) (stream : Bytes) (status : ℤ) : Prop where
  rc : r.2 = 0
  written : written r.1 = stream
  noError : .backendFailed ∉ r.1
  logged : r.1.getLast? = some (.logged status stream.length)

/-- For an accepted request `serve_proxy` gets to its loop. -/
theorem serveProxy_eq_relayLoop {upstream : Upstream} (h : UpstreamAnswers w upstream)
    {buf : Bytes} (hparse : httpParseRequest buf = .accepted req) (keepAlive : Bool) (body : Bytes)
    (t : Trace) :
    serveProxy w site { req with keepAlive := keepAlive } upstream buf body t =
      relayLoop w site { req with keepAlive := keepAlive } upstream.ending upstream.tunnelled
        upstream.reads {} t := by
  obtain ⟨p⟩ := parsed_of_accepted hparse
  have hbuild : buildProxyRequest (proxyCapacity req body) w.client site
      { req with keepAlive := keepAlive } buf body = _ := buildProxyRequest_eq p w.client site body
  have hcapacity : proxyCapacity { req with keepAlive := keepAlive } body = proxyCapacity req body :=
    rfl
  unfold serveProxy
  rw [h.connects, h.allocates, h.takesRequest, hcapacity, hbuild]
  rfl

/-- Reads that fit bring the first line, and the stream is relayed. -/
theorem relaysExactly_of_fits (hpeer : w.peer = .willing) (htunnel : wantsTunnel site req = false)
    (tunnelled : Bytes) {reads : List UpstreamRead} {status : ℤ}
    (hline : indexOfSub crlf (upstreamBytes reads) ≠ none)
    (hstatus : parseProxyStatusLine (upstreamBytes reads) = some status)
    (hfits : FirstLineFits reads) :
    RelaysExactly (relayLoop w site req .closed tunnelled reads {} []) (upstreamBytes reads)
      status := by
  have hstart : indexOfSub crlf ([] : Bytes) = none := rfl
  have hno : ∀ s, ¬ Tunnels site req s := fun s h => by
    rw [Tunnels, htunnel] at h
    exact Bool.false_ne_true h.1
  obtain ⟨stop, hstop⟩ := Option.ne_none_iff_exists'.mp hline
  have hrun : relayLoop w site req .closed tunnelled reads {} [] = _ :=
    relayLoop_eq hpeer .closed tunnelled reads [] []
  rcases @collect_found_or_full _ _ crlf firstResponseLen [] (readBytes reads) stop
    (Nat.zero_le _) hstart hstop with ⟨-, all, rest, hcollect⟩ | ⟨hnot, -⟩
  · obtain ⟨hflat, hindex, -⟩ := collect_found hcollect
    have hstream : upstreamBytes reads = all ++ rest.flatten := hflat
    rw [hstream, parseProxyStatusLine_append hindex] at hstatus
    rw [hcollect] at hrun
    simp only [hstatus, if_neg (hno status)] at hrun
    rw [hrun, hstream]
    refine ⟨rfl, ?_, ?_, ?_⟩
    · simp [relayEnd, relayDone, logAccess, Event.bytes]
    · simp [relayEnd, relayDone, logAccess]
    · rw [relayEnd, if_neg (by decide), relayDone, logAccess, List.getLast?_concat,
        List.length_append]
  · exact absurd hfits hnot

/-- Reads that do not fit end with an error page. -/
theorem not_relaysExactly_of_not_fits (hpeer : w.peer = .willing) (tunnelled : Bytes)
    {reads : List UpstreamRead} {status : ℤ} (hfits : ¬ FirstLineFits reads) :
    ¬ RelaysExactly (relayLoop w site req .closed tunnelled reads {} []) (upstreamBytes reads)
      status := by
  have hstart : indexOfSub crlf ([] : Bytes) = none := rfl
  have hrun := @relayLoop_eq w site req hpeer .closed tunnelled reads [] []
  rw [(collect_full_iff (Nat.zero_le firstResponseLen) hstart).mpr hfits] at hrun
  intro hexact
  apply hexact.noError
  have hrun' : relayLoop w site req .closed tunnelled reads {} [] = _ := hrun
  rw [hrun']
  exact backendFailed_mem hpeer site 502 []

/-- **The proxy relays a response byte for byte, whatever its reads, exactly if the reads that bring
the first line fit the small buffer.** -/
theorem relaysExactly_iff {upstream : Upstream} (hanswers : UpstreamAnswers w upstream)
    (hclosed : upstream.ending = .closed) (htunnel : wantsTunnel site req = false)
    {buf : Bytes} (hparse : httpParseRequest buf = .accepted req) (keepAlive : Bool) (body : Bytes)
    {status : ℤ} (hline : indexOfSub crlf (upstreamBytes upstream.reads) ≠ none)
    (hstatus : parseProxyStatusLine (upstreamBytes upstream.reads) = some status) :
    RelaysExactly (serveProxy w site { req with keepAlive := keepAlive } upstream buf body [])
        (upstreamBytes upstream.reads) status ↔
      FirstLineFits upstream.reads := by
  have htunnel' : wantsTunnel site { req with keepAlive := keepAlive } = false := htunnel
  rw [serveProxy_eq_relayLoop hanswers hparse, hclosed]
  constructor
  · intro hexact
    by_contra hfits
    exact not_relaysExactly_of_not_fits hanswers.peer _ hfits hexact
  · exact relaysExactly_of_fits hanswers.peer htunnel' _ hline hstatus

/-! ### One response, two cuts -/

/-- A request for the proxy. -/
def relayedRequest : Bytes := ascii "GET / HTTP/1.1\x0d\nHost: a\x0d\n\x0d\n"

/-- The same, parsed. -/
def relayedParsed : HttpRequest where
  method := ascii "GET"
  path := ascii "/"
  host := ascii "a"
  headerLen := 27
  keepAlive := true

theorem parse_relayedRequest : httpParseRequest relayedRequest = .accepted relayedParsed := by
  decide

/-- An upstream with these reads, which closes. -/
def upstreamOf (reads : List UpstreamRead) : Upstream := ⟨true, true, reads, .closed, []⟩

theorem upstreamOf_answers (reads : List UpstreamRead) :
    UpstreamAnswers sampleWorld (upstreamOf reads) :=
  ⟨rfl, rfl, rfl, rfl⟩

/-- The head of an upstream's response. -/
def okHead : Bytes := ascii "HTTP/1.1 200 OK\x0d\n\x0d\n"

theorem parse_okHead : parseProxyStatusLine okHead = some 200 := by decide

theorem line_okHead : indexOfSub crlf okHead = some 15 := by decide

/-- A short response in one read. -/
theorem relaysExactly_short :
    RelaysExactly (serveProxy sampleWorld {} { relayedParsed with keepAlive := false }
        (upstreamOf [.data okHead (by decide) (by decide)]) relayedRequest [] [])
        (upstreamBytes [.data okHead (by decide) (by decide)]) 200 ↔
      FirstLineFits [.data okHead (by decide) (by decide)] :=
  relaysExactly_iff (upstreamOf_answers _) rfl rfl parse_relayedRequest false []
    (by decide) (by decide)

/-- A response of 8193 bytes. -/
def longResponse : Bytes := okHead ++ List.replicate 8174 120

theorem length_longResponse : longResponse.length = 8193 := by
  unfold longResponse
  rw [List.length_append, List.length_replicate]
  rfl

/-- **The trace of a large read**: a response of 8193 bytes that comes in one read is replaced by an
error page, although its status line has 15 bytes. -/
theorem large_first_read_refused :
    ∃ (ne : longResponse ≠ []) (le : longResponse.length ≤ 65536),
      upstreamBytes [.data longResponse ne le] = longResponse ∧
      indexOfSub crlf longResponse = some 15 ∧
      parseProxyStatusLine longResponse = some 200 ∧
      ¬ RelaysExactly (serveProxy sampleWorld {} { relayedParsed with keepAlive := false }
        (upstreamOf [.data longResponse ne le]) relayedRequest [] []) longResponse 200 := by
  have hline : indexOfSub crlf longResponse = some 15 := indexOfSub_append line_okHead _
  have hstatus : parseProxyStatusLine longResponse = some 200 := by
    unfold longResponse
    rw [parseProxyStatusLine_append line_okHead, parse_okHead]
  have hne : longResponse ≠ [] := List.append_ne_nil_of_left_ne_nil (by decide) _
  have hle : longResponse.length ≤ 65536 := by
    rw [length_longResponse]
    omega
  have hbytes : upstreamBytes [.data longResponse hne hle] = longResponse := List.append_nil _
  refine ⟨hne, hle, hbytes, hline, hstatus, ?_⟩
  rw [serveProxy_eq_relayLoop (upstreamOf_answers _) parse_relayedRequest]
  have hnot : ¬ FirstLineFits [.data longResponse hne hle] := by
    intro hfits
    have hlen := hfits [] longResponse [] rfl rfl
    rw [List.nil_append, List.nil_append, List.flatten_singleton, length_longResponse] at hlen
    unfold firstResponseLen at hlen
    omega
  have hpeer : sampleWorld.peer = .willing := rfl
  have hrefused := fun site req =>
    @not_relaysExactly_of_not_fits sampleWorld site req hpeer [] _ 200 hnot
  rw [hbytes] at hrefused
  exact hrefused _ _

end Rpsiod

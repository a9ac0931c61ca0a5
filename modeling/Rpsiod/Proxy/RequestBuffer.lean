import Rpsiod.Lib.BufferWrites
import Rpsiod.Proxy.Forward

/-!
# The buffer of the forwarded request (`build_proxy_request`, `serve_proxy`)

`buildProxyRequest` says which bytes the function leaves in its buffer; `buildProxyRun` is the same
function with each of its writes.  `snprintf` writes a NUL behind the text, and as much of the text
as there is room for.

* `renders_buildProxyRun`: in a buffer of any size, no write is past its end, and the writes leave
  the bytes of `buildProxyRequest`.
* `proxy_buffer_suffices`: **in the buffer of `serve_proxy` the request is always built**.
-/

namespace Rpsiod

open ListSearch Crlf BufferWrites

/-! ### The writes -/

/-- What `snprintf` writes into this room. -/
def snprintfBytes (room : ℕ) (text : Bytes) : Bytes :=
  if room = 0 then [] else text.take (room - 1) ++ [0]

/-- `snprintf(out + used, out_len - used, …)`, and the test of what it returns. -/
def snprintfRun (outLen used : ℕ) (text : Bytes) : Run UInt8 :=
  ⟨[⟨used, snprintfBytes (outLen - used) text⟩],
    if outLen - used ≤ text.length then none else some (used + text.length)⟩

/-- `append_header`. -/
def appendHeaderRun (outLen used : ℕ) (name value : Bytes) : Run UInt8 :=
  if outLen ≤ used then .stopped else snprintfRun outLen used (headerText name value ++ crlf)

/-- `append_header` behind a switch of the site. -/
def appendHeaderIfRun (enabled : Bool) (outLen used : ℕ) (name value : Bytes) : Run UInt8 :=
  if enabled then appendHeaderRun outLen used name value else .skip used

/-- A line of the client, and its line end. -/
def copyLineRun (outLen used : ℕ) (line : Bytes) : Run UInt8 :=
  if outLen ≤ used + line.length + 2 then .stopped
  else ⟨[⟨used, line ++ crlf⟩], some (used + (line ++ crlf).length)⟩

/-- The copy loop. -/
def copyHeaderLinesRun (outLen : ℕ) : ℕ → ℕ → Bytes → Run UInt8
  | 0, used, _ => .skip used
  | fuel + 1, used, p =>
      if p = [] then .skip used
      else
        match indexOfSub crlf p with
        | none => .skip used
        | some next =>
            if p.take next ≠ [] && !proxySkipHeader (p.take next) then
              (copyLineRun outLen used (p.take next)).andThen fun used =>
                copyHeaderLinesRun outLen fuel used (p.drop (next + 2))
            else copyHeaderLinesRun outLen fuel used (p.drop (next + 2))

/-- The blank line and the body. -/
def finishRun (outLen used : ℕ) (body : Bytes) : Run UInt8 :=
  if outLen ≤ used + 2 + body.length then .stopped
  else ⟨[⟨used, crlf ++ body⟩], some (used + (crlf ++ body).length)⟩

/-- The header lines and what follows them. -/
def copyRun (outLen : ℕ) (client : Client) (site : Site) (req : HttpRequest) (raw body : Bytes)
    (start used : ℕ) : Run UInt8 :=
  if req.headerLen < 4 ∨ raw.length < req.headerLen then .stopped
  else
    let p := (raw.take (req.headerLen - 4)).drop (start + 2)
    (copyHeaderLinesRun outLen p.length used p).andThen fun used =>
    (appendHeaderIfRun site.proxyRealIp outLen used (ascii "X-Real-IP")
      client.clientIp.bytes).andThen fun used =>
    (appendHeaderIfRun site.proxyForwardedFor outLen used (ascii "X-Forwarded-For")
      client.clientIp.bytes).andThen fun used =>
    (appendHeaderIfRun site.proxyForwardedProto outLen used (ascii "X-Forwarded-Proto")
      (forwardedProtoValue client site)).andThen fun used =>
    finishRun outLen used body

/-- `build_proxy_request`, with its writes. -/
def buildProxyRun (outLen : ℕ) (client : Client) (site : Site) (req : HttpRequest)
    (raw body : Bytes) : Run UInt8 :=
  (snprintfRun outLen 0
    (req.method ++ ascii " " ++ req.path ++ ascii " HTTP/1.1" ++ crlf)).andThen fun used =>
  (appendHeaderRun outLen used (ascii "Host") (proxyHostValue site req)).andThen fun used =>
  (appendHeaderRun outLen used (ascii "Connection")
    (proxyConnectionValue site req)).andThen fun used =>
  match indexOfSub crlf raw with
  | none => .stopped
  | some start => copyRun outLen client site req raw body start used

/-! ### What the writes leave -/

variable {outLen : ℕ} {out : Bytes}

theorem length_snprintfBytes_le (room : ℕ) (text : Bytes) :
    (snprintfBytes room text).length ≤ room := by
  unfold snprintfBytes
  split_ifs
  · exact Nat.zero_le _
  · rw [List.length_append, List.length_take, List.length_singleton]
    omega

theorem renders_snprintf (hout : out.length ≤ outLen) (text : Bytes) :
    (snprintfRun outLen out.length text).Renders outLen out
      (if outLen - out.length ≤ text.length then none else some (out ++ text)) := by
  have hlen := length_snprintfBytes_le (outLen - out.length) text
  unfold snprintfRun
  split_ifs with hroom
  · refine renders_cut ?_
    unfold Write.stop
    dsimp only
    omega
  · have hbytes : snprintfBytes (outLen - out.length) text = text ++ [0] := by
      unfold snprintfBytes
      rw [if_neg (by omega), List.take_of_length_le (by omega)]
    rw [hbytes]
    refine renders_write ?_
    rw [List.length_append, List.length_singleton]
    omega

theorem renders_appendHeader (out name value : Bytes) :
    (appendHeaderRun outLen out.length name value).Renders outLen out
      (appendHeader outLen out name value) := by
  unfold appendHeaderRun appendHeader
  by_cases hfull : outLen ≤ out.length
  · rw [if_pos hfull, if_pos hfull]
    exact renders_stopped
  · rw [if_neg hfull, if_neg hfull]
    exact renders_snprintf (Nat.le_of_not_le hfull) _

theorem renders_appendHeaderIf (enabled : Bool) (out name value : Bytes) :
    (appendHeaderIfRun enabled outLen out.length name value).Renders outLen out
      (appendHeaderIf enabled outLen out name value) := by
  unfold appendHeaderIfRun appendHeaderIf
  split_ifs
  · exact renders_appendHeader out name value
  · exact renders_skip

theorem renders_copyLine (out line : Bytes) :
    (copyLineRun outLen out.length line).Renders outLen out
      (if outLen ≤ out.length + line.length + 2 then none else some (out ++ (line ++ crlf))) := by
  unfold copyLineRun
  split_ifs with hfull
  · exact renders_stopped
  · have hlen : (line ++ crlf ++ []).length = line.length + 2 := by
      rw [List.append_nil, List.length_append]
      rfl
    have hwrite := @renders_write _ outLen out (line ++ crlf) [] (by omega)
    rwa [List.append_nil] at hwrite

theorem renders_copyHeaderLines (fuel : ℕ) (out p : Bytes) :
    (copyHeaderLinesRun outLen fuel out.length p).Renders outLen out
      (copyHeaderLines outLen fuel out p) := by
  induction fuel generalizing out p with
  | zero => exact renders_skip
  | succ fuel ih =>
      unfold copyHeaderLinesRun copyHeaderLines
      by_cases hp : p = []
      · rw [if_pos hp, if_pos hp]
        exact renders_skip
      rw [if_neg hp, if_neg hp]
      cases hnext : indexOfSub crlf p with
      | none => exact renders_skip
      | some next =>
          dsimp only
          by_cases hkeep : (decide (p.take next ≠ []) && !proxySkipHeader (p.take next)) = true
          · rw [if_pos hkeep, if_pos hkeep]
            have hlen : (p.take next).length = next := by
              have := indexOfSub_add_length_le hnext
              rw [List.length_take, Nat.min_eq_left (by omega)]
            have hline := @renders_copyLine outLen out (p.take next)
            rw [hlen] at hline
            have hresult : (if outLen ≤ out.length + next + 2 then none
                else copyHeaderLines outLen fuel (out ++ (p.take next ++ crlf))
                  (p.drop (next + 2))) =
                (if outLen ≤ out.length + next + 2 then none
                  else some (out ++ (p.take next ++ crlf))).bind fun out =>
                    copyHeaderLines outLen fuel out (p.drop (next + 2)) := by
              split_ifs <;> rfl
            rw [hresult]
            exact hline.andThen fun made _ => ih made _
          · rw [if_neg hkeep, if_neg hkeep]
            exact ih out _

theorem renders_finish (out body : Bytes) :
    (finishRun outLen out.length body).Renders outLen out
      (if outLen ≤ out.length + 2 + body.length then none else some (out ++ crlf ++ body)) := by
  unfold finishRun
  split_ifs with hfull
  · exact renders_stopped
  · have hlen : (crlf ++ body ++ []).length = 2 + body.length := by
      rw [List.append_nil, List.length_append]
      rfl
    have hwrite := @renders_write _ outLen out (crlf ++ body) [] (by omega)
    rwa [List.append_nil, ← List.append_assoc] at hwrite

/-- `build_proxy_request` behind the Connection line. -/
def copyRest (outLen : ℕ) (client : Client) (site : Site) (req : HttpRequest) (raw body : Bytes)
    (start : ℕ) (out : Bytes) : Option Bytes :=
  if req.headerLen < 4 ∨ raw.length < req.headerLen then none
  else
    let p := (raw.take (req.headerLen - 4)).drop (start + 2)
    (copyHeaderLines outLen p.length out p).bind fun out =>
    (appendHeaderIf site.proxyRealIp outLen out (ascii "X-Real-IP")
      client.clientIp.bytes).bind fun out =>
    (appendHeaderIf site.proxyForwardedFor outLen out (ascii "X-Forwarded-For")
      client.clientIp.bytes).bind fun out =>
    (appendHeaderIf site.proxyForwardedProto outLen out (ascii "X-Forwarded-Proto")
      (forwardedProtoValue client site)).bind fun out =>
    if outLen ≤ out.length + 2 + body.length then none else some (out ++ crlf ++ body)

variable {client : Client} {site : Site} {req : HttpRequest} {raw body : Bytes}

theorem buildProxyRequest_eq_bind :
    buildProxyRequest outLen client site req raw body =
      (if outLen ≤ (req.method ++ ascii " " ++ req.path ++ ascii " HTTP/1.1" ++ crlf).length
        then none
        else some
          (req.method ++ ascii " " ++ req.path ++ ascii " HTTP/1.1" ++ crlf)).bind fun out =>
      (appendHeader outLen out (ascii "Host") (proxyHostValue site req)).bind fun out =>
      (appendHeader outLen out (ascii "Connection") (proxyConnectionValue site req)).bind fun out =>
      (indexOfSub crlf raw).bind fun start =>
      copyRest outLen client site req raw body start out := by
  unfold buildProxyRequest
  dsimp only
  by_cases hfull :
      outLen ≤ (req.method ++ ascii " " ++ req.path ++ ascii " HTTP/1.1" ++ crlf).length
  · rw [if_pos hfull, if_pos hfull]
    rfl
  · rw [if_neg hfull, if_neg hfull]
    rfl

theorem renders_copyRest (start : ℕ) (out : Bytes) :
    (copyRun outLen client site req raw body start out.length).Renders outLen out
      (copyRest outLen client site req raw body start out) := by
  unfold copyRun copyRest
  split_ifs
  · exact renders_stopped
  · refine (renders_copyHeaderLines _ out _).andThen fun out _ => ?_
    refine (renders_appendHeaderIf _ out _ _).andThen fun out _ => ?_
    refine (renders_appendHeaderIf _ out _ _).andThen fun out _ => ?_
    refine (renders_appendHeaderIf _ out _ _).andThen fun out _ => ?_
    exact renders_finish out body

/-- **In a buffer of any size**, no write is past its end, and the writes leave the bytes of
`build_proxy_request`. -/
theorem renders_buildProxyRun :
    (buildProxyRun outLen client site req raw body).Renders outLen []
      (buildProxyRequest outLen client site req raw body) := by
  rw [buildProxyRequest_eq_bind]
  unfold buildProxyRun
  refine (@renders_snprintf outLen [] (Nat.zero_le _) _).andThen fun out _ => ?_
  refine (renders_appendHeader out _ _).andThen fun out _ => ?_
  refine (renders_appendHeader out _ _).andThen fun out _ => ?_
  cases indexOfSub crlf raw with
  | none => exact renders_stopped
  | some start => exact renders_copyRest start out

/-- There is room behind what is built. -/
theorem length_buildProxyRequest_lt {out : Bytes}
    (h : buildProxyRequest outLen client site req raw body = some out) : out.length < outLen := by
  rw [buildProxyRequest_eq_bind] at h
  obtain ⟨line, -, h⟩ := Option.bind_eq_some_iff.mp h
  obtain ⟨host, -, h⟩ := Option.bind_eq_some_iff.mp h
  obtain ⟨connection, -, h⟩ := Option.bind_eq_some_iff.mp h
  obtain ⟨start, -, h⟩ := Option.bind_eq_some_iff.mp h
  unfold copyRest at h
  split_ifs at h
  obtain ⟨copied, -, h⟩ := Option.bind_eq_some_iff.mp h
  obtain ⟨realIp, -, h⟩ := Option.bind_eq_some_iff.mp h
  obtain ⟨forwardedFor, -, h⟩ := Option.bind_eq_some_iff.mp h
  obtain ⟨forwardedProto, -, h⟩ := Option.bind_eq_some_iff.mp h
  split_ifs at h with hroom
  rw [← Option.some.inj h]
  simp only [List.length_append, List.length_cons, List.length_nil]
  omega

/-- **The buffer of `serve_proxy` always suffices**: whatever the parser accepts, for every site and
every body, the request is built, it ends inside the buffer, and so does each of the writes. -/
theorem proxy_buffer_suffices {buf : Bytes} (h : httpParseRequest buf = .accepted req)
    (client : Client) (site : Site) (body : Bytes) :
    ∃ out, buildProxyRequest (proxyCapacity req body) client site req buf body = some out ∧
      (buildProxyRun (proxyCapacity req body) client site req buf body).used = some out.length ∧
      out.length < proxyCapacity req body ∧
      (∀ w ∈ (buildProxyRun (proxyCapacity req body) client site req buf body).writes,
        w.stop ≤ proxyCapacity req body) ∧
      ∀ cells, Holds ((buildProxyRun (proxyCapacity req body) client site req buf body).writes.foldl
        put cells) out := by
  obtain ⟨p⟩ := parsed_of_accepted h
  have hbuilt := buildProxyRequest_eq p client site body
  have hrenders := @renders_buildProxyRun (proxyCapacity req body) client site req buf body
  refine ⟨_, hbuilt, ?_, length_buildProxyRequest_lt hbuilt, hrenders.inside, fun cells => ?_⟩
  · rw [hrenders.used, hbuilt]
    rfl
  · exact hrenders.holds _ (by rw [hbuilt]; rfl) cells (fun i hi => absurd hi (Nat.not_lt_zero i))

/-- A request in absolute form. -/
def absoluteRequest : Bytes := ascii "GET http://a/x HTTP/1.1\x0d\nHost: a\x0d\n\x0d\n"

theorem proxy_buffer_absoluteRequest :
    ∃ req out, httpParseRequest absoluteRequest = .accepted req ∧
      buildProxyRequest (proxyCapacity req (ascii "abc"))
        ⟨80, false, .lit "10.0.0.9", .lit "10.0.0.1"⟩ {} req absoluteRequest (ascii "abc") =
          some out ∧ out.length < proxyCapacity req (ascii "abc") := by
  obtain ⟨req, hreq, -⟩ := @exists_accepted absoluteRequest (fun _ => true) (by decide +kernel)
  obtain ⟨out, hout, -, hlt, -⟩ := proxy_buffer_suffices hreq
    ⟨80, false, .lit "10.0.0.9", .lit "10.0.0.1"⟩ {} (ascii "abc")
  exact ⟨req, out, hreq, hout, hlt⟩

end Rpsiod

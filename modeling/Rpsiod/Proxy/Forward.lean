import Rpsiod.Http.Grammar
import Rpsiod.Server.Headers

/-!
# The request head the reverse proxy forwards (`build_proxy_request`)

`buildProxyRequest` is the function of `server.c`; its copy loop walks the client's header block
with `memmem` and leaves it as soon as there is no further CRLF in front of `headers_end`, so the
line that ends at `headers_end` itself is never copied.

* `copyHeaderLines_eq`: the copy loop keeps the lines of the block that are not dropped, without
  the last one.
* `buildProxyRequest_eq`: in the buffer `serve_proxy` allocates the head is always built.
* `forwards_iff_last_skipped`: **the upstream reads what it should exactly when the last header
  line is one the proxy drops anyway**.
-/

namespace Rpsiod

open ListSearch Crlf

/-! ### The code -/

/-- `request_header_name_is`. -/
def requestHeaderNameIs (text name : Bytes) : Bool :=
  name.length < text.length && text[name.length]? == some 58 && streqCi (text.take name.length) name

/-- `rpsiod_proxy_skip_header`. -/
def proxySkipHeader (line : Bytes) : Bool :=
  requestHeaderNameIs line (ascii "Host") ||
  requestHeaderNameIs line (ascii "Connection") ||
  requestHeaderNameIs line (ascii "Proxy-Connection") ||
  requestHeaderNameIs line (ascii "X-Real-IP") ||
  requestHeaderNameIs line (ascii "X-Forwarded-For") ||
  requestHeaderNameIs line (ascii "X-Forwarded-Proto")

/-- The loop `while (p < headers_end)` of `build_proxy_request`; `p` is the text up to
`headers_end`. -/
def copyHeaderLines (outLen : ℕ) : ℕ → Bytes → Bytes → Option Bytes
  | 0, out, _ => some out
  | fuel + 1, out, p =>
      if p = [] then some out
      else
        match indexOfSub crlf p with
        | none => some out
        | some next =>
            if p.take next ≠ [] && !proxySkipHeader (p.take next) then
              if outLen ≤ out.length + next + 2 then none
              else copyHeaderLines outLen fuel (out ++ (p.take next ++ crlf)) (p.drop (next + 2))
            else copyHeaderLines outLen fuel out (p.drop (next + 2))

/-- The Host value sent upstream. -/
def proxyHostValue (site : Site) (req : HttpRequest) : Bytes :=
  if site.proxyPassHost && req.host ≠ [] then req.host else site.proxyHost.bytes

/-- The Connection value sent upstream. -/
def proxyConnectionValue (site : Site) (req : HttpRequest) : Bytes :=
  if req.upgradeWebsocket && site.proxyWebsocket then ascii "Upgrade" else ascii "close"

/-- The X-Forwarded-Proto value sent upstream. -/
def forwardedProtoValue (client : Client) (site : Site) : Bytes :=
  if client.localPort = site.httpsPort then ascii "https" else ascii "http"

/-- `append_header` behind a switch of the site. -/
def appendHeaderIf (enabled : Bool) (outLen : ℕ) (out name value : Bytes) : Option Bytes :=
  if enabled then appendHeader outLen out name value else some out

/-- `build_proxy_request`. -/
def buildProxyRequest (outLen : ℕ) (client : Client) (site : Site) (req : HttpRequest)
    (raw body : Bytes) : Option Bytes :=
  let out := req.method ++ ascii " " ++ req.path ++ ascii " HTTP/1.1" ++ crlf
  if outLen ≤ out.length then none
  else do
    let out ← appendHeader outLen out (ascii "Host") (proxyHostValue site req)
    let out ← appendHeader outLen out (ascii "Connection") (proxyConnectionValue site req)
    let start ← indexOfSub crlf raw
    if req.headerLen < 4 ∨ raw.length < req.headerLen then none
    else
      let p := (raw.take (req.headerLen - 4)).drop (start + 2)
      let out ← copyHeaderLines outLen p.length out p
      let out ← appendHeaderIf site.proxyRealIp outLen out (ascii "X-Real-IP")
        client.clientIp.bytes
      let out ← appendHeaderIf site.proxyForwardedFor outLen out (ascii "X-Forwarded-For")
        client.clientIp.bytes
      let out ← appendHeaderIf site.proxyForwardedProto outLen out (ascii "X-Forwarded-Proto")
        (forwardedProtoValue client site)
      if outLen ≤ out.length + 2 + body.length then none
      else some (out ++ crlf ++ body)

/-- `proxy_capacity` of `serve_proxy`. -/
def proxyCapacity (req : HttpRequest) (body : Bytes) : ℕ := req.headerLen + body.length + 4096

/-! ### What the upstream should read -/

/-- The client's header lines. -/
def clientFieldLines (buf : Bytes) : List Bytes :=
  match splitHead buf with
  | some (_ :: fields, _) => fields
  | _ => []

/-- The lines in front of the client's own. -/
def leadingLines (site : Site) (req : HttpRequest) : List Bytes :=
  [req.method ++ ascii " " ++ req.path ++ ascii " HTTP/1.1",
    headerText (ascii "Host") (proxyHostValue site req),
    headerText (ascii "Connection") (proxyConnectionValue site req)]

/-- The enabled lines behind the client's own. -/
def trailingLines (client : Client) (site : Site) : List Bytes :=
  (if site.proxyRealIp then [headerText (ascii "X-Real-IP") client.clientIp.bytes] else []) ++
  (if site.proxyForwardedFor then
    [headerText (ascii "X-Forwarded-For") client.clientIp.bytes] else []) ++
  (if site.proxyForwardedProto then
    [headerText (ascii "X-Forwarded-Proto") (forwardedProtoValue client site)] else [])

/-- The head with these of the client's lines. -/
def headWith (client : Client) (site : Site) (req : HttpRequest) (fields : List Bytes) :
    List Bytes :=
  leadingLines site req ++ fields.filter (fun l => !proxySkipHeader l) ++ trailingLines client site

/-- The upstream reads the client's request: every header line that is not dropped, in order and
unchanged, between the lines the proxy writes itself, and the body. -/
def Forwards (client : Client) (site : Site) (req : HttpRequest) (buf body : Bytes) : Prop :=
  ∃ out, buildProxyRequest (proxyCapacity req body) client site req buf body = some out ∧
    splitHead out = some (headWith client site req (clientFieldLines buf), body)

/-! ### The copy loop -/

/-- A line the copy loop keeps. -/
def keepLine (line : Bytes) : Bool := line ≠ [] && !proxySkipHeader line

/-- The copy loop keeps the lines of its block that are not dropped, but never the last one. -/
theorem copyHeaderLines_eq {outLen fuel : ℕ} {out p : Bytes} (hfuel : p.length ≤ fuel)
    (hroom : out.length + (unlines ((lines p).dropLast.filter keepLine)).length < outLen) :
    copyHeaderLines outLen fuel out p =
      some (out ++ unlines ((lines p).dropLast.filter keepLine)) := by
  induction fuel generalizing out p with
  | zero =>
      have hp : p = [] := List.eq_nil_of_length_eq_zero (by omega)
      subst hp
      simp [copyHeaderLines]
  | succ fuel ih =>
      unfold copyHeaderLines
      by_cases hp : p = []
      · subst hp
        simp
      rw [if_neg hp]
      cases hs : indexOfSub crlf p with
      | none => simp [lines_of_indexOfSub_none hs]
      | some next =>
          have hlen := indexOfSub_add_length_le hs
          simp only [List.length_cons, List.length_nil] at hlen
          have hrest : (p.drop (next + 2)).length ≤ fuel := by
            rw [List.length_drop]
            omega
          have hlines : (lines p).dropLast =
              p.take next :: (lines (p.drop (next + 2))).dropLast := by
            rw [lines_of_indexOfSub_some hs, List.dropLast_cons_of_ne_nil (lines_ne_nil _)]
          rw [hlines, List.filter_cons] at hroom ⊢
          simp only
          change (if keepLine (p.take next) = true then _ else _) = _
          by_cases hkeep : keepLine (p.take next) = true
          · rw [if_pos hkeep] at hroom ⊢
            rw [if_pos hkeep]
            simp only [unlines_cons, List.length_append, List.length_take, List.length_cons,
              List.length_nil, Nat.min_eq_left (show next ≤ p.length by omega)] at hroom
            rw [if_neg (by omega), ih hrest (by
              simp only [List.length_append, List.length_take, List.length_cons, List.length_nil,
                Nat.min_eq_left (show next ≤ p.length by omega)]
              omega)]
            simp
          · rw [if_neg hkeep] at hroom ⊢
            rw [if_neg hkeep]
            exact ih hrest hroom

/-! ### The head that is built -/

theorem appendHeaderIf_eq {enabled : Bool} {outLen : ℕ} {out name value : Bytes}
    (h : out.length + (headerText name value).length + 2 < outLen) :
    appendHeaderIf enabled outLen out name value =
      some (out ++ unlines (if enabled then [headerText name value] else [])) := by
  unfold appendHeaderIf
  cases enabled with
  | false => simp
  | true => simp [appendHeader_eq h]

/-- Fewer lines are no longer. -/
theorem length_unlines_le {ls ms : List Bytes} (h : List.Sublist ls ms) :
    (unlines ls).length ≤ (unlines ms).length := by
  induction h with
  | slnil => exact le_rfl
  | cons a _ ih =>
      simp only [unlines_cons, List.length_append]
      omega
  | cons_cons a _ ih =>
      simp only [unlines_cons, List.length_append]
      omega

/-- The loop's block of an accepted request, line by line. -/
theorem Parsed.copyBlock_eq {buf : Bytes} {req : HttpRequest} (p : Parsed buf req) :
    (buf.take (req.headerLen - 4)).drop (p.firstLen + 2) =
      (buf.take p.stop).drop (p.firstLen + 2) := by
  rw [p.headerLen_eq, Nat.add_sub_cancel]

/-- The client's header lines as the parser sees them. -/
theorem Parsed.clientFieldLines_eq {buf : Bytes} {req : HttpRequest} (p : Parsed buf req) :
    clientFieldLines buf = p.fieldLines := by
  unfold clientFieldLines
  rw [p.splitHead_eq]

theorem length_proxyHostValue {buf : Bytes} {req : HttpRequest} (p : Parsed buf req)
    (site : Site) : (proxyHostValue site req).length < 256 := by
  unfold proxyHostValue
  split_ifs
  · exact p.texts.2.2.1
  · exact site.proxyHost.ok.1

theorem length_proxyConnectionValue (site : Site) (req : HttpRequest) :
    (proxyConnectionValue site req).length ≤ 7 := by
  unfold proxyConnectionValue
  split_ifs <;> decide

theorem length_forwardedProtoValue (client : Client) (site : Site) :
    (forwardedProtoValue client site).length ≤ 5 := by
  unfold forwardedProtoValue
  split_ifs <;> decide

/-- What `build_proxy_request` keeps of the client's header lines. -/
def copiedLines (fields : List Bytes) : List Bytes := fields.dropLast.filter keepLine

/-- The lines between the leading and the trailing ones fit into the length of the head. -/
theorem length_copied_le {buf : Bytes} {req : HttpRequest} (p : Parsed buf req) :
    (unlines (copiedLines p.fieldLines)).length ≤ req.headerLen := by
  have hsub : List.Sublist (copiedLines p.fieldLines) (p.requestLine :: p.fieldLines) :=
    (List.filter_sublist.trans (List.dropLast_sublist _)).trans (List.sublist_cons_self _ _)
  have hhead := congrArg List.length p.head_eq
  have hstop := p.stop_add_four_le
  rw [List.length_append, List.length_take, Nat.min_eq_left hstop] at hhead
  have hle := length_unlines_le hsub
  rw [p.headerLen_eq]
  omega

/-- **The head that is built**: in the buffer `serve_proxy` allocates nothing is refused. -/
theorem buildProxyRequest_eq {buf : Bytes} {req : HttpRequest} (p : Parsed buf req)
    (client : Client) (site : Site) (body : Bytes) :
    buildProxyRequest (proxyCapacity req body) client site req buf body =
      some (unlines (leadingLines site req ++ copiedLines p.fieldLines ++
        trailingLines client site) ++ crlf ++ body) := by
  obtain ⟨⟨hmethod, -⟩, ⟨hpath, -⟩, -⟩ := p.texts
  have hhost := length_proxyHostValue p site
  have hconn := length_proxyConnectionValue site req
  have hproto := length_forwardedProtoValue client site
  have hip := client.clientIp.ok.1
  have hcopied := length_copied_le p
  have hfour : 4 ≤ req.headerLen := by
    rw [p.headerLen_eq]
    omega
  have hlen : req.headerLen ≤ buf.length := by
    rw [p.headerLen_eq]
    exact p.stop_add_four_le
  unfold methodLen at hmethod
  unfold pathLen at hpath
  have hline : ∀ name value : Bytes,
      (headerText name value).length = name.length + 2 + value.length := by
    intro name value
    simp only [headerText, List.length_append]
    rfl
  have hif : ∀ (b : Bool) (l : Bytes),
      (unlines (if b then [l] else [])).length ≤ l.length + 2 := by
    intro b l
    cases b <;> simp
  have hname : (ascii "Host").length = 4 ∧ (ascii "Connection").length = 10 ∧
      (ascii "X-Real-IP").length = 9 ∧ (ascii "X-Forwarded-For").length = 15 ∧
      (ascii "X-Forwarded-Proto").length = 17 ∧ (ascii " HTTP/1.1").length = 9 := by decide
  have hspace : (ascii " ").length = 1 ∧ crlf.length = 2 := by decide
  have hreal := hif site.proxyRealIp (headerText (ascii "X-Real-IP") client.clientIp.bytes)
  have hfor := hif site.proxyForwardedFor
    (headerText (ascii "X-Forwarded-For") client.clientIp.bytes)
  have hfproto := hif site.proxyForwardedProto
    (headerText (ascii "X-Forwarded-Proto") (forwardedProtoValue client site))
  simp only [hline] at hreal hfor hfproto
  unfold buildProxyRequest proxyCapacity
  simp only [p.first_eq, Option.bind_eq_bind, Option.bind_some]
  rw [if_neg (by simp only [List.length_append]; omega),
    appendHeader_eq (by simp only [List.length_append, hline]; omega), Option.bind_some,
    appendHeader_eq (by simp only [List.length_append, hline]; omega), Option.bind_some,
    if_neg (by omega), p.copyBlock_eq]
  have hcopy : copiedLines p.fieldLines =
      (lines ((buf.take p.stop).drop (p.firstLen + 2))).dropLast.filter keepLine := rfl
  rw [copyHeaderLines_eq le_rfl (by
      rw [← hcopy]
      simp only [List.length_append, hline]
      omega), ← hcopy, Option.bind_some,
    appendHeaderIf_eq (by simp only [List.length_append, hline]; omega), Option.bind_some,
    appendHeaderIf_eq (by simp only [List.length_append, hline]; omega), Option.bind_some,
    appendHeaderIf_eq (by simp only [List.length_append, hline]; omega), Option.bind_some,
    if_neg (by simp only [List.length_append, hline]; omega)]
  simp [leadingLines, trailingLines]

/-! ### What the upstream reads -/

theorem headerText_line {name value : Bytes} (hname : 10 ∉ name) (hvalue : 10 ∉ value) :
    headerText name value ≠ [] ∧ 10 ∉ headerText name value := by
  refine ⟨?_, ?_⟩
  · intro hnil
    have := congrArg List.length hnil
    simp [headerText, ascii] at this
  · intro hmem
    simp only [headerText, List.mem_append] at hmem
    rcases hmem with (hmem | hmem) | hmem
    · exact hname hmem
    · exact absurd hmem (by decide)
    · exact hvalue hmem

/-- The lines the proxy writes itself are lines. -/
theorem ownLines_line {buf : Bytes} {req : HttpRequest} (p : Parsed buf req) (client : Client)
    (site : Site) {l : Bytes} (h : l ∈ leadingLines site req ∨ l ∈ trailingLines client site) :
    l ≠ [] ∧ 10 ∉ l := by
  obtain ⟨⟨-, hmethod, -⟩, ⟨-, hpath, -⟩, -, hhost, -⟩ := p.texts
  have hip := client.clientIp.ok.2.1
  have hhostValue : 10 ∉ proxyHostValue site req := by
    unfold proxyHostValue
    split_ifs
    · exact hhost
    · exact site.proxyHost.ok.2.1
  have hconn : 10 ∉ proxyConnectionValue site req := by
    unfold proxyConnectionValue
    split_ifs <;> decide
  have hproto : 10 ∉ forwardedProtoValue client site := by
    unfold forwardedProtoValue
    split_ifs <;> decide
  have hsingle : ∀ (b : Bool) (text : Bytes), l ∈ (if b then [text] else []) → l = text := by
    intro b text hl
    cases b
    · simp at hl
    · simpa using hl
  rcases h with h | h
  · simp only [leadingLines, List.mem_cons, List.not_mem_nil, or_false] at h
    rcases h with rfl | rfl | rfl
    · refine ⟨by simp [ascii], ?_⟩
      simp only [List.mem_append, not_or]
      exact ⟨⟨⟨hmethod, by decide⟩, hpath⟩, by decide⟩
    · exact headerText_line (by decide) hhostValue
    · exact headerText_line (by decide) hconn
  · simp only [trailingLines, List.mem_append] at h
    rcases h with (h | h) | h
    · rw [hsingle _ _ h]
      exact headerText_line (by decide) hip
    · rw [hsingle _ _ h]
      exact headerText_line (by decide) hip
    · rw [hsingle _ _ h]
      exact headerText_line (by decide) hproto

/-- Without the last line a filter gives the same exactly if it drops that line. -/
theorem filter_dropLast_eq_iff {α : Type*} {q : α → Bool} {l : List α} :
    l.dropLast.filter q = l.filter q ↔ l.getLast?.all (fun a => !q a) = true := by
  rcases List.eq_nil_or_concat l with rfl | ⟨front, last, rfl⟩
  · simp
  · cases hq : q last <;> simp [hq]

/-- **What the upstream reads** of the head that is built. -/
theorem Parsed.splitHead_forwarded {buf : Bytes} {req : HttpRequest} (p : Parsed buf req)
    (client : Client) (site : Site) (body : Bytes) :
    splitHead (unlines (leadingLines site req ++ copiedLines p.fieldLines ++
        trailingLines client site) ++ crlf ++ body) =
      some (leadingLines site req ++ copiedLines p.fieldLines ++ trailingLines client site,
        body) := by
  refine splitHead_unlines (by simp [leadingLines]) (fun l hl => ?_) body
  rw [List.mem_append, List.mem_append] at hl
  rcases hl with (hl | hl) | hl
  · exact ownLines_line p client site (Or.inl hl)
  · have hfield := List.dropLast_subset _ (List.mem_of_mem_filter hl)
    exact ⟨p.fieldLine_ne_nil hfield, (p.not_mem_line (List.mem_cons_of_mem _ hfield)).2⟩
  · exact ownLines_line p client site (Or.inr hl)

/-- **The last line decides**: the upstream reads every header line it should exactly when the
last header line of the request is one that the proxy drops anyway. -/
theorem forwards_iff_last_skipped {buf : Bytes} {req : HttpRequest}
    (h : httpParseRequest buf = .accepted req) (client : Client) (site : Site) (body : Bytes) :
    Forwards client site req buf body ↔
      (clientFieldLines buf).getLast?.all proxySkipHeader = true := by
  obtain ⟨p⟩ := parsed_of_accepted h
  have hcopied : copiedLines p.fieldLines =
      p.fieldLines.dropLast.filter (fun l => !proxySkipHeader l) := by
    apply List.filter_congr
    intro l hl
    have hne := p.fieldLine_ne_nil (List.dropLast_subset _ hl)
    simp [keepLine, hne]
  have hread := p.splitHead_forwarded client site body
  have hiff : Forwards client site req buf body ↔
      copiedLines p.fieldLines = p.fieldLines.filter (fun l => !proxySkipHeader l) := by
    unfold Forwards
    rw [buildProxyRequest_eq p client site body]
    simp only [Option.some.injEq, exists_eq_left', hread, Prod.mk.injEq, and_true]
    unfold headWith
    rw [p.clientFieldLines_eq, List.append_left_inj, List.append_right_inj]
  rw [hiff, hcopied, filter_dropLast_eq_iff, p.clientFieldLines_eq]
  simp

/-- A request whose Host field comes last is forwarded as it should be. -/
theorem forwards_host_last :
    ∃ req, httpParseRequest (ascii "GET / HTTP/1.1\x0d\nAccept: x\x0d\nHost: a\x0d\n\x0d\n") =
        .accepted req ∧
      Forwards ⟨80, false, .lit "10.0.0.9", .lit "10.0.0.1"⟩ {} req
        (ascii "GET / HTTP/1.1\x0d\nAccept: x\x0d\nHost: a\x0d\n\x0d\n") [] := by
  have h : httpParseRequest (ascii "GET / HTTP/1.1\x0d\nAccept: x\x0d\nHost: a\x0d\n\x0d\n") =
      .accepted
        { method := ascii "GET"
          path := ascii "/"
          host := ascii "a"
          headerLen := 38
          keepAlive := true } := by decide
  exact ⟨_, h, (forwards_iff_last_skipped h _ _ _).mpr (by decide)⟩

/-- A request whose Content-Length field comes last loses it, and keeps its body. -/
theorem last_line_not_forwarded :
    ∃ req, httpParseRequest
        (ascii "POST / HTTP/1.1\x0d\nHost: a\x0d\nContent-Length: 3\x0d\n\x0d\nabc") =
        .accepted req ∧
      ¬ Forwards ⟨80, false, .lit "10.0.0.9", .lit "10.0.0.1"⟩
        { proxyRealIp := false, proxyForwardedFor := false, proxyForwardedProto := false } req
        (ascii "POST / HTTP/1.1\x0d\nHost: a\x0d\nContent-Length: 3\x0d\n\x0d\nabc")
        (ascii "abc") := by
  refine ⟨{
    method := ascii "POST"
    path := ascii "/"
    host := ascii "a"
    headerLen := 47
    contentLength := 3
    keepAlive := true }, by decide, ?_⟩
  rintro ⟨out, hout, hread⟩
  have hbuilt : some out =
      some (ascii "POST / HTTP/1.1\x0d\nHost: a\x0d\nConnection: close\x0d\n\x0d\nabc") :=
    hout.symm.trans (by decide)
  rw [Option.some.inj hbuilt] at hread
  exact absurd hread (by decide)

end Rpsiod

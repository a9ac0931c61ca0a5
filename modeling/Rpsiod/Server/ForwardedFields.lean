import Rpsiod.Proxy.Forward
import Rpsiod.Server.HeadIntegrity

/-!
# Forwarded header fields (`rpsiod_proxy_skip_header`, `build_proxy_request`)

The proxy drops the client's lines of six names, and writes lines of five of these names itself.

* `skip_of_name`: a line that the parser takes is dropped if it has one of the six names, in any
  letter case.
* `forwarded_unspoofed`: **the upstream reads each of these fields at most once, and as the server
  has written it**.
-/

namespace Rpsiod

open ListSearch Crlf

/-! ### Names -/

/-- The name on a line, to a reader that does not mind blanks around it. -/
def readName (line : Bytes) : Bytes := trimBlanks (lineName line)

/-- A line with this name, in any letter case. -/
def isNamed (name line : Bytes) : Bool := streqCi (readName line) name

/-- The names that the proxy writes itself. -/
def proxyNames : List Bytes :=
  [ascii "Host", ascii "Connection", ascii "X-Real-IP", ascii "X-Forwarded-For",
    ascii "X-Forwarded-Proto"]

/-- The lines that the upstream reads behind the request line. -/
structure Unspoofed (client : Client) (site : Site) (fields : List Bytes) : Prop where
  once : ∀ name ∈ proxyNames, fields.countP (isNamed name) ≤ 1
  noProxyConnection : ∀ l ∈ fields, isNamed (ascii "Proxy-Connection") l = false
  realIp : ∀ l ∈ fields, isNamed (ascii "X-Real-IP") l = true →
    l = headerText (ascii "X-Real-IP") client.clientIp.bytes
  forwardedFor : ∀ l ∈ fields, isNamed (ascii "X-Forwarded-For") l = true →
    l = headerText (ascii "X-Forwarded-For") client.clientIp.bytes
  forwardedProto : ∀ l ∈ fields, isNamed (ascii "X-Forwarded-Proto") l = true →
    l = headerText (ascii "X-Forwarded-Proto") (forwardedProtoValue client site)

/-! ### The lines of the client -/

/-- A name that the parser takes is read as it is written. -/
theorem readName_fieldLine {line name value : Bytes} (h : FieldLine line name value) :
    readName line = name := by
  have hvalid := h.name_valid
  rw [validHeaderName, Bool.and_eq_true, decide_eq_true_eq] at hvalid
  have htoken := isToken_of_all hvalid.1 hvalid.2
  have hcolon : 58 ∉ name := fun hmem =>
    absurd (List.all_eq_true.mp hvalid.2 58 hmem) (by decide)
  have hname : lineName line = name := by
    unfold lineName
    rw [h.line_eq, List.takeWhile_append_of_pos]
    · rw [List.takeWhile_cons_of_neg (by decide), List.append_nil]
    · intro c hc
      rw [decide_eq_true_iff]
      exact ne_of_mem_of_not_mem hc hcolon
  unfold readName
  rw [hname]
  exact trimBlanks_of_lt fun c hc => (htoken.2 c hc).lt

theorem requestHeaderNameIs_of_name {name value own : Bytes} (h : streqCi name own = true) :
    requestHeaderNameIs (name ++ 58 :: value) own = true := by
  have hlen := length_eq_of_streqCi h
  unfold requestHeaderNameIs
  rw [← hlen, List.take_left, h, List.getElem?_append_right le_rfl, Nat.sub_self]
  simp

/-- **A line that is not dropped has none of the six names.** -/
theorem skip_of_name {line name value own : Bytes} (h : FieldLine line name value)
    (hown : own ∈ ascii "Proxy-Connection" :: proxyNames) (hnamed : isNamed own line = true) :
    proxySkipHeader line = true := by
  unfold isNamed at hnamed
  rw [readName_fieldLine h] at hnamed
  have hline := @requestHeaderNameIs_of_name name value own hnamed
  rw [← h.line_eq] at hline
  unfold proxySkipHeader
  simp only [proxyNames, List.mem_cons, List.not_mem_nil, or_false] at hown
  rcases hown with rfl | rfl | rfl | rfl | rfl | rfl <;> rw [hline] <;> simp

theorem not_named_of_copied {buf : Bytes} {req : HttpRequest} (p : Parsed buf req) {l own : Bytes}
    (hl : l ∈ copiedLines p.fieldLines) (hown : own ∈ ascii "Proxy-Connection" :: proxyNames) :
    isNamed own l = false := by
  obtain ⟨fields, -, hlines, hfield⟩ := p.exists_fields
  obtain ⟨hmem, hkeep⟩ := List.mem_filter.mp hl
  have hin := List.dropLast_subset _ hmem
  rw [hlines] at hin
  obtain ⟨f, hf, rfl⟩ := List.mem_map.mp hin
  cases hnamed : isNamed own (fieldLine f) with
  | false => rfl
  | true =>
      unfold keepLine at hkeep
      rw [skip_of_name (hfield f hf) hown hnamed, Bool.not_true, Bool.and_false] at hkeep
      exact absurd hkeep Bool.false_ne_true

/-! ### The lines of the proxy -/

/-- The lines that the proxy writes, as fields. -/
def proxyFields (client : Client) (site : Site) (req : HttpRequest) : List Field :=
  [(ascii "Host", proxyHostValue site req), (ascii "Connection", proxyConnectionValue site req)] ++
    (if site.proxyRealIp then [(ascii "X-Real-IP", client.clientIp.bytes)] else []) ++
    (if site.proxyForwardedFor then [(ascii "X-Forwarded-For", client.clientIp.bytes)] else []) ++
    (if site.proxyForwardedProto then
      [(ascii "X-Forwarded-Proto", forwardedProtoValue client site)] else [])

/-- Their names. -/
def proxyFieldNames (realIp forwardedFor forwardedProto : Bool) : List Bytes :=
  [ascii "Host", ascii "Connection"] ++ (if realIp then [ascii "X-Real-IP"] else []) ++
    (if forwardedFor then [ascii "X-Forwarded-For"] else []) ++
    (if forwardedProto then [ascii "X-Forwarded-Proto"] else [])

section

variable {client : Client} {site : Site} {req : HttpRequest} {f : Field}

theorem map_proxyFields : (proxyFields client site req).map Prod.fst =
    proxyFieldNames site.proxyRealIp site.proxyForwardedFor site.proxyForwardedProto := by
  unfold proxyFields proxyFieldNames
  cases site.proxyRealIp <;> cases site.proxyForwardedFor <;> cases site.proxyForwardedProto <;> rfl

theorem own_lines : (leadingLines site req).tail ++ trailingLines client site =
    (proxyFields client site req).map fieldText := by
  unfold leadingLines trailingLines proxyFields
  cases site.proxyRealIp <;> cases site.proxyForwardedFor <;> cases site.proxyForwardedProto <;> rfl

theorem name_of_mem_proxyFields (h : f ∈ proxyFields client site req) : f.1 ∈ proxyNames := by
  have hall : ∀ realIp forwardedFor forwardedProto : Bool,
      ∀ name ∈ proxyFieldNames realIp forwardedFor forwardedProto, name ∈ proxyNames := by
    decide
  apply hall site.proxyRealIp site.proxyForwardedFor site.proxyForwardedProto
  rw [← @map_proxyFields client site req]
  exact List.mem_map_of_mem h

/-- Each of the names is written once at most. -/
theorem countP_proxyFields_le {name : Bytes} (hname : name ∈ proxyNames) :
    (proxyFields client site req).countP (fun f => streqCi f.1 name) ≤ 1 := by
  have hall : ∀ realIp forwardedFor forwardedProto : Bool, ∀ name ∈ proxyNames,
      (proxyFieldNames realIp forwardedFor forwardedProto).countP (fun own => streqCi own name) ≤
        1 := by
    decide
  have hle := hall site.proxyRealIp site.proxyForwardedFor site.proxyForwardedProto name hname
  rw [← @map_proxyFields client site req, List.countP_map] at hle
  exact hle

/-- A field of one of these names has the value of the connection. -/
theorem value_of_mem_proxyFields (h : f ∈ proxyFields client site req) :
    (f.1 = ascii "X-Real-IP" → f.2 = client.clientIp.bytes) ∧
      (f.1 = ascii "X-Forwarded-For" → f.2 = client.clientIp.bytes) ∧
      (f.1 = ascii "X-Forwarded-Proto" → f.2 = forwardedProtoValue client site) := by
  have hcases : f = (ascii "Host", proxyHostValue site req) ∨
      f = (ascii "Connection", proxyConnectionValue site req) ∨
      f = (ascii "X-Real-IP", client.clientIp.bytes) ∨
      f = (ascii "X-Forwarded-For", client.clientIp.bytes) ∨
      f = (ascii "X-Forwarded-Proto", forwardedProtoValue client site) := by
    unfold proxyFields at h
    simp only [List.mem_append, List.mem_cons, List.not_mem_nil, or_false,
      List.mem_ite_nil_right] at h
    tauto
  rcases hcases with rfl | rfl | rfl | rfl | rfl <;> dsimp only
  · exact ⟨fun h => absurd h (by decide), fun h => absurd h (by decide),
      fun h => absurd h (by decide)⟩
  · exact ⟨fun h => absurd h (by decide), fun h => absurd h (by decide),
      fun h => absurd h (by decide)⟩
  · exact ⟨fun _ => rfl, fun h => absurd h (by decide), fun h => absurd h (by decide)⟩
  · exact ⟨fun h => absurd h (by decide), fun _ => rfl, fun h => absurd h (by decide)⟩
  · exact ⟨fun h => absurd h (by decide), fun h => absurd h (by decide), fun _ => rfl⟩

end

theorem isNamed_fieldText {f : Field} (hname : f.1 ∈ proxyNames) (name : Bytes) :
    isNamed name (fieldText f) = streqCi f.1 name := by
  have hall : ∀ own ∈ proxyNames, 58 ∉ own ∧ trimBlanks own = own := by decide
  obtain ⟨hcolon, htrim⟩ := hall _ hname
  unfold isNamed readName
  rw [lineName_fieldText hcolon, htrim]

/-- The names that the proxy writes differ, in any letter case. -/
theorem eq_of_streqCi_proxyNames {own name : Bytes} (hown : own ∈ proxyNames)
    (hname : name ∈ proxyNames) (h : streqCi own name = true) : own = name := by
  have hall : ∀ own ∈ proxyNames, ∀ name ∈ proxyNames, streqCi own name = true → own = name := by
    decide
  exact hall _ hown _ hname h

/-! ### What the upstream reads -/

theorem unspoofed_lines {buf : Bytes} {req : HttpRequest} (p : Parsed buf req) (client : Client)
    (site : Site) :
    Unspoofed client site ((leadingLines site req).tail ++ copiedLines p.fieldLines ++
      trailingLines client site) := by
  -- a line with one of the six names is one of the proxy's own
  have hown : ∀ name ∈ ascii "Proxy-Connection" :: proxyNames, ∀ l,
      l ∈ (leadingLines site req).tail ++ copiedLines p.fieldLines ++ trailingLines client site →
      isNamed name l = true →
        ∃ f ∈ proxyFields client site req, l = fieldText f ∧ streqCi f.1 name = true := by
    intro name hname l hl hnamed
    have hmem : l ∈ (proxyFields client site req).map fieldText := by
      rw [← own_lines, List.mem_append]
      rcases List.mem_append.mp hl with hl | hl
      · rcases List.mem_append.mp hl with hl | hl
        · exact Or.inl hl
        · rw [not_named_of_copied p hl hname] at hnamed
          exact absurd hnamed Bool.false_ne_true
      · exact Or.inr hl
    obtain ⟨f, hf, rfl⟩ := List.mem_map.mp hmem
    rw [isNamed_fieldText (name_of_mem_proxyFields hf)] at hnamed
    exact ⟨f, hf, rfl, hnamed⟩
  have hvalue : ∀ name ∈ proxyNames, ∀ l,
      l ∈ (leadingLines site req).tail ++ copiedLines p.fieldLines ++ trailingLines client site →
      isNamed name l = true →
        ∃ f ∈ proxyFields client site req, f.1 = name ∧ l = headerText name f.2 := by
    intro name hname l hl hnamed
    obtain ⟨f, hf, rfl, hsame⟩ := hown name (List.mem_cons_of_mem _ hname) l hl hnamed
    have heq := eq_of_streqCi_proxyNames (name_of_mem_proxyFields hf) hname hsame
    exact ⟨f, hf, heq, by rw [← heq]; rfl⟩
  constructor
  · intro name hname
    have hnone : (copiedLines p.fieldLines).countP (isNamed name) = 0 := by
      rw [List.countP_eq_zero]
      intro l hl
      rw [not_named_of_copied p hl (List.mem_cons_of_mem _ hname)]
      exact Bool.false_ne_true
    rw [List.countP_append, List.countP_append, hnone, Nat.add_zero, ← List.countP_append,
      own_lines, List.countP_map]
    refine (List.countP_congr fun f hf => ?_).trans_le (countP_proxyFields_le hname)
    rw [Function.comp_apply, isNamed_fieldText (name_of_mem_proxyFields hf)]
  · intro l hl
    cases hnamed : isNamed (ascii "Proxy-Connection") l with
    | false => rfl
    | true =>
        obtain ⟨f, hf, -, hsame⟩ := hown _ List.mem_cons_self l hl hnamed
        have hall : ∀ own ∈ proxyNames, streqCi own (ascii "Proxy-Connection") = false := by decide
        rw [hall _ (name_of_mem_proxyFields hf)] at hsame
        exact absurd hsame Bool.false_ne_true
  · intro l hl hnamed
    obtain ⟨f, hf, hname, rfl⟩ := hvalue _ (by decide) l hl hnamed
    rw [(value_of_mem_proxyFields hf).1 hname]
  · intro l hl hnamed
    obtain ⟨f, hf, hname, rfl⟩ := hvalue _ (by decide) l hl hnamed
    rw [(value_of_mem_proxyFields hf).2.1 hname]
  · intro l hl hnamed
    obtain ⟨f, hf, hname, rfl⟩ := hvalue _ (by decide) l hl hnamed
    rw [(value_of_mem_proxyFields hf).2.2 hname]

/-- **Nobody can forge what the proxy says about the connection**: whatever header block the parser
accepts, the upstream reads each of these fields at most once, no Proxy-Connection, and of the last
three only what the server has written. -/
theorem forwarded_unspoofed {buf : Bytes} {req : HttpRequest}
    (h : httpParseRequest buf = .accepted req) (client : Client) (site : Site) (body : Bytes) :
    ∃ out line fields,
      buildProxyRequest (proxyCapacity req body) client site req buf body = some out ∧
      splitHead out = some (line :: fields, body) ∧ Unspoofed client site fields := by
  obtain ⟨p⟩ := parsed_of_accepted h
  exact ⟨_, _, _, buildProxyRequest_eq p client site body, p.splitHead_forwarded client site body,
    unspoofed_lines p client site⟩

/-- A client that says who it is, in several ways. -/
def forgingRequest : Bytes :=
  ascii "GET / HTTP/1.1\x0d\nx-forwarded-for: 1.1.1.1\x0d\nX-REAL-IP: 2\x0d\nHost: a\x0d\n\x0d\n"

theorem forwarded_unspoofed_forging :
    ∃ req out line fields, httpParseRequest forgingRequest = .accepted req ∧
      buildProxyRequest (proxyCapacity req []) ⟨80, false, .lit "10.0.0.9", .lit "10.0.0.1"⟩ {} req
        forgingRequest [] = some out ∧
      splitHead out = some (line :: fields, []) ∧
      Unspoofed ⟨80, false, .lit "10.0.0.9", .lit "10.0.0.1"⟩ {} fields := by
  obtain ⟨req, hreq, -⟩ := @exists_accepted forgingRequest (fun _ => true) (by decide +kernel)
  obtain ⟨out, line, fields, hbuilt⟩ :=
    forwarded_unspoofed hreq ⟨80, false, .lit "10.0.0.9", .lit "10.0.0.1"⟩ {} []
  exact ⟨req, out, line, fields, hreq, hbuilt⟩

end Rpsiod

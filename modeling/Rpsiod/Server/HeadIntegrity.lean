import Rpsiod.Config.HeaderPairs
import Rpsiod.Server.ServeRequest

/-!
# Heads that nobody can break (`build_response_headers`, `write_php_response_headers`)

The fields of a head come from the server, from the configuration of the site, from the request
and from a FastCGI response.

* `ownNames`: the names of the server's own fields, in their order.
* `ComposedHead.countNamed_eq`: how often a composed head has a name, counted on its bytes.
* `response_head_integrity`: **every head of every answer** ends at its only blank line, keeps what
  it repeats on one line, and has each of the `singleNames` at most once.
-/

namespace Rpsiod

open ListSearch Crlf

/-! ### The names in a head -/

/-- The name on a header line: what is in front of its first colon. -/
def lineName (line : Bytes) : Bytes := line.takeWhile (· ≠ 58)

/-- How many header lines of a head have this name, in any letter case, to a reader that reads a
name with `read`. -/
def countNamed (read : Bytes → Bytes) (name head : Bytes) : ℕ :=
  match splitHead head with
  | some (ls, _) => ls.tail.countP fun line => streqCi (read (lineName line)) name
  | none => 0

/-- The same in a list of fields. -/
def countFields (name : Bytes) (fields : List Field) : ℕ := fields.countP fun f => streqCi f.1 name

theorem countFields_append (name : Bytes) (fs gs : List Field) :
    countFields name (fs ++ gs) = countFields name fs + countFields name gs :=
  List.countP_append

theorem lineName_fieldText {f : Field} (h : 58 ∉ f.1) : lineName (fieldText f) = f.1 := by
  have htext : fieldText f = f.1 ++ 58 :: (32 :: f.2) := by
    unfold fieldText headerText
    rw [show ascii ": " = [58, 32] by decide, List.append_assoc]
    rfl
  unfold lineName
  rw [htext, List.takeWhile_append_of_pos]
  · simp
  · intro c hc
    rw [decide_eq_true_iff]
    rintro rfl
    exact h hc

/-- A name that is read as it is written. -/
def ReadsAs (read : Bytes → Bytes) (name : Bytes) : Prop := 58 ∉ name ∧ read name = name

instance (read : Bytes → Bytes) (name : Bytes) : Decidable (ReadsAs read name) :=
  inferInstanceAs (Decidable (_ ∧ _))

/-- The header lines of a head are its fields. -/
theorem countNamed_headOf {read : Bytes → Bytes} {status : ℤ} {fields : List Field}
    (htext : ∀ f ∈ fields, TextField f) (hread : ∀ f ∈ fields, ReadsAs read f.1) (name : Bytes) :
    countNamed read name (headOf status fields) = countFields name fields := by
  have hsplit := @splitHead_headOf status fields htext []
  rw [List.append_nil] at hsplit
  unfold countNamed countFields
  rw [hsplit]
  show (fields.map fieldText).countP (fun line => streqCi (read (lineName line)) name) = _
  rw [List.countP_map]
  apply List.countP_congr
  intro f hf
  obtain ⟨hcolon, hsame⟩ := hread f hf
  rw [Function.comp_apply, lineName_fieldText hcolon, hsame]

/-! ### The server's own fields -/

/-- The fields that `build_response_headers` does not take from the configuration. -/
def ownFields (host : Host) (client : Client) (contentType : Bytes) (contentLength : Option ℕ)
    (keepAlive : Bool) (opts : ResponseOptions) : List Field :=
  leadingFields host contentType opts ++
    framingFields opts.site contentLength opts.chunkedResponse ++
    trailingFields host client keepAlive opts

/-- The names of the leading fields. -/
def leadingNames : List Bytes :=
  [ascii "Date"] ++ [ascii "Server"] ++ [ascii "Location"] ++ [ascii "Content-Range"] ++
    [ascii "Retry-After"] ++ [ascii "Content-Type"]

/-- The name of the framing field of a response with a length, and of one without. -/
def framingName (hasLength : Bool) : Bytes :=
  if hasLength then ascii "Content-Length" else ascii "Transfer-Encoding"

/-- The names of the trailing fields. -/
def trailingNames : List Bytes :=
  [ascii "Content-Encoding"] ++ [ascii "Cache-Control"] ++ [ascii "ETag"] ++
    [ascii "Last-Modified"] ++ [ascii "Strict-Transport-Security"] ++ [ascii "Accept-Ranges"] ++
    [ascii "Connection"] ++ [ascii "X-Served-By"] ++ [ascii "X-Cache"] ++
    [ascii "X-Cache-Hits"] ++ [ascii "X-Timer"] ++ [ascii "X-Request-ID"] ++ [ascii "Vary"] ++
    [ascii "Alt-Svc"] ++ [ascii "X-Content-Type-Options"]

/-- All of them. -/
def ownNames (hasLength : Bool) : List Bytes :=
  leadingNames ++ [framingName hasLength] ++ trailingNames

theorem names_fieldIf (site : Option Site) (present : Bool) (name value : Bytes) :
    ((fieldIf site present name value).map Prod.fst).Sublist [name] := by
  unfold fieldIf
  split_ifs
  · exact List.Sublist.refl _
  · exact List.nil_sublist _

theorem names_fieldOf (site : Option Site) (name : Bytes) (value : Option Bytes) :
    ((fieldOf site name value).map Prod.fst).Sublist [name] := by
  cases value with
  | some value => exact names_fieldIf site true name value
  | none => exact List.nil_sublist _

/-- One list of fields behind another. -/
theorem names_append {fs gs : List Field} {ms ns : List Bytes}
    (hfs : (fs.map Prod.fst).Sublist ms) (hgs : (gs.map Prod.fst).Sublist ns) :
    ((fs ++ gs).map Prod.fst).Sublist (ms ++ ns) := by
  rw [List.map_append]
  exact hfs.append hgs

theorem names_leadingFields (host : Host) (contentType : Bytes) (opts : ResponseOptions) :
    ((leadingFields host contentType opts).map Prod.fst).Sublist leadingNames := by
  unfold leadingFields leadingNames
  refine names_append (names_append (names_append (names_append (names_append ?_ ?_) ?_) ?_) ?_) ?_
  · exact names_fieldIf _ _ _ _
  · exact names_fieldIf _ _ _ _
  · exact names_fieldOf _ _ _
  · exact names_fieldOf _ _ _
  · exact names_fieldOf _ _ _
  · exact names_fieldIf _ _ _ _

theorem names_framingFields (site : Option Site) (contentLength : Option ℕ)
    (chunkedResponse : Bool) :
    ((framingFields site contentLength chunkedResponse).map Prod.fst).Sublist
      [framingName contentLength.isSome] := by
  cases contentLength with
  | some n => exact names_fieldIf _ _ _ _
  | none =>
      cases chunkedResponse with
      | false => exact List.nil_sublist _
      | true => exact List.Sublist.refl _

/-- A name of none of the fields in front. -/
theorem not_mem_frontFields {name value : Bytes} (hleading : name ∉ leadingNames)
    (hframing : ∀ hasLength, name ∉ [framingName hasLength]) (host : Host) (contentType : Bytes)
    (contentLength : Option ℕ) (opts : ResponseOptions) :
    (name, value) ∉ leadingFields host contentType opts ++
      framingFields opts.site contentLength opts.chunkedResponse := by
  intro h
  rcases List.mem_append.mp h with h | h
  · have hnames := names_leadingFields host contentType opts
    exact hleading (hnames.subset (List.mem_map_of_mem h))
  · have hnames := names_framingFields opts.site contentLength opts.chunkedResponse
    exact hframing _ (hnames.subset (List.mem_map_of_mem h))

theorem names_trailingFields (host : Host) (client : Client) (keepAlive : Bool)
    (opts : ResponseOptions) :
    ((trailingFields host client keepAlive opts).map Prod.fst).Sublist trailingNames := by
  unfold trailingFields trailingNames
  refine names_append (names_append (names_append (names_append (names_append (names_append
    (names_append (names_append (names_append (names_append (names_append (names_append
      (names_append (names_append
        ?_ ?_) ?_) ?_) ?_) ?_) ?_) ?_) ?_) ?_) ?_) ?_) ?_) ?_) ?_
  · exact names_fieldOf _ _ _
  · exact names_fieldIf _ _ _ _
  · exact names_fieldOf _ _ _
  · exact names_fieldOf _ _ _
  all_goals exact names_fieldIf _ _ _ _

variable (host : Host) (client : Client) (contentType : Bytes) (contentLength : Option ℕ)
  (keepAlive : Bool) (opts : ResponseOptions)

/-- **The names of the own fields**, in their order. -/
theorem names_ownFields :
    ((ownFields host client contentType contentLength keepAlive opts).map Prod.fst).Sublist
      (ownNames contentLength.isSome) :=
  names_append (names_append (names_leadingFields host contentType opts)
    (names_framingFields opts.site contentLength opts.chunkedResponse))
    (names_trailingFields host client keepAlive opts)

theorem countFields_ownFields_le (name : Bytes) :
    countFields name (ownFields host client contentType contentLength keepAlive opts) ≤
      (ownNames contentLength.isSome).countP (fun n => streqCi n name) := by
  have hle := (names_ownFields host client contentType contentLength keepAlive opts).countP_le
    (p := fun n => streqCi n name)
  rw [List.countP_map] at hle
  exact hle

/-! ### Names that nobody else may use -/

/-- The names that a head has at most once. -/
def singleNames : List Bytes :=
  [ascii "Content-Length", ascii "Transfer-Encoding", ascii "Content-Type", ascii "Connection"]

/-- Names that neither `headers.add` nor a FastCGI response brings in. -/
def guardedNames : List Bytes :=
  singleNames ++ [ascii "Server", ascii "Strict-Transport-Security"]

/-- **A field that the site adds has another name.** -/
theorem countFields_addedFields (site : Option Site) {name : Bytes} (h : name ∈ guardedNames) :
    countFields name (addedFields site) = 0 := by
  apply List.countP_eq_zero.mpr
  intro f hf
  cases site with
  | none => exact absurd hf List.not_mem_nil
  | some s =>
      obtain ⟨added, hadded, rfl⟩ := List.mem_map.mp hf
      have hkept := (List.mem_filter.mp hadded).2
      rw [Bool.and_eq_true, Bool.not_eq_true'] at hkept
      have hprotected : ∀ name ∈ guardedNames, protectedResponseHeader name = true := by
        decide +kernel
      obtain ⟨known, hknown, hsame⟩ := List.any_eq_true.mp (hprotected name h)
      intro hname
      refine Bool.eq_false_iff.mp hkept.1 ?_
      exact List.any_eq_true.mpr ⟨known, hknown, streqCi_trans hname hsame⟩

/-- **A field of a FastCGI response has another name.** -/
theorem countFields_phpFields (site : Option Site) (cgiHeaders : Bytes) {name : Bytes}
    (h : name ∈ guardedNames) : countFields name (phpFields site cgiHeaders) = 0 := by
  apply List.countP_eq_zero.mpr
  intro f hf hname
  have hallowed := (passedOn_of_mem hf).allowed
  have hrefused : ∀ name ∈ guardedNames, phpResponseHeaderAllowed name = false := by
    decide +kernel
  have hname' := hrefused name h
  unfold phpResponseHeaderAllowed at hallowed hname'
  rw [Bool.not_eq_true'] at hallowed
  rw [Bool.not_eq_false'] at hname'
  obtain ⟨known, hknown, hsame⟩ := List.any_eq_true.mp hname'
  refine Bool.eq_false_iff.mp hallowed ?_
  exact List.any_eq_true.mpr ⟨known, hknown, streqCi_trans hname hsame⟩

theorem ownNames_single : ∀ hasLength, ∀ name ∈ singleNames,
    (ownNames hasLength).countP (fun n => streqCi n name) ≤ 1 := by
  decide +kernel

theorem ownNames_framing (hasLength : Bool) :
    (ownNames hasLength).countP (fun n => streqCi n (framingName !hasLength)) = 0 := by
  revert hasLength
  decide +kernel

/-- The framing of a response is not ambiguous. -/
structure SingleNames (count : Bytes → ℕ) : Prop where
  single : ∀ name ∈ singleNames, count name ≤ 1
  framing : count (ascii "Content-Length") = 0 ∨ count (ascii "Transfer-Encoding") = 0

/-- The own fields have one of each. -/
theorem singleNames_ownFields : SingleNames fun name =>
    countFields name (ownFields host client contentType contentLength keepAlive opts) := by
  have hle := countFields_ownFields_le host client contentType contentLength keepAlive opts
  refine ⟨fun name hname => (hle name).trans (ownNames_single _ name hname), ?_⟩
  have hother := ownNames_framing contentLength.isSome
  cases hlength : contentLength.isSome with
  | true =>
      rw [hlength] at hother hle
      exact Or.inr (Nat.le_zero.mp (hother ▸ hle (framingName false)))
  | false =>
      rw [hlength] at hother hle
      exact Or.inl (Nat.le_zero.mp (hother ▸ hle (framingName true)))

/-! ### Names without a colon -/

/-- Two readers of a name: one that takes it as it is, and one that takes the blanks off. -/
def reader (strips : Bool) (name : Bytes) : Bytes := if strips then trimBlanks name else name

/-- The names that a site adds have no blanks at their ends, if the reader takes them off. -/
def Site.Unpadded (strips : Bool) (site : Site) : Prop :=
  ∀ pair ∈ site.headersAdd, reader strips pair.name.bytes = pair.name.bytes

theorem readsAs_ownNames : ∀ hasLength strips, ∀ name ∈ ownNames hasLength,
    ReadsAs (reader strips) name := by
  decide +kernel

theorem readsAs_ownFields (strips : Bool) :
    ∀ f ∈ ownFields host client contentType contentLength keepAlive opts,
      ReadsAs (reader strips) f.1 := by
  intro f hf
  have hnames := names_ownFields host client contentType contentLength keepAlive opts
  exact readsAs_ownNames _ strips f.1 (hnames.subset (List.mem_map_of_mem hf))

theorem readsAs_addedFields {site : Option Site} {strips : Bool}
    (configured : ∀ s ∈ site, s.Configured) (unpadded : ∀ s ∈ site, s.Unpadded strips) :
    ∀ f ∈ addedFields site, ReadsAs (reader strips) f.1 := by
  intro f hf
  cases site with
  | none => exact absurd hf List.not_mem_nil
  | some s =>
      obtain ⟨added, hadded, rfl⟩ := List.mem_map.mp hf
      have hmem := (List.mem_filter.mp hadded).1
      exact ⟨((configured s rfl).name hmem).2, unpadded s rfl added hmem⟩

/-- A token has no colon, and no blanks. -/
theorem readsAs_of_validName {name : Bytes} (h : validHeaderName name = true) (strips : Bool) :
    ReadsAs (reader strips) name := by
  unfold validHeaderName at h
  rw [Bool.and_eq_true] at h
  have hall := List.all_eq_true.mp h.2
  have hlt : ∀ c ∈ name, 32 < c := fun c hc => (isTchar_of_validTokenChar (hall c hc)).lt
  refine ⟨fun hmem => absurd (hall 58 hmem) (by decide), ?_⟩
  unfold reader
  split_ifs
  · exact trimBlanks_of_lt hlt
  · rfl

theorem unbroken_of_validName {name : Bytes} (h : validHeaderName name = true) : Unbroken name := by
  unfold validHeaderName at h
  rw [Bool.and_eq_true] at h
  exact unbroken_of_lt fun c hc =>
    (isTchar_of_validTokenChar (List.all_eq_true.mp h.2 c hc)).lt

theorem unbroken_of_validValue {value : Bytes} (h : validHeaderValue value = true) :
    Unbroken value :=
  ⟨isText_of_valid h, fun hmem => absurd (List.all_eq_true.mp h 13 hmem) (by decide)⟩

/-! ### Composed heads -/

/-- A head has the lines of its fields and no others, and what these repeat of a request or of a
FastCGI response stays on its line. -/
def KeepsLines (w : World) (site : Option Site) (head : Bytes) : Prop :=
  (∃ status contentType contentLength keepAlive opts, opts.site = site ∧
    splitHead head = some (headLines status
      (responseFields w.host w.client contentType contentLength keepAlive opts), []) ∧
    ∀ location ∈ opts.location, Unbroken location) ∨
  ∃ s status contentType contentLength keepAlive cgiHeaders chunkedResponse, some s = site ∧
    splitHead head = some (headLines status
      (responseFields w.host w.client contentType contentLength keepAlive
        (phpOptions s chunkedResponse) ++ phpFields (some s) cgiHeaders), []) ∧
    Unbroken contentType ∧ ∀ f ∈ phpFields (some s) cgiHeaders, Unbroken f.1 ∧ Unbroken f.2

variable {w : World} {site : Option Site} {head : Bytes}

/-- A composed head: the server's own fields, and fields with other names behind them. -/
theorem ComposedHead.eq_headOf (h : ComposedHead w site head)
    (configured : ∀ s ∈ site, s.Configured) :
    ∃ status contentType contentLength keepAlive opts more, opts.site = site ∧
      head = headOf status
        (ownFields w.host w.client contentType contentLength keepAlive opts ++ more) ∧
      (∀ f ∈ ownFields w.host w.client contentType contentLength keepAlive opts ++ more,
        TextField f) ∧
      (∀ name ∈ guardedNames, countFields name more = 0) ∧
      ∀ strips, (∀ s ∈ site, s.Unpadded strips) → ∀ f ∈ more, ReadsAs (reader strips) f.1 := by
  cases h with
  | @own status contentType contentLength keepAlive opts _ site_eq texts _ built =>
      rw [buildResponseHeaders_eq] at built
      unfold fitting at built
      split_ifs at built
      refine ⟨status, contentType, contentLength, keepAlive, opts, addedFields opts.site, site_eq,
        (Option.some.inj built).symm, textField_responseFields texts _ _ _ _,
        fun name hname => countFields_addedFields _ hname, fun strips hunpadded => ?_⟩
      rw [site_eq]
      exact readsAs_addedFields configured hunpadded
  | @php s status contentType contentLength keepAlive cgiHeaders chunked _ site_eq type built =>
      rw [phpResponseHead_eq] at built
      unfold fitting at built
      split_ifs at built
      have hsplit : responseFields w.host w.client contentType contentLength keepAlive
          (phpOptions s chunked) ++ phpFields (some s) cgiHeaders =
          ownFields w.host w.client contentType contentLength keepAlive (phpOptions s chunked) ++
            (addedFields (some s) ++ phpFields (some s) cgiHeaders) := List.append_assoc _ _ _
      refine ⟨status, contentType, contentLength, keepAlive, phpOptions s chunked,
        addedFields (some s) ++ phpFields (some s) cgiHeaders, site_eq, ?_, ?_,
        fun name hname => ?_, fun strips hunpadded f hf => ?_⟩
      · rw [← hsplit, Option.some.inj built]
      · rw [← hsplit]
        exact FieldsHave.append (textField_responseFields (textOptions_php type.1 _) _ _ _ _)
          (textField_phpFields _ _)
      · rw [countFields_append, countFields_addedFields _ hname, countFields_phpFields _ _ hname]
      · rcases List.mem_append.mp hf with hf | hf
        · rw [site_eq] at hf
          exact readsAs_addedFields configured hunpadded f hf
        · exact readsAs_of_validName (passedOn_of_mem hf).name strips

theorem ComposedHead.keepsLines (h : ComposedHead w site head) : KeepsLines w site head := by
  have hsplit : ∀ {status : ℤ} {fields : List Field}, (∀ f ∈ fields, TextField f) →
      fitting responseHeadLen (headOf status fields) = some head →
      splitHead head = some (headLines status fields, []) := by
    intro status fields htext hfits
    unfold fitting at hfits
    split_ifs at hfits
    rw [← Option.some.inj hfits, ← splitHead_headOf htext [], List.append_nil]
  cases h with
  | @own status contentType contentLength keepAlive opts _ site_eq texts location built =>
      rw [buildResponseHeaders_eq] at built
      exact Or.inl ⟨status, contentType, contentLength, keepAlive, opts, site_eq,
        hsplit (textField_responseFields texts _ _ _ _) built, location⟩
  | @php s status contentType contentLength keepAlive cgiHeaders chunked _ site_eq type built =>
      rw [phpResponseHead_eq] at built
      refine Or.inr ⟨s, status, contentType, contentLength, keepAlive, cgiHeaders, chunked, site_eq,
        hsplit (FieldsHave.append (textField_responseFields (textOptions_php type.1 _) _ _ _ _)
          (textField_phpFields _ _)) built, type, fun f hf => ?_⟩
      have hpassed := passedOn_of_mem hf
      exact ⟨unbroken_of_validName hpassed.name, unbroken_of_validValue hpassed.value⟩

/-- How often a composed head has a guarded name: as often as the server's own fields. -/
theorem ComposedHead.countNamed_eq (h : ComposedHead w site head)
    (configured : ∀ s ∈ site, s.Configured) :
    ∃ contentType contentLength keepAlive opts, opts.site = site ∧
      ∀ strips, (∀ s ∈ site, s.Unpadded strips) → ∀ name ∈ guardedNames,
        countNamed (reader strips) name head =
          countFields name (ownFields w.host w.client contentType contentLength keepAlive opts) := by
  obtain ⟨status, contentType, contentLength, keepAlive, opts, more, hsite, rfl, htext, hother,
    hread⟩ := h.eq_headOf configured
  refine ⟨contentType, contentLength, keepAlive, opts, hsite, fun strips hunpadded name hname => ?_⟩
  rw [countNamed_headOf htext, countFields_append, hother name hname, Nat.add_zero]
  intro f hf
  rcases List.mem_append.mp hf with hf | hf
  · exact readsAs_ownFields _ _ _ _ _ _ strips f hf
  · exact hread strips hunpadded f hf

theorem ComposedHead.singleNames (h : ComposedHead w site head)
    (configured : ∀ s ∈ site, s.Configured) (strips : Bool)
    (unpadded : ∀ s ∈ site, s.Unpadded strips) :
    SingleNames fun name => countNamed (reader strips) name head := by
  obtain ⟨contentType, contentLength, keepAlive, opts, -, hcount⟩ := h.countNamed_eq configured
  have hown := singleNames_ownFields w.host w.client contentType contentLength keepAlive opts
  have hsame := hcount strips unpadded
  constructor
  · intro name hname
    rw [hsame name (List.mem_append_left _ hname)]
    exact hown.single name hname
  · rw [hsame _ (by decide), hsame _ (by decide)]
    exact hown.framing

/-- The head ends at its only blank line. -/
def EndsOnce (head : Bytes) : Prop := ∀ i, crlfcrlf <+: head.drop i ↔ i + 4 = head.length

theorem KeepsLines.endsOnce (h : KeepsLines w site head) : EndsOnce head := by
  rcases h with ⟨_, _, _, _, _, -, hsplit, -⟩ | ⟨_, _, _, _, _, _, _, -, hsplit, -, -⟩
  · exact crlfcrlf_prefix_drop_iff hsplit
  · exact crlfcrlf_prefix_drop_iff hsplit

/-- **Response head integrity**: every head of every answer ends at its only blank line, has the
lines of its fields and no others, and has each of the `singleNames` at most once; also to a reader
that takes blanks off a name, unless the site puts blanks around a name that it adds. -/
theorem response_head_integrity {cfg : Config} (configured : ∀ site ∈ cfg.sites, site.Configured)
    {s : Serving} {count : UInt32} {buf b : Bytes} (h : .head b ∈ answer cfg s count buf) :
    let site := answerSite cfg s count buf
    ∃ head, b <+: head ∧ (s.w.peer = .willing → b = head) ∧
      EndsOnce head ∧ KeepsLines s.w site head ∧
      SingleNames (fun name => countNamed (reader false) name head) ∧
      ((∀ found ∈ site, found.Unpadded true) →
        SingleNames fun name => countNamed (reader true) name head) := by
  intro site
  obtain ⟨head, hcomposed, hpre, hall⟩ := composed_of_mem_answer h
  have hconfigured : ∀ found ∈ site, found.Configured := fun found hfound =>
    configured found (mem_of_answerSite hfound)
  have hlines := hcomposed.keepsLines
  exact ⟨head, hpre, hall, hlines.endsOnce, hlines,
    hcomposed.singleNames hconfigured false fun _ _ _ _ => rfl,
    fun hunpadded => hcomposed.singleNames hconfigured true hunpadded⟩

/-- A site with a field of its own, and a redirect to its form with `www.`. -/
def framedSite : Site :=
  { domains := [.lit "example.org"]
    redirectWwwEnabled := true
    headersAdd := [⟨.lit "X-Frame-Options", .lit "DENY"⟩] }

/-- A request that it redirects. -/
def framedRequest : Bytes := ascii "GET / HTTP/1.1\x0d\nHost: example.org\x0d\n\x0d\n"

theorem configured_framedSite : framedSite.Configured := by
  intro pair hpair
  rw [List.mem_singleton.mp hpair]
  exact ⟨ascii "X-Frame-Options: DENY", by decide +kernel⟩

theorem exists_head_of_any {t : Trace} (h : t.any Event.isHead = true) : ∃ b, .head b ∈ t := by
  obtain ⟨e, he, hhead⟩ := List.any_eq_true.mp h
  cases e with
  | head b => exact ⟨b, he⟩
  | body _ => exact Bool.noConfusion hhead
  | backendFailed => exact Bool.noConfusion hhead
  | logged _ _ => exact Bool.noConfusion hhead

/-- The redirect of the site is such a head. -/
theorem response_head_integrity_framedSite :
    ∃ b, .head b ∈ answer (Config.ofSites [framedSite]) sampleServing 0 framedRequest ∧
      EndsOnce b ∧ SingleNames fun name => countNamed (reader false) name b := by
  obtain ⟨b, hb⟩ := @exists_head_of_any
    (answer (Config.ofSites [framedSite]) sampleServing 0 framedRequest) (by decide +kernel)
  have hconfigured : ∀ site ∈ (Config.ofSites [framedSite]).sites, site.Configured := by
    intro site hsite
    rw [List.mem_singleton.mp hsite]
    exact configured_framedSite
  obtain ⟨head, -, hall, hends, -, hsingle, -⟩ := response_head_integrity hconfigured hb
  obtain rfl := hall rfl
  exact ⟨b, hb, hends, hsingle⟩

end Rpsiod

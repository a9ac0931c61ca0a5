import Rpsiod.Server.Replies
import Rpsiod.Server.PhpRun

/-!
# The lines of a response head

* `TextOptions`: the texts that a responder puts into a head are C strings on one line.
* `isText_responseFields`, `isText_phpFields`: then all fields of the head are.
* `splitHead_headOf`: **a head is read back line by line**, whatever body follows it.
* `strtokLines_unlines`: the tokens of a head are the tokens of its lines.
* `eq_headOf_of_phpHead`: the head of a FastCGI response.
-/

namespace Rpsiod

open ListSearch Crlf

/-! ### Texts in fields -/

/-- The texts that go into the fields of a response are C strings on one line. -/
structure TextOptions (contentType : Bytes) (opts : ResponseOptions) : Prop where
  contentType : IsText contentType
  contentEncoding : ∀ v ∈ opts.contentEncoding, IsText v
  location : ∀ v ∈ opts.location, IsText v
  contentRange : ∀ v ∈ opts.contentRange, IsText v
  retryAfter : ∀ v ∈ opts.retryAfter, IsText v
  etag : ∀ v ∈ opts.etag, IsText v

/-- Name and value are C strings on one line. -/
def TextField (f : Field) : Prop := IsText f.1 ∧ IsText f.2

/-- The texts that go into the fields of a response have a property. -/
structure OptionsHave (P : Bytes → Prop) (contentType : Bytes) (opts : ResponseOptions) : Prop where
  contentType : P contentType
  contentEncoding : ∀ v ∈ opts.contentEncoding, P v
  location : ∀ v ∈ opts.location, P v
  contentRange : ∀ v ∈ opts.contentRange, P v
  retryAfter : ∀ v ∈ opts.retryAfter, P v
  etag : ∀ v ∈ opts.etag, P v

/-- The names and the values of all fields have it. -/
def FieldsHave (P : Bytes → Prop) (fields : List Field) : Prop := ∀ f ∈ fields, P f.1 ∧ P f.2

theorem LineText.isText {n : ℕ} (t : LineText n) : IsText t.bytes := t.ok.2

section property

variable {P : Bytes → Prop}

/-- A name given in the source. -/
theorem fieldsHave_fieldIf {site : Option Site} {present : Bool} {name value : Bytes}
    (hname : P name) (hvalue : P value) : FieldsHave P (fieldIf site present name value) := by
  intro f hf
  unfold fieldIf at hf
  split_ifs at hf
  · rw [List.mem_singleton.mp hf]
    exact ⟨hname, hvalue⟩
  · exact absurd hf List.not_mem_nil

theorem fieldsHave_fieldOf {site : Option Site} {name : Bytes} {value : Option Bytes}
    (hname : P name) (hvalue : ∀ v ∈ value, P v) : FieldsHave P (fieldOf site name value) := by
  cases value with
  | none => exact fun f hf => absurd hf List.not_mem_nil
  | some v => exact fieldsHave_fieldIf hname (hvalue v rfl)

theorem FieldsHave.append {fs gs : List Field} (hfs : FieldsHave P fs) (hgs : FieldsHave P gs) :
    FieldsHave P (fs ++ gs) := by
  intro f hf
  rcases List.mem_append.mp hf with hf | hf
  · exact hfs f hf
  · exact hgs f hf

end property

theorem isText_threePlaces (n : ℕ) : IsText (threePlaces n) := by
  have hzeros : IsText (List.replicate (3 - (decimal n).length) 48) := by
    constructor
    · intro h
      exact absurd (List.eq_of_mem_replicate h) (by decide)
    · intro h
      exact absurd (List.eq_of_mem_replicate h) (by decide)
  exact hzeros.append (isText_decimal n)

theorem isText_timerValue (host : Host) : IsText (timerValue host) := by
  have hstart : IsText (ascii "S") := by decide
  have hmiddle : IsText (ascii ",VS0,VE") := by decide
  unfold timerValue
  exact (((hstart.append (isText_decimal _)).append (isText_threePlaces _)).append hmiddle).append
    (isText_decimal _)

theorem isText_ite {p : Prop} [Decidable p] {a b : Bytes} (ha : IsText a) (hb : IsText b) :
    IsText (if p then a else b) := by
  split_ifs
  · exact ha
  · exact hb

theorem isText_cacheControlValue (opts : ResponseOptions) : IsText (cacheControlValue opts) := by
  have hnone : IsText (ascii "no-cache") := by decide
  unfold cacheControlValue
  cases opts.site with
  | none => exact hnone
  | some site => exact isText_ite site.cacheDefault.isText hnone

theorem isText_httpStatusText (status : ℤ) : IsText (httpStatusText status) := by
  unfold httpStatusText
  repeat refine isText_ite (by decide) ?_
  decide

theorem isText_statusLine (status : ℤ) : IsText (statusLine status) := by
  have hversion : IsText (ascii "HTTP/1.1 ") := by decide
  have hspace : IsText (ascii " ") := by decide
  unfold statusLine
  exact ((hversion.append (isText_decimalInt status)).append hspace).append
    (isText_httpStatusText status)

theorem cr_not_mem_ite {p : Prop} [Decidable p] {a b : Bytes} (ha : 13 ∉ a) (hb : 13 ∉ b) :
    13 ∉ if p then a else b := by
  split_ifs
  · exact ha
  · exact hb

theorem cr_not_mem_append {a b : Bytes} (ha : 13 ∉ a) (hb : 13 ∉ b) : 13 ∉ a ++ b := fun h =>
  (List.mem_append.mp h).elim ha hb

theorem cr_not_mem_decimal (n : ℕ) : 13 ∉ decimal n := fun h =>
  Bool.noConfusion (Digits.isHexDigit_of_mem_render (b := 10) (by decide) (by decide) h)

theorem cr_not_mem_decimalInt (n : ℤ) : 13 ∉ decimalInt n := by
  unfold decimalInt
  exact cr_not_mem_ite (@cr_not_mem_append [45] _ (by decide) (cr_not_mem_decimal _))
    (cr_not_mem_decimal _)

theorem cr_not_mem_httpStatusText (status : ℤ) : 13 ∉ httpStatusText status := by
  unfold httpStatusText
  repeat refine cr_not_mem_ite (by decide) ?_
  decide

theorem cr_not_mem_statusLine (status : ℤ) : 13 ∉ statusLine status := by
  have hversion : 13 ∉ ascii "HTTP/1.1 " := by decide
  have hspace : 13 ∉ ascii " " := by decide
  exact cr_not_mem_append (cr_not_mem_append (cr_not_mem_append hversion (cr_not_mem_decimalInt _))
    hspace) (cr_not_mem_httpStatusText _)

variable {contentType : Bytes} {opts : ResponseOptions}

section property

variable {P : Bytes → Prop} (hP : ∀ b, IsText b → P b)

include hP

theorem fieldsHave_leadingFields (h : OptionsHave P contentType opts) (host : Host) :
    FieldsHave P (leadingFields host contentType opts) := by
  unfold leadingFields
  refine ((((FieldsHave.append ?_ ?_).append ?_).append ?_).append ?_).append ?_
  · exact fieldsHave_fieldIf (hP _ (by decide)) (hP _ (host.httpTime host.now).ok)
  · exact fieldsHave_fieldIf (hP _ (by decide)) (hP _ (by decide))
  · exact fieldsHave_fieldOf (hP _ (by decide)) h.location
  · exact fieldsHave_fieldOf (hP _ (by decide)) h.contentRange
  · exact fieldsHave_fieldOf (hP _ (by decide)) h.retryAfter
  · exact fieldsHave_fieldIf (hP _ (by decide)) h.contentType

theorem fieldsHave_framingFields (site : Option Site) (contentLength : Option ℕ)
    (chunkedResponse : Bool) :
    FieldsHave P (framingFields site contentLength chunkedResponse) := by
  cases contentLength with
  | some n => exact fieldsHave_fieldIf (hP _ (by decide)) (hP _ (isText_decimal n))
  | none =>
      cases chunkedResponse with
      | false => exact fun f hf => absurd hf List.not_mem_nil
      | true =>
          intro f hf
          rw [List.mem_singleton.mp hf]
          exact ⟨hP _ (by decide), hP _ (by decide)⟩

theorem fieldsHave_trailingFields (h : OptionsHave P contentType opts) (host : Host)
    (client : Client) (keepAlive : Bool) :
    FieldsHave P (trailingFields host client keepAlive opts) := by
  have hetag : ∀ v ∈ etagValue opts, P v := by
    intro v hv
    unfold etagValue at hv
    cases hgiven : opts.etag with
    | some etag =>
        rw [hgiven] at hv
        exact h.etag v (by rw [hgiven]; exact hv)
    | none =>
        rw [hgiven, Option.none_or] at hv
        obtain ⟨st, -, rfl⟩ := Option.map_eq_some_iff.mp hv
        exact hP _ (isText_fileEtag st)
  have hmodified : ∀ v ∈ opts.fileStat.map fun st => (host.httpTime st.mtime).bytes, P v := by
    intro v hv
    obtain ⟨st, -, rfl⟩ := Option.map_eq_some_iff.mp hv
    exact hP _ (host.httpTime st.mtime).ok
  have hconnection : IsText (if keepAlive then ascii "keep-alive" else ascii "close") :=
    isText_ite (by decide) (by decide)
  unfold trailingFields
  refine (((((((((((((FieldsHave.append ?_ ?_).append ?_).append ?_).append ?_).append ?_).append
    ?_).append ?_).append ?_).append ?_).append ?_).append ?_).append ?_).append ?_).append ?_
  · exact fieldsHave_fieldOf (hP _ (by decide)) h.contentEncoding
  · exact fieldsHave_fieldIf (hP _ (by decide)) (hP _ (isText_cacheControlValue opts))
  · exact fieldsHave_fieldOf (hP _ (by decide)) hetag
  · exact fieldsHave_fieldOf (hP _ (by decide)) hmodified
  · exact fieldsHave_fieldIf (hP _ (by decide)) (hP _ (by decide))
  · exact fieldsHave_fieldIf (hP _ (by decide)) (hP _ (by decide))
  · exact fieldsHave_fieldIf (hP _ (by decide)) (hP _ hconnection)
  · exact fieldsHave_fieldIf (hP _ (by decide)) (hP _ host.servedBy.ok)
  · exact fieldsHave_fieldIf (hP _ (by decide)) (hP _ (by decide))
  · exact fieldsHave_fieldIf (hP _ (by decide)) (hP _ (by decide))
  · exact fieldsHave_fieldIf (hP _ (by decide)) (hP _ (isText_timerValue host))
  · exact fieldsHave_fieldIf (hP _ (by decide)) (hP _ (isText_hexadecimal _))
  · exact fieldsHave_fieldIf (hP _ (by decide)) (hP _ (by decide))
  · exact fieldsHave_fieldIf (hP _ (by decide)) (hP _ (by decide))
  · exact fieldsHave_fieldIf (hP _ (by decide)) (hP _ (by decide))

theorem fieldsHave_addedFields (site : Option Site) : FieldsHave P (addedFields site) := by
  intro f hf
  cases site with
  | none => exact absurd hf List.not_mem_nil
  | some s =>
      obtain ⟨added, -, rfl⟩ := List.mem_map.mp hf
      exact ⟨hP _ added.name.isText, hP _ added.value.isText⟩

/-- **All fields of a response** have a property that all C strings on one line have. -/
theorem fieldsHave_responseFields (h : OptionsHave P contentType opts) (host : Host)
    (client : Client) (contentLength : Option ℕ) (keepAlive : Bool) :
    FieldsHave P (responseFields host client contentType contentLength keepAlive opts) := by
  unfold responseFields
  exact (((fieldsHave_leadingFields hP h host).append
    (fieldsHave_framingFields hP opts.site contentLength opts.chunkedResponse)).append
    (fieldsHave_trailingFields hP h host client keepAlive)).append
    (fieldsHave_addedFields hP opts.site)

end property

/-- All fields of a response are texts on one line. -/
theorem textField_responseFields (h : TextOptions contentType opts) (host : Host)
    (client : Client) (contentLength : Option ℕ) (keepAlive : Bool) :
    ∀ f ∈ responseFields host client contentType contentLength keepAlive opts, TextField f :=
  fieldsHave_responseFields (fun _ htext => htext)
    ⟨h.contentType, h.contentEncoding, h.location, h.contentRange, h.retryAfter, h.etag⟩ host client
    contentLength keepAlive

/-- They are lines, if the texts that go into them are. -/
theorem oneLine_responseFields (h : OneLine contentType opts) (host : Host) (client : Client)
    (contentLength : Option ℕ) (keepAlive : Bool) :
    FieldsHave (10 ∉ ·)
      (responseFields host client contentType contentLength keepAlive opts) :=
  fieldsHave_responseFields (fun _ htext => htext.1)
    ⟨h.contentType, h.contentEncoding, h.location, h.contentRange, h.retryAfter, h.etag⟩ host client
    contentLength keepAlive

/-! ### The fields of a FastCGI response -/

theorem isText_of_valid {value : Bytes} (h : validHeaderValue value = true) : IsText value := by
  have hall := List.all_eq_true.mp h
  constructor
  · intro hmem
    exact absurd (hall 10 hmem) (by decide)
  · intro hmem
    exact absurd (hall 0 hmem) (by decide)

theorem isText_of_validName {name : Bytes} (h : validHeaderName name = true) : IsText name := by
  unfold validHeaderName at h
  rw [Bool.and_eq_true] at h
  have hall := List.all_eq_true.mp h.2
  constructor
  · intro hmem
    exact absurd (hall 10 hmem) (by decide)
  · intro hmem
    exact absurd (hall 0 hmem) (by decide)

/-- What `append_php_response_headers` has checked of a field. -/
structure PassedOn (site : Option Site) (f : Field) : Prop where
  name : validHeaderName f.1 = true
  value : validHeaderValue f.2 = true
  allowed : phpResponseHeaderAllowed f.1 = true
  kept : headerRemoved site f.1 = false

theorem passedOn_of_mem {site : Option Site} {cgiHeaders : Bytes} {f : Field}
    (h : f ∈ phpFields site cgiHeaders) : PassedOn site f := by
  obtain ⟨line, -, hline⟩ := List.mem_filterMap.mp h
  unfold phpField at hline
  split at hline
  · cases hline
  · next name value _ =>
    split_ifs at hline with hpass
    rw [← Option.some.inj hline]
    simp only [Bool.and_eq_true, Bool.not_eq_true'] at hpass
    exact ⟨hpass.1.1.1, hpass.1.1.2, hpass.1.2, hpass.2⟩

theorem textField_phpFields (site : Option Site) (cgiHeaders : Bytes) :
    ∀ f ∈ phpFields site cgiHeaders, TextField f := by
  intro f hf
  have hpass := passedOn_of_mem hf
  exact ⟨isText_of_validName hpass.name, isText_of_valid hpass.value⟩

/-! ### Lines -/

theorem isText_fieldText {f : Field} (h : TextField f) : IsText (fieldText f) := by
  have hcolon : IsText (ascii ": ") := by decide
  exact (h.1.append hcolon).append h.2

theorem fieldText_ne_nil (f : Field) : fieldText f ≠ [] := by
  unfold fieldText headerText
  rw [List.append_assoc]
  exact List.append_ne_nil_of_right_ne_nil _ (List.append_ne_nil_of_left_ne_nil (by decide) _)

theorem statusLine_ne_nil (status : ℤ) : statusLine status ≠ [] := by
  unfold statusLine
  rw [List.append_assoc, List.append_assoc]
  exact List.append_ne_nil_of_left_ne_nil (by decide) _

/-- The lines of a head. -/
def headLines (status : ℤ) (fields : List Field) : List Bytes :=
  statusLine status :: fields.map fieldText

theorem headLines_ok {status : ℤ} {fields : List Field} (h : ∀ f ∈ fields, TextField f) :
    ∀ l ∈ headLines status fields, l ≠ [] ∧ IsText l := by
  intro l hl
  rcases List.mem_cons.mp hl with rfl | hl
  · exact ⟨statusLine_ne_nil status, isText_statusLine status⟩
  · obtain ⟨f, hf, rfl⟩ := List.mem_map.mp hl
    exact ⟨fieldText_ne_nil f, isText_fieldText (h f hf)⟩

/-- **A head is read back line by line.** -/
theorem splitHead_lines {status : ℤ} {fields : List Field} (h : FieldsHave (10 ∉ ·) fields)
    (body : Bytes) :
    splitHead (headOf status fields ++ body) = some (headLines status fields, body) := by
  apply splitHead_unlines (List.cons_ne_nil _ _)
  intro l hl
  rcases List.mem_cons.mp hl with rfl | hl
  · exact ⟨statusLine_ne_nil status, (isText_statusLine status).1⟩
  · obtain ⟨f, hf, rfl⟩ := List.mem_map.mp hl
    obtain ⟨hname, hvalue⟩ := h f hf
    refine ⟨fieldText_ne_nil f, fun hmem => ?_⟩
    rcases List.mem_append.mp hmem with hmem | hmem
    · exact (List.mem_append.mp hmem).elim hname (by decide)
    · exact hvalue hmem

theorem splitHead_headOf {status : ℤ} {fields : List Field} (h : ∀ f ∈ fields, TextField f)
    (body : Bytes) :
    splitHead (headOf status fields ++ body) = some (headLines status fields, body) :=
  splitHead_lines (fun f hf => ⟨(h f hf).1.1, (h f hf).2.1⟩) body

/-! ### Tokens -/

theorem strtokLines_nil : strtokLines [] = [] := by
  unfold strtokLines
  rw [List.splitOnP_nil]
  rfl

theorem strtokLines_append_crlf (a b : Bytes) :
    strtokLines (a ++ 13 :: 10 :: b) = strtokLines a ++ strtokLines b := by
  unfold strtokLines
  rw [List.splitOnP_append_cons a (10 :: b) (by decide),
    show (10 : UInt8) :: b = [] ++ 10 :: b from rfl,
    List.splitOnP_append_cons [] b (by decide), List.splitOnP_nil, List.filter_append,
    List.filter_append]
  rfl

/-- The tokens of a text of lines are those of its lines. -/
theorem strtokLines_unlines (ls : List Bytes) :
    strtokLines (unlines ls) = ls.flatMap strtokLines := by
  induction ls with
  | nil => exact strtokLines_nil
  | cons l ls ih =>
      have hsplit : unlines (l :: ls) = l ++ 13 :: 10 :: unlines ls := by
        rw [unlines_cons]
        simp
      rw [hsplit, strtokLines_append_crlf, ih, List.flatMap_cons]

/-- The tokens of a text, line by line. -/
theorem strtokLines_eq_flatMap (text : Bytes) :
    strtokLines text = (lines text).flatMap strtokLines := by
  have hlines := congrArg strtokLines (unlines_lines text)
  rw [strtokLines_unlines] at hlines
  rw [hlines, strtokLines_append_crlf, strtokLines_nil, List.append_nil]

/-- A line without CR is a token. -/
theorem strtokLines_line {l : Bytes} (hne : l ≠ []) (hcr : 13 ∉ l) (hlf : 10 ∉ l) :
    strtokLines l = [l] := by
  unfold strtokLines
  rw [List.splitOnP_eq_singleton]
  · exact List.filter_eq_self.mpr fun t ht => by
      rw [List.mem_singleton.mp ht]
      simpa using hne
  · intro c hc
    simp only [Bool.or_eq_false_iff, decide_eq_false_iff_not]
    exact ⟨fun h => hcr (h ▸ hc), fun h => hlf (h ▸ hc)⟩

/-- The pieces between separators are made of the other bytes. -/
theorem mem_of_mem_splitOnP {p : UInt8 → Bool} {text piece : Bytes}
    (h : piece ∈ text.splitOnP p) : ∀ c ∈ piece, c ∈ text ∧ p c = false := by
  induction text generalizing piece with
  | nil =>
      rw [List.splitOnP_nil, List.mem_singleton] at h
      rw [h]
      exact fun c hc => absurd hc List.not_mem_nil
  | cons x text ih =>
      intro c hc
      rw [List.splitOnP_cons_eq_if_modifyHead] at h
      split_ifs at h with hx
      · rcases List.mem_cons.mp h with rfl | h
        · exact absurd hc List.not_mem_nil
        · obtain ⟨hmem, hp⟩ := ih h c hc
          exact ⟨List.mem_cons_of_mem x hmem, hp⟩
      · obtain ⟨first, rest, hcons⟩ := List.exists_cons_of_ne_nil (List.splitOnP_ne_nil p text)
        rw [hcons, List.modifyHead_cons] at h
        rw [hcons] at ih
        rcases List.mem_cons.mp h with rfl | h
        · rcases List.mem_cons.mp hc with rfl | hc
          · exact ⟨List.mem_cons_self, Bool.eq_false_iff.mpr hx⟩
          · obtain ⟨hmem, hp⟩ := ih List.mem_cons_self c hc
            exact ⟨List.mem_cons_of_mem x hmem, hp⟩
        · obtain ⟨hmem, hp⟩ := ih (List.mem_cons_of_mem first h) c hc
          exact ⟨List.mem_cons_of_mem x hmem, hp⟩

/-- A token: it has no line end, and no byte that the text does not have. -/
theorem mem_of_mem_strtokLines {text token : Bytes} (h : token ∈ strtokLines text) :
    ∀ c ∈ token, c ∈ text ∧ c ≠ 13 ∧ c ≠ 10 := by
  intro c hc
  obtain ⟨hmem, hsep⟩ := mem_of_mem_splitOnP (List.mem_filter.mp h).1 c hc
  simp only [Bool.or_eq_false_iff, decide_eq_false_iff_not] at hsep
  exact ⟨hmem, hsep⟩

/-! ### The head of a FastCGI response -/

/-- The type that a CGI header gives is a text on one line, without CR. -/
theorem contentType_parseCgiHead {headers : Bytes} (h : 0 ∉ headers) :
    IsText (parseCgiHead headers).contentType ∧ 13 ∉ (parseCgiHead headers).contentType := by
  have hstep : ∀ (ls : List Bytes) (head : CgiHead),
      (∀ l ∈ ls, IsText l ∧ 13 ∉ l) → IsText head.contentType ∧ 13 ∉ head.contentType →
      IsText (ls.foldl applyCgiLine head).contentType ∧
        13 ∉ (ls.foldl applyCgiLine head).contentType := by
    intro ls
    induction ls with
    | nil => exact fun head _ hhead => hhead
    | cons l ls ih =>
        intro head hls hhead
        apply ih _ (fun m hm => hls m (List.mem_cons_of_mem l hm))
        obtain ⟨htext, hcr⟩ := hls l List.mem_cons_self
        unfold applyCgiLine
        split_ifs
        · exact hhead
        · have hsub : ∀ c ∈ safeCopy 256 ((l.drop 13).dropWhile (· = 32)), c ∈ l := fun c hc =>
            List.mem_of_mem_drop ((List.dropWhile_suffix _).subset (List.mem_of_mem_take hc))
          exact ⟨⟨fun hc => htext.1 (hsub _ hc), fun hc => htext.2 (hsub _ hc)⟩,
            fun hc => hcr (hsub _ hc)⟩
        · exact hhead
        · exact hhead
  apply hstep
  · intro l hl
    have hbytes := mem_of_mem_strtokLines hl
    exact ⟨⟨fun hc => (hbytes 10 hc).2.2 rfl, fun hc => h (hbytes 0 hc).1⟩,
      fun hc => (hbytes 13 hc).2.1 rfl⟩
  · decide

theorem zero_not_mem_cgiHeaders (buffer : Bytes) (stop : ℕ) : 0 ∉ cgiHeaders buffer stop := by
  intro h
  have := List.mem_takeWhile_imp h
  exact absurd this (by decide)

theorem textOptions_php {site : Site} {contentType : Bytes} (h : IsText contentType)
    (chunkedResponse : Bool) : TextOptions contentType (phpOptions site chunkedResponse) :=
  ⟨h, nofun, nofun, nofun, nofun, nofun⟩

/-- The fields of a FastCGI response. -/
def phpHeadFields (w : World) (site : Site) (req : HttpRequest) (headers : Bytes) : List Field :=
  responseFields w.host w.client (parseCgiHead headers).contentType
      (parseCgiHead headers).contentLength req.keepAlive
      (phpOptions site (phpChunked req (parseCgiHead headers))) ++
    phpFields (some site) headers

theorem textField_phpHeadFields (w : World) (site : Site) (req : HttpRequest) {headers : Bytes}
    (h : 0 ∉ headers) : ∀ f ∈ phpHeadFields w site req headers, TextField f :=
  FieldsHave.append
    (textField_responseFields (textOptions_php (contentType_parseCgiHead h).1 _) _ _ _ _)
    (textField_phpFields _ _)

/-- The head is made of these fields. -/
theorem eq_headOf_of_phpHead {w : World} {site : Site} {req : HttpRequest} {headers head : Bytes}
    (h : phpHead w site req headers = some head) :
    head = headOf (parseCgiHead headers).status (phpHeadFields w site req headers) ∧
      head.length < responseHeadLen := by
  unfold phpHead at h
  rw [phpResponseHead_eq] at h
  unfold fitting at h
  split_ifs at h with hlen
  rw [← Option.some.inj h]
  exact ⟨rfl, hlen⟩

end Rpsiod

import Rpsiod.Http2.Bridge
import Rpsiod.Http2.Response
import Rpsiod.Server.TlsHeads

/-!
# The policy for heads over HTTP/2

An HTTP/2 client gets the fields of the loopback response, with `Strict-Transport-Security` if it is
not there.

* `uniform_submission_iff`: **exactly when the policy holds over HTTP/2**.
* `loopback_composed_iff`: a composed loopback head keeps it unless the site removes the field for
  HTTPS, which is added again.
* `tls_policy_iff`: both protocols.
* `relayed_head_untouched`: an upstream shows its own server.
-/

namespace Rpsiod

open ListSearch Crlf

/-! ### Submissions -/

/-- `on_frame_recv_callback` has a loopback response fetched for this method. -/
def fetchesMethod (s : H2Stream) : Bool :=
  streqCi s.method (ascii "GET") || streqCi s.method (ascii "HEAD")

/-- The response that a stream is given, by `on_frame_recv_callback` or by
`submit_ready_streams`. -/
def streamSubmission (allocatesParse allocates : Bool) (s : H2Stream) : Option H2Submission :=
  if !fetchesMethod s then some (submitSimpleResponse 405 (ascii "405 Method Not Allowed\n"))
  else
    match s.backendState with
    | .done => submitParsedLoopbackResponse allocatesParse allocates s
    | .failed => some (submitSimpleResponse 502 (ascii "502 Bad Gateway\n"))
    | _ => none

/-- The fields of the loopback response, if there is one that can be taken apart. -/
def loopbackFields (allocatesParse : Bool) (s : H2Stream) : Option (List Field) :=
  if fetchesMethod s && s.backendState = .done then
    (parseLoopbackResponse allocatesParse s.rawResponse).map H2Response.headers
  else none

theorem loopbackFields_of_done (allocatesParse : Bool) {s : H2Stream}
    (fetches : fetchesMethod s = true) (done : s.backendState = .done) :
    loopbackFields allocatesParse s =
      (parseLoopbackResponse allocatesParse s.rawResponse).map H2Response.headers := by
  unfold loopbackFields
  rw [fetches, done, if_pos (by decide)]

/-- The policy for these fields. -/
def UniformFields (site : Site) (fields : List Field) : Prop :=
  Uniform site fun name => countFields name fields

/-- The loopback response already keeps the policy, apart from a missing field for HTTPS; if the
site removes that field, there must not be such a response at all. -/
def LoopbackKeeps (allocatesParse : Bool) (site : Site) (s : H2Stream) : Prop :=
  if headerRemoved (some site) hstsName then loopbackFields allocatesParse s = none
  else
    ∃ fields, loopbackFields allocatesParse s = some fields ∧
      countFields (ascii "Server") fields = 0 ∧ countFields hstsName fields ≤ 1

variable {site : Site}

/-- A response of the bridge itself has neither field. -/
theorem uniform_simple_iff (status : ℤ) (body : Bytes) :
    UniformFields site (submitSimpleResponse status body).fields ↔
      headerRemoved (some site) hstsName = true := by
  have hnone : ∀ name ∈ [ascii "Server", hstsName],
      countFields name (submitSimpleResponse status body).fields = 0 := by
    have hnames : ∀ name ∈ [ascii "Server", hstsName],
        streqCi (ascii ":status") name = false ∧ streqCi (ascii "content-type") name = false := by
      decide
    intro name hname
    apply List.countP_eq_zero.mpr
    intro f hf
    rcases List.mem_cons.mp hf with rfl | hf
    · exact Bool.eq_false_iff.mp (hnames name hname).1
    · rw [List.mem_singleton.mp hf]
      exact Bool.eq_false_iff.mp (hnames name hname).2
  have hserver := hnone (ascii "Server") (by decide)
  have hhsts := hnone hstsName (by decide)
  constructor
  · intro h
    have hcount := hhsts.symm.trans h.hsts
    unfold Site.hstsCount at hcount
    by_contra hkept
    rw [if_neg hkept] at hcount
    cases hcount
  · intro hremoved
    refine ⟨hserver, hhsts.trans ?_⟩
    unfold Site.hstsCount
    rw [if_pos hremoved]

theorem responseHasHeader_iff (resp : H2Response) (name : Bytes) :
    responseHasHeader resp name = true ↔ 0 < countFields name resp.headers := by
  unfold responseHasHeader countFields
  rw [List.countP_pos_iff, List.any_eq_true]

/-- The fields of a submission with a response. -/
def parsedFields (resp : H2Response) : List Field :=
  (ascii ":status", statusText resp.status) :: resp.headers ++
    if responseHasHeader resp (ascii "Strict-Transport-Security") then [] else [hstsField]

/-- The field for HTTPS is there, and every other name is there as often as in the response. -/
theorem countFields_parsedFields (resp : H2Response) :
    countFields (ascii "Server") (parsedFields resp) =
        countFields (ascii "Server") resp.headers ∧
      countFields hstsName (parsedFields resp) = max 1 (countFields hstsName resp.headers) := by
  have hstatus : ∀ {name : Bytes}, streqCi (ascii ":status") name = false → ∀ more,
      countFields name ((ascii ":status", statusText resp.status) :: resp.headers ++ more) =
        countFields name resp.headers + countFields name more := by
    intro name hother more
    rw [countFields_append]
    refine congrArg (· + countFields name more) ?_
    exact List.countP_cons_of_neg (by rw [hother]; exact Bool.false_ne_true)
  have hserver := hstatus (show streqCi (ascii ":status") (ascii "Server") = false by decide)
  have hhsts := hstatus (show streqCi (ascii ":status") hstsName = false by decide)
  have hadded : countFields (ascii "Server") [hstsField] = 0 ∧
      countFields hstsName [hstsField] = 1 := by decide
  have hnil : ∀ name, countFields name [] = 0 := fun _ => rfl
  have hhas := responseHasHeader_iff resp hstsName
  have hfields : parsedFields resp = (ascii ":status", statusText resp.status) :: resp.headers ++
      if responseHasHeader resp hstsName then [] else [hstsField] := rfl
  cases hpresent : responseHasHeader resp hstsName with
  | true =>
      have hpos := hhas.mp hpresent
      rw [hfields, hpresent, if_pos rfl, hserver, hhsts, hnil, hnil]
      exact ⟨rfl, by omega⟩
  | false =>
      have hzero : ¬ 0 < countFields hstsName resp.headers := fun hpos => by
        rw [hhas.mpr hpos] at hpresent
        cases hpresent
      rw [hfields, hpresent, if_neg Bool.false_ne_true, hserver, hhsts, hadded.1, hadded.2]
      exact ⟨rfl, by omega⟩

theorem uniform_parsed_iff (resp : H2Response) :
    UniformFields site (parsedFields resp) ↔
      headerRemoved (some site) hstsName = false ∧
        countFields (ascii "Server") resp.headers = 0 ∧
        countFields hstsName resp.headers ≤ 1 := by
  obtain ⟨hserver, hhsts⟩ := countFields_parsedFields resp
  have hcount : site.hstsCount = if headerRemoved (some site) hstsName then 0 else 1 := rfl
  constructor
  · intro h
    have hserver' := h.server
    have hhsts' := h.hsts
    rw [hserver] at hserver'
    rw [hhsts, hcount] at hhsts'
    cases hremoved : headerRemoved (some site) hstsName with
    | true =>
        rw [hremoved, if_pos rfl] at hhsts'
        omega
    | false =>
        rw [hremoved, if_neg Bool.false_ne_true] at hhsts'
        exact ⟨rfl, hserver', by omega⟩
  · rintro ⟨hkept, hserver', hle⟩
    refine ⟨hserver.trans hserver', hhsts.trans ?_⟩
    rw [hcount, hkept, if_neg Bool.false_ne_true]
    omega

/-- The policy for a loopback response that is passed on. -/
theorem uniform_passed_iff {allocatesParse allocates : Bool} {s : H2Stream} {sub : H2Submission}
    {resp : H2Response} (hparse : parseLoopbackResponse allocatesParse s.rawResponse = some resp)
    (hfields : loopbackFields allocatesParse s = some resp.headers)
    (h : submitParsedLoopbackResponse allocatesParse allocates s = some sub) :
    UniformFields site sub.fields ↔ LoopbackKeeps allocatesParse site s := by
  unfold submitParsedLoopbackResponse at h
  rw [hparse] at h
  have hallocates : allocates = true := by
    by_contra hnot
    rw [Bool.eq_false_iff.mpr hnot] at h
    cases h
  rw [hallocates] at h
  rw [← Option.some.inj h]
  refine (uniform_parsed_iff resp).trans ?_
  unfold LoopbackKeeps
  rw [hfields]
  cases hremoved : headerRemoved (some site) hstsName with
  | true =>
      rw [if_pos rfl]
      exact iff_of_false (fun hall => Bool.noConfusion hall.1) (Option.some_ne_none _)
  | false =>
      rw [if_neg Bool.false_ne_true]
      constructor
      · rintro ⟨-, hserver, hle⟩
        exact ⟨_, rfl, hserver, hle⟩
      · rintro ⟨_, hsome, hserver, hle⟩
        obtain rfl := Option.some.inj hsome
        exact ⟨rfl, hserver, hle⟩

/-- **What an HTTP/2 client gets keeps the policy, exactly if the loopback response does**, apart
from a missing field for HTTPS. -/
theorem uniform_submission_iff {allocatesParse allocates : Bool} {s : H2Stream}
    {sub : H2Submission} (h : streamSubmission allocatesParse allocates s = some sub) :
    UniformFields site sub.fields ↔ LoopbackKeeps allocatesParse site s := by
  -- without a loopback response the bridge answers with a text of its own
  have hsimple : ∀ status body, loopbackFields allocatesParse s = none →
      some (submitSimpleResponse status body) = some sub →
      (UniformFields site sub.fields ↔ LoopbackKeeps allocatesParse site s) := by
    intro status body hnone hsub
    rw [← Option.some.inj hsub, uniform_simple_iff]
    unfold LoopbackKeeps
    rw [hnone]
    split_ifs with hremoved
    · exact iff_of_true hremoved rfl
    · exact iff_of_false hremoved fun ⟨_, hsome, _⟩ => by cases hsome
  unfold streamSubmission at h
  cases hfetches : fetchesMethod s with
  | false =>
      have hnone : loopbackFields allocatesParse s = none := by
        unfold loopbackFields
        rw [hfetches, Bool.false_and, if_neg Bool.false_ne_true]
      rw [hfetches] at h
      exact hsimple 405 _ hnone h
  | true =>
      rw [hfetches, Bool.not_true, if_neg Bool.false_ne_true] at h
      cases hstate : s.backendState with
      | none =>
          rw [hstate] at h
          cases h
      | connecting =>
          rw [hstate] at h
          cases h
      | writing =>
          rw [hstate] at h
          cases h
      | reading =>
          rw [hstate] at h
          cases h
      | failed =>
          have hnone : loopbackFields allocatesParse s = none := by
            unfold loopbackFields
            rw [hstate, if_neg (by simp)]
          rw [hstate] at h
          exact hsimple 502 _ hnone h
      | done =>
          rw [hstate] at h
          have hfields := loopbackFields_of_done allocatesParse hfetches hstate
          cases hparse : parseLoopbackResponse allocatesParse s.rawResponse with
          | none =>
              rw [hparse] at hfields
              dsimp only at h
              unfold submitParsedLoopbackResponse at h
              rw [hparse] at h
              exact hsimple 502 _ hfields h
          | some resp =>
              rw [hparse] at hfields
              exact uniform_passed_iff hparse hfields h

/-! ### Composed heads behind the bridge -/

/-- The slots come from lines with a colon. -/
theorem exists_line_of_slot {ls : List Bytes} {head : LoopbackHead} {slot : Field}
    (h : slot ∈ (ls.foldl applyLoopbackLine head).headers) :
    slot ∈ head.headers ∨ ∃ l ∈ ls, slot.1 = safeCopy 128 (trim (lineName l)) := by
  induction ls generalizing head with
  | nil => exact Or.inl h
  | cons l ls ih =>
      rw [List.foldl_cons] at h
      rcases ih h with hmem | ⟨m, hm, hslot⟩
      · unfold applyLoopbackLine at hmem
        cases hsplit : splitFirst 58 l with
        | none =>
            rw [hsplit] at hmem
            exact Or.inl hmem
        | some parts =>
            obtain ⟨name, value⟩ := parts
            have hname : lineName l = name := by
              obtain ⟨hl, hcolon⟩ := splitFirst_eq_some_iff.mp hsplit
              rw [hl]
              unfold lineName
              rw [List.takeWhile_append_of_pos]
              · simp
              · intro c hc
                rw [decide_eq_true_iff]
                rintro rfl
                exact hcolon hc
            rw [hsplit] at hmem
            dsimp only at hmem
            split_ifs at hmem
            · exact Or.inl hmem
            · rcases List.mem_append.mp hmem with hmem | hmem
              · exact Or.inl hmem
              · refine Or.inr ⟨l, List.mem_cons_self, ?_⟩
                rw [List.mem_singleton.mp hmem, hname]
      · exact Or.inr ⟨m, List.mem_cons_of_mem l hm, hslot⟩

/-- The lines of a head, which the bridge takes as they are written. -/
structure TakenAsWritten (ls : List Bytes) : Prop where
  ne_nil : ls ≠ []
  lines : ∀ l ∈ ls, l ≠ [] ∧ IsText l ∧ 13 ∉ l
  names : ∀ l ∈ ls.tail, trim (lineName l) = lineName l

/-- A short name that no header line has is in no slot. -/
theorem countFields_loopback {ls : List Bytes} (h : TakenAsWritten ls) {body : Bytes}
    {allocates : Bool} {resp : H2Response}
    (hparse : parseLoopbackResponse allocates (unlines ls ++ crlf ++ body) = some resp)
    {name : Bytes} (hshort : name.length < 127)
    (hnone : ∀ l ∈ ls.tail, streqCi (lineName l) name = false) :
    countFields name resp.headers = 0 := by
  obtain ⟨stop, hstop, htokens, -⟩ := loopbackTokens_unlines h.ne_nil
    (fun l hl => ⟨(h.lines l hl).1, (h.lines l hl).2.1⟩) body
  have hlines : ls.flatMap strtokLines = ls := by
    have hline : ∀ l ∈ ls, strtokLines l = [l] := fun l hl =>
      strtokLines_line (h.lines l hl).1 (h.lines l hl).2.2 (h.lines l hl).2.1.1
    rw [List.flatMap_congr hline, List.flatMap_singleton']
  rw [hlines] at htokens
  have hheaders : resp.headers = (ls.tail.foldl applyLoopbackLine {}).headers := by
    unfold parseLoopbackResponse at hparse
    rw [hstop] at hparse
    dsimp only at hparse
    split_ifs at hparse
    rw [htokens] at hparse
    obtain ⟨first, more, rfl⟩ := List.exists_cons_of_ne_nil h.ne_nil
    dsimp only at hparse
    cases hstatus : sscanfStatus first with
    | none =>
        rw [hstatus] at hparse
        cases hparse
    | some status =>
        rw [hstatus] at hparse
        dsimp only at hparse
        split_ifs at hparse
        · obtain ⟨_, -, rfl⟩ := Option.map_eq_some_iff.mp hparse
          rfl
        · rw [← Option.some.inj hparse]
          rfl
  apply List.countP_eq_zero.mpr
  intro slot hslot hname
  rw [hheaders] at hslot
  rcases exists_line_of_slot hslot with hmem | ⟨l, hl, hfirst⟩
  · exact absurd hmem List.not_mem_nil
  · rw [hfirst, h.names l hl] at hname
    have hlength := length_eq_of_streqCi hname
    have hwhole : safeCopy 128 (lineName l) = lineName l := by
      unfold safeCopy at hlength ⊢
      rw [List.length_take] at hlength
      exact List.take_of_length_le (by omega)
    rw [hwhole, hnone l hl] at hname
    cases hname

/-- Without TLS the server adds no field for HTTPS. -/
theorem countFields_hsts_plain (host : Host) {client : Client} (contentType : Bytes)
    (contentLength : Option ℕ) (keepAlive : Bool) (opts : ResponseOptions)
    (plain : client.tls = false) :
    countFields hstsName (ownFields host client contentType contentLength keepAlive opts) = 0 := by
  have hnames := names_ownFields host client contentType contentLength keepAlive opts
  apply List.countP_eq_zero.mpr
  rintro ⟨name, value⟩ hf hname
  obtain rfl := (ownNames_policy _).2.1 name (hnames.subset (List.mem_map_of_mem hf)) hname
  have htls := ((hsts_mem_ownFields host client contentType contentLength keepAlive opts
    value).mp hf).1.1
  rw [plain] at htls
  cases htls

/-- Over plain HTTP a composed head has neither field. -/
theorem count_of_composed {w : World} {head : Bytes} (h : ComposedHead w (some site) head)
    (configured : site.Configured) (hide : site.hideServerHeader = true)
    (plain : w.client.tls = false) {name : Bytes} (hname : name ∈ [ascii "Server", hstsName]) :
    countNamed (reader false) name head = 0 := by
  obtain ⟨contentType, contentLength, keepAlive, opts, hsite, hcount⟩ :=
    h.countNamed_eq fun s hs => Option.mem_some.mp hs ▸ configured
  have hguarded : ∀ name ∈ [ascii "Server", hstsName], name ∈ guardedNames := by decide
  rw [hcount false (fun _ _ _ _ => rfl) name (hguarded name hname)]
  rcases List.mem_cons.mp hname with rfl | hname
  · apply countFields_server
    rw [hsite]
    exact hide
  · rw [List.mem_singleton.mp hname]
    exact countFields_hsts_plain _ _ _ _ _ plain

/-- **A composed loopback head keeps the policy, unless the site removes the field for HTTPS**: the
bridge adds it again. -/
theorem loopback_composed_iff {w : World} {head body : Bytes}
    (h : ComposedHead w (some site) head) (configured : site.Configured)
    (hide : site.hideServerHeader = true) (plain : w.client.tls = false) {ls : List Bytes}
    (hsplit : splitHead head = some (ls, [])) (written : TakenAsWritten ls)
    {allocatesParse : Bool} {stream : H2Stream} (fetches : fetchesMethod stream = true)
    (done : stream.backendState = .done)
    (raw : stream.rawResponse = head ++ body) {resp : H2Response}
    (hparse : parseLoopbackResponse allocatesParse stream.rawResponse = some resp) :
    LoopbackKeeps allocatesParse site stream ↔ headerRemoved (some site) hstsName = false := by
  have hbytes : head = unlines ls ++ crlf := by
    obtain ⟨status, contentType, contentLength, keepAlive, opts, more, -, rfl, htext, -⟩ :=
      h.eq_headOf fun s hs => Option.mem_some.mp hs ▸ configured
    have hown := @splitHead_headOf status _ htext []
    rw [List.append_nil, hsplit] at hown
    rw [(Prod.mk.inj (Option.some.inj hown)).1]
    rfl
  have hzero : ∀ name ∈ [ascii "Server", hstsName], countFields name resp.headers = 0 := by
    intro name hname
    have hshort : ∀ name ∈ [ascii "Server", hstsName], name.length < 127 := by decide
    have hcount := count_of_composed h configured hide plain hname
    unfold countNamed at hcount
    rw [hsplit] at hcount
    have hnone := List.countP_eq_zero.mp hcount
    rw [raw, hbytes] at hparse
    exact countFields_loopback written hparse (hshort name hname) fun l hl =>
      Bool.not_eq_true _ ▸ hnone l hl
  have hfields : loopbackFields allocatesParse stream = some resp.headers := by
    rw [loopbackFields_of_done allocatesParse fetches done, hparse, Option.map_some]
  unfold LoopbackKeeps
  rw [hfields]
  cases hremoved : headerRemoved (some site) hstsName with
  | true =>
      rw [if_pos rfl]
      exact iff_of_false (Option.some_ne_none _) fun hfalse => Bool.noConfusion hfalse
  | false =>
      rw [if_neg Bool.false_ne_true]
      refine iff_of_true ⟨_, rfl, hzero _ (by decide), ?_⟩ rfl
      rw [hzero _ (by decide)]
      exact Nat.zero_le 1

/-! ### Both protocols -/

/-- **When responses to TLS clients keep the policy of their site.** Over HTTP/1.1 every composed
head does, and an answer does exactly if what it passes on of an upstream does; over HTTP/2 a
response does exactly if its loopback response does, apart from a missing field for HTTPS. -/
theorem tls_policy_iff (cfg : Config) {site : Site} (configured : site.Configured)
    (hide : site.hideServerHeader = true) :
    (∀ (s : Serving) (count : UInt32) (buf : Bytes), s.w.client.tls = true →
      answerSite cfg s count buf = some site →
        (∀ b, .head b ∈ answer cfg s count buf →
          ∃ head, b <+: head ∧ UniformResponse site head) ∧
        (s.w.peer = .willing →
          (UniformAnswer site (answer cfg s count buf) ↔
            ∀ bytes ∈ answerRelay cfg s count buf, UniformResponse site bytes))) ∧
    ∀ (client : Client) (stream : H2Stream) (allocatesParse allocates : Bool)
      (sub : H2Submission), selectedSite cfg client stream = some site →
        streamSubmission allocatesParse allocates stream = some sub →
          (UniformFields site sub.fields ↔ LoopbackKeeps allocatesParse site stream) := by
  constructor
  · intro s count buf tls hsite
    constructor
    · intro b hb
      obtain ⟨head, hcomposed, hpre, -⟩ := composed_of_mem_answer hb
      rw [hsite] at hcomposed
      exact ⟨head, hpre, uniform_of_composed hcomposed configured hide tls⟩
    · intro hpeer
      exact uniformAnswer_iff cfg hpeer tls count buf hsite configured hide
  · intro client stream allocatesParse allocates sub _ hsub
    exact uniform_submission_iff hsub

/-- A site in front of an upstream. -/
def proxiedSite : Site := { domains := [.lit "example.org"], routingType := .proxy }

theorem configured_proxiedSite : proxiedSite.Configured := fun _ hpair =>
  absurd hpair List.not_mem_nil

/-- A TLS client asks it, and the upstream has this response. -/
def proxiedServing (response : Bytes) (ne : response ≠ []) (le : response.length ≤ 65536) :
    Serving :=
  { sampleServing with
    w := { sampleWorld with client := tlsClient }
    upstream := upstreamOf [.data response ne le] }

/-- A response with the field for HTTPS. -/
def plainUpstream : Bytes :=
  ascii "HTTP/1.1 200 OK\x0d\nStrict-Transport-Security: max-age=300\x0d\n\x0d\n"

/-- A response that names its server. -/
def namedUpstream : Bytes := ascii "HTTP/1.1 200 OK\x0d\nServer: nginx\x0d\n\x0d\n"

theorem answerSite_proxied (response : Bytes) (ne : response ≠ []) (le : response.length ≤ 65536)
    (h : (answerSite (Config.ofSites [proxiedSite]) (proxiedServing response ne le) 0
      framedRequest).isSome = true) :
    answerSite (Config.ofSites [proxiedSite]) (proxiedServing response ne le) 0 framedRequest =
      some proxiedSite := by
  obtain ⟨site, hsite⟩ := Option.isSome_iff_exists.mp h
  rw [hsite]
  exact congrArg some (List.mem_singleton.mp (mem_of_answerSite hsite))

theorem tls_policy_iff_proxiedSite :
    UniformAnswer proxiedSite
      (answer (Config.ofSites [proxiedSite]) (proxiedServing plainUpstream (by decide) (by decide)) 0
        framedRequest) := by
  have hsite := answerSite_proxied plainUpstream (by decide) (by decide) (by decide +kernel)
  have hpolicy := tls_policy_iff (Config.ofSites [proxiedSite]) configured_proxiedSite rfl
  refine ((hpolicy.1 _ 0 framedRequest rfl hsite).2 rfl).mpr ?_
  decide +kernel

/-- A stream whose loopback response has this head. -/
def fetchedStream (response : Bytes) : H2Stream :=
  { authority := ascii "example.org", backendState := .done, rawResponse := response }

/-- **The trace of an upstream that names its server**: a TLS client of a site that hides the server
reads the name over both protocols, and over HTTP/2 the field for HTTPS is added although the site
removes it. -/
theorem relayed_head_untouched :
    let serving := proxiedServing namedUpstream (by decide) (by decide)
    let strict : Site := { proxiedSite with headersRemove := [.lit "Strict-Transport-Security"] }
    proxiedSite.Configured ∧ proxiedSite.hideServerHeader = true ∧
      answerSite (Config.ofSites [proxiedSite]) serving 0 framedRequest = some proxiedSite ∧
      relayedPart (answer (Config.ofSites [proxiedSite]) serving 0 framedRequest) = namedUpstream ∧
      ¬ UniformAnswer proxiedSite
        (answer (Config.ofSites [proxiedSite]) serving 0 framedRequest) ∧
      (∃ sub, streamSubmission true true (fetchedStream namedUpstream) = some sub ∧
        (ascii "Server", ascii "nginx") ∈ sub.fields) ∧
      ∃ sub, streamSubmission true true (fetchedStream okHead) = some sub ∧
        hstsField ∈ sub.fields ∧ ¬ UniformFields strict sub.fields := by
  intro serving strict
  have hsite := answerSite_proxied namedUpstream (by decide) (by decide) (by decide +kernel)
  have hpart : relayedPart (answer (Config.ofSites [proxiedSite]) serving 0 framedRequest) =
      namedUpstream := by decide +kernel
  have hnamed : ∃ sub, streamSubmission true true (fetchedStream namedUpstream) = some sub ∧
      (ascii "Server", ascii "nginx") ∈ sub.fields := ⟨_, rfl, by decide +kernel⟩
  have hadded : ∃ sub, streamSubmission true true (fetchedStream okHead) = some sub ∧
      hstsField ∈ sub.fields ∧ ¬ UniformFields strict sub.fields := by
    refine ⟨_, rfl, by decide +kernel, fun h => ?_⟩
    have hcount := h.hsts
    revert hcount
    decide +kernel
  refine ⟨configured_proxiedSite, rfl, hsite, hpart, fun h => ?_, hnamed, hadded⟩
  have hrelayed := h.relayed
  rw [hpart] at hrelayed
  exact absurd (hrelayed (by decide)) (by decide +kernel)

end Rpsiod

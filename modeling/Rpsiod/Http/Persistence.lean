import Rpsiod.Http.ByteRange
import Rpsiod.Lib.ContentCoding

/-!
# Whether a connection stays open (`rpsiod_http_parse_request`)

The Connection lines of a request are one list of tokens, however many lines carry it.  The parser
goes through the lines one by one: `header_token_present` looks at one value, and the flags that it
sets are what the next line finds.

* `headerTokenPresent_eq`: the scanner finds the elements between commas.
* `project_of_foldlM`: a part of the locals that one kind of line changes.
* `keepAlive_of_foldlM`: what the last line with a say leaves behind.
* `persistence_iff`: **the tokens decide exactly if the last line with a say is one that closes**, or
  none closes.
* `persistence_of_one_line`: they decide where they all stand in one line.
-/

namespace Rpsiod

open FailingRun Crlf ListStrip ContentCoding

/-! ### Tokens -/

/-- The list has this token, in any letter case. -/
def HasToken (tokens : List Bytes) (token : Bytes) : Prop := ∃ t ∈ tokens, streqCi t token = true

instance (tokens : List Bytes) (token : Bytes) : Decidable (HasToken tokens token) :=
  inferInstanceAs (Decidable (∃ _ ∈ tokens, _))

/-- The tokens of some values are those of any of them. -/
theorem hasToken_flatMap {values : List Bytes} {token : Bytes} :
    HasToken (values.flatMap elements) token ↔ ∃ v ∈ values, HasToken (elements v) token := by
  constructor
  · rintro ⟨t, ht, htoken⟩
    obtain ⟨v, hv, hmem⟩ := List.mem_flatMap.mp ht
    exact ⟨v, hv, t, hmem, htoken⟩
  · rintro ⟨v, hv, t, hmem, htoken⟩
    exact ⟨t, List.mem_flatMap.mpr ⟨v, hv, hmem⟩, htoken⟩

/-- Which tokens there are depends on the set of them alone. -/
theorem hasToken_congr {tokens others : List Bytes} (h : ∀ t, t ∈ tokens ↔ t ∈ others)
    (token : Bytes) : HasToken tokens token ↔ HasToken others token :=
  exists_congr fun t => and_congr_left' (h t)

theorem hasToken_iff_find {tokens : List Bytes} {token : Bytes} :
    HasToken tokens token ↔ (tokens.find? fun t => streqCi t token).isSome = true :=
  List.find?_isSome.symm

/-- A round of the cursor loop, in the words of the list's grammar. -/
theorem headerTokenLoop_succ (needle : Bytes) (fuel : ℕ) {cursor : Bytes} (hne : cursor ≠ []) :
    headerTokenLoop needle (fuel + 1) cursor =
      (streqCi (strip isOws ((cursor.dropWhile fun c => c == 44 || isOws c).takeWhile (· != 44)))
          needle ||
        headerTokenLoop needle fuel
          ((cursor.dropWhile fun c => c == 44 || isOws c).dropWhile (· != 44))) := by
  have hskip : (fun c => isBlank c || c == 44) = fun c => c == 44 || isOws c :=
    funext fun c => Bool.or_comm _ _
  have hcomma : (fun c : UInt8 => decide (c ≠ 44)) = (· != 44) :=
    funext fun c => by
      rw [bne, beq_eq_decide, decide_not]
  have hblank : isBlank = isOws := rfl
  rw [headerTokenLoop, if_neg hne, strip_element]
  dsimp only
  rw [hskip, hcomma, hblank]

/-- The first element behind commas and white space, or one of the others. -/
theorem hasToken_elements {needle : Bytes} (hempty : streqCi [] needle = false) (value : Bytes) :
    HasToken (elements value) needle ↔
      streqCi (strip isOws ((value.dropWhile fun c => c == 44 || isOws c).takeWhile (· != 44)))
          needle = true ∨
        HasToken (elements ((value.dropWhile fun c => c == 44 || isOws c).dropWhile (· != 44)))
          needle := by
  rw [hasToken_iff_find, hasToken_iff_find,
    ← @find_elements_dropWhile (fun t => streqCi t needle) hempty value]
  conv_lhs => rw [@find_elements_eq (fun t => streqCi t needle) hempty]
  split_ifs with hhere
  · exact iff_of_true rfl (Or.inl hhere)
  · exact (or_iff_right hhere).symm

/-- The cursor loop finds the elements of what is in front of it. -/
theorem headerTokenLoop_eq {needle : Bytes} (hempty : streqCi [] needle = false) {fuel : ℕ}
    {cursor : Bytes} (h : cursor.length ≤ fuel) :
    headerTokenLoop needle fuel cursor = true ↔ HasToken (elements cursor) needle := by
  have hnil : ¬ HasToken (elements []) needle := by
    rintro ⟨t, ht, htoken⟩
    rw [List.mem_singleton.mp ht] at htoken
    exact Bool.false_ne_true (hempty.symm.trans htoken)
  induction fuel generalizing cursor with
  | zero =>
      rw [List.eq_nil_of_length_eq_zero (Nat.le_zero.mp h)]
      exact iff_of_false Bool.false_ne_true hnil
  | succ fuel ih =>
      by_cases hcursor : cursor = []
      · rw [hcursor]
        exact iff_of_false Bool.false_ne_true hnil
      · rw [headerTokenLoop_succ needle fuel hcursor, Bool.or_eq_true]
        exact (or_congr_right (ih (length_behind_element h))).trans
          (hasToken_elements hempty cursor).symm

/-- **The scanner finds the tokens between commas.** -/
theorem headerTokenPresent_eq {needle : Bytes} (hempty : streqCi [] needle = false)
    (value : Bytes) : headerTokenPresent value needle = true ↔ HasToken (elements value) needle :=
  headerTokenLoop_eq hempty le_rfl

/-! ### What the lines say together -/

/-- The values of the lines with this name in a head. -/
def headerValues (name buf : Bytes) : List Bytes :=
  match splitHead buf with
  | some (lines, _) => fieldValues name lines.tail
  | none => []

/-- The request line ends in the version 1.1. -/
def isHttp11 (buf : Bytes) : Bool :=
  match splitHead buf with
  | some (line :: _, _) => streqCi (line.rtakeWhile (· ≠ 32)) (ascii "HTTP/1.1")
  | _ => false

/-- The Connection tokens of a request, from all its lines. -/
def connectionTokens (buf : Bytes) : List Bytes :=
  (headerValues (ascii "Connection") buf).flatMap elements

/-- The connection stays open: `close` closes it, `keep-alive` keeps it, else the version decides. -/
def Persists (tokens : List Bytes) (http11 : Bool) : Prop :=
  ¬ HasToken tokens (ascii "close") ∧ (HasToken tokens (ascii "keep-alive") ∨ http11 = true)

/-- The client asks for another protocol on it. -/
def UpgradesWebsocket (tokens upgrades : List Bytes) : Prop :=
  HasToken tokens (ascii "upgrade") ∧ HasToken upgrades (ascii "websocket")

/-- The parser's flags are what all the tokens together say. -/
structure PersistenceExact (buf : Bytes) (req : HttpRequest) : Prop where
  keepAlive : req.keepAlive = true ↔ Persists (connectionTokens buf) (isHttp11 buf)
  upgrade : req.upgradeWebsocket = true ↔
    UpgradesWebsocket (connectionTokens buf) (headerValues (ascii "Upgrade") buf)

/-- A Connection line with a say in whether the connection stays open. -/
def decides (value : Bytes) : Bool :=
  decide (HasToken (elements value) (ascii "close") ∨
    HasToken (elements value) (ascii "keep-alive"))

/-- The last Connection line with a say closes the connection, or none does. -/
def CloseIsLast (values : List Bytes) : Prop :=
  (∃ v ∈ values, HasToken (elements v) (ascii "close")) →
    ∃ v ∈ values.reverse.find? decides, HasToken (elements v) (ascii "close")

instance (values : List Bytes) : Decidable (CloseIsLast values) :=
  inferInstanceAs (Decidable (_ → _))

/-! ### The header loop -/

section Project

variable {β : Type*} {proj : ParseState → β} {step : β → Bytes → β} {name : Bytes}

/-- **A part of the locals that one kind of line changes**: behind the loop it has gone through the
values of those lines, in order. -/
theorem project_of_foldlM (hcount : ∀ st n, proj { st with headerCount := n } = proj st)
    (happly : ∀ st st' other value, applyHeader st other value = .ok st' →
      proj st' = if streqCi other name then step (proj st) value else proj st)
    {ls : List Bytes} {st st' : ParseState} (hne : ∀ l ∈ ls, l ≠ [])
    (h : ls.foldlM parseHeaderLine st = .ok st') :
    proj st' = (fieldValues name ls).foldl step (proj st) := by
  unfold fieldValues
  rw [List.foldl_filterMap]
  refine foldlM_project (fun l hmem s s' hl => ?_) h
  obtain ⟨other, value, -, hsplit, -, hline⟩ := applyHeader_of_line (hne l hmem) hl
  have hproj := happly _ _ _ _ hline
  simp only [hcount] at hproj
  rw [hproj, hsplit]
  dsimp only
  by_cases hname : streqCi other name = true
  · simp only [if_pos hname]
  · simp only [if_neg hname]

end Project

/-- What a Connection line does to the flags. -/
def connectionLine (flags : Bool × Bool) (value : Bytes) : Bool × Bool :=
  (if headerTokenPresent value (ascii "close") then false
    else if headerTokenPresent value (ascii "keep-alive") then true
    else flags.1,
    flags.2 || headerTokenPresent value (ascii "upgrade"))

/-- The flags of a range header are none of them. -/
theorem parseByteRange_keepAlive (value : Bytes) (req : HttpRequest) :
    (parseByteRange value req).2.keepAlive = req.keepAlive := by
  obtain ⟨present, suffix, hasEnd, start, stop, hframe⟩ := parseByteRange_frame value req
  rw [hframe]

/-- A line of another name changes neither flag of a Connection line. -/
theorem connection_of_other {st st' : ParseState} {name value : Bytes}
    (hname : streqCi name (ascii "Connection") = false)
    (h : applyHeader st name value = .ok st') :
    st'.req.keepAlive = st.req.keepAlive ∧ st'.connectionUpgrade = st.connectionUpgrade := by
  cases headerEffect_of_apply h with
  | host => exact ⟨rfl, rfl⟩
  | contentLength => exact ⟨rfl, rfl⟩
  | transferEncoding => exact ⟨rfl, rfl⟩
  | other notHost notLength notEncoding _ _ =>
      unfold applyHeader at h
      rw [notHost, notLength, notEncoding, hname] at h
      simp only [Bool.false_eq_true, if_false] at h
      split_ifs at h <;> rw [Except.ok.injEq] at h <;> subst h
      all_goals first
        | exact ⟨rfl, rfl⟩
        | exact ⟨parseByteRange_keepAlive _ _, rfl⟩

/-- The branch on the header name, for the flags of a Connection line. -/
theorem connection_applyHeader (st st' : ParseState) (name value : Bytes)
    (h : applyHeader st name value = .ok st') :
    (st'.req.keepAlive, st'.connectionUpgrade) =
      if streqCi name (ascii "Connection") then
        connectionLine (st.req.keepAlive, st.connectionUpgrade) value
      else (st.req.keepAlive, st.connectionUpgrade) := by
  by_cases hname : streqCi name (ascii "Connection") = true
  · have hother : ∀ b : Bytes, streqCi (ascii "Connection") b = false → ¬ streqCi name b = true :=
      fun b hb => Bool.eq_false_iff.mp (streqCi_eq_false hname hb)
    unfold applyHeader at h
    rw [if_neg (hother _ (by decide)), if_neg (hother _ (by decide)),
      if_neg (hother _ (by decide)), if_neg (hother _ (by decide)), if_neg (hother _ (by decide)),
      if_neg (hother _ (by decide)), if_neg (hother _ (by decide)), if_pos hname] at h
    rw [if_pos hname, ← Except.ok.inj h]
    unfold connectionLine
    split_ifs <;> rfl
  · obtain ⟨hkeep, hupgrade⟩ := connection_of_other (Bool.eq_false_iff.mpr hname) h
    rw [if_neg hname, hkeep, hupgrade]

/-- The branch on the header name, for the flag of an Upgrade line. -/
theorem upgrade_applyHeader (st st' : ParseState) (name value : Bytes)
    (h : applyHeader st name value = .ok st') :
    st'.upgradeWebsocket =
      if streqCi name (ascii "Upgrade") then
        st.upgradeWebsocket || streqCi value (ascii "websocket")
      else st.upgradeWebsocket := by
  by_cases hname : streqCi name (ascii "Upgrade") = true
  · have hother : ∀ b : Bytes, streqCi (ascii "Upgrade") b = false → ¬ streqCi name b = true :=
      fun b hb => Bool.eq_false_iff.mp (streqCi_eq_false hname hb)
    unfold applyHeader at h
    rw [if_neg (hother _ (by decide)), if_neg (hother _ (by decide)),
      if_neg (hother _ (by decide)), if_neg (hother _ (by decide)), if_neg (hother _ (by decide)),
      if_neg (hother _ (by decide)), if_neg (hother _ (by decide)),
      if_neg (hother _ (by decide)), if_pos hname] at h
    rw [if_pos hname, ← Except.ok.inj h]
  · rw [if_neg hname]
    cases headerEffect_of_apply h with
    | host => rfl
    | contentLength => rfl
    | transferEncoding => rfl
    | other notHost notLength notEncoding _ _ =>
        unfold applyHeader at h
        rw [notHost, notLength, notEncoding, Bool.eq_false_iff.mpr hname] at h
        simp only [Bool.false_eq_true, if_false] at h
        split_ifs at h <;> rw [Except.ok.injEq] at h <;> subst h <;> rfl

/-! ### The flags behind the last line -/

/-- The scanner's three questions about a value. -/
theorem token_iff (value : Bytes) :
    (headerTokenPresent value (ascii "close") = true ↔ HasToken (elements value) (ascii "close")) ∧
      (headerTokenPresent value (ascii "keep-alive") = true ↔
        HasToken (elements value) (ascii "keep-alive")) ∧
      (headerTokenPresent value (ascii "upgrade") = true ↔
        HasToken (elements value) (ascii "upgrade")) :=
  ⟨headerTokenPresent_eq (by decide) value, headerTokenPresent_eq (by decide) value,
    headerTokenPresent_eq (by decide) value⟩

/-- **The last line with a say** decides whether the connection stays open. -/
theorem foldl_connectionLine_fst (values : List Bytes) (flags : Bool × Bool) :
    (values.foldl connectionLine flags).1 =
      match values.reverse.find? decides with
      | some v => !decide (HasToken (elements v) (ascii "close"))
      | none => flags.1 := by
  induction values using List.reverseRecOn with
  | nil => rfl
  | append_singleton values v ih =>
      obtain ⟨hclose, hkeep, -⟩ := token_iff v
      rw [List.foldl_append, List.reverse_append, List.reverse_singleton, List.singleton_append,
        List.find?_cons]
      by_cases hc : HasToken (elements v) (ascii "close")
      · have hdecides : decides v = true := decide_eq_true (Or.inl hc)
        rw [hdecides]
        simp only [List.foldl_cons, List.foldl_nil, connectionLine, hclose.mpr hc, if_true,
          decide_eq_true hc, Bool.not_true]
      · have hclose' := Bool.eq_false_iff.mpr (mt hclose.mp hc)
        by_cases hk : HasToken (elements v) (ascii "keep-alive")
        · have hdecides : decides v = true := decide_eq_true (Or.inr hk)
          rw [hdecides]
          simp only [List.foldl_cons, List.foldl_nil, connectionLine, hclose', hkeep.mpr hk,
            Bool.false_eq_true, if_false, if_true, decide_eq_false hc, Bool.not_false]
        · have hdecides : decides v = false := decide_eq_false (not_or.mpr ⟨hc, hk⟩)
          have hkeep' := Bool.eq_false_iff.mpr (mt hkeep.mp hk)
          rw [hdecides]
          simp only [List.foldl_cons, List.foldl_nil, connectionLine, hclose', hkeep',
            Bool.false_eq_true, if_false]
          exact ih

/-- Any line may ask for another protocol. -/
theorem foldl_connectionLine_snd (values : List Bytes) (flags : Bool × Bool) :
    (values.foldl connectionLine flags).2 = true ↔
      flags.2 = true ∨ ∃ v ∈ values, HasToken (elements v) (ascii "upgrade") := by
  induction values generalizing flags with
  | nil => simp
  | cons v values ih =>
      have hline : (connectionLine flags v).2 = true ↔
          flags.2 = true ∨ HasToken (elements v) (ascii "upgrade") := by
        unfold connectionLine
        rw [Bool.or_eq_true, (token_iff v).2.2]
      rw [List.foldl_cons, ih, hline, List.exists_mem_cons_iff, or_assoc]

/-- Any Upgrade line may name the protocol. -/
theorem foldl_upgrade (values : List Bytes) (flag : Bool) :
    values.foldl (fun flag value => flag || streqCi value (ascii "websocket")) flag = true ↔
      flag = true ∨ HasToken values (ascii "websocket") := by
  induction values generalizing flag with
  | nil => simp [HasToken]
  | cons v values ih =>
      have hmem : HasToken (v :: values) (ascii "websocket") ↔
          streqCi v (ascii "websocket") = true ∨ HasToken values (ascii "websocket") :=
        List.exists_mem_cons_iff _ _ _
      rw [List.foldl_cons, ih, Bool.or_eq_true, hmem, or_assoc]


/-! ### Against all the tokens -/

/-- The flag that the last line with a say leaves is the one that all tokens ask for, exactly if
none of the lines closes or that one does. -/
theorem lastLine_iff (values : List Bytes) (http11 : Bool) :
    (((match values.reverse.find? decides with
        | some v => !decide (HasToken (elements v) (ascii "close"))
        | none => http11) = true ↔ Persists (values.flatMap elements) http11) ↔
      CloseIsLast values) := by
  unfold Persists CloseIsLast
  rw [hasToken_flatMap, hasToken_flatMap]
  cases hlast : values.reverse.find? decides with
  | none =>
      -- no line has a say: the version decides
      have hsilent : ∀ v ∈ values, ¬ HasToken (elements v) (ascii "close") ∧
          ¬ HasToken (elements v) (ascii "keep-alive") := by
        intro v hv
        have hnot := List.find?_eq_none.mp hlast v (List.mem_reverse.mpr hv)
        rw [decides, decide_eq_true_iff, not_or] at hnot
        exact hnot
      have hclose : ¬ ∃ v ∈ values, HasToken (elements v) (ascii "close") :=
        fun ⟨v, hv, h⟩ => (hsilent v hv).1 h
      have hkeep : ¬ ∃ v ∈ values, HasToken (elements v) (ascii "keep-alive") :=
        fun ⟨v, hv, h⟩ => (hsilent v hv).2 h
      refine iff_of_true ⟨fun h => ⟨hclose, Or.inr h⟩, fun h => h.2.resolve_left hkeep⟩ ?_
      exact fun h => absurd h hclose
  | some v =>
      have hv : v ∈ values := List.mem_reverse.mp (List.mem_of_find?_eq_some hlast)
      have hdecides : decides v = true := List.find?_some hlast
      have hsay := of_decide_eq_true hdecides
      simp only [Option.mem_some_iff, exists_eq_left']
      by_cases hc : HasToken (elements v) (ascii "close")
      · -- the last line with a say closes
        refine iff_of_true ?_ fun _ => hc
        rw [decide_eq_true hc]
        exact iff_of_false Bool.false_ne_true fun h => h.1 ⟨v, hv, hc⟩
      · -- it keeps the connection open, whatever stands in front of it
        rw [decide_eq_false hc]
        have hkeep : ∃ w ∈ values, HasToken (elements w) (ascii "keep-alive") :=
          ⟨v, hv, hsay.resolve_left hc⟩
        constructor
        · exact fun h hany => absurd hany (h.mp rfl).1
        · exact fun h => ⟨fun _ => ⟨fun hany => hc (h hany), Or.inl hkeep⟩, fun _ => rfl⟩

namespace Parsed

variable {buf : Bytes} {req : HttpRequest}

theorem headerValues_eq (p : Parsed buf req) (name : Bytes) :
    headerValues name buf = fieldValues name p.fieldLines := by
  unfold headerValues
  rw [p.splitHead_eq]
  rfl

theorem isHttp11_eq (p : Parsed buf req) :
    isHttp11 buf = streqCi p.rl.version (ascii "HTTP/1.1") := by
  obtain ⟨method, target, parts⟩ := parseRequestLine_eq_ok p.line_eq
  have hline : p.requestLine = (method ++ 32 :: target) ++ 32 :: p.rl.version := by
    rw [requestLine, parts.line_eq]
    simp
  have hversion : p.requestLine.rtakeWhile (fun c => decide (c ≠ 32)) = p.rl.version := by
    have hall : ∀ c ∈ p.rl.version.reverse, decide (c ≠ 32) = true := by
      intro c hc
      rw [decide_eq_true_iff]
      rintro rfl
      exact parts.version_space (List.mem_reverse.mp hc)
    rw [hline, List.rtakeWhile, List.reverse_append, List.reverse_cons, List.append_assoc,
      List.takeWhile_append_of_pos hall, List.singleton_append,
      List.takeWhile_cons_of_neg (by decide), List.append_nil, List.reverse_reverse]
  unfold isHttp11
  rw [p.splitHead_eq]
  dsimp only
  rw [hversion]

/-- **The flags of an accepted request**: the last Connection line with a say, and whether any line
asks for another protocol and any names it. -/
theorem flags_eq (p : Parsed buf req) :
    req.keepAlive = (match (headerValues (ascii "Connection") buf).reverse.find? decides with
      | some v => !decide (HasToken (elements v) (ascii "close"))
      | none => isHttp11 buf) ∧
    (req.upgradeWebsocket = true ↔
      UpgradesWebsocket (connectionTokens buf) (headerValues (ascii "Upgrade") buf)) := by
  have hne : ∀ l ∈ p.fieldLines, l ≠ [] := fun _ hl => p.fieldLine_ne_nil hl
  have hconnection := @project_of_foldlM _
    (fun st => (st.req.keepAlive, st.connectionUpgrade)) _ _
    (fun _ _ => rfl) connection_applyHeader _ _ _ hne p.loop_eq
  have hupgrade := @project_of_foldlM _ ParseState.upgradeWebsocket
    (fun flag value => flag || streqCi value (ascii "websocket")) _
    (fun _ _ => rfl) upgrade_applyHeader _ _ _ hne p.loop_eq
  have hkeep := congrArg Prod.fst hconnection
  have hasked := congrArg Prod.snd hconnection
  rw [foldl_connectionLine_fst] at hkeep
  obtain ⟨-, -, -, hreq⟩ := finishRequest_eq_accepted p.finish_eq
  unfold connectionTokens UpgradesWebsocket
  rw [p.headerValues_eq, p.headerValues_eq, p.isHttp11_eq, hasToken_flatMap]
  have hkept : req.keepAlive = p.st.req.keepAlive := by
    have h := congrArg HttpRequest.keepAlive hreq
    exact h
  have hboth : req.upgradeWebsocket = (p.st.connectionUpgrade && p.st.upgradeWebsocket) := by
    have h := congrArg HttpRequest.upgradeWebsocket hreq
    exact h
  refine ⟨hkept.trans hkeep, ?_⟩
  have hasks : p.st.connectionUpgrade = true ↔
      ∃ v ∈ fieldValues (ascii "Connection") p.fieldLines,
        HasToken (elements v) (ascii "upgrade") := by
    rw [show p.st.connectionUpgrade = _ from hasked, foldl_connectionLine_snd]
    exact or_iff_right Bool.false_ne_true
  have hnames : p.st.upgradeWebsocket = true ↔
      HasToken (fieldValues (ascii "Upgrade") p.fieldLines) (ascii "websocket") := by
    rw [hupgrade, foldl_upgrade]
    exact or_iff_right Bool.false_ne_true
  rw [hboth, Bool.and_eq_true, hasks, hnames]

end Parsed

/-- **The tokens of all lines decide on the connection** exactly if none of them is `close`, or the
last Connection line with a say has it. -/
theorem persistence_iff {buf : Bytes} {req : HttpRequest}
    (h : httpParseRequest buf = .accepted req) :
    PersistenceExact buf req ↔ CloseIsLast (headerValues (ascii "Connection") buf) := by
  obtain ⟨p⟩ := parsed_of_accepted h
  obtain ⟨hkeep, hupgrade⟩ := p.flags_eq
  rw [← lastLine_iff _ (isHttp11 buf), ← hkeep]
  exact ⟨fun hexact => hexact.keepAlive, fun hkept => ⟨hkept, hupgrade⟩⟩

/-- A GET request with these lines. -/
def connectionRequest (fields : List String) : Bytes :=
  unlines (ascii "GET / HTTP/1.1" :: ascii "Host: a" :: fields.map ascii) ++ crlf

/-- With all tokens in one line `close` wins. -/
theorem persistence_oneLine :
    ∃ req, httpParseRequest (connectionRequest ["Connection: close, keep-alive"]) =
        .accepted req ∧
      PersistenceExact (connectionRequest ["Connection: close, keep-alive"]) req := by
  obtain ⟨req, hreq, -⟩ := @exists_accepted (connectionRequest ["Connection: close, keep-alive"])
    (fun _ => true) (by decide +kernel)
  exact ⟨req, hreq, (persistence_iff hreq).mpr (by decide +kernel)⟩

/-- The same tokens in two lines: the second one takes `close` back. -/
theorem close_taken_back :
    ∃ req, httpParseRequest
        (connectionRequest ["Connection: close", "Connection: keep-alive"]) = .accepted req ∧
      ¬ PersistenceExact (connectionRequest ["Connection: close", "Connection: keep-alive"])
        req := by
  obtain ⟨req, hreq, hkeep⟩ := @exists_accepted
    (connectionRequest ["Connection: close", "Connection: keep-alive"])
    HttpRequest.keepAlive (by decide +kernel)
  refine ⟨req, hreq, fun hexact => (hexact.keepAlive.mp hkeep).1 ?_⟩
  decide +kernel

/-! ### Other ways to write the same tokens -/

/-- One line, or none, is the last one. -/
theorem closeIsLast_of_length_le_one {values : List Bytes} (h : values.length ≤ 1) :
    CloseIsLast values := by
  rintro ⟨v, hv, hclose⟩
  have hone : values = [v] := by
    match values, h, hv with
    | [w], _, hv => rw [List.mem_singleton.mp hv]
  have hdecides : decides v = true := decide_eq_true (Or.inl hclose)
  refine ⟨v, ?_, hclose⟩
  rw [hone, List.reverse_singleton, List.find?_cons_of_pos hdecides]
  exact rfl

/-- Without `close` the lines may stand in any order. -/
theorem closeIsLast_of_not_close {values : List Bytes}
    (h : ¬ HasToken (values.flatMap elements) (ascii "close")) : CloseIsLast values :=
  fun hclose => absurd (hasToken_flatMap.mpr hclose) h

/-- **Two requests with the same tokens and the same version** agree on the connection where the
last line with a say in each has the `close` that any of them has. -/
theorem keepAlive_congr {buf buf' : Bytes} {req req' : HttpRequest}
    (h : httpParseRequest buf = .accepted req) (h' : httpParseRequest buf' = .accepted req')
    (htokens : ∀ t, t ∈ connectionTokens buf ↔ t ∈ connectionTokens buf')
    (hversion : isHttp11 buf = isHttp11 buf')
    (hlast : CloseIsLast (headerValues (ascii "Connection") buf))
    (hlast' : CloseIsLast (headerValues (ascii "Connection") buf')) :
    req.keepAlive = req'.keepAlive := by
  rw [Bool.eq_iff_iff, ((persistence_iff h).mpr hlast).keepAlive,
    ((persistence_iff h').mpr hlast').keepAlive]
  unfold Persists
  rw [hasToken_congr htokens, hasToken_congr htokens, hversion]

/-- The request for another protocol depends on the tokens and the Upgrade values only. -/
theorem upgradeWebsocket_congr {buf buf' : Bytes} {req req' : HttpRequest}
    (h : httpParseRequest buf = .accepted req) (h' : httpParseRequest buf' = .accepted req')
    (htokens : ∀ t, t ∈ connectionTokens buf ↔ t ∈ connectionTokens buf')
    (hupgrades : ∀ v, v ∈ headerValues (ascii "Upgrade") buf ↔
      v ∈ headerValues (ascii "Upgrade") buf') :
    req.upgradeWebsocket = req'.upgradeWebsocket := by
  obtain ⟨p⟩ := parsed_of_accepted h
  obtain ⟨p'⟩ := parsed_of_accepted h'
  rw [Bool.eq_iff_iff, p.flags_eq.2, p'.flags_eq.2]
  unfold UpgradesWebsocket
  rw [hasToken_congr htokens, hasToken_congr hupgrades]

end Rpsiod

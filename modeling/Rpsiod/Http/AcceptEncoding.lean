import Rpsiod.Http.Fields
import Rpsiod.Lib.ContentCoding

/-!
# Accepted encodings (`accepts_encoding_token` of `compress.c`)

The loops move a pointer over the value; the cursor is the text behind it, with fuel for its
length.

* `acceptEncodingTokenAllowed_eq`: of several weights the last one counts.
* `acceptsEncodingToken_eq`: of several elements for an encoding the first one counts.
* `acceptEncoding_eq`: what the parser keeps of the values that have been sent.
-/

namespace Rpsiod

open FailingRun ListSearch Crlf ListStrip ContentCoding

/-! ### The functions -/

/-- The digits and the points of `qvalue_is_zero`. -/
def zeroDigits : Bool → Bytes → Bool
  | _, [] => true
  | dotSeen, c :: cs =>
      if c = 46 then !dotSeen && zeroDigits true cs else c == 48 && zeroDigits dotSeen cs

/-- `qvalue_is_zero`. -/
def qvalueIsZero (value : Bytes) : Bool :=
  match (value.dropWhile isOws).rdropWhile isOws with
  | [] => false
  | c :: cs => c == 48 && zeroDigits false cs

/-- The loop of `accept_encoding_token_allowed`; every round but the last moves the cursor. -/
def tokenAllowedLoop : ℕ → Bool → Bytes → Bool
  | 0, allowed, _ => allowed
  | fuel + 1, allowed, params =>
      if params = [] then allowed
      else
        let start := params.dropWhile fun c => c == 59 || isOws c
        let name := (start.takeWhile fun c => c != 61 && c != 59).rdropWhile isOws
        match start.dropWhile fun c => c != 61 && c != 59 with
        | [] => tokenAllowedLoop fuel allowed []
        | c :: rest =>
            if c ≠ 61 then tokenAllowedLoop fuel allowed ((c :: rest).dropWhile (· != 59))
            else
              let value := (rest.dropWhile isOws).takeWhile (· != 59)
              tokenAllowedLoop fuel
                (if streqCi name (ascii "q") then !qvalueIsZero value else allowed)
                ((rest.dropWhile isOws).dropWhile (· != 59))

/-- `accept_encoding_token_allowed`. -/
def acceptEncodingTokenAllowed (params : Bytes) : Bool :=
  tokenAllowedLoop params.length true params

/-- The loop of `accepts_encoding_token`; every round but the last moves the cursor. -/
def acceptsTokenLoop (encoding : Bytes) : ℕ → Bytes → Bool
  | 0, _ => false
  | fuel + 1, p =>
      if p = [] then false
      else
        let start := p.dropWhile fun c => c == 44 || isOws c
        let item := (start.takeWhile (· != 44)).rdropWhile isOws
        let token := item.takeWhile fun c => c != 59 && !isOws c
        let params := (item.dropWhile fun c => c != 59 && !isOws c).dropWhile isOws
        if streqCi token encoding then acceptEncodingTokenAllowed params
        else acceptsTokenLoop encoding fuel (start.dropWhile (· != 44))

/-- `accepts_encoding_token`. -/
def acceptsEncodingToken (acceptEncoding encoding : Bytes) : Bool :=
  if acceptEncoding = [] then false
  else acceptsTokenLoop encoding acceptEncoding.length acceptEncoding

/-- `rpsiod_accepts_gzip`. -/
def acceptsGzip (acceptEncoding : Bytes) : Bool :=
  acceptsEncodingToken acceptEncoding (ascii "gzip")

/-- `rpsiod_accepts_br`. -/
def acceptsBr (acceptEncoding : Bytes) : Bool := acceptsEncodingToken acceptEncoding (ascii "br")

/-! ### Weights -/

/-- A zero that the grammar allows is one to `qvalue_is_zero`. -/
theorem qvalueIsZero_of_isZero {weight : Bytes} (h : IsZero weight) :
    qvalueIsZero weight = true := by
  rcases h with rfl | ⟨n, hn, rfl⟩
  · decide
  · interval_cases n <;> decide

/-- White space at the ends of a value does not count. -/
theorem qvalueIsZero_strip (value : Bytes) :
    qvalueIsZero (strip isOws value) = qvalueIsZero value := by
  have hsame : strip isOws (strip isOws value) = strip isOws value := strip_idempotent isOws value
  unfold strip at hsame
  unfold qvalueIsZero strip
  rw [hsame]

/-- White space in front of a value does not count. -/
theorem qvalueIsZero_dropWhile (value : Bytes) :
    qvalueIsZero (value.dropWhile isOws) = qvalueIsZero value := by
  have hsame : (value.dropWhile isOws).dropWhile isOws = value.dropWhile isOws :=
    dropWhile_dropWhile (fun _ h => h) value
  unfold qvalueIsZero
  rw [hsame]

/-- The parts of a parameter with a value. -/
theorem weightOf_append {name value : Bytes} (h : 61 ∉ name) :
    weightOf (name ++ 61 :: value) =
      if streqCi (strip isOws name) (ascii "q") then some (strip isOws value) else none := by
  have hname : ∀ c ∈ name, (c != 61) = true := fun c hc =>
    bne_iff_ne.mpr fun heq => h (heq ▸ hc)
  have hsame : streqCi (strip isOws name) (ascii "q") = true ↔
      (strip isOws name).map lower = [113] := streqCi_iff
  unfold weightOf
  rw [List.dropWhile_append_of_pos hname, List.takeWhile_append_of_pos hname,
    List.dropWhile_cons_of_neg (by decide), List.takeWhile_cons_of_neg (by decide),
    List.append_nil]
  simp only [hsame]

theorem weightOf_of_not_mem {parameter : Bytes} (h : 61 ∉ parameter) :
    weightOf parameter = none := by
  have hall : parameter.dropWhile (· != 61) = [] := by
    apply List.dropWhile_eq_nil_iff.mpr
    intro c hc
    exact bne_iff_ne.mpr fun heq => h (heq ▸ hc)
  unfold weightOf
  rw [hall]

/-- The last one of a first part and the others. -/
theorem getLast_toList_append {α β : Type*} (f : α → β) (a : Option α) (l : List α) (b : β) :
    (((a.toList ++ l).getLast?).map f).getD b = (l.getLast?.map f).getD ((a.map f).getD b) := by
  cases hl : l.getLast? with
  | none =>
      rw [List.getLast?_eq_none_iff.mp hl, List.append_nil]
      cases a with
      | none => rfl
      | some x => rfl
  | some x => 
      rw [List.getLast?_append, hl]
      rfl

/-- What the weights say: the last one that is there. -/
def lastAllows (allowed : Bool) (weights : List Bytes) : Bool :=
  (weights.getLast?.map fun weight => !qvalueIsZero weight).getD allowed

theorem lastAllows_iff (weights : List Bytes) :
    lastAllows true weights = true ↔ ∀ weight ∈ weights.getLast?, qvalueIsZero weight = false := by
  unfold lastAllows
  cases weights.getLast? with
  | none => exact iff_of_true rfl nofun
  | some weight =>
      rw [Option.map_some, Option.getD_some, Bool.not_eq_true']
      exact ⟨fun h _ hw => Option.mem_some.mp hw ▸ h, fun h => h weight rfl⟩

/-- **The loop over the parameters.** -/
theorem tokenAllowedLoop_eq {fuel : ℕ} {params : Bytes} (h : params.length ≤ fuel)
    (allowed : Bool) :
    tokenAllowedLoop fuel allowed params = lastAllows allowed (weightsIn params) := by
  induction fuel generalizing params allowed with
  | zero =>
      rw [List.eq_nil_of_length_eq_zero (Nat.le_zero.mp h)]
      rfl
  | succ fuel ih =>
      rw [tokenAllowedLoop]
      split_ifs with hnil
      · rw [hnil]
        rfl
      dsimp only
      set start := params.dropWhile fun c => c == 59 || isOws c with hstart
      have hlength : start.length ≤ params.length := (List.dropWhile_suffix _).length_le
      set name := start.takeWhile fun c => c != 61 && c != 59 with hname
      have hsplit := List.takeWhile_append_dropWhile (p := fun c => c != 61 && c != 59) (l := start)
      rw [← hname] at hsplit
      have hnames : ∀ c ∈ name, (c != 61) = true ∧ (c != 59) = true := by
        intro c hc
        have hboth := List.mem_takeWhile_imp hc
        rwa [Bool.and_eq_true] at hboth
      have hequals : 61 ∉ name := fun hc => bne_iff_ne.mp (hnames 61 hc).1 rfl
      have htake : ∀ l, (name ++ l).takeWhile (· != 59) = name ++ l.takeWhile (· != 59) := fun l =>
        List.takeWhile_append_of_pos fun c hc => (hnames c hc).2
      have hdrop : ∀ l, (name ++ l).dropWhile (· != 59) = l.dropWhile (· != 59) := fun l =>
        List.dropWhile_append_of_pos fun c hc => (hnames c hc).2
      rw [← weightsIn_dropWhile, ← hstart, weightsIn_eq, lastAllows, getLast_toList_append]
      cases hrest : start.dropWhile (fun c => c != 61 && c != 59) with
      | nil =>
          rw [hrest] at hsplit
          rw [← hsplit, htake, hdrop, List.takeWhile_nil, List.append_nil,
            weightOf_of_not_mem hequals]
          exact ih (Nat.zero_le _) allowed
      | cons c rest =>
          rw [hrest] at hsplit
          have hcut : name.length + (rest.length + 1) = start.length := by
            have hsum := congrArg List.length hsplit
            rwa [List.length_append, List.length_cons] at hsum
          dsimp only
          by_cases hc : c = 61
          · subst hc
            rw [if_neg (not_not.mpr rfl)]
            have hows : ∀ c, isOws c = true → (c != 59) = true := fun c hc => (ne_of_isOws hc).2.1
            have hboth : ∀ c, isOws c = true → (c != 61 && c != 59) = true := fun c hc =>
              Bool.and_eq_true_iff.mpr ⟨(ne_of_isOws hc).2.2, (ne_of_isOws hc).2.1⟩
            have hskipped : ∀ c, isOws c = true → (c == 59 || isOws c) = true := fun c hc =>
              Bool.or_eq_true_iff.mpr (Or.inr hc)
            have hstrip : strip isOws name = name.rdropWhile isOws := by
              have hkeep : name.dropWhile isOws = name := by
                rw [hname, ← takeWhile_dropWhile hboth, dropWhile_stopped hskipped]
              unfold strip
              rw [hkeep]
            rw [← hsplit, htake, hdrop, List.takeWhile_cons_of_pos (by decide),
              List.dropWhile_cons_of_pos (by decide), weightOf_append hequals,
              dropWhile_dropWhile hows, takeWhile_dropWhile hows, hstrip, ih]
            · unfold lastAllows
              congr 1
              split_ifs
              · rw [Option.map_some, Option.getD_some, qvalueIsZero_strip, qvalueIsZero_dropWhile]
              · rfl
            · have := (List.dropWhile_suffix (· != 59) (l := rest)).length_le
              omega
          · rw [if_pos hc]
            have hsemicolon : c = 59 := by
              have hstop := eq_false_of_dropWhile hrest
              rw [Bool.and_eq_false_iff, bne_eq_false_iff_eq, bne_eq_false_iff_eq] at hstop
              exact hstop.resolve_left hc
            subst hsemicolon
            have hne : name ≠ [] := by
              intro hempty
              rw [hempty] at hsplit
              have hstop := eq_false_of_dropWhile (hstart.symm.trans hsplit.symm)
              exact absurd hstop (by decide)
            have hpos := List.length_pos_of_ne_nil hne
            rw [← hsplit, htake, hdrop, List.takeWhile_cons_of_neg (by decide), List.append_nil,
              weightOf_of_not_mem hequals, ih]
            · rfl
            · rw [List.dropWhile_cons_of_neg (by decide), List.length_cons]
              omega

theorem acceptEncodingTokenAllowed_eq (params : Bytes) :
    acceptEncodingTokenAllowed params = lastAllows true (weightsIn params) :=
  tokenAllowedLoop_eq le_rfl true

/-! ### Elements -/

/-- The element that decides, and what it says. -/
def firstAllows (encoding value : Bytes) : Bool :=
  ((elements value).find? (names encoding)).any fun element => lastAllows true (weights element)

theorem firstAllows_nil {encoding : Bytes} (hne : encoding ≠ []) :
    firstAllows encoding [] = false := by
  show ([strip isOws []].find? (names encoding)).any _ = false
  rw [List.find?_cons_of_neg]
  · rfl
  · rw [show strip isOws [] = [] from rfl, names_nil hne]
    exact Bool.false_ne_true

/-- White space in front of the parameters does not count. -/
theorem weightsIn_dropWhile_isOws (params : Bytes) :
    weightsIn (params.dropWhile isOws) = weightsIn params := by
  rw [← weightsIn_dropWhile, dropWhile_dropWhile fun c hc => Bool.or_eq_true_iff.mpr (Or.inr hc),
    weightsIn_dropWhile]

/-- **The loop over the elements.** -/
theorem acceptsTokenLoop_eq {encoding : Bytes} (hne : encoding ≠ []) {fuel : ℕ} {p : Bytes}
    (h : p.length ≤ fuel) : acceptsTokenLoop encoding fuel p = firstAllows encoding p := by
  induction fuel generalizing p with
  | zero =>
      rw [List.eq_nil_of_length_eq_zero (Nat.le_zero.mp h), firstAllows_nil hne]
      rfl
  | succ fuel ih =>
      rw [acceptsTokenLoop]
      split_ifs with hnil
      · rw [hnil, firstAllows_nil hne]
      dsimp only
      have hnames : ∀ item : Bytes, streqCi (item.takeWhile fun c => c != 59 && !isOws c) encoding =
          names encoding item := by
        intro item
        rw [Bool.eq_iff_iff, streqCi_iff]
        exact decide_eq_true_iff.symm
      unfold firstAllows
      rw [← find_elements_dropWhile (names_nil hne), find_elements_eq (names_nil hne),
        strip_element, hnames, acceptEncodingTokenAllowed_eq, weightsIn_dropWhile_isOws]
      split_ifs with hfirst
      · rfl
      · exact ih (length_behind_element h)

theorem acceptsEncodingToken_eq {encoding : Bytes} (hne : encoding ≠ []) (value : Bytes) :
    acceptsEncodingToken value encoding = firstAllows encoding value := by
  unfold acceptsEncodingToken
  split_ifs with hnil
  · rw [hnil, ← acceptsTokenLoop_eq hne (le_refl (0 : ℕ))]
    rfl
  · exact acceptsTokenLoop_eq hne le_rfl

/-! ### What the parser keeps -/

/-- The value of an `Accept-Encoding` line. -/
def encodingOf (line : Bytes) : Option Bytes :=
  match splitFirst 58 line with
  | some (name, value) =>
      if streqCi name (ascii "Accept-Encoding") then some (trimBlanks value) else none
  | none => none

/-- The values of the `Accept-Encoding` lines of a head, in their order. -/
def sentEncodings (buf : Bytes) : List Bytes :=
  match splitHead buf with
  | some (ls, _) => ls.tail.filterMap encodingOf
  | none => []

/-- What is kept of values: the start of the last one. -/
def keptEncoding (values : List Bytes) : Bytes :=
  (values.getLast?.map (safeCopy encodingLen)).getD []

/-- The branch on the header name keeps an `Accept-Encoding` value, and no other one. -/
theorem acceptEncoding_of_apply {st st' : ParseState} {name value : Bytes}
    (h : applyHeader st name value = .ok st') :
    st'.req.acceptEncoding =
      if streqCi name (ascii "Accept-Encoding") then safeCopy encodingLen value
      else st.req.acceptEncoding := by
  unfold applyHeader at h
  by_cases hhost : streqCi name (ascii "Host") = true
  · rw [if_pos hhost] at h
    rw [if_neg (Bool.eq_false_iff.mp (streqCi_eq_false hhost (by decide)))]
    cases hp : parseHostValue value hostLen with
    | none =>
        rw [hp] at h
        dsimp only at h
        split_ifs at h
    | some host =>
        rw [hp] at h
        dsimp only at h
        split_ifs at h
        rw [← Except.ok.inj h]
  rw [if_neg hhost] at h
  by_cases hencoding : streqCi name (ascii "Accept-Encoding") = true
  · rw [if_pos hencoding] at h
    rw [if_pos hencoding, ← Except.ok.inj h]
  rw [if_neg hencoding] at h
  rw [if_neg hencoding]
  obtain ⟨present, suffix, hasEnd, start, stop, hrange⟩ := parseByteRange_frame value st.req
  cases hr : parseByteRange value st.req with
  | mk ok rangeReq =>
  rw [hr] at h hrange
  simp only at hrange
  subst hrange
  dsimp only at h
  iterate 2
    split at h
    · rw [← Except.ok.inj h]
  split at h
  · split at h
    · rw [← Except.ok.inj h]
    · cases h
  split at h
  · cases hl : parseContentLength value with
    | none =>
        rw [hl] at h
        cases h
    | some n =>
        rw [hl] at h
        dsimp only at h
        split at h
        · cases h
        · rw [← Except.ok.inj h]
  split at h
  · split at h
    · cases h
    · rw [← Except.ok.inj h]
  split at h
  · rw [← Except.ok.inj h]
    dsimp only
    split
    · rfl
    · split
      · rfl
      · rfl
  iterate 3
    split at h
    · rw [← Except.ok.inj h]
  rw [← Except.ok.inj h]

theorem acceptEncoding_of_line {st st' : ParseState} {line : Bytes}
    (h : parseHeaderLine st line = .ok st') :
    st'.req.acceptEncoding =
      ((encodingOf line).map (safeCopy encodingLen)).getD st.req.acceptEncoding := by
  by_cases hnil : line = []
  · rw [hnil, parseHeaderLine_nil] at h
    rw [hnil, ← Except.ok.inj h]
    rfl
  · obtain ⟨name, value, -, hsplit, -, happly⟩ := applyHeader_of_line hnil h
    rw [acceptEncoding_of_apply happly]
    unfold encodingOf
    rw [hsplit]
    dsimp only
    split_ifs
    · rfl
    · rfl

/-- The lines, one after the other. -/
theorem acceptEncoding_of_foldlM {ls : List Bytes} {st st' : ParseState}
    (h : ls.foldlM parseHeaderLine st = .ok st') :
    st'.req.acceptEncoding =
      ((ls.filterMap encodingOf).getLast?.map (safeCopy encodingLen)).getD
        st.req.acceptEncoding := by
  induction ls generalizing st with
  | nil => exact (Except.ok.inj h) ▸ rfl
  | cons l ls ih =>
      obtain ⟨mid, hl, hrest⟩ := exists_of_foldlM_cons h
      have hfirst : (l :: ls).filterMap encodingOf =
          (encodingOf l).toList ++ ls.filterMap encodingOf := by
        rw [List.filterMap_cons]
        cases encodingOf l with
        | none => rfl
        | some value => rfl
      rw [ih hrest, acceptEncoding_of_line hl, hfirst, getLast_toList_append]

/-- **What an accepted request has of the values that have been sent.** -/
theorem acceptEncoding_eq {buf : Bytes} {req : HttpRequest}
    (h : httpParseRequest buf = .accepted req) :
    req.acceptEncoding = keptEncoding (sentEncodings buf) := by
  obtain ⟨p⟩ := parsed_of_accepted h
  obtain ⟨-, -, -, hreq⟩ := finishRequest_eq_accepted p.finish_eq
  have hstart : (requestLineRequest p.rl).acceptEncoding = [] := by
    obtain ⟨method, target, parts⟩ := parseRequestLine_eq_ok p.line_eq
    obtain ⟨path, -, hline⟩ := parts.target_ok
    unfold requestLineRequest
    rw [hline]
  have hsent : sentEncodings buf = p.fieldLines.filterMap encodingOf := by
    unfold sentEncodings
    rw [p.splitHead_eq]
    rfl
  rw [hreq, hsent]
  have hloop := acceptEncoding_of_foldlM p.loop_eq
  rw [hstart] at hloop
  exact hloop

end Rpsiod

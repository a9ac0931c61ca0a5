import Rpsiod.Http.Parsed
import Rpsiod.Lib.FailingRuns

/-!
# What one header line does to the parser's locals

* `HeaderEffect`: the four kinds of header line, by what they change; `headerEffect_of_apply`
  is the inversion of the branch on the header name.
* `FieldLine`: what the parser has checked of a line it takes.
* `parseHeaderLine_eq_ok`: one round of the loop, taken apart.
* `Parsed.method_eq` and its companions: what the request line fixed, no header changes.
-/

namespace Rpsiod

open FailingRun ListSearch Crlf

/-! ### The branch on the header name -/

/-- What the request line fixes and no header line touches. -/
structure SameTarget (req req' : HttpRequest) : Prop where
  method : req'.method = req.method
  path : req'.path = req.path
  headerLen : req'.headerLen = req.headerLen
  absoluteForm : req'.absoluteForm = req.absoluteForm
  headOnly : req'.headOnly = req.headOnly

namespace SameTarget

@[refl] theorem refl (req : HttpRequest) : SameTarget req req := ⟨rfl, rfl, rfl, rfl, rfl⟩

theorem trans {a b c : HttpRequest} (hab : SameTarget a b) (hbc : SameTarget b c) :
    SameTarget a c :=
  ⟨hbc.method.trans hab.method, hbc.path.trans hab.path, hbc.headerLen.trans hab.headerLen,
    hbc.absoluteForm.trans hab.absoluteForm, hbc.headOnly.trans hab.headOnly⟩

end SameTarget

/-- What only Host, Content-Length and Transfer-Encoding change. -/
structure SameFraming (st st' : ParseState) : Prop where
  host : st'.req.host = st.req.host
  contentLength : st'.req.contentLength = st.req.contentLength
  haveHost : st'.haveHost = st.haveHost
  haveContentLength : st'.haveContentLength = st.haveContentLength
  seenContentLength : st'.seenContentLength = st.seenContentLength
  haveTransferEncoding : st'.haveTransferEncoding = st.haveTransferEncoding
  headerCount : st'.headerCount = st.headerCount

/-- The effect of a header with this name and trimmed value. -/
inductive HeaderEffect (st : ParseState) (name value : Bytes) : ParseState → Prop
  | host {host : Bytes} (isHost : streqCi name (ascii "Host") = true)
      (first : st.haveHost = false) (parsed : parseHostValue value hostLen = some host) :
      HeaderEffect st name value
        { st with req := { st.req with host := host }, haveHost := true }
  | contentLength {n : ℕ} (isLength : streqCi name (ascii "Content-Length") = true)
      (parsed : parseContentLength value = some n)
      (same : st.haveContentLength = true → n = st.seenContentLength) :
      HeaderEffect st name value
        { st with
          req := { st.req with contentLength := n }
          haveContentLength := true
          seenContentLength := n }
  | transferEncoding (isEncoding : streqCi name (ascii "Transfer-Encoding") = true) :
      HeaderEffect st name value { st with haveTransferEncoding := true }
  | other {st' : ParseState} (notHost : streqCi name (ascii "Host") = false)
      (notLength : streqCi name (ascii "Content-Length") = false)
      (notEncoding : streqCi name (ascii "Transfer-Encoding") = false)
      (target : SameTarget st.req st'.req) (framing : SameFraming st st') :
      HeaderEffect st name value st'

/-- A range header changes the range fields only. -/
theorem parseByteRange_frame (value : Bytes) (req : HttpRequest) :
    ∃ present suffix hasEnd start stop, (parseByteRange value req).2 =
      { req with
        rangePresent := present
        rangeSuffix := suffix
        rangeHasEnd := hasEnd
        rangeStart := start
        rangeEnd := stop } := by
  simp only [parseByteRange]
  split_ifs
  · exact ⟨_, _, _, _, _, rfl⟩
  · exact ⟨_, _, _, _, _, rfl⟩
  · cases splitFirst 45 (value.drop 6) with
    | none => exact ⟨_, _, _, _, _, rfl⟩
    | some pair =>
        obtain ⟨first, last⟩ := pair
        dsimp only
        split_ifs <;> exact ⟨_, _, _, _, _, rfl⟩

/-- A name has one meaning. -/
theorem streqCi_eq_false {name a b : Bytes} (h : streqCi name a = true)
    (hab : streqCi a b = false) : streqCi name b = false := by
  by_contra hb
  rw [Bool.not_eq_false] at hb
  rw [streqCi_trans (streqCi_comm name a ▸ h) hb] at hab
  exact Bool.noConfusion hab

/-- Inversion of the branch on the header name. -/
theorem headerEffect_of_apply {st st' : ParseState} {name value : Bytes}
    (h : applyHeader st name value = .ok st') : HeaderEffect st name value st' := by
  unfold applyHeader at h
  by_cases hhost : streqCi name (ascii "Host") = true
  · rw [if_pos hhost] at h
    split_ifs at h with hdup
    cases hp : parseHostValue value hostLen with
    | none => simp [hp] at h
    | some host =>
        simp only [hp, Except.ok.injEq] at h
        subst h
        exact .host hhost (Bool.eq_false_iff.mpr hdup) hp
  rw [if_neg hhost] at h
  by_cases hlen : streqCi name (ascii "Content-Length") = true
  · have hother : ∀ b : Bytes, streqCi (ascii "Content-Length") b = false →
        ¬ streqCi name b = true := fun b hb =>
      Bool.eq_false_iff.mp (streqCi_eq_false hlen hb)
    rw [if_neg (hother _ (by decide)), if_neg (hother _ (by decide)),
      if_neg (hother _ (by decide)), if_neg (hother _ (by decide)), if_pos hlen] at h
    cases hp : parseContentLength value with
    | none => simp [hp] at h
    | some n =>
        simp only [hp] at h
        split_ifs at h with hdiff
        rw [Except.ok.injEq] at h
        subst h
        refine .contentLength hlen hp fun hseen => ?_
        simpa [hseen] using hdiff
  by_cases hte : streqCi name (ascii "Transfer-Encoding") = true
  · have hother : ∀ b : Bytes, streqCi (ascii "Transfer-Encoding") b = false →
        ¬ streqCi name b = true := fun b hb =>
      Bool.eq_false_iff.mp (streqCi_eq_false hte hb)
    rw [if_neg (hother _ (by decide)), if_neg (hother _ (by decide)),
      if_neg (hother _ (by decide)), if_neg (hother _ (by decide)), if_neg hlen,
      if_pos hte] at h
    split_ifs at h
    rw [Except.ok.injEq] at h
    subst h
    exact .transferEncoding hte
  rw [Bool.not_eq_true] at hhost hlen hte
  rw [hlen, hte] at h
  obtain ⟨present, suffix, hasEnd, start, stop, hrange⟩ := parseByteRange_frame value st.req
  cases hr : parseByteRange value st.req with
  | mk ok rangeReq =>
  rw [hr] at h hrange
  simp only at hrange
  subst hrange
  simp only [Bool.false_eq_true, if_false] at h
  have key : SameTarget st.req st'.req ∧ SameFraming st st' := by
    split_ifs at h <;> rw [Except.ok.injEq] at h <;> subst h <;>
      exact ⟨⟨rfl, rfl, rfl, rfl, rfl⟩, rfl, rfl, rfl, rfl, rfl, rfl, rfl⟩
  exact .other hhost hlen hte key.1 key.2

/-- Every header line leaves method, path and head length alone. -/
theorem HeaderEffect.sameTarget {st st' : ParseState} {name value : Bytes}
    (h : HeaderEffect st name value st') : SameTarget st.req st'.req := by
  cases h with
  | host => exact ⟨rfl, rfl, rfl, rfl, rfl⟩
  | contentLength => exact ⟨rfl, rfl, rfl, rfl, rfl⟩
  | transferEncoding => exact .refl _
  | other _ _ _ target _ => exact target

/-! ### One round of the loop -/

/-- What the parser has checked of the line `name ":" value`. -/
structure FieldLine (line name value : Bytes) : Prop where
  line_eq : line = name ++ 58 :: value
  name_valid : validHeaderName name = true
  value_valid : validHeaderValue value = true
  line_lt : line.length < maxHeaderLine
  name_lt : name.length < 128

/-- One round of the loop on a line that is not empty, up to the branch on the header name. -/
theorem applyHeader_of_line {st st' : ParseState} {line : Bytes} (hline : line ≠ [])
    (h : parseHeaderLine st line = .ok st') :
    ∃ name value, FieldLine line name value ∧ splitFirst 58 line = some (name, value) ∧
      st.headerCount + 1 ≤ maxHeaderCount ∧
      applyHeader { st with headerCount := st.headerCount + 1 } name (trimBlanks value) =
        .ok st' := by
  unfold parseHeaderLine at h
  rw [if_neg hline] at h
  split_ifs at h with hlen
  cases hs : splitFirst 58 line with
  | none => simp [hs] at h
  | some pair =>
      obtain ⟨name, value⟩ := pair
      simp only [hs] at h
      split_ifs at h with _ hname hvalue hshort
      rw [Bool.not_eq_true', Bool.not_eq_false] at hname hvalue
      have htrim : copyTrimmedValue 1024 value = some (trimBlanks value) := by
        cases ht : copyTrimmedValue 1024 value with
        | none => simp [ht] at h
        | some v =>
            rw [copyTrimmedValue] at ht
            split_ifs at ht
            rw [ht]
      simp only [htrim] at h
      exact ⟨name, value, ⟨(splitFirst_eq_some_iff.mp hs).1, hname, hvalue, by omega, by omega⟩,
        rfl, by omega, h⟩

/-- One round of the loop on a line that is not empty. -/
theorem parseHeaderLine_eq_ok {st st' : ParseState} {line : Bytes} (hline : line ≠ [])
    (h : parseHeaderLine st line = .ok st') :
    ∃ name value, FieldLine line name value ∧ st.headerCount + 1 ≤ maxHeaderCount ∧
      HeaderEffect { st with headerCount := st.headerCount + 1 } name (trimBlanks value) st' := by
  obtain ⟨name, value, hfield, -, hcount, happly⟩ := applyHeader_of_line hline h
  exact ⟨name, value, hfield, hcount, headerEffect_of_apply happly⟩

/-! ### The request line -/

/-- What the parser has checked of a request line it takes. -/
structure RequestLineParts (line : Bytes) (req : HttpRequest) (rl : RequestLine)
    (method target : Bytes) : Prop where
  line_eq : line = method ++ 32 :: (target ++ 32 :: rl.version)
  method_space : 32 ∉ method
  target_space : 32 ∉ target
  version_space : 32 ∉ rl.version
  no_control : ∀ ch ∈ line, ¬ (ch < 32 || ch == 127) = true
  method_valid : validMethod method = true
  version_ok : streqCi rl.version (ascii "HTTP/1.0") = true ∨
    streqCi rl.version (ascii "HTTP/1.1") = true
  target_ok : ∃ path, parseRequestTarget target = some (path, rl.absoluteAuthority) ∧
    rl.req = { req with
      method := method
      path := path
      absoluteForm := rl.absoluteAuthority.isSome }

/-- Inversion of the request line parser. -/
theorem parseRequestLine_eq_ok {line : Bytes} {req : HttpRequest} {rl : RequestLine}
    (h : parseRequestLine line req = .ok rl) :
    ∃ method target, RequestLineParts line req rl method target := by
  unfold parseRequestLine at h
  split_ifs at h with hline hctl
  cases hm : splitFirst 32 line with
  | none => simp [hm] at h
  | some pair =>
      obtain ⟨method, rest⟩ := pair
      cases ht : splitFirst 32 rest with
      | none => simp [hm, ht] at h
      | some pair =>
          obtain ⟨target, version⟩ := pair
          simp only [hm, ht] at h
          split_ifs at h with hspace hsize hver
          cases hp : parseRequestTarget target with
          | none => simp [hp] at h
          | some pair =>
              obtain ⟨path, authority⟩ := pair
              simp only [hp, Except.ok.injEq] at h
              subst h
              obtain ⟨hrest, htarget⟩ := splitFirst_eq_some_iff.mp ht
              obtain ⟨hwhole, hmethod⟩ := splitFirst_eq_some_iff.mp hm
              refine ⟨method, target, ⟨by rw [hwhole, hrest], hmethod, htarget, hspace, ?_, ?_, ?_,
                path, hp, rfl⟩⟩
              · intro ch hch hbad
                exact hctl (List.any_eq_true.mpr ⟨ch, hch, hbad⟩)
              · simp only [Bool.or_eq_true, not_or, Bool.not_eq_true', Bool.not_eq_false] at hsize
                exact hsize.2
              · by_contra hboth
                simp only [not_or, Bool.not_eq_true] at hboth
                simp [hboth.1, hboth.2] at hver

/-! ### What the loop leaves alone -/

theorem sameTarget_of_foldlM {ls : List Bytes} {st st' : ParseState}
    (h : ls.foldlM parseHeaderLine st = .ok st') : SameTarget st.req st'.req := by
  refine foldlM_invariant (P := fun s => SameTarget st.req s.req) ?_ (.refl _) h
  intro l _ s s' hs hl
  refine hs.trans ?_
  by_cases hnil : l = []
  · rw [hnil, parseHeaderLine_nil] at hl
    exact (Except.ok.inj hl) ▸ .refl _
  · obtain ⟨_, _, _, _, heffect⟩ := parseHeaderLine_eq_ok hnil hl
    exact heffect.sameTarget

theorem sameTarget_of_finish {st : ParseState} {authority : Option Bytes} {req : HttpRequest}
    (h : finishRequest st authority = .accepted req) : SameTarget st.req req := by
  obtain ⟨-, -, -, rfl⟩ := finishRequest_eq_accepted h
  exact ⟨rfl, rfl, rfl, rfl, rfl⟩

namespace Parsed

variable {buf : Bytes} {req : HttpRequest}

/-- No header changes what the request line fixed. -/
theorem sameTarget (p : Parsed buf req) : SameTarget (requestLineRequest p.rl) req :=
  (sameTarget_of_foldlM p.loop_eq).trans (sameTarget_of_finish p.finish_eq)

/-- **The length of an accepted head**: everything up to and including the first blank line. -/
theorem headerLen_eq (p : Parsed buf req) : req.headerLen = p.stop + 4 := by
  obtain ⟨method, target, parts⟩ := parseRequestLine_eq_ok p.line_eq
  obtain ⟨path, _, hreq⟩ := parts.target_ok
  rw [p.sameTarget.headerLen]
  exact congrArg HttpRequest.headerLen hreq

/-- HEAD is recognised in any letter case. -/
theorem headOnly_eq (p : Parsed buf req) : req.headOnly = streqCi req.method (ascii "HEAD") := by
  rw [p.sameTarget.headOnly, p.sameTarget.method]
  rfl

end Parsed

end Rpsiod

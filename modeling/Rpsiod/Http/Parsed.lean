import Rpsiod.Http.Request

/-!
# What an accepted request head looks like to the parser

* `httpParseRequest_eq_incomplete_iff`: the parser asks for more bytes exactly while there is no
  CRLFCRLF.
* `httpParseRequest_append`: **a verdict is final** — bytes behind the head never change it.
* `parseHeaderLines_eq_foldlM`: with fuel for the block, the pointer loop runs its body on every
  CRLF-separated line of the block, in order.
* `Parsed buf req`: the intermediate results of an accepting run, with `parsed_of_accepted` to
  obtain them; `Parsed.head_eq` lays the head out as request line, header lines and blank line.
-/

namespace Rpsiod

open ListSearch Crlf

/-! ### The three verdicts -/

theorem finishRequest_ne_incomplete (st : ParseState) (a : Option Bytes) :
    finishRequest st a ≠ .incomplete := by
  unfold finishRequest
  split_ifs <;> exact ParseOutcome.noConfusion

/-- The parser asks for more bytes exactly while the head is not terminated. -/
theorem httpParseRequest_eq_incomplete_iff (buf : Bytes) :
    httpParseRequest buf = .incomplete ↔ indexOfSub crlfcrlf buf = none := by
  unfold httpParseRequest
  cases indexOfSub crlfcrlf buf with
  | none => simp
  | some stop =>
      simp only [reduceCtorEq, iff_false]
      split_ifs
      · simp
      · cases indexOfSub crlf buf with
        | none => simp
        | some firstLen =>
            simp only
            split_ifs
            · simp
            · cases parseRequestLine (buf.take firstLen) { headerLen := stop + 4 } with
              | error req => simp
              | ok rl =>
                  simp only
                  split
                  · simp
                  · exact finishRequest_ne_incomplete _ _

/-- A terminated head has a first CRLF, and it does not lie behind the terminator. -/
theorem exists_indexOfSub_crlf {buf : Bytes} {stop : ℕ}
    (h : indexOfSub crlfcrlf buf = some stop) :
    ∃ firstLen, indexOfSub crlf buf = some firstLen ∧ firstLen ≤ stop := by
  have hpre : crlf <+: buf.drop stop :=
    (List.prefix_append crlf crlf).trans (isFirst_of_indexOfSub h).1
  cases hc : indexOfSub crlf buf with
  | none => exact absurd hpre (indexOfSub_eq_none_iff.mp hc stop (indexOfSub_le_length h))
  | some firstLen =>
      refine ⟨firstLen, rfl, ?_⟩
      by_contra hlt
      exact (isFirst_of_indexOfSub hc).2 stop (by omega) hpre

/-- **A verdict is final**: once the head is terminated, further bytes change nothing. -/
theorem httpParseRequest_append {buf : Bytes} (h : httpParseRequest buf ≠ .incomplete)
    (e : Bytes) : httpParseRequest (buf ++ e) = httpParseRequest buf := by
  rw [Ne, httpParseRequest_eq_incomplete_iff] at h
  obtain ⟨stop, hstop⟩ := Option.ne_none_iff_exists'.mp h
  obtain ⟨firstLen, hfirst, hle⟩ := exists_indexOfSub_crlf hstop
  have hlen : stop + 4 ≤ buf.length := indexOfSub_add_length_le hstop
  unfold httpParseRequest
  rw [indexOfSub_append hstop, indexOfSub_append hfirst, hstop, hfirst]
  simp only
  rw [List.take_append_of_le_length hlen, List.take_append_of_le_length (by omega),
    List.take_append_of_le_length (by omega)]

/-- A request that a computation accepts and checks. -/
theorem exists_accepted {buf : Bytes} {check : HttpRequest → Bool}
    (h : (match httpParseRequest buf with
      | .accepted req => check req
      | _ => false) = true) :
    ∃ req, httpParseRequest buf = .accepted req ∧ check req = true := by
  cases hparse : httpParseRequest buf with
  | accepted req =>
      rw [hparse] at h
      exact ⟨req, rfl, h⟩
  | incomplete =>
      rw [hparse] at h
      exact nomatch h
  | malformed req =>
      rw [hparse] at h
      exact nomatch h

/-! ### The header loop visits every line -/

@[simp] theorem parseHeaderLine_nil (st : ParseState) : parseHeaderLine st [] = .ok st := by
  simp [parseHeaderLine, maxHeaderLine]

theorem parseHeaderLines_eq_foldlM {fuel : ℕ} {st : ParseState} {p : Bytes}
    (h : p.length ≤ fuel) :
    parseHeaderLines fuel st p = (lines p).foldlM parseHeaderLine st := by
  induction fuel generalizing st p with
  | zero =>
      have hp : p = [] := List.eq_nil_of_length_eq_zero (by omega)
      subst hp
      simp [parseHeaderLines]
  | succ fuel ih =>
      rw [parseHeaderLines]
      by_cases hp : p = []
      · subst hp
        simp
      · rw [if_neg hp]
        cases hs : indexOfSub crlf p with
        | none =>
            rw [lines_of_indexOfSub_none hs]
            simp
        | some next =>
            have hlen := indexOfSub_add_length_le hs
            rw [lines_of_indexOfSub_some hs, List.foldlM_cons]
            simp only
            cases parseHeaderLine st (p.take next) with
            | error req => rfl
            | ok st' =>
                have hdrop : (p.drop (next + 2)).length ≤ fuel := by
                  rw [List.length_drop]
                  simp only [List.length_cons, List.length_nil] at hlen
                  omega
                exact ih hdrop

/-! ### Inversion of an accepting run -/

/-- The intermediate results of a run of the parser that accepts `req`. -/
structure Parsed (buf : Bytes) (req : HttpRequest) where
  /-- Offset of the first CRLFCRLF. -/
  stop : ℕ
  /-- Length of the request line. -/
  firstLen : ℕ
  /-- Result of the request line. -/
  rl : RequestLine
  /-- Locals behind the header loop. -/
  st : ParseState
  stop_eq : indexOfSub crlfcrlf buf = some stop
  first_eq : indexOfSub crlf buf = some firstLen
  block_le : stop + 4 ≤ maxHeaderBlock
  newlines : validHeaderBlockNewlines (buf.take (stop + 4)) = true
  first_le : firstLen ≤ maxRequestLine
  line_eq : parseRequestLine (buf.take firstLen) { headerLen := stop + 4 } = .ok rl
  loop_eq : (lines ((buf.take stop).drop (firstLen + 2))).foldlM parseHeaderLine
    { req := requestLineRequest rl } = .ok st
  finish_eq : finishRequest st rl.absoluteAuthority = .accepted req

/-- Every accepting run has its intermediate results. -/
theorem parsed_of_accepted {buf : Bytes} {req : HttpRequest}
    (h : httpParseRequest buf = .accepted req) : Nonempty (Parsed buf req) := by
  unfold httpParseRequest at h
  cases hstop : indexOfSub crlfcrlf buf with
  | none => simp [hstop] at h
  | some stop =>
      simp only [hstop] at h
      split_ifs at h with hblock
      rw [Bool.or_eq_true, decide_eq_true_iff, not_or, not_lt, Bool.not_eq_true',
        Bool.not_eq_false] at hblock
      cases hfirst : indexOfSub crlf buf with
      | none => simp [hfirst] at h
      | some firstLen =>
          simp only [hfirst] at h
          split_ifs at h with hlong
          cases hline : parseRequestLine (buf.take firstLen) { headerLen := stop + 4 } with
          | error req' => simp [hline] at h
          | ok rl =>
              simp only [hline] at h
              rw [parseHeaderLines_eq_foldlM le_rfl] at h
              cases hloop : (lines ((buf.take stop).drop (firstLen + 2))).foldlM parseHeaderLine
                  { req := requestLineRequest rl } with
              | error req' => simp [hloop] at h
              | ok st =>
                  simp only [hloop] at h
                  exact ⟨⟨stop, firstLen, rl, st, hstop, hfirst, hblock.1, hblock.2,
                    not_lt.mp hlong, hline, hloop, h⟩⟩

/-! ### Layout of the head -/

/-- With CR and LF only in pairs, no line contains either. -/
theorem not_mem_of_validNewlines {b : Bytes} (h : validHeaderBlockNewlines b = true) :
    ∀ l ∈ lines b, 13 ∉ l ∧ 10 ∉ l := by
  induction b using validHeaderBlockNewlines.induct with
  | case1 => simp
  | case2 rest ih =>
      rw [validHeaderBlockNewlines] at h
      intro l hl
      rw [lines_crlf, List.mem_cons] at hl
      rcases hl with rfl | hl
      · simp
      · exact ih h l hl
  | case3 rest hne => simp [validHeaderBlockNewlines] at h
  | case4 rest => simp [validHeaderBlockNewlines] at h
  | case5 a rest h1 h2 h3 ih =>
      have ha13 : a ≠ 13 := h2
      have ha10 : a ≠ 10 := h3
      rw [validHeaderBlockNewlines] at h
      · have hp : ¬ crlf <+: a :: rest := by
          rintro ⟨t, ht⟩
          exact ha13 (by simpa using (List.cons.inj ht).1.symm)
        intro l hl
        rw [lines_cons hp] at hl
        have hrest := ih h
        cases hr : lines rest with
        | nil => exact absurd hr (lines_ne_nil rest)
        | cons s ss =>
            rw [hr, consHead, List.mem_cons] at hl
            rw [hr] at hrest
            rcases hl with rfl | hl
            · have := hrest s List.mem_cons_self
              simp [Ne.symm ha13, Ne.symm ha10, this.1, this.2]
            · exact hrest l (List.mem_cons_of_mem s hl)
      all_goals assumption

/-- What the checks behind the header loop let through. -/
theorem finishRequest_eq_accepted {st : ParseState} {authority : Option Bytes} {req : HttpRequest}
    (h : finishRequest st authority = .accepted req) :
    st.haveTransferEncoding = false ∧ st.haveHost = true ∧
      (st.req.absoluteForm = true →
        authorityMatchesHost (authority.getD []) st.req.host = true) ∧
      req = { st.req with upgradeWebsocket := st.connectionUpgrade && st.upgradeWebsocket } := by
  unfold finishRequest at h
  split_ifs at h with hboth hencoding hhost habsolute
  refine ⟨Bool.eq_false_iff.mpr hencoding, by simpa using hhost, fun hform => ?_,
    (ParseOutcome.accepted.inj h).symm⟩
  simpa [hform] using habsolute

namespace Parsed

variable {buf : Bytes} {req : HttpRequest}

/-- The request line. -/
def requestLine (p : Parsed buf req) : Bytes := buf.take p.firstLen

/-- The header lines, in order. -/
def fieldLines (p : Parsed buf req) : List Bytes :=
  lines ((buf.take p.stop).drop (p.firstLen + 2))

theorem stop_add_four_le (p : Parsed buf req) : p.stop + 4 ≤ buf.length :=
  indexOfSub_add_length_le p.stop_eq

theorem take_stop_append (p : Parsed buf req) :
    buf.take p.stop ++ crlfcrlf = buf.take (p.stop + 4) := by
  obtain ⟨t, ht⟩ := (isFirst_of_indexOfSub p.stop_eq).1
  rw [List.take_add, ← ht]
  simp

/-- The request line ends in front of the terminator: a request without header lines has no
Host field. -/
theorem firstLen_add_two_le (p : Parsed buf req) : p.firstLen + 2 ≤ p.stop := by
  obtain ⟨k, hk, hle⟩ := exists_indexOfSub_crlf p.stop_eq
  rw [p.first_eq, Option.some.injEq] at hk
  subst hk
  by_contra hlt
  have hblock : (buf.take p.stop).drop (p.firstLen + 2) = [] := by
    apply List.drop_eq_nil_of_le
    rw [List.length_take]
    omega
  have hloop := p.loop_eq
  rw [hblock, lines_nil, List.foldlM_cons, parseHeaderLine_nil] at hloop
  have hst : p.st = { req := requestLineRequest p.rl } := (Except.ok.inj hloop).symm
  have hhost := (finishRequest_eq_accepted p.finish_eq).2.1
  simp [hst] at hhost

/-- The lines in front of the blank line are the request line and the header lines. -/
theorem lines_take_stop (p : Parsed buf req) :
    lines (buf.take p.stop) = p.requestLine :: p.fieldLines := by
  have hle := p.firstLen_add_two_le
  have hfirst : indexOfSub crlf (buf.take p.stop) = some p.firstLen :=
    indexOfSub_take p.first_eq (by simpa using hle)
  rw [lines_of_indexOfSub_some hfirst, List.take_take, Nat.min_eq_left (by omega)]
  rfl

/-- The head as it is read: request line, header lines, and what follows the blank line. -/
theorem splitHead_eq (p : Parsed buf req) :
    splitHead buf = some (p.requestLine :: p.fieldLines, buf.drop (p.stop + 4)) := by
  rw [splitHead, p.stop_eq, Option.map_some, p.lines_take_stop]

/-- **Layout of the head**: every line with its CRLF, then the blank line. -/
theorem head_eq (p : Parsed buf req) :
    buf.take (p.stop + 4) = unlines (p.requestLine :: p.fieldLines) ++ crlf := by
  rw [← p.lines_take_stop, unlines_lines, ← p.take_stop_append, List.append_assoc]
  rfl

theorem not_mem_line (p : Parsed buf req) {l : Bytes} (h : l ∈ p.requestLine :: p.fieldLines) :
    13 ∉ l ∧ 10 ∉ l := by
  refine not_mem_of_validNewlines p.newlines l ?_
  rw [← p.take_stop_append, lines_append_append, List.mem_append, p.lines_take_stop]
  exact Or.inl h

theorem fieldLine_ne_nil (p : Parsed buf req) {l : Bytes} (h : l ∈ p.fieldLines) : l ≠ [] := by
  have hfirst : IsFirst crlfcrlf (buf.take p.stop ++ crlfcrlf) (buf.take p.stop).length := by
    have hle := p.stop_add_four_le
    rw [p.take_stop_append, List.length_take, Nat.min_eq_left (by omega)]
    exact isFirst_of_indexOfSub (indexOfSub_take p.stop_eq le_rfl)
  have htail := lines_tail_ne_nil hfirst
  rw [p.lines_take_stop, List.tail_cons] at htail
  exact htail l h

end Parsed

end Rpsiod

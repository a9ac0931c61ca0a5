import Rpsiod.Server.EventSites

/-!
# How the reads cut the stream

`reference` answers a stream as if it were all there: message by message, up to the first one that
is malformed, incomplete or the last of its connection.  A run reads the same stream in pieces.
The only trace the pieces leave is the check for a full buffer, which comes before the buffer is
looked at.

* `cutInv_round`: a round whose read does not fill the buffer behind a well-formed request keeps
  "answers so far, then the reference on the rest" equal to the reference on the stream.
* `answers_eq_reference_iff`: **a run ends with the answers of the reference exactly if no read
  does that**; so two such runs over one stream agree.
* `full_buffer_rejects`: one stream, two cuts, two sets of answers.
-/

namespace Rpsiod

open ListSearch Crlf

/-! ### The reference -/

/-- An answer as the client and the handlers see it. -/
inductive Answer where
  | served (req : HttpRequest) (body : Bytes)
  | rejected (status : ℕ)
  deriving DecidableEq

/-- The answer a call gives. -/
def Call.answer : Call → Answer
  | .serveRequest req body => .served req body
  | .sendText _ status _ _ => .rejected status
  | .sendErrorPage _ status _ => .rejected status

/-- The answers a connection has given. -/
def Conn.answers (c : Conn) : List Answer := c.calls.map Call.answer

theorem drop_message_lt {stream : Bytes} {req : HttpRequest}
    (h : httpParseRequest stream = .accepted req) :
    (stream.drop (req.headerLen + req.contentLength)).length < stream.length := by
  have hlen := headerLen_le_of_accepted h
  rw [List.length_drop]
  omega

/-- The answers to a stream that is all there; `k` requests were served before, and `count` of
them were counted by the connection. A stream without a header end that could not even fit the
buffer is refused like a malformed one. -/
def reference (cfg : Config) (client : Client) (serveResult : ℕ → HttpRequest → Bytes → ℤ)
    (k : ℕ) (count : UInt32) (stream : Bytes) : List Answer :=
  match _h : httpParseRequest stream with
  | .incomplete => if clientBuffer ≤ stream.length then [.rejected 400] else []
  | .malformed _ => [.rejected 400]
  | .accepted parsed =>
      if stream.length < parsed.headerLen + parsed.contentLength then []
      else
        let keep := shouldKeepAlive cfg count (siteOf cfg client parsed) parsed
        let req := { parsed with keepAlive := if keep then parsed.keepAlive else false }
        let body := (stream.drop parsed.headerLen).take parsed.contentLength
        .served req body ::
          if keep && serveResult k req body = 0 then
            reference cfg client serveResult (k + 1) (count + 1)
              (stream.drop (parsed.headerLen + parsed.contentLength))
          else []
termination_by stream.length
decreasing_by exact drop_message_lt _h

/-- Every request of the stream passes the server's own size checks. -/
def SizesOk (cfg : Config) (client : Client) (stream : Bytes) : Prop :=
  ∀ messages rest req, Framed stream messages rest → httpParseRequest rest = .accepted req →
    (∀ site, siteOf cfg client req = some site → req.contentLength ≤ site.maxBodySize) ∧
      req.contentLength ≤ clientBuffer - req.headerLen

/-- The stream cut into these reads, with interruptions anywhere between them. -/
def CutOf (stream : Bytes) (arrivals : List SockEvent) : Prop :=
  streamOf arrivals = stream ∧ NoEnd arrivals

/-- What the round does not meet: a read that fills the buffer to the last byte while a
well-formed request stands at its front. -/
def NoFullRequest (c : Conn) : Prop :=
  c.status = .running → bufferedRequestReady c.buf = false → c.read.2 = true →
    c.read.1.buf.length = clientBuffer → ∀ req, httpParseRequest c.read.1.buf ≠ .accepted req

/-! ### The front of a stream -/

/-- An accepted head lies in any prefix that is at least as long. -/
theorem httpParseRequest_of_prefix {front tail : Bytes} {req : HttpRequest}
    (h : httpParseRequest (front ++ tail) = .accepted req) (hlen : req.headerLen ≤ front.length) :
    httpParseRequest front = .accepted req := by
  obtain ⟨p⟩ := parsed_of_accepted h
  have hne : httpParseRequest front ≠ .incomplete := by
    rw [Ne, httpParseRequest_eq_incomplete_iff]
    intro hnone
    rw [p.headerLen_eq] at hlen
    have htake := indexOfSub_take p.stop_eq hlen
    rw [List.take_left] at htake
    rw [hnone] at htake
    exact nomatch htake
  rw [← httpParseRequest_append hne tail, h]

/-- A head of more than a buffer is refused, whatever follows. -/
theorem reference_of_long {cfg : Config} {client : Client}
    {serveResult : ℕ → HttpRequest → Bytes → ℤ} {k : ℕ} {count : UInt32} {front tail : Bytes}
    (hlen : front.length = clientBuffer)
    (h : ∀ req, httpParseRequest front ≠ .accepted req) :
    reference cfg client serveResult k count (front ++ tail) = [.rejected 400] := by
  rw [reference]
  split
  · rw [if_pos (by rw [List.length_append]; omega)]
  · rfl
  · next parsed hp =>
    obtain ⟨p⟩ := parsed_of_accepted hp
    have hblock := p.block_le
    unfold maxHeaderBlock at hblock
    have hfront := httpParseRequest_of_prefix hp (by
      rw [p.headerLen_eq, hlen]
      unfold clientBuffer
      omega)
    exact absurd hfront (h parsed)

/-! ### The verdict on a part of the stream -/

variable {cfg : Config} {client : Client} {serveResult : ℕ → HttpRequest → Bytes → ℤ}

/-- The three things a round does about requests that pass the size checks, and what the
reference says about the stream that starts with the buffer. -/
inductive VerdictCases (cfg : Config) (client : Client)
    (serveResult : ℕ → HttpRequest → Bytes → ℤ) (count : UInt32) (buf tail : Bytes) :
    Verdict → Prop
  | more (ready : bufferedRequestReady buf = false) :
      VerdictCases cfg client serveResult count buf tail .more
  | badRequest (req : HttpRequest)
      (answers : ∀ k, reference cfg client serveResult k count (buf ++ tail) = [.rejected 400]) :
      VerdictCases cfg client serveResult count buf tail (.badRequest req)
  | serve (req : HttpRequest) (body : Bytes) (keep : Bool)
      (consumed : 4 ≤ req.headerLen ∧ req.headerLen + req.contentLength ≤ buf.length)
      (answers : ∀ k, reference cfg client serveResult k count (buf ++ tail) =
        .served req body ::
          if keep && serveResult k req body = 0 then
            reference cfg client serveResult (k + 1) (count + 1)
              (buf.drop (req.headerLen + req.contentLength) ++ tail)
          else []) :
      VerdictCases cfg client serveResult count buf tail (.serve req body keep)

theorem examine_cases (serveResult : ℕ → HttpRequest → Bytes → ℤ) (count : UInt32) {buf : Bytes}
    (tail : Bytes)
    (sizes : ∀ req, httpParseRequest buf = .accepted req →
      (∀ site, siteOf cfg client req = some site → req.contentLength ≤ site.maxBodySize) ∧
        req.contentLength ≤ clientBuffer - req.headerLen) :
    VerdictCases cfg client serveResult count buf tail (examine cfg client count buf) := by
  cases hp : httpParseRequest buf with
  | incomplete =>
      have hv : examine cfg client count buf = .more := by
        unfold examine
        rw [hp]
      rw [hv]
      refine .more ?_
      unfold bufferedRequestReady
      rw [hp]
      split_ifs <;> rfl
  | malformed req =>
      have hv : ∃ req', examine cfg client count buf = .badRequest req' := by
        unfold examine
        rw [hp]
        exact ⟨_, rfl⟩
      obtain ⟨req', hv⟩ := hv
      rw [hv]
      refine .badRequest req' fun k => ?_
      have happ := httpParseRequest_append (by rw [hp]; exact nofun) tail
      rw [hp] at happ
      rw [reference]
      split
      · next h => rw [happ] at h; exact nomatch h
      · rfl
      · next h => rw [happ] at h; exact nomatch h
  | accepted parsed =>
      obtain ⟨hmax, hfit⟩ := sizes parsed hp
      obtain ⟨hfour, hle⟩ := headerLen_le_of_accepted hp
      have happ := httpParseRequest_append (by rw [hp]; exact nofun) tail
      rw [hp] at happ
      have hsmall : ((siteOf cfg client parsed).any
          fun s => s.maxBodySize < parsed.contentLength) = false := by
        cases hs : siteOf cfg client parsed with
        | none => rfl
        | some site => simpa using hmax site hs
      unfold siteOf at hsmall
      unfold examine
      simp only [hp, hsmall, Bool.false_eq_true, if_false]
      by_cases hbody : buf.length < parsed.headerLen + parsed.contentLength
      · rw [if_pos (by rw [Bool.and_eq_true, decide_eq_true_iff, decide_eq_true_iff]; omega),
          if_neg (by omega)]
        refine .more ?_
        unfold bufferedRequestReady
        rw [if_neg (by rintro rfl; simp at hle; omega), hp]
        simp only [decide_eq_false_iff_not]
        omega
      · rw [if_neg (by rw [Bool.and_eq_true, decide_eq_true_iff, decide_eq_true_iff]; omega)]
        refine .serve _ _ _ ⟨hfour, by simpa using hbody⟩ fun k => ?_
        rw [reference]
        split
        · next h => rw [happ] at h; exact nomatch h
        · next h => rw [happ] at h; exact nomatch h
        · next parsed' h =>
          rw [happ, ParseOutcome.accepted.injEq] at h
          subst h
          rw [if_neg (by rw [List.length_append]; omega)]
          have htake : ((buf ++ tail).drop parsed.headerLen).take parsed.contentLength =
              (buf.drop parsed.headerLen).take parsed.contentLength := by
            rw [List.drop_append_of_le_length hle,
              List.take_append_of_le_length (by rw [List.length_drop]; omega)]
          simp only [htake, List.drop_append_of_le_length (not_lt.mp hbody)]
          rfl

/-! ### One round -/

/-- The connection as the reads see it: every handler result is given, and the socket can be
reused. -/
def cutEnv (serveResult : ℕ → HttpRequest → Bytes → ℤ) : Env := ⟨serveResult, fun _ => true⟩

/-- What the reference says about the part of the stream that is still to be answered. -/
def remaining (cfg : Config) (client : Client) (serveResult : ℕ → HttpRequest → Bytes → ℤ)
    (c : Conn) : List Answer :=
  if c.status = .running then
    reference cfg client serveResult c.served c.keepAliveRequests (c.buf ++ streamOf c.arrivals)
  else []

/-- The answers so far are those of the reference, and the rest of the stream will bring the
others. -/
structure CutInv (cfg : Config) (client : Client) (serveResult : ℕ → HttpRequest → Bytes → ℤ)
    (stream : Bytes) (c : Conn) : Prop where
  framing : FramingInv stream c
  noEnd : NoEnd c.arrivals
  answers : c.answers ++ remaining cfg client serveResult c =
    reference cfg client serveResult 0 0 stream

/-- The size checks hold for the request at the front of the buffer. -/
theorem sizes_of_loaded {stream : Bytes} {c c₁ : Conn} (sizes : SizesOk cfg client stream)
    (hframing : FramingInv stream c) (load : Loaded c c₁) {req : HttpRequest}
    (h : httpParseRequest c₁.buf = .accepted req) :
    (∀ site, siteOf cfg client req = some site → req.contentLength ≤ site.maxBodySize) ∧
      req.contentLength ≤ clientBuffer - req.headerLen := by
  obtain ⟨rest, hframed, hopen⟩ := hframing
  have hrest := (hopen load.running).2.trans load.stream.symm
  refine sizes _ rest req hframed ?_
  rw [hrest, httpParseRequest_append (by rw [h]; exact nofun), h]

theorem remaining_of_loaded {c c₁ : Conn} (load : Loaded c c₁) :
    remaining cfg client serveResult c = reference cfg client serveResult c₁.served
      c₁.keepAliveRequests (c₁.buf ++ streamOf c₁.arrivals) := by
  unfold remaining
  rw [if_pos load.running, load.served, load.count, load.stream]

/-- **One round** keeps the answers those of the reference. -/
theorem cutInv_round {stream : Bytes} {c : Conn} (sizes : SizesOk cfg client stream)
    (inv : CutInv cfg client serveResult stream c) (hfull : NoFullRequest c) :
    CutInv cfg client serveResult stream (c.round cfg client (cutEnv serveResult)) := by
  have hframing := framingInv_round cfg client (cutEnv serveResult) inv.framing
  have hanswers := inv.answers
  have hround := round_cases cfg client (cutEnv serveResult) c
  generalize c.round cfg client (cutEnv serveResult) = c' at hround hframing
  cases hround with
  | idle _ buf calls served count _ _ hstream noEnd =>
      obtain ⟨hend, hstatus⟩ := noEnd inv.noEnd
      refine ⟨hframing, hend, ?_⟩
      rw [← hanswers]
      unfold Conn.answers remaining
      rw [calls, buf, served, count, hstatus]
      by_cases hrun : c.status = .running
      · rw [hstream (hstatus.trans hrun)]
      · rw [if_neg hrun, if_neg hrun]
  | @full c₁ _ read load ready length =>
      refine ⟨hframing, load.noEnd inv.noEnd, ?_⟩
      have hno : ∀ req, httpParseRequest c₁.buf ≠ .accepted req := by
        have := hfull load.running ready
        rw [read] at this
        exact this rfl length
      rw [← hanswers, remaining_of_loaded load, reference_of_long length hno]
      unfold Conn.answers
      rw [← load.calls]
      show (c₁.calls ++ [_]).map Call.answer ++ [] = _
      rw [List.map_append, List.append_nil]
      rfl
  | @examined c₁ load _ length =>
      rw [remaining_of_loaded load] at hanswers
      unfold Conn.answers at hanswers
      rw [← load.calls] at hanswers
      have hverdict := examine_cases serveResult c₁.keepAliveRequests (streamOf c₁.arrivals)
        fun req h => sizes_of_loaded sizes inv.framing load h
      generalize examine cfg client c₁.keepAliveRequests c₁.buf = v at hverdict hframing
      cases hverdict with
      | more _ =>
          refine ⟨hframing, load.noEnd inv.noEnd, ?_⟩
          show c₁.answers ++ remaining cfg client serveResult c₁ = _
          unfold Conn.answers remaining
          rw [if_pos load.status, hanswers]
      | badRequest req answers =>
          refine ⟨hframing, load.noEnd inv.noEnd, ?_⟩
          rw [← hanswers, answers]
          show (c₁.calls ++ [_]).map Call.answer ++ [] = _
          rw [List.map_append, List.append_nil]
          rfl
      | serve req body keep consumed answers =>
          have hcalls : (c₁.serve (cutEnv serveResult) req body keep).answers =
              c₁.calls.map Call.answer ++ [.served req body] := by
            unfold Conn.answers
            rw [serve_calls, List.map_append]
            rfl
          rw [answers] at hanswers
          by_cases hkeep : keep = true ∧ serveResult c₁.served req body = 0
          · have hstate := serve_of_keep (cutEnv serveResult) hkeep rfl
            refine ⟨hframing, ?_, ?_⟩
            · show NoEnd (c₁.serve (cutEnv serveResult) req body keep).arrivals
              rw [hstate]
              exact load.noEnd inv.noEnd
            · show (c₁.serve (cutEnv serveResult) req body keep).answers ++
                remaining cfg client serveResult (c₁.serve (cutEnv serveResult) req body keep) = _
              rw [hcalls, ← hanswers, if_pos (by simpa using hkeep), hstate]
              unfold remaining
              rw [if_pos load.status]
              simp
          · have hstate := serve_of_not_keep (cutEnv serveResult) hkeep
            refine ⟨hframing, ?_, ?_⟩
            · show NoEnd (c₁.serve (cutEnv serveResult) req body keep).arrivals
              rw [hstate]
              exact load.noEnd inv.noEnd
            · show (c₁.serve (cutEnv serveResult) req body keep).answers ++
                remaining cfg client serveResult (c₁.serve (cutEnv serveResult) req body keep) = _
              rw [hcalls, ← hanswers, if_neg (by simpa using hkeep), hstate]
              unfold remaining
              rw [if_neg Status.noConfusion]
              simp

/-! ### The end of a run -/

/-- What a running connection still has to do. -/
def Conn.pending (c : Conn) : ℕ :=
  c.buf.length + 2 * (streamOf c.arrivals).length + c.arrivals.length

/-- A round that is not the last one makes progress, or ends the connection. -/
theorem pending_lt {stream : Bytes} {c : Conn} (sizes : SizesOk cfg client stream)
    (hframing : FramingInv stream c) (hopen : ¬ c.Settled)
    (hrun : (c.round cfg client (cutEnv serveResult)).status = .running) :
    (c.round cfg client (cutEnv serveResult)).pending < c.pending := by
  have hround := round_cases cfg client (cutEnv serveResult) c
  generalize c.round cfg client (cutEnv serveResult) = c' at hround hrun
  unfold Conn.pending
  cases hround with
  | idle _ buf _ _ _ _ _ hstream _ progress =>
      have hless := progress.resolve_left hopen
      rw [buf, hstream hrun]
      omega
  | full => exact nomatch hrun
  | @examined c₁ load _ length =>
      have hbytes := congrArg List.length load.stream
      rw [List.length_append, List.length_append] at hbytes
      have harr := load.arrivals
      have hgrow := load.grow
      have hlt : c.buf.length < clientBuffer := by
        obtain ⟨_, _, hroom⟩ := hframing
        exact (hroom load.running).1
      have hverdict := examine_cases serveResult c₁.keepAliveRequests (streamOf c₁.arrivals)
        fun req h => sizes_of_loaded sizes hframing load h
      generalize examine cfg client c₁.keepAliveRequests c₁.buf = v at hverdict hrun
      cases hverdict with
      | more hready =>
          show c₁.buf.length + 2 * (streamOf c₁.arrivals).length + c₁.arrivals.length < _
          rcases load.progress with hstill | hgrow
          · rw [hready] at hstill
            exact Bool.noConfusion hstill
          · have := hgrow hlt
            omega
      | badRequest => exact nomatch hrun
      | serve req body keep consumed _ =>
          have hstate := (serve_running hrun).2
          show (c₁.serve (cutEnv serveResult) req body keep).buf.length +
            2 * (streamOf (c₁.serve (cutEnv serveResult) req body keep).arrivals).length +
            (c₁.serve (cutEnv serveResult) req body keep).arrivals.length < _
          rw [hstate]
          have hdrop : (c₁.buf.drop (req.headerLen + req.contentLength)).length + 4 ≤
              c₁.buf.length := by
            rw [List.length_drop]
            omega
          simp only
          omega

/-- A settled connection stays as it is. -/
theorem round_of_settled {env : Env} {c : Conn} (h : c.Settled) : c.round cfg client env = c := by
  unfold Conn.round
  by_cases hrun : c.status = .running
  · obtain ⟨hready, harr⟩ := h.resolve_left (not_not.mpr hrun)
    rw [if_neg (not_not.mpr hrun), hready]
    simp [Conn.read, harr]
  · rw [if_pos hrun]

/-- Every run settles. -/
theorem exists_settled (serveResult : ℕ → HttpRequest → Bytes → ℤ) {stream : Bytes}
    (sizes : SizesOk cfg client stream) (c : Conn)
    (hframing : FramingInv stream c) :
    ∃ n, (Conn.rounds cfg client (cutEnv serveResult) n c).Settled := by
  induction hp : c.pending using Nat.strongRecOn generalizing c with
  | _ p ih =>
      by_cases hsettled : c.Settled
      · exact ⟨0, hsettled⟩
      by_cases hrun : (c.round cfg client (cutEnv serveResult)).status = .running
      · have hless := pending_lt sizes hframing hsettled hrun
        obtain ⟨n, hn⟩ := ih _ (hp ▸ hless) (c.round cfg client (cutEnv serveResult))
          (framingInv_round cfg client (cutEnv serveResult) hframing) rfl
        exact ⟨n + 1, hn⟩
      · exact ⟨1, Or.inl hrun⟩

/-- From where it settles a run changes no more. -/
theorem rounds_of_settled {env : Env} {c : Conn} {n m : ℕ}
    (h : (Conn.rounds cfg client env n c).Settled) (hm : n ≤ m) :
    Conn.rounds cfg client env m c = Conn.rounds cfg client env n c := by
  induction m, hm using Nat.le_induction with
  | base => rfl
  | succ m _ ih => rw [rounds_succ, ih, round_of_settled h]

/-- A settled connection has given every answer. -/
theorem answers_of_settled {stream : Bytes} {c : Conn}
    (inv : CutInv cfg client serveResult stream c) (h : c.Settled) :
    c.answers = reference cfg client serveResult 0 0 stream := by
  rw [← inv.answers]
  unfold remaining
  by_cases hrun : c.status = .running
  · obtain ⟨hready, harr⟩ := h.resolve_left (not_not.mpr hrun)
    obtain ⟨_, _, hopen⟩ := inv.framing
    have hlt := (hopen hrun).1
    have hnone : reference cfg client serveResult c.served c.keepAliveRequests
        (c.buf ++ streamOf c.arrivals) = [] := by
      rw [harr, streamOf_nil, List.append_nil]
      unfold bufferedRequestReady at hready
      rw [reference]
      split
      · rw [if_neg (by omega)]
      · next hp =>
        split_ifs at hready with hnil
        · rw [hnil] at hp
          rw [show httpParseRequest [] = .incomplete by decide] at hp
          exact nomatch hp
        · rw [hp] at hready
          exact Bool.noConfusion hready
      · next parsed hp =>
        have hle := (headerLen_le_of_accepted hp).2
        split_ifs at hready with hnil
        · rw [hnil] at hp
          rw [show httpParseRequest [] = .incomplete by decide] at hp
          exact nomatch hp
        · rw [hp] at hready
          simp only [decide_eq_false_iff_not] at hready
          rw [if_pos (by omega)]
    rw [hnone, if_pos hrun, List.append_nil]
  · rw [if_neg hrun, List.append_nil]

/-! ### Every run -/

/-- The state of a connection to which the stream comes in these reads. -/
def cutRun (cfg : Config) (client : Client) (serveResult : ℕ → HttpRequest → Bytes → ℤ)
    (arrivals : List SockEvent) (n : ℕ) : Conn :=
  Conn.rounds cfg client (cutEnv serveResult) n (.accepted arrivals)

/-- No read of this run fills the buffer behind a well-formed request. -/
def NeverFull (cfg : Config) (client : Client) (serveResult : ℕ → HttpRequest → Bytes → ℤ)
    (arrivals : List SockEvent) : Prop :=
  ∀ n, NoFullRequest (cutRun cfg client serveResult arrivals n)

/-- In every state the answers are the first ones of the reference, and in the end all of them. -/
def AnswersLikeReference (cfg : Config) (client : Client)
    (serveResult : ℕ → HttpRequest → Bytes → ℤ) (stream : Bytes) (arrivals : List SockEvent) :
    Prop :=
  (∀ n, (cutRun cfg client serveResult arrivals n).answers <+:
    reference cfg client serveResult 0 0 stream) ∧
  ∃ n₀, ∀ n ≥ n₀, (cutRun cfg client serveResult arrivals n).answers =
    reference cfg client serveResult 0 0 stream

theorem cutInv_run {stream : Bytes} {arrivals : List SockEvent} (hcut : CutOf stream arrivals)
    (sizes : SizesOk cfg client stream) {n : ℕ}
    (h : ∀ k < n, NoFullRequest (cutRun cfg client serveResult arrivals k)) :
    CutInv cfg client serveResult stream (cutRun cfg client serveResult arrivals n) := by
  induction n with
  | zero =>
      have hframing := framingInv_rounds cfg client (cutEnv serveResult) arrivals 0
      rw [hcut.1] at hframing
      refine ⟨hframing, hcut.2, ?_⟩
      have hstart : remaining cfg client serveResult (.accepted arrivals) =
          reference cfg client serveResult 0 0 stream := by
        rw [← hcut.1]
        exact if_pos rfl
      exact hstart
  | succ n ih =>
      unfold cutRun
      rw [rounds_succ]
      exact cutInv_round sizes (ih fun k hk => h k (Nat.lt_succ_of_lt hk)) (h n (Nat.lt_succ_self n))

/-- A read that fills the buffer behind a well-formed request: the answer is 400, and the
connection is closed. -/
theorem round_of_full (cfg : Config) (client : Client) (env : Env) {c : Conn}
    (h : ¬ NoFullRequest c) :
    (c.round cfg client env).answers = c.answers ++ [.rejected 400] ∧
      (c.round cfg client env).status = .closed := by
  unfold NoFullRequest at h
  push Not at h
  obtain ⟨hrun, hready, hgot, hfull, -⟩ := h
  have hround : c.round cfg client env = c.read.1.reject fullBufferRequest := by
    unfold Conn.round
    rw [if_neg (not_not.mpr hrun), hready]
    simp [hgot, hfull]
  rw [hround]
  refine ⟨?_, rfl⟩
  unfold Conn.answers Conn.reject
  simp only [(loaded_of_got hrun hgot).calls, List.map_append]
  rfl

/-- There the reference serves the request, so the run has left it for good. -/
theorem not_prefix_of_full {stream : Bytes} {c : Conn} (env : Env)
    (sizes : SizesOk cfg client stream) (inv : CutInv cfg client serveResult stream c)
    (h : ¬ NoFullRequest c) :
    ¬ (c.round cfg client env).answers <+: reference cfg client serveResult 0 0 stream := by
  rw [(round_of_full cfg client env h).1]
  unfold NoFullRequest at h
  push Not at h
  obtain ⟨hrun, -, hgot, hfull, req, hreq⟩ := h
  have load := loaded_of_got hrun hgot
  have hfit := (sizes_of_loaded sizes inv.framing load hreq).2
  have hle := (headerLen_le_of_accepted hreq).2
  obtain ⟨served, body, more, hserved⟩ : ∃ served body more,
      remaining cfg client serveResult c = .served served body :: more := by
    rw [remaining_of_loaded load, reference]
    have happ := httpParseRequest_append (by rw [hreq]; exact nofun) (streamOf c.read.1.arrivals)
    rw [hreq] at happ
    split
    · next hp => rw [happ] at hp; exact nomatch hp
    · next hp => rw [happ] at hp; exact nomatch hp
    · next parsed hp =>
      rw [happ, ParseOutcome.accepted.injEq] at hp
      subst hp
      rw [if_neg (by rw [List.length_append]; omega)]
      exact ⟨_, _, _, rfl⟩
  intro hpre
  rw [← inv.answers, hserved, List.prefix_append_right_inj, List.cons_prefix_cons] at hpre
  exact Answer.noConfusion hpre.1

/-- **The cuts that do no harm**: a run gives the answers of the reference, whatever the reads,
exactly if no read fills the buffer behind a well-formed request. -/
theorem answersLikeReference_iff {stream : Bytes} {arrivals : List SockEvent}
    (hcut : CutOf stream arrivals) (sizes : SizesOk cfg client stream) :
    AnswersLikeReference cfg client serveResult stream arrivals ↔
      NeverFull cfg client serveResult arrivals := by
  constructor
  · intro hlike
    by_contra hfull
    unfold NeverFull at hfull
    push Not at hfull
    classical
    have hbefore : ∀ k < Nat.find hfull, NoFullRequest (cutRun cfg client serveResult arrivals k) :=
      fun k hk => not_not.mp (Nat.find_min hfull hk)
    apply not_prefix_of_full (cutEnv serveResult) sizes (cutInv_run hcut sizes hbefore)
      (Nat.find_spec hfull)
    have hpre := hlike.1 (Nat.find hfull + 1)
    unfold cutRun at hpre
    rw [rounds_succ] at hpre
    exact hpre
  · intro hnever
    refine ⟨fun n => ?_, ?_⟩
    · exact ⟨_, (cutInv_run hcut sizes fun k _ => hnever k).answers⟩
    · have hstart : CutInv cfg client serveResult stream (cutRun cfg client serveResult arrivals 0) :=
        cutInv_run hcut sizes fun k hk => absurd hk (Nat.not_lt_zero k)
      obtain ⟨n₀, hsettled⟩ := exists_settled serveResult sizes (.accepted arrivals) hstart.framing
      refine ⟨n₀, fun n hn => ?_⟩
      unfold cutRun
      rw [rounds_of_settled hsettled hn]
      exact answers_of_settled (cutInv_run hcut sizes fun k _ => hnever k) hsettled

/-- **Two cuts of one stream**: each gives the answers of the reference exactly if none of its
reads fills the buffer behind a well-formed request, and then both end with the same answers. -/
theorem cuts_agree_iff_never_full (cfg : Config) (client : Client)
    (serveResult : ℕ → HttpRequest → Bytes → ℤ) {stream : Bytes} {first second : List SockEvent}
    (hfirst : CutOf stream first) (hsecond : CutOf stream second)
    (sizes : SizesOk cfg client stream) :
    (AnswersLikeReference cfg client serveResult stream first ↔
      NeverFull cfg client serveResult first) ∧
    (AnswersLikeReference cfg client serveResult stream second ↔
      NeverFull cfg client serveResult second) ∧
    (NeverFull cfg client serveResult first → NeverFull cfg client serveResult second →
      ∃ n₀, ∀ n ≥ n₀, (cutRun cfg client serveResult first n).answers =
        (cutRun cfg client serveResult second n).answers) := by
  have hone := @answersLikeReference_iff _ _ serveResult _ _ hfirst sizes
  have htwo := @answersLikeReference_iff _ _ serveResult _ _ hsecond sizes
  refine ⟨hone, htwo, fun hnever₁ hnever₂ => ?_⟩
  obtain ⟨n₁, h₁⟩ := (hone.mpr hnever₁).2
  obtain ⟨n₂, h₂⟩ := (htwo.mpr hnever₂).2
  refine ⟨max n₁ n₂, fun n hn => ?_⟩
  rw [h₁ n (le_trans (le_max_left _ _) hn), h₂ n (le_trans (le_max_right _ _) hn)]

/-! ### One stream, two cuts -/

/-- A request without a body. -/
def shortRequest : Bytes := ascii "GET / HTTP/1.1\x0d\nHost: a\x0d\n\x0d\n"

/-- The head of a request with a body of 32690 bytes. -/
def longHead : Bytes := ascii "POST / HTTP/1.1\x0d\nHost: a\x0d\nContent-Length: 32690\x0d\n\x0d\n"

/-- That request. -/
def longRequest : Bytes := longHead ++ List.replicate 32690 120

theorem parse_shortRequest :
    httpParseRequest shortRequest = .accepted
      { method := ascii "GET"
        path := ascii "/"
        host := ascii "a"
        headerLen := 27
        keepAlive := true } := by decide

theorem parse_longRequest :
    httpParseRequest longRequest = .accepted
      { method := ascii "POST"
        path := ascii "/"
        host := ascii "a"
        headerLen := 51
        contentLength := 32690
        keepAlive := true } := by
  have hhead : httpParseRequest longHead = .accepted
      { method := ascii "POST"
        path := ascii "/"
        host := ascii "a"
        headerLen := 51
        contentLength := 32690
        keepAlive := true } := by decide
  unfold longRequest
  rw [httpParseRequest_append (by rw [hhead]; exact nofun), hhead]

/-- The size checks of a stream of one message and what follows it. -/
theorem sizesOk_message {stream : Bytes} {req : HttpRequest}
    (h : httpParseRequest stream = .accepted req)
    (hsite : ∀ site, siteOf cfg client req = some site → req.contentLength ≤ site.maxBodySize)
    (hfit : req.contentLength ≤ clientBuffer - req.headerLen)
    (hrest : SizesOk cfg client (stream.drop (req.headerLen + req.contentLength))) :
    SizesOk cfg client stream := by
  intro messages rest req' hframed hreq'
  cases hframed with
  | done =>
      rw [h, ParseOutcome.accepted.injEq] at hreq'
      subst hreq'
      exact ⟨hsite, hfit⟩
  | message keep head complete tail =>
      rw [h, ParseOutcome.accepted.injEq] at head
      subst head
      exact hrest _ _ _ tail hreq'

theorem sizesOk_nil : SizesOk cfg client [] := by
  intro messages rest req hframed hreq
  have hnil : httpParseRequest [] = .incomplete := by decide
  cases hframed with
  | done =>
      rw [hnil] at hreq
      exact nomatch hreq
  | message keep head =>
      rw [hnil] at head
      exact nomatch head

theorem shortRequest_ne_nil : shortRequest ≠ [] := by decide

theorem longRequest_ne_nil : longRequest ≠ [] :=
  List.append_ne_nil_of_left_ne_nil (by decide) _

theorem length_shortRequest : shortRequest.length = 27 := by decide

theorem length_longRequest : longRequest.length = 32741 := by
  unfold longRequest
  rw [List.length_append, List.length_replicate]
  rfl

theorem sizesOk_short : SizesOk singleHostConfig sampleClient shortRequest := by
  apply sizesOk_message parse_shortRequest
  · intro site hsite
    exact Nat.zero_le _
  · exact Nat.zero_le _
  · exact sizesOk_nil

/-- A short request in one piece and in two. -/
theorem cuts_agree_short :
    (AnswersLikeReference singleHostConfig sampleClient (fun _ _ _ => 0) shortRequest
        [.data shortRequest shortRequest_ne_nil] ↔
      NeverFull singleHostConfig sampleClient (fun _ _ _ => 0)
        [.data shortRequest shortRequest_ne_nil]) ∧
    (AnswersLikeReference singleHostConfig sampleClient (fun _ _ _ => 0) shortRequest
        [.data (shortRequest.take 10) (by decide), .again, .data (shortRequest.drop 10) (by decide)] ↔
      NeverFull singleHostConfig sampleClient (fun _ _ _ => 0)
        [.data (shortRequest.take 10) (by decide), .again,
          .data (shortRequest.drop 10) (by decide)]) ∧
    (NeverFull singleHostConfig sampleClient (fun _ _ _ => 0)
        [.data shortRequest shortRequest_ne_nil] →
      NeverFull singleHostConfig sampleClient (fun _ _ _ => 0)
        [.data (shortRequest.take 10) (by decide), .again,
          .data (shortRequest.drop 10) (by decide)] →
      ∃ n₀, ∀ n ≥ n₀,
        (cutRun singleHostConfig sampleClient (fun _ _ _ => 0)
          [.data shortRequest shortRequest_ne_nil] n).answers =
        (cutRun singleHostConfig sampleClient (fun _ _ _ => 0)
          [.data (shortRequest.take 10) (by decide), .again,
            .data (shortRequest.drop 10) (by decide)] n).answers) :=
  cuts_agree_iff_never_full singleHostConfig sampleClient (fun _ _ _ => 0)
    ⟨by decide, by unfold NoEnd; decide⟩ ⟨by decide, by unfold NoEnd; decide⟩ sizesOk_short

theorem answers_prefix_round (cfg : Config) (client : Client) (env : Env) (c : Conn) :
    c.answers <+: (c.round cfg client env).answers := by
  have hround := round_cases cfg client env c
  generalize c.round cfg client env = c' at hround
  unfold Conn.answers
  cases hround with
  | idle _ _ calls => rw [calls]
  | full _ _ load =>
      rw [← load.calls]
      exact (List.prefix_append _ _).map _
  | @examined c₁ load _ _ =>
      rw [← load.calls]
      apply List.IsPrefix.map
      cases examine cfg client c₁.keepAliveRequests c₁.buf with
      | more => exact List.prefix_rfl
      | tooLarge site req => exact List.prefix_append _ _
      | badRequest req => exact List.prefix_append _ _
      | serve req body keep =>
          show c₁.calls <+: (c₁.serve env req body keep).calls
          rw [serve_calls]
          exact List.prefix_append _ _

/-- Both requests in one read. -/
def inOneRead : List SockEvent :=
  [.data (shortRequest ++ longRequest) (List.append_ne_nil_of_left_ne_nil shortRequest_ne_nil _)]

/-- Both requests, one read each. -/
def inTwoReads : List SockEvent :=
  [.data shortRequest shortRequest_ne_nil, .data longRequest longRequest_ne_nil]

theorem parse_short_long :
    httpParseRequest (shortRequest ++ longRequest) = httpParseRequest shortRequest :=
  httpParseRequest_append (by rw [parse_shortRequest]; exact nofun) longRequest

theorem sizesOk_short_long :
    SizesOk singleHostConfig sampleClient (shortRequest ++ longRequest) := by
  apply sizesOk_message (parse_short_long.trans parse_shortRequest)
  · intro site hsite
    exact Nat.zero_le _
  · exact Nat.zero_le _
  · show SizesOk _ _ ((shortRequest ++ longRequest).drop shortRequest.length)
    rw [List.drop_left]
    apply sizesOk_message parse_longRequest
    · intro site hsite
      rw [siteOf_unknown rfl] at hsite
      exact nomatch hsite
    · show 32690 ≤ clientBuffer - 51
      unfold clientBuffer
      omega
    · show SizesOk _ _ (longRequest.drop (51 + 32690))
      rw [List.drop_eq_nil_of_le (by rw [length_longRequest])]
      exact sizesOk_nil

/-- The first read of a connection, when the buffer has room for it. -/
theorem read_accepted {b : Bytes} (ne : b ≠ []) (rest : List SockEvent)
    (h : b.length ≤ clientBuffer) :
    (Conn.accepted (.data b ne :: rest)).read =
      ({ Conn.accepted (.data b ne :: rest) with buf := b, arrivals := rest }, true) := by
  have htake : b.take (clientBuffer - ([] : Bytes).length) = b := List.take_of_length_le h
  have hdrop : b.drop (clientBuffer - ([] : Bytes).length) = [] := List.drop_eq_nil_of_le h
  unfold Conn.accepted Conn.read
  simp only [htake, hdrop, List.nil_append]
  rfl

/-- A first read of exactly the buffer's size, with a well-formed request at its front. -/
theorem full_accepted {b : Bytes} (ne : b ≠ []) (rest : List SockEvent) {req : HttpRequest}
    (hlength : b.length = clientBuffer) (h : httpParseRequest b = .accepted req) :
    ¬ NoFullRequest (.accepted (.data b ne :: rest)) := by
  intro hfull
  unfold NoFullRequest at hfull
  rw [read_accepted ne rest hlength.le] at hfull
  exact hfull rfl rfl rfl hlength req h

/-- A first read with a whole request, and room left in the buffer. -/
theorem served_accepted {b : Bytes} (ne : b ≠ []) (rest : List SockEvent) {req : HttpRequest}
    (hlength : b.length < clientBuffer) (h : httpParseRequest b = .accepted req)
    (hsite : siteOf cfg client req = none) (hbody : req.contentLength = 0) :
    ∃ req' body, [.served req' body] <+:
      (cutRun cfg client serveResult (.data b ne :: rest) 1).answers := by
  have hread := read_accepted ne rest hlength.le
  have hround : (Conn.accepted (.data b ne :: rest)).round cfg client (cutEnv serveResult) =
      (Conn.accepted (.data b ne :: rest)).read.1.act (cutEnv serveResult)
        (examine cfg client 0 b) := by
    unfold Conn.round
    have hready : bufferedRequestReady (Conn.accepted (.data b ne :: rest)).buf = false := rfl
    rw [if_neg (fun hnot => hnot rfl), hready, hread]
    exact if_neg hlength.ne
  have hverdict : ∃ req' body keep, examine cfg client 0 b = .serve req' body keep := by
    unfold siteOf at hsite
    unfold examine
    simp only [h, hsite, hbody]
    exact ⟨_, _, _, rfl⟩
  obtain ⟨req', body, keep, hverdict⟩ := hverdict
  refine ⟨req', body, ?_⟩
  show _ <+: (Conn.round cfg client (cutEnv serveResult) (.accepted (.data b ne :: rest))).answers
  rw [hround, hread, hverdict]
  unfold Conn.answers
  show _ <+: (Conn.serve (cutEnv serveResult) _ req' body keep).calls.map Call.answer
  rw [serve_calls]
  exact List.prefix_rfl

/-- Behind a full buffer there is nothing but the refusal. -/
theorem answers_of_full (cfg : Config) (client : Client) (env : Env) {c : Conn}
    (h : ¬ NoFullRequest c) {n : ℕ} (hn : 1 ≤ n) :
    (Conn.rounds cfg client env n c).answers = c.answers ++ [.rejected 400] := by
  obtain ⟨hanswers, hclosed⟩ := round_of_full cfg client env h
  have hsettled : (Conn.rounds cfg client env 1 c).Settled := by
    left
    show (c.round cfg client env).status ≠ .running
    rw [hclosed]
    exact Status.noConfusion
  rw [rounds_of_settled hsettled hn]
  exact hanswers

/-- In one read, the first request is refused. -/
theorem answers_inOneRead (serveResult : ℕ → HttpRequest → Bytes → ℤ) {n : ℕ} (hn : 1 ≤ n) :
    (cutRun singleHostConfig sampleClient serveResult inOneRead n).answers = [.rejected 400] := by
  have hlength : (shortRequest ++ longRequest).length = clientBuffer := by
    rw [List.length_append, length_shortRequest, length_longRequest]
    rfl
  apply answers_of_full singleHostConfig sampleClient (cutEnv serveResult) _ hn
  exact full_accepted _ [] hlength (parse_short_long.trans parse_shortRequest)

/-- In two reads, the first request is served. -/
theorem answers_inTwoReads (serveResult : ℕ → HttpRequest → Bytes → ℤ) {n : ℕ} (hn : 1 ≤ n) :
    ∃ req body, [.served req body] <+:
      (cutRun singleHostConfig sampleClient serveResult inTwoReads n).answers := by
  induction n, hn using Nat.le_induction with
  | base => exact served_accepted _ _ (by decide) parse_shortRequest (siteOf_unknown rfl) rfl
  | succ n _ ih =>
      obtain ⟨req, body, hserved⟩ := ih
      refine ⟨req, body, hserved.trans ?_⟩
      unfold cutRun
      rw [rounds_succ]
      exact answers_prefix_round _ _ _ _

/-- **The trace of the cut**: two well-formed requests of 32768 bytes together. In one read they
fill the buffer and are refused; in two reads the first one is served. -/
theorem full_buffer_rejects :
    CutOf (shortRequest ++ longRequest) inOneRead ∧
      CutOf (shortRequest ++ longRequest) inTwoReads ∧
      SizesOk singleHostConfig sampleClient (shortRequest ++ longRequest) ∧
      ¬ ∃ n₀, ∀ n ≥ n₀,
        (cutRun singleHostConfig sampleClient (fun _ _ _ => 0) inOneRead n).answers =
        (cutRun singleHostConfig sampleClient (fun _ _ _ => 0) inTwoReads n).answers := by
  refine ⟨⟨by simp [inOneRead, streamOf_cons], ?_⟩, ⟨by simp [inTwoReads, streamOf_cons], ?_⟩,
    sizesOk_short_long, ?_⟩
  · simp [NoEnd, inOneRead]
  · simp [NoEnd, inTwoReads]
  · rintro ⟨n₀, hsame⟩
    have hn := hsame (max n₀ 1) (le_max_left _ _)
    obtain ⟨req, body, hserved⟩ := answers_inTwoReads (fun _ _ _ => 0) (le_max_right n₀ 1)
    rw [← hn, answers_inOneRead _ (le_max_right n₀ 1), List.cons_prefix_cons] at hserved
    exact Answer.noConfusion hserved.1

end Rpsiod

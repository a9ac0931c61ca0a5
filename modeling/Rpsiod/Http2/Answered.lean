import Rpsiod.Http2.Steps

/-!
# Requests that end

nghttp2 reports the end of a request with the END_STREAM flag of a frame: the HEADERS of the request,
a DATA frame, or the HEADERS of its trailers.  `on_frame_recv_callback` goes on with a request when
it ends with its HEADERS.

A run of frames keeps a list of the streams whose request has ended.  Such a stream is *answered* if
it has a response or a backend that was started.

* `kept_run`: **no other step changes whether a stream is answered**, so a stream that is not
  answered when its request ends never is.
* `answered_runFrames_iff`: **exactly which runs of frames leave no request unanswered**.
-/

namespace Rpsiod

open NamedObjects

/-- `nghttp2_frame_type`, as far as requests are concerned. -/
inductive FrameType where
  | data
  | headers
  | other
  deriving DecidableEq

/-- `nghttp2_headers_category`. -/
inductive HeadersCategory where
  | request
  | response
  | pushResponse
  | headers
  deriving DecidableEq

/-- What is read of an `nghttp2_frame`. -/
structure Frame where
  type : FrameType
  /-- `NGHTTP2_FLAG_END_STREAM`. -/
  endStream : Bool
  cat : HeadersCategory
  streamId : ℤ

/-- The condition in `on_frame_recv_callback`. -/
def Frame.requestEnd (frame : Frame) : Bool :=
  frame.type = .headers && frame.cat = .request && frame.endStream

/-- The frame ends a request: END_STREAM is a flag of DATA and HEADERS. -/
def Frame.endsRequest (frame : Frame) : Bool :=
  (frame.type = .data || frame.type = .headers) && frame.endStream

/-- The step is a call of `on_frame_recv_callback`. -/
def H2Step.isFrame : H2Step → Bool
  | .session (.frameRecv ..) => true
  | _ => false

/-- A frame, or a step that is none. -/
inductive FrameMove where
  | received (frame : Frame) (loopback : LoopbackIo) (submit : ℤ)
  | step (step : H2Step) (noFrame : step.isFrame = false)

/-- A connection in a run of frames. -/
structure FrameRun where
  conn : H2Conn := {}
  /-- The pointers of the streams whose request has ended. -/
  ended : List ℕ := []

/-- The connection behind a frame, or behind another step. -/
def FrameRun.move (cfg : Config) (client : Client) (r : FrameRun) : FrameMove → FrameRun
  | .received frame loopback submit =>
      { conn := (Callback.frameRecv frame.requestEnd frame.streamId loopback submit).run cfg client
          r.conn
        ended :=
          match findStream r.conn frame.streamId with
          | some e => if frame.endsRequest then e.handle :: r.ended else r.ended
          | none => r.ended }
  | .step step _ => { r with conn := step.run cfg client r.conn }

/-- A run of frames. -/
def runFrames (cfg : Config) (client : Client) (moves : List FrameMove) (r : FrameRun) : FrameRun :=
  moves.foldl (FrameRun.move cfg client) r

/-- The stream has a response, or a backend. -/
def H2Stream.Answered (s : H2Stream) : Prop :=
  s.responseSubmitted = true ∨ s.backendState ≠ .none

/-- Every stream whose request has ended is answered. -/
def FrameRun.Answered (r : FrameRun) : Prop :=
  ∀ e ∈ r.conn.streams.entries, e.handle ∈ r.ended → e.value.Answered

instance (s : H2Stream) : Decidable s.Answered := inferInstanceAs (Decidable (_ ∨ _))

instance (r : FrameRun) : Decidable r.Answered :=
  inferInstanceAs (Decidable (∀ e ∈ r.conn.streams.entries, e.handle ∈ r.ended → e.value.Answered))

/-- A frame that ends the request of a stream is the HEADERS of the request, and then nghttp2 takes a
405; or the stream is answered before. -/
def FrameMove.Covered (c : H2Conn) : FrameMove → Prop
  | .received frame _ submit =>
      frame.endsRequest = true → ∀ e, findStream c frame.streamId = some e →
        if frame.requestEnd then
          e.value.refused = true → e.value.backendState = .none → submit = 0
        else e.value.Answered
  | .step .. => True

/-- Every move of a run is covered. -/
def CoveredRun (cfg : Config) (client : Client) : List FrameMove → FrameRun → Prop
  | [], _ => True
  | m :: moves, r => m.Covered r.conn ∧ CoveredRun cfg client moves (r.move cfg client m)

/-! ### Steps that are no frames -/

/-- The streams of a connection are answered exactly if they were before. -/
structure Kept (c c' : H2Conn) : Prop where
  next_le : c.streams.next ≤ c'.streams.next
  old : ∀ e' ∈ c'.streams.entries, e'.handle < c.streams.next →
    ∃ e ∈ c.streams.entries, e.handle = e'.handle ∧ (e'.value.Answered ↔ e.value.Answered)

variable {cfg : Config} {client : Client} {c c' : H2Conn}

theorem Kept.refl (c : H2Conn) : Kept c c := ⟨Nat.le_refl _, fun e he _ => ⟨e, he, rfl, Iff.rfl⟩⟩

theorem Kept.trans {c'' : H2Conn} (first : Kept c c') (second : Kept c' c'') : Kept c c'' where
  next_le := first.next_le.trans second.next_le
  old := fun e'' he'' hold => by
    obtain ⟨e', he', hhandle', hanswered'⟩ := second.old e'' he'' (hold.trans_le first.next_le)
    obtain ⟨e, he, hhandle, hanswered⟩ := first.old e' he' (hhandle' ▸ hold)
    exact ⟨e, he, hhandle.trans hhandle', hanswered'.trans hanswered⟩

/-- A change of one stream. -/
theorem kept_withStream (c : H2Conn) (handle : ℕ) {f : H2Stream → ℕ → H2Stream × ℕ}
    (hf : ∀ s active, (f s active).1.Answered ↔ s.Answered) : Kept c (c.withStream handle f) := by
  cases he : c.entryAt handle with
  | none =>
      rw [withStream_none he]
      exact .refl c
  | some e =>
      obtain ⟨hmem, hhandle⟩ := mem_of_entryAt he
      rw [withStream_some he]
      refine ⟨Nat.le_refl _, fun e' he' _ => ?_⟩
      obtain ⟨e₀, he₀, rfl⟩ := mem_adjusted.mp he'
      by_cases hsame : e₀.handle = handle
      · have heq : e₀ = e :=
          List.inj_on_of_nodup_map c.streams.handles_nodup he₀ hmem (hsame.trans hhandle.symm)
        rw [if_pos hsame]
        exact ⟨e₀, he₀, rfl, heq ▸ hf e.value _⟩
      · rw [if_neg hsame]
        exact ⟨e₀, he₀, rfl, Iff.rfl⟩

theorem kept_getOrCreateStream {allocates : Bool} {id : ℤ}
    (h : getOrCreateStream allocates c id = some c') : Kept c c' := by
  rcases getOrCreateStream_cases h with rfl | ⟨hnew, rfl⟩
  · exact .refl c'
  · unfold Registry.opened
    rw [dif_neg hnew]
    refine ⟨Nat.le_succ _, fun e he hold => ?_⟩
    rcases List.mem_cons.mp he with rfl | he
    · exact absurd hold (Nat.lt_irrefl _)
    · exact ⟨e, he, rfl, Iff.rfl⟩

theorem kept_removeStream (c : H2Conn) (id : ℤ) : Kept c (removeStream c id) := by
  unfold removeStream
  cases findStream c id with
  | none => exact .refl c
  | some e =>
      exact ⟨Nat.le_refl _, fun e' he' _ => ⟨e', (mem_closed.mp he').1, rfl, Iff.rfl⟩⟩

theorem H2Stream.SameBackend.answered_iff {s r : H2Stream} (h : H2Stream.SameBackend s r) :
    r.Answered ↔ s.Answered := by
  unfold Answered
  rw [h.submitted, h.state]

/-- A backend that is at work. -/
theorem H2Stream.answered_of_working {s : H2Stream} (h : s.working = true) : s.Answered := by
  refine Or.inr fun hnone => ?_
  rw [not_working_of_none hnone] at h
  exact Bool.noConfusion h

theorem H2Stream.Advances.answered_iff {s r : H2Stream} (h : H2Stream.Advances s r) :
    r.Answered ↔ s.Answered := by
  by_cases hworking : s.working = true
  · refine iff_of_true ?_ (answered_of_working hworking)
    rcases answered_of_working hworking with hdone | hbusy
    · exact Or.inl (h.submitted.trans hdone)
    · exact Or.inr (h.busy hbusy)
  · rw [h.idle (Bool.eq_false_iff.mpr hworking)]

theorem answered_retryDelayedLoopback_iff (io : RetryIo) (s : H2Stream) (active : ℕ) :
    (retryDelayedLoopback cfg client io s active).1.Answered ↔ s.Answered := by
  rw [H2Stream.retryDelayedLoopback_eq]
  split_ifs with hretries
  · obtain ⟨hbusy, -, -⟩ := H2Stream.start_busy cfg client io.loopback s.reset
      (active - s.isOpen.toNat)
    exact iff_of_true (Or.inr hbusy) (H2Stream.answered_of_working (H2Stream.retries_of hretries).2)
  · exact Iff.rfl

theorem answered_submitReadyStream_iff (rc : ℤ) (s : H2Stream) :
    (submitReadyStream rc s).1.Answered ↔ s.Answered := by
  rw [submitReadyStream_eq]
  split_ifs with hsubmits
  · rw [Bool.and_eq_true] at hsubmits
    exact iff_of_true (Or.inl rfl) (Or.inr (H2Stream.submits_of hsubmits.1).2.1)
  · exact Iff.rfl

/-- A callback that makes a stream, or finds it, and leaves its backend alone. -/
theorem kept_onStream (allocates : Bool) (id : ℤ) {f : H2Stream → H2Stream}
    (hf : ∀ s, H2Stream.SameBackend s (f s)) :
    Kept c (match getOrCreateStream allocates c id with
      | none => c
      | some c =>
          match findStream c id with
          | none => c
          | some e => c.withStream e.handle fun s active => (f s, active)) := by
  cases hcreate : getOrCreateStream allocates c id with
  | none => exact .refl c
  | some c' =>
      have hcreated := kept_getOrCreateStream hcreate
      dsimp only
      cases findStream c' id with
      | none => exact hcreated
      | some e =>
          exact hcreated.trans (kept_withStream c' e.handle fun s _ => (hf s).answered_iff)

/-- **A step that is no frame** does not answer a stream. -/
theorem kept_run (step : H2Step) (h : step.isFrame = false) : Kept c (step.run cfg client c) := by
  cases step with
  | session callback =>
      cases callback with
      | beginHeaders request id allocates =>
          cases request with
          | false => exact .refl c
          | true =>
              exact @kept_onStream _ allocates id (fun s => { s with requestSeen := true })
                fun _ => ⟨rfl, rfl, rfl, rfl, rfl, rfl, rfl⟩
      | header request id name value allocates =>
          cases request with
          | false => exact .refl c
          | true =>
              exact kept_onStream allocates id (sameBackend_applyH2Header name value)
      | frameRecv requestEnd id loopback rc => exact Bool.noConfusion h
      | streamClose id => exact kept_removeStream c id
  | progress handle revents io =>
      exact kept_withStream c handle fun s active =>
        (H2Stream.progress_ok revents io s active).advances.answered_iff
  | retry handle io =>
      exact kept_withStream c handle fun s active => answered_retryDelayedLoopback_iff io s active
  | submit handle rc =>
      exact @kept_withStream c handle (fun s active => ((submitReadyStream rc s).1, active))
        fun s _ => answered_submitReadyStream_iff rc s

/-- Without further frames, a stream that is not answered never is. -/
theorem kept_runSteps (steps : List H2Step) (h : ∀ step ∈ steps, step.isFrame = false)
    (c : H2Conn) : Kept c (runSteps cfg client steps c).1 := by
  induction steps generalizing c with
  | nil => exact .refl c
  | cons step steps ih =>
      have hstep : Kept c (step.run cfg client c) := kept_run step (h step List.mem_cons_self)
      exact hstep.trans (ih (fun step hmem => h step (List.mem_cons_of_mem _ hmem)) _)

/-! ### Frames -/

theorem endsRequest_of_requestEnd {frame : Frame} (h : frame.requestEnd = true) :
    frame.endsRequest = true := by
  unfold Frame.requestEnd at h
  unfold Frame.endsRequest
  rw [Bool.and_eq_true, Bool.and_eq_true] at h
  rw [h.1.1, h.2]
  exact Bool.and_true _ ▸ Bool.or_true _

/-- The stream behind the HEADERS of a request. -/
theorem answered_answerRequest_iff (loopback : LoopbackIo) (submit : ℤ) (s : H2Stream)
    (active : ℕ) :
    (answerRequest cfg client loopback submit s active).1.Answered ↔
      (s.refused = true → s.backendState = .none → submit = 0) := by
  by_cases hrefused : s.refused = true
  · rw [show answerRequest cfg client loopback submit s active =
      ({ s with
          authority := if s.authority = [] then ascii "localhost" else s.authority
          responseSubmitted := submit = 0 }, active) from if_pos hrefused]
    unfold H2Stream.Answered
    simp only [decide_eq_true_iff, hrefused, true_implies]
    tauto
  · rw [show answerRequest cfg client loopback submit s active =
      startLoopbackRequestAsync cfg client loopback
        { s with authority := if s.authority = [] then ascii "localhost" else s.authority } active
      from if_neg hrefused]
    exact iff_of_true (Or.inr (H2Stream.start_busy cfg client loopback _ active).1)
      fun h => absurd h hrefused

/-- The pointers of the list are old. -/
def FrameRun.Bounded (r : FrameRun) : Prop := ∀ handle ∈ r.ended, handle < r.conn.streams.next

/-- A frame changes at most the stream of its id. -/
theorem move_received (r : FrameRun) (frame : Frame) (loopback : LoopbackIo) (submit : ℤ)
    {e : Entry ℤ H2Stream} (he : findStream r.conn frame.streamId = some e) :
    r.move cfg client (.received frame loopback submit) =
      { conn :=
          if frame.requestEnd then
            r.conn.withStream e.handle (answerRequest cfg client loopback submit)
          else r.conn
        ended := if frame.endsRequest then e.handle :: r.ended else r.ended } := by
  unfold FrameRun.move
  simp only [Callback.run, onFrameRecvCallback, he]

theorem move_received_none (r : FrameRun) (frame : Frame) (loopback : LoopbackIo) (submit : ℤ)
    (he : findStream r.conn frame.streamId = none) :
    r.move cfg client (.received frame loopback submit) = r := by
  unfold FrameRun.move
  simp only [Callback.run, onFrameRecvCallback, he, ite_self]

theorem bounded_move {r : FrameRun} (h : r.Bounded) (m : FrameMove) :
    (r.move cfg client m).Bounded := by
  cases m with
  | step step noFrame =>
      exact fun handle hhandle => (h handle hhandle).trans_le (kept_run step noFrame).next_le
  | received frame loopback submit =>
      cases he : findStream r.conn frame.streamId with
      | none =>
          rw [move_received_none r frame loopback submit he]
          exact h
      | some e =>
          have hmem := (mem_of_findStream he).1
          have hnext : ∀ f, (r.conn.withStream e.handle f).streams.next = r.conn.streams.next :=
            fun f => by
              rw [withStream_some (entryAt_handle hmem)]
              rfl
          rw [move_received r frame loopback submit he]
          intro handle hhandle
          have hold : handle < r.conn.streams.next := by
            dsimp only at hhandle
            split_ifs at hhandle
            · rcases List.mem_cons.mp hhandle with rfl | hhandle
              · exact r.conn.streams.handles_lt e hmem
              · exact h handle hhandle
            · exact h handle hhandle
          dsimp only
          split_ifs
          · rw [hnext]
            exact hold
          · exact hold

/-- The stream whose request ends is the only one in question. -/
theorem answered_withStream_iff {r : FrameRun} (h : r.Answered) {e : Entry ℤ H2Stream}
    (he : e ∈ r.conn.streams.entries) (f : H2Stream → ℕ → H2Stream × ℕ) :
    FrameRun.Answered ⟨r.conn.withStream e.handle f, e.handle :: r.ended⟩ ↔
      (f e.value r.conn.activeBackendStreams).1.Answered := by
  rw [withStream_some (entryAt_handle he)]
  constructor
  · intro hall
    have hchanged := hall _ (mem_adjusted.mpr ⟨e, he, rfl⟩)
    rw [if_pos rfl] at hchanged
    exact hchanged List.mem_cons_self
  · intro hanswered e' he' hended
    obtain ⟨e₀, he₀, rfl⟩ := mem_adjusted.mp he'
    by_cases hsame : e₀.handle = e.handle
    · rw [if_pos hsame]
      exact hanswered
    · rw [if_neg hsame] at hended ⊢
      rcases List.mem_cons.mp hended with heq | hended
      · exact absurd heq hsame
      · exact h e₀ he₀ hended

theorem answered_cons_iff {r : FrameRun} (h : r.Answered) {e : Entry ℤ H2Stream}
    (he : e ∈ r.conn.streams.entries) :
    FrameRun.Answered ⟨r.conn, e.handle :: r.ended⟩ ↔ e.value.Answered := by
  constructor
  · intro hall
    exact hall e he List.mem_cons_self
  · intro hanswered e' he' hended
    rcases List.mem_cons.mp hended with heq | hended
    · rw [List.inj_on_of_nodup_map r.conn.streams.handles_nodup he' he heq]
      exact hanswered
    · exact h e' he' hended

/-- **A move leaves every request that has ended answered exactly if it is covered.** -/
theorem answered_move_iff {r : FrameRun} (hbounded : r.Bounded) (h : r.Answered) (m : FrameMove) :
    (r.move cfg client m).Answered ↔ m.Covered r.conn := by
  cases m with
  | step step noFrame =>
      refine iff_of_true (fun e' he' hended => ?_) trivial
      obtain ⟨e, he, hhandle, hanswered⟩ :=
        (kept_run step noFrame).old e' he' (hbounded e'.handle hended)
      exact hanswered.mpr (h e he (hhandle ▸ hended))
  | received frame loopback submit =>
      cases he : findStream r.conn frame.streamId with
      | none =>
          rw [move_received_none r frame loopback submit he]
          refine iff_of_true h fun _ e he' => ?_
          exact nomatch he.symm.trans he'
      | some e =>
          have hmem := (mem_of_findStream he).1
          rw [move_received r frame loopback submit he]
          simp only [FrameMove.Covered, he, Option.some.injEq, forall_eq']
          by_cases hrequest : frame.requestEnd = true
          · simp only [hrequest, endsRequest_of_requestEnd hrequest, if_true, true_implies]
            rw [answered_withStream_iff h hmem]
            exact answered_answerRequest_iff loopback submit e.value _
          · by_cases hends : frame.endsRequest = true
            · simp only [hrequest, hends, Bool.false_eq_true, if_false, if_true, true_implies]
              exact answered_cons_iff h hmem
            · simp only [hrequest, hends, Bool.false_eq_true, if_false, false_implies, iff_true]
              exact h

/-! ### Runs -/

/-- **No state of a run has an unanswered request, exactly if every move of it is covered.** -/
theorem answered_runFrames_iff (cfg : Config) (client : Client) (moves : List FrameMove) :
    (∀ before, before <+: moves → (runFrames cfg client before {}).Answered) ↔
      CoveredRun cfg client moves {} := by
  have hgeneral : ∀ (r : FrameRun), r.Bounded → r.Answered →
      ((∀ before, before <+: moves → (runFrames cfg client before r).Answered) ↔
        CoveredRun cfg client moves r) := by
    induction moves with
    | nil =>
        intro r _ h
        refine iff_of_true (fun before hbefore => ?_) trivial
        rw [List.prefix_nil.mp hbefore]
        exact h
    | cons m moves ih =>
        intro r hbounded h
        have hmove := @answered_move_iff cfg client r hbounded h m
        constructor
        · intro hall
          have hnext := hall [m] (List.prefix_append [m] moves)
          refine ⟨hmove.mp hnext, (ih _ (bounded_move hbounded m) hnext).mp ?_⟩
          intro before hbefore
          exact hall (m :: before) (List.cons_prefix_cons.mpr ⟨rfl, hbefore⟩)
        · rintro ⟨hcovered, hrest⟩ before hbefore
          have hnext := hmove.mpr hcovered
          cases before with
          | nil => exact h
          | cons m' before =>
              obtain ⟨rfl, hrestBefore⟩ := List.cons_prefix_cons.mp hbefore
              exact (ih _ (bounded_move hbounded m') hnext).mpr hrest before hrestBefore
  exact hgeneral {} nofun nofun

/-! ### A request with a body -/

/-- A POST on stream 1: its HEADERS, and then the END_STREAM on a DATA frame. -/
def postRun : List FrameMove :=
  [.step (.session (.beginHeaders true 1 true)) rfl,
    .step (.session (.header true 1 (ascii ":method") (ascii "POST") true)) rfl,
    .step (.session (.header true 1 (ascii ":path") (ascii "/form") true)) rfl,
    .step (.session (.header true 1 (ascii ":authority") (ascii "localhost") true)) rfl,
    .received ⟨.headers, false, .request, 1⟩ ⟨none, false, .failed⟩ 0,
    .received ⟨.data, true, .headers, 1⟩ ⟨none, false, .failed⟩ 0]

/-- **A request with a body is not answered**, and no later step answers it. -/
theorem postRun_unanswered :
    (¬ ∀ before, before <+: postRun →
      (runFrames loopbackConfig loopbackClient before {}).Answered) ∧
    ∀ steps : List H2Step, (∀ step ∈ steps, step.isFrame = false) →
      ∀ e ∈ (runSteps loopbackConfig loopbackClient steps
          (runFrames loopbackConfig loopbackClient postRun {}).conn).1.streams.entries,
        e.handle = 0 → ¬ e.value.Answered := by
  constructor
  · intro hall
    have hend : ¬ (runFrames loopbackConfig loopbackClient postRun {}).Answered := by
      decide +kernel
    exact hend (hall postRun List.prefix_rfl)
  · intro steps hsteps e he hhandle hanswered
    have hstate : 0 < (runFrames loopbackConfig loopbackClient postRun {}).conn.streams.next ∧
        ∀ e ∈ (runFrames loopbackConfig loopbackClient postRun {}).conn.streams.entries,
          ¬ e.value.Answered := by
      decide +kernel
    have hkept := @kept_runSteps loopbackConfig loopbackClient steps hsteps
      (runFrames loopbackConfig loopbackClient postRun {}).conn
    obtain ⟨e₀, he₀, -, hiff⟩ := hkept.old e he (hhandle ▸ hstate.1)
    exact hstate.2 e₀ he₀ (hiff.mp hanswered)

end Rpsiod

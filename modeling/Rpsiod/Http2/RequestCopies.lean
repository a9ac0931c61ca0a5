import Rpsiod.Http2.Steps

/-!
# Copies of a loopback request

`retry_delayed_loopback` closes the loopback connection of a stream that is connecting, writing or
reading and has no response byte yet, and starts another one; a stream that is reading has written
its request to the end by then, so its backend gets another copy.  The trace of a stream lists its
copies, its response bytes and its restarts.

* `Sends`: what a step on an open backend does to the request it writes.
* `copies_step`: **what one step adds to the trace of a stream**.
* `loopback_request_copies`: **at most eight copies, at most one more than there are restarts of a
  written request, and none behind a response byte**.
-/

namespace Rpsiod

open NamedObjects

/-- What happens to the loopback request of a stream. -/
inductive CopyEvent where
  /-- `backend_request_off` reaches `backend_request_len`. -/
  | copied
  /-- Response bytes are stored. -/
  | answered
  /-- `retry_delayed_loopback` starts the backend again, after the whole request was written or
  before that. -/
  | restarted (written : Bool)
  deriving DecidableEq

/-- The request is written to its end. -/
def H2Stream.written (s : H2Stream) : Bool := s.backendRequestOff = s.backendRequest.length

/-- What a change of a stream by `h2_progress_backend_stream` shows. -/
def progressEvents (s r : H2Stream) : List CopyEvent :=
  (if !s.written && r.written then [.copied] else []) ++
    if r.rawResponse ≠ s.rawResponse then [.answered] else []

/-- The events of the stream that is watched, when a step is about the stream behind `pointer`. -/
def eventsAt (c : H2Conn) (handle pointer : ℕ) (events : H2Stream → List CopyEvent) :
    List CopyEvent :=
  match c.entryAt handle with
  | some e => if pointer = handle then events e.value else []
  | none => []

/-- The events of the stream behind one pointer in a step. -/
def H2Step.copyEvents (handle : ℕ) (c : H2Conn) : H2Step → List CopyEvent
  | .session _ => []
  | .progress pointer revents io => eventsAt c handle pointer fun s =>
      progressEvents s (h2ProgressBackendStream revents io s c.activeBackendStreams).state.1
  | .retry pointer io => eventsAt c handle pointer fun s =>
      if s.retries io then [.restarted s.written] else []
  | .submit _ _ => []

/-- The events of the stream behind one pointer in a run. -/
def copyTrace (cfg : Config) (client : Client) (handle : ℕ) : List H2Step → H2Conn → List CopyEvent
  | [], _ => []
  | step :: steps, c =>
      step.copyEvents handle c ++ copyTrace cfg client handle steps (step.run cfg client c)

/-! ### Writing the request -/

namespace H2Stream

variable {s r t : H2Stream} {active : ℕ}

/-- The request is the same, what is written of it stays written, and only a stream that has written
all of it reads. -/
structure Sends (s r : H2Stream) : Prop where
  request : r.backendRequest = s.backendRequest
  off_le : s.backendRequestOff ≤ r.backendRequestOff
  reading : r.backendState = .reading →
    s.backendState = .reading ∨ r.backendRequest.length ≤ r.backendRequestOff
  stored : r.rawResponse ≠ s.rawResponse →
    s.backendState = .reading ∨ r.backendRequest.length ≤ r.backendRequestOff

theorem Sends.refl : Sends s s := ⟨rfl, Nat.le_refl _, Or.inl, fun h => absurd rfl h⟩

theorem Sends.trans (first : Sends s r) (second : Sends r t) : Sends s t := by
  have hlater : r.backendRequest.length ≤ r.backendRequestOff →
      t.backendRequest.length ≤ t.backendRequestOff := by
    intro h
    rw [second.request]
    exact h.trans second.off_le
  refine ⟨second.request.trans first.request, first.off_le.trans second.off_le, ?_, ?_⟩
  · intro ht
    rcases second.reading ht with hr | hdone
    · exact (first.reading hr).imp_right hlater
    · exact Or.inr hdone
  · intro ht
    by_cases hraw : r.rawResponse = s.rawResponse
    · rw [← hraw] at ht
      rcases second.stored ht with hr | hdone
      · exact (first.reading hr).imp_right hlater
      · exact Or.inr hdone
    · exact (first.stored hraw).imp_right hlater

/-- A stream that goes to another state than reading. -/
theorem sends_state {state : BackendState} (hstate : state ≠ .reading) (fd : Option ℕ) :
    Sends s { s with backendFd := fd, backendState := state } :=
  ⟨rfl, Nat.le_refl _, fun h => absurd h hstate, fun h => absurd rfl h⟩

theorem sends_fail : Sends s (failBackend s active).1 := by
  rw [failBackend_eq]
  exact sends_state BackendState.noConfusion none

theorem sends_bind {p : Progress} {next : H2Stream → ℕ → Progress} (h : Sends s p.state.1)
    (hnext : ∀ r active, Sends r (next r active).state.1) : Sends s (p.bind next).state.1 := by
  cases p with
  | stop r active rc => exact h
  | next r active => exact h.trans (hnext r active)

theorem sends_progressConnecting (revents : Revents) (io : BackendIo) (s : H2Stream)
    (active : ℕ) : Sends s (progressConnecting revents io s active).state.1 := by
  unfold progressConnecting
  split_ifs
  · exact .refl
  · exact sends_fail
  · exact sends_state BackendState.noConfusion s.backendFd
  · exact .refl

theorem sends_writeLoop (writes : List WriteResult) (s : H2Stream) (active : ℕ) :
    Sends s (writeLoop writes s active).state.1 := by
  have hdone : ∀ s : H2Stream, ¬s.backendRequestOff < s.backendRequest.length →
      Sends s { s with backendState := .reading } := fun s hend =>
    ⟨rfl, Nat.le_refl _, fun _ => Or.inr (not_lt.mp hend), fun h => absurd rfl h⟩
  induction writes generalizing s with
  | nil =>
      unfold writeLoop
      split_ifs with hmore
      · exact .refl
      · exact hdone s hmore
  | cons write writes ih =>
      unfold writeLoop
      by_cases hmore : s.backendRequestOff < s.backendRequest.length
      · rw [if_pos hmore]
        cases write with
        | wrote n =>
            dsimp only
            split_ifs
            · exact .refl
            · set off := min (s.backendRequestOff + n) s.backendRequest.length with hoff
              have hle : s.backendRequestOff ≤ off := le_min (Nat.le_add_right _ _) hmore.le
              have hstep : Sends s { s with backendRequestOff := off } :=
                ⟨rfl, hle, Or.inl, fun h => absurd rfl h⟩
              exact hstep.trans (ih _)
        | interrupted => exact ih s
        | again => exact .refl
        | failed => exact sends_fail
      · rw [if_neg hmore]
        exact hdone s hmore

theorem sends_progressWriting (io : BackendIo) (s : H2Stream) (active : ℕ) :
    Sends s (progressWriting io s active).state.1 := by
  unfold progressWriting
  split_ifs
  · exact sends_writeLoop io.writes s active
  · exact .refl

theorem sends_readLoop (reads : List ReadResult) (hstate : s.backendState = .reading) :
    Sends s (readLoop reads s active).state.1 := by
  induction reads generalizing s with
  | nil => exact .refl
  | cons read reads ih =>
      cases read with
      | data bytes allocates =>
          rw [readLoop]
          cases appendBytes s.rawResponse bytes allocates with
          | none => exact sends_fail
          | some raw =>
              have hstep : Sends s { s with rawResponse := raw } :=
                ⟨rfl, Nat.le_refl _, Or.inl, fun _ => Or.inl hstate⟩
              have hrest : Sends { s with rawResponse := raw } _ := ih hstate
              exact hstep.trans hrest
      | eof =>
          rw [readLoop, closeBackendStream_eq]
          exact sends_state BackendState.noConfusion none
      | interrupted => exact ih hstate
      | again => exact .refl
      | failed => exact sends_fail

theorem sends_progressReading (io : BackendIo) (s : H2Stream) (active : ℕ) :
    Sends s (progressReading io s active).state.1 := by
  unfold progressReading
  split_ifs with hstate
  · exact sends_readLoop io.reads hstate
  · exact .refl

/-- **`h2_progress_backend_stream`** writes its request on, and stores nothing before its end. -/
theorem sends_progress (revents : Revents) (io : BackendIo) (s : H2Stream) (active : ℕ) :
    Sends s (h2ProgressBackendStream revents io s active).state.1 :=
  sends_bind (sends_bind (sends_progressConnecting revents io s active) (sends_progressWriting io))
    (sends_progressReading io)

/-- A stream at the end of its request. -/
theorem written_iff (h : s.Inv) :
    s.written = true ↔ s.backendRequest.length ≤ s.backendRequestOff := by
  unfold written
  rw [decide_eq_true_iff]
  exact ⟨fun heq => heq.ge, fun hle => le_antisymm h.off_le hle⟩

theorem Sends.written (h : Sends s r) (hs : s.Inv) (hr : r.Inv) (hwritten : s.written = true) :
    r.written = true := by
  rw [written_iff hs] at hwritten
  rw [written_iff hr, h.request]
  exact hwritten.trans h.off_le

end H2Stream

/-! ### The invariant -/

/-- What a stream satisfies, with the trace so far. -/
structure Copied (log : List CopyEvent) (s : H2Stream) : Prop where
  attempts : log.count .copied ≤ s.backendAttempts
  pending : s.working = true → s.written = false →
    log.count .copied < s.backendAttempts ∧ log.count .copied ≤ log.count (.restarted true)
  reading : s.backendState = .reading → s.written = true
  answered : .answered ∈ log → s.backendState ≠ .none ∧
    (s.working = true → s.rawResponse ≠ [] ∧ s.written = true)

/-- What a trace satisfies. -/
structure CopyLog (log : List CopyEvent) : Prop where
  bound : log.count .copied ≤ backendMaxAttempts
  again : log.count .copied ≤ log.count (.restarted true) + 1
  ordered : log.Pairwise fun first second => first = .answered → second = .answered

/-- **The invariant of the stream behind one pointer.** -/
structure CopyInv (handle : ℕ) (log : List CopyEvent) (c : H2Conn) : Prop where
  trace : CopyLog log
  entry : ∀ e ∈ c.streams.entries, e.handle = handle → Copied log e.value
  unused : c.streams.next ≤ handle → log = []

variable {log : List CopyEvent} {s r : H2Stream}

theorem copyLog_nil : CopyLog [] :=
  ⟨Nat.zero_le _, Nat.zero_le _, List.Pairwise.nil⟩

theorem copied_nil (hworking : s.working = false) : Copied [] s := by
  refine ⟨Nat.zero_le _, fun h => ?_, fun h => ?_, fun h => absurd h List.not_mem_nil⟩
  · rw [hworking] at h
    exact Bool.noConfusion h
  · rw [H2Stream.working_of_state (Or.inr (Or.inr rfl)) h] at hworking
    exact Bool.noConfusion hworking

/-- Without a response byte, anything may follow. -/
theorem ordered_append {event : CopyEvent} (h : CopyLog log)
    (hevent : .answered ∈ log → event = .answered) :
    (log ++ [event]).Pairwise fun first second => first = .answered → second = .answered := by
  rw [List.pairwise_append]
  refine ⟨h.ordered, List.pairwise_singleton .., fun first hfirst second hsecond heq => ?_⟩
  rw [List.mem_singleton.mp hsecond]
  exact hevent (heq ▸ hfirst)

/-- A copy that is written. -/
theorem CopyLog.copied (h : CopyLog log) (hlt : log.count .copied < backendMaxAttempts)
    (hagain : log.count .copied ≤ log.count (.restarted true)) (hnot : .answered ∉ log) :
    CopyLog (log ++ [.copied]) where
  bound := by
    rw [List.count_append]
    exact hlt
  again := by
    rw [List.count_append, List.count_append]
    exact Nat.succ_le_succ hagain
  ordered := ordered_append h fun hmem => absurd hmem hnot

/-- Response bytes that are stored. -/
theorem CopyLog.answered (h : CopyLog log) : CopyLog (log ++ [.answered]) where
  bound := by
    rw [List.count_append]
    exact h.bound
  again := by
    rw [List.count_append, List.count_append]
    exact h.again
  ordered := ordered_append h fun _ => rfl

/-- A restart. -/
theorem CopyLog.restarted (h : CopyLog log) (hnot : .answered ∉ log) (written : Bool) :
    CopyLog (log ++ [.restarted written]) where
  bound := by
    rw [List.count_append]
    exact h.bound
  again := by
    rw [List.count_append, List.count_append]
    exact h.again.trans (Nat.succ_le_succ (Nat.le_add_right _ _))
  ordered := ordered_append h fun hmem => absurd hmem hnot

/-! ### One stream -/

/-- A backend that is started. -/
theorem Copied.start (cfg : Config) (client : Client) (io : LoopbackIo) {active : ℕ}
    (hattempts : log.count .copied ≤ s.backendAttempts)
    (hagain : log.count .copied ≤ log.count (.restarted true)) (hnot : .answered ∉ log) :
    Copied log (startLoopbackRequestAsync cfg client io s active).1 := by
  rcases H2Stream.start_cases cfg client io s active with
    hfailed | ⟨fd, -, ⟨state, hstate, hstarted⟩ | hfailed⟩
  · rw [hfailed]
    exact ⟨hattempts, fun h => Bool.noConfusion h, fun h => BackendState.noConfusion h,
      fun h => absurd h hnot⟩
  · rw [hstarted]
    refine ⟨Nat.le_succ_of_le hattempts, fun _ _ => ⟨Nat.lt_succ_of_le hattempts, hagain⟩,
      fun h => ?_, fun h => absurd h hnot⟩
    rcases hstate with rfl | rfl
    · exact BackendState.noConfusion h
    · exact BackendState.noConfusion h
  · rw [hfailed]
    exact ⟨Nat.le_succ_of_le hattempts, fun h => Bool.noConfusion h,
      fun h => BackendState.noConfusion h, fun h => absurd h hnot⟩

/-- A stream that starts again has no response byte. -/
theorem Copied.not_answered {io : RetryIo} (h : Copied log s) (hretries : s.retries io = true) :
    .answered ∉ log := by
  intro hmem
  obtain ⟨hraw, hworking⟩ := H2Stream.retries_of hretries
  exact ((h.answered hmem).2 hworking).1 hraw

/-- **`retry_delayed_loopback`** when it does start the backend again. -/
theorem Copied.retry (cfg : Config) (client : Client) {io : RetryIo} {active : ℕ}
    (h : Copied log s) (hlog : CopyLog log) (hretries : s.retries io = true) :
    Copied (log ++ [.restarted s.written])
      (retryDelayedLoopback cfg client io s active).1 := by
  have hnot := h.not_answered hretries
  have hcopies : (log ++ [CopyEvent.restarted s.written]).count CopyEvent.copied =
      log.count CopyEvent.copied := by
    rw [List.count_append]
    rfl
  rw [H2Stream.retryDelayedLoopback_eq, if_pos hretries]
  apply Copied.start
  · rw [hcopies]
    exact h.attempts
  · rw [hcopies, List.count_append]
    cases hwritten : s.written with
    | true => exact hlog.again
    | false => exact (h.pending (H2Stream.retries_of hretries).2 hwritten).2
  · intro hmem
    rcases List.mem_append.mp hmem with hmem | hmem
    · exact hnot hmem
    · exact CopyEvent.noConfusion (List.mem_singleton.mp hmem)

/-- **`h2_progress_backend_stream`**. -/
theorem Copied.progress (h : Copied log s) (hlog : CopyLog log) (hs : s.Inv) (hr : r.Inv)
    (hadvances : H2Stream.Advances s r) (hsends : H2Stream.Sends s r) :
    CopyLog (log ++ progressEvents s r) ∧ Copied (log ++ progressEvents s r) r := by
  cases hworking : s.working with
  | false =>
      have hnone : progressEvents s s = [] := by
        unfold progressEvents
        rw [Bool.not_and_self, if_neg (not_not_intro rfl)]
        rfl
      rw [hadvances.idle hworking, hnone, List.append_nil]
      exact ⟨hlog, h⟩
  | true =>
      have hdone : s.backendState = .reading ∨ r.backendRequest.length ≤ r.backendRequestOff →
          r.written = true := by
        intro hend
        rcases hend with hstate | hend
        · exact hsends.written hs hr (h.reading hstate)
        · exact (H2Stream.written_iff hr).mpr hend
      have hbusy : r.backendState ≠ .none := hadvances.busy fun hnone => by
        rw [H2Stream.not_working_of_none hnone] at hworking
        exact Bool.noConfusion hworking
      -- the copy comes before the response bytes
      have hcopy : ∀ copies : List CopyEvent,
          copies = (if !s.written && r.written then [.copied] else []) →
          CopyLog (log ++ copies) ∧
            (log ++ copies).count .copied ≤ r.backendAttempts ∧
            (r.written = false → (log ++ copies).count .copied < r.backendAttempts ∧
              (log ++ copies).count .copied ≤ (log ++ copies).count (.restarted true)) ∧
            (.answered ∈ log ++ copies → .answered ∈ log) := by
        rintro copies rfl
        rw [hadvances.attempts]
        by_cases hreaches : (!s.written && r.written) = true
        · rw [if_pos hreaches]
          obtain ⟨hbefore, hafter⟩ := Bool.and_eq_true _ _ ▸ hreaches
          obtain ⟨hlt, hagain⟩ := h.pending hworking (Bool.not_eq_true' _ ▸ hbefore)
          have hnot : .answered ∉ log := fun hmem => by
            rw [((h.answered hmem).2 hworking).2] at hbefore
            exact Bool.noConfusion hbefore
          refine ⟨hlog.copied (hlt.trans_le hs.attempts_le) hagain hnot, ?_, ?_, ?_⟩
          · rw [List.count_append]
            exact hlt
          · rw [hafter]
            exact fun h => Bool.noConfusion h
          · intro hmem
            rcases List.mem_append.mp hmem with hmem | hmem
            · exact hmem
            · exact CopyEvent.noConfusion (List.mem_singleton.mp hmem)
        · rw [if_neg hreaches, List.append_nil]
          refine ⟨hlog, h.attempts, fun hafter => h.pending hworking ?_, id⟩
          cases hbefore : s.written with
          | false => rfl
          | true =>
              rw [hsends.written hs hr hbefore] at hafter
              exact hafter
      obtain ⟨hlog', hattempts, hpending, hanswered⟩ := hcopy _ rfl
      unfold progressEvents
      rw [← List.append_assoc]
      by_cases hraw : r.rawResponse = s.rawResponse
      · rw [if_neg (not_not_intro hraw), List.append_nil]
        refine ⟨hlog', hattempts, fun _ => hpending, fun hr => hdone (hsends.reading hr), ?_⟩
        intro hmem
        obtain ⟨hfull, hwritten⟩ := (h.answered (hanswered hmem)).2 hworking
        exact ⟨hbusy, fun _ => ⟨hraw ▸ hfull, hsends.written hs hr hwritten⟩⟩
      · have hwritten : r.written = true := hdone (hsends.stored hraw)
        rw [if_pos hraw]
        refine ⟨hlog'.answered, ?_, fun _ hleft => ?_, fun hr => hdone (hsends.reading hr), ?_⟩
        · rw [List.count_append]
          exact hattempts
        · rw [hwritten] at hleft
          exact Bool.noConfusion hleft
        · intro _
          obtain ⟨more, hmore⟩ := hadvances.raw
          refine ⟨hbusy, fun _ => ⟨fun hnil => hraw ?_, hwritten⟩⟩
          rw [hmore, List.append_eq_nil_iff] at hnil
          rw [hmore, hnil.1, hnil.2, List.append_nil]

theorem Copied.sameBackend (h : Copied log s) (hsame : H2Stream.SameBackend s r) :
    Copied log r := by
  have hwritten : r.written = s.written := by
    unfold H2Stream.written
    rw [hsame.off, hsame.request]
  refine ⟨?_, ?_, ?_, ?_⟩
  · rw [hsame.attempts]
    exact h.attempts
  · rw [hsame.working_eq, hwritten, hsame.attempts]
    exact h.pending
  · rw [hsame.state, hwritten]
    exact h.reading
  · rw [hsame.state, hsame.working_eq, hsame.raw, hwritten]
    exact h.answered

/-- A stream that has a response, or none is submitted. -/
theorem Copied.submitted (h : Copied log s) (rc : ℤ) : Copied log (submitReadyStream rc s).1 := by
  rw [submitReadyStream_eq]
  split_ifs with hsubmits
  · have hidle := (H2Stream.submits_of (Bool.and_eq_true _ _ ▸ hsubmits).1).2.2
    refine ⟨h.attempts, h.pending, h.reading, fun hmem => ⟨(h.answered hmem).1, fun hworking => ?_⟩⟩
    exact Bool.noConfusion (hidle.symm.trans hworking)
  · exact h

/-- **A request that ends**: the backend is started, unless the request is refused. -/
theorem Copied.answerRequest (cfg : Config) (client : Client) (io : LoopbackIo) (rc : ℤ)
    {active : ℕ} (h : Copied log s) (hstate : s.backendState = .none)
    (hattempts : s.backendAttempts = 0) :
    Copied log (answerRequest cfg client io rc s active).1 := by
  have hnot : .answered ∉ log := fun hmem => (h.answered hmem).1 hstate
  have hzero : log.count .copied = 0 := Nat.le_zero.mp (hattempts ▸ h.attempts)
  have hstart : ∀ r : H2Stream, r.backendAttempts = s.backendAttempts →
      Copied log (startLoopbackRequestAsync cfg client io r active).1 := fun r hr => by
    apply Copied.start
    · rw [hr]
      exact h.attempts
    · rw [hzero]
      exact Nat.zero_le _
    · exact hnot
  unfold Rpsiod.answerRequest
  dsimp only
  split_ifs
  · exact ⟨h.attempts, h.pending, h.reading, h.answered⟩
  · exact ⟨h.attempts, h.pending, h.reading, h.answered⟩
  · exact hstart _ rfl
  · exact hstart _ rfl

/-! ### The connection -/

variable {seen : List ℤ} {events : List H2Event} {c c' : H2Conn} {handle : ℕ}

/-- What stands behind a pointer when the stream behind one has changed. -/
theorem mem_withStream {pointer : ℕ} {f : H2Stream → ℕ → H2Stream × ℕ} {e' : Entry ℤ H2Stream}
    (he' : e' ∈ (c.withStream pointer f).streams.entries) :
    ∃ e ∈ c.streams.entries, e.handle = e'.handle ∧
      e'.value = if pointer = e.handle then (f e.value c.activeBackendStreams).1 else e.value := by
  cases he : c.entryAt pointer with
  | none =>
      rw [withStream_none he] at he'
      refine ⟨e', he', rfl, ?_⟩
      rw [if_neg]
      rintro rfl
      rw [entryAt_handle he'] at he
      cases he
  | some e =>
      obtain ⟨hmem, hpointer⟩ := mem_of_entryAt he
      rw [withStream_some he] at he'
      obtain ⟨e₀, he₀, rfl⟩ := mem_adjusted.mp he'
      by_cases hsame : e₀.handle = pointer
      · have heq : e₀ = e :=
          List.inj_on_of_nodup_map c.streams.handles_nodup he₀ hmem (hsame.trans hpointer.symm)
        rw [if_pos hsame]
        refine ⟨e₀, he₀, rfl, ?_⟩
        rw [if_pos hsame.symm, heq]
      · rw [if_neg hsame]
        exact ⟨e₀, he₀, rfl, (if_neg (Ne.symm hsame)).symm⟩

theorem next_withStream (c : H2Conn) (pointer : ℕ) (f : H2Stream → ℕ → H2Stream × ℕ) :
    (c.withStream pointer f).streams.next = c.streams.next := by
  unfold H2Conn.withStream
  cases c.streams.entries.find? fun e => e.handle = pointer with
  | none => rfl
  | some e => rfl

/-- **A step on the stream behind a pointer**, with its events. -/
theorem CopyInv.step (h : CopyInv handle log c) (pointer : ℕ) (f : H2Stream → ℕ → H2Stream × ℕ)
    (more : H2Stream → List CopyEvent)
    (hstep : ∀ e ∈ c.streams.entries, e.handle = handle → pointer = handle →
      CopyLog (log ++ more e.value) ∧
        Copied (log ++ more e.value) (f e.value c.activeBackendStreams).1) :
    CopyInv handle (log ++ eventsAt c handle pointer more) (c.withStream pointer f) := by
  unfold eventsAt
  cases hwatched : c.entryAt handle with
  | none =>
      have hgone : ∀ e ∈ (c.withStream pointer f).streams.entries, e.handle ≠ handle := by
        rintro e' he' rfl
        obtain ⟨e, he, hhandle, -⟩ := mem_withStream he'
        rw [← hhandle, entryAt_handle he] at hwatched
        cases hwatched
      rw [List.append_nil]
      refine ⟨h.trace, fun e he hhandle => absurd hhandle (hgone e he), fun hnext => ?_⟩
      rw [next_withStream] at hnext
      exact h.unused hnext
  | some e =>
      obtain ⟨hmem, hhandle⟩ := mem_of_entryAt hwatched
      have hlt : handle < c.streams.next := hhandle ▸ c.streams.handles_lt e hmem
      have honly : ∀ e' ∈ c.streams.entries, e'.handle = handle → e' = e := fun e' he' hsame =>
        List.inj_on_of_nodup_map c.streams.handles_nodup he' hmem (hsame.trans hhandle.symm)
      have hunused : (c.withStream pointer f).streams.next ≤ handle → False := fun hnext => by
        rw [next_withStream] at hnext
        exact hnext.not_gt hlt
      dsimp only
      by_cases hpointer : pointer = handle
      · obtain ⟨hlog, hcopied⟩ := hstep e hmem hhandle hpointer
        rw [if_pos hpointer]
        refine ⟨hlog, fun e' he' hwatch => ?_, fun hnext => (hunused hnext).elim⟩
        obtain ⟨e₀, he₀, hold, hvalue⟩ := mem_withStream he'
        obtain rfl := honly e₀ he₀ (hold.trans hwatch)
        rw [hvalue, if_pos (hpointer.trans hhandle.symm)]
        exact hcopied
      · rw [if_neg hpointer, List.append_nil]
        refine ⟨h.trace, fun e' he' hwatch => ?_, fun hnext => (hunused hnext).elim⟩
        obtain ⟨e₀, he₀, hold, hvalue⟩ := mem_withStream he'
        rw [hvalue, if_neg fun hsame => hpointer (hsame.trans (hold.trans hwatch))]
        exact h.entry e₀ he₀ (hold.trans hwatch)

/-- A step that says nothing to the trace. -/
theorem CopyInv.quiet (h : CopyInv handle log c) (pointer : ℕ) (f : H2Stream → ℕ → H2Stream × ℕ)
    (hf : ∀ e ∈ c.streams.entries, e.handle = pointer → Copied log e.value →
      Copied log (f e.value c.activeBackendStreams).1) :
    CopyInv handle log (c.withStream pointer f) := by
  have hstep := h.step pointer f (fun _ => []) fun e he hhandle hpointer => by
    rw [List.append_nil]
    exact ⟨h.trace, hf e he (hhandle.trans hpointer.symm) (h.entry e he hhandle)⟩
  have hnone : eventsAt c handle pointer (fun _ => []) = [] := by
    unfold eventsAt
    cases c.entryAt handle with
    | none => rfl
    | some e => exact ite_self _
  rwa [hnone, List.append_nil] at hstep

theorem copyInv_getOrCreate (h : CopyInv handle log c) {allocates : Bool} {id : ℤ}
    (hcreate : getOrCreateStream allocates c id = some c') : CopyInv handle log c' := by
  rcases getOrCreateStream_cases hcreate with rfl | ⟨hnew, rfl⟩
  · exact h
  · unfold Registry.opened
    rw [dif_neg hnew]
    refine ⟨h.trace, fun e he hhandle => ?_, fun hnext => h.unused (Nat.le_of_succ_le hnext)⟩
    rcases List.mem_cons.mp he with rfl | he
    · rw [h.unused hhandle.le]
      exact copied_nil rfl
    · exact h.entry e he hhandle

theorem copyInv_removeStream (h : CopyInv handle log c) (id : ℤ) :
    CopyInv handle log (removeStream c id) := by
  unfold removeStream
  cases findStream c id with
  | none => exact h
  | some e => exact ⟨h.trace, fun e' he' => h.entry e' (mem_closed.mp he').1, h.unused⟩

/-- A callback that makes a stream, or finds it, and leaves its backend alone. -/
theorem copyInv_onStream (h : CopyInv handle log c) (allocates : Bool) (id : ℤ)
    {f : H2Stream → H2Stream} (hf : ∀ s, H2Stream.SameBackend s (f s)) :
    CopyInv handle log (match getOrCreateStream allocates c id with
      | none => c
      | some c =>
          match findStream c id with
          | none => c
          | some e => c.withStream e.handle fun s active => (f s, active)) := by
  cases hcreate : getOrCreateStream allocates c id with
  | none => exact h
  | some c' =>
      have hcreated := copyInv_getOrCreate h hcreate
      dsimp only
      cases findStream c' id with
      | none => exact hcreated
      | some e => exact hcreated.quiet e.handle _ fun e' _ _ hcopied => hcopied.sameBackend (hf _)

/-- **A callback** says nothing to the trace. -/
theorem copyInv_session (cfg : Config) (client : Client) (h : CopyInv handle log c)
    (hinv : H2Inv seen events c) (callback : Callback)
    (hids : ∀ id ∈ (H2Step.session callback).requestEnds, id ∉ seen) :
    CopyInv handle log (callback.run cfg client c) := by
  cases callback with
  | beginHeaders request id allocates =>
      cases request with
      | false => exact h
      | true =>
          exact @copyInv_onStream _ _ _ h allocates id (fun s => { s with requestSeen := true })
            fun _ => ⟨rfl, rfl, rfl, rfl, rfl, rfl, rfl⟩
  | header request id name value allocates =>
      cases request with
      | false => exact h
      | true => exact copyInv_onStream h allocates id (sameBackend_applyH2Header name value)
  | frameRecv requestEnd id loopback rc =>
      cases requestEnd with
      | false => exact h
      | true =>
          show CopyInv handle log (onFrameRecvCallback cfg client true id loopback rc c)
          unfold onFrameRecvCallback
          rw [if_pos rfl]
          cases hfind : findStream c id with
          | none => exact h
          | some e =>
              obtain ⟨hmem, rfl⟩ := mem_of_findStream hfind
              obtain ⟨hstate, hattempts, -⟩ :=
                (hinv.entries e hmem).fresh (hids _ (List.mem_singleton_self _))
              refine h.quiet e.handle _ fun e' he' hhandle hcopied => ?_
              obtain rfl := List.inj_on_of_nodup_map c.streams.handles_nodup he' hmem hhandle
              exact hcopied.answerRequest cfg client loopback rc hstate hattempts
  | streamClose id => exact copyInv_removeStream h id

/-- **What one step adds to the trace of a stream.** -/
theorem copies_step (cfg : Config) (client : Client) (h : CopyInv handle log c)
    (hinv : H2Inv seen events c) (step : H2Step) (hids : ∀ id ∈ step.requestEnds, id ∉ seen) :
    CopyInv handle (log ++ step.copyEvents handle c) (step.run cfg client c) := by
  cases step with
  | session callback =>
      exact (List.append_nil log).symm ▸ copyInv_session cfg client h hinv callback hids
  | progress pointer revents io =>
      have hstep := h.step pointer
        (fun s active => (h2ProgressBackendStream revents io s active).state)
        (fun s => progressEvents s
          (h2ProgressBackendStream revents io s c.activeBackendStreams).state.1)
        fun e he hhandle _ => by
          have hok := H2Stream.progress_ok revents io e.value c.activeBackendStreams
          have hs := (hinv.entries e he).inv
          exact (h.entry e he hhandle).progress h.trace hs (hok.keeps hs (hinv.le he)).inv
            hok.advances (H2Stream.sends_progress revents io e.value c.activeBackendStreams)
      exact hstep
  | retry pointer io =>
      have hstep := h.step pointer (retryDelayedLoopback cfg client io)
        (fun s => if s.retries io then [.restarted s.written] else [])
        fun e he hhandle _ => by
          have hcopied := h.entry e he hhandle
          split_ifs with hretries
          · exact ⟨h.trace.restarted (hcopied.not_answered hretries) _,
              hcopied.retry cfg client h.trace hretries⟩
          · rw [List.append_nil, H2Stream.retryDelayedLoopback_eq, if_neg hretries]
            exact ⟨h.trace, hcopied⟩
      exact hstep
  | submit pointer rc =>
      have hquiet := h.quiet pointer (fun s active => ((submitReadyStream rc s).1, active))
        fun e _ _ hcopied => hcopied.submitted rc
      rw [H2Step.copyEvents, List.append_nil]
      exact hquiet

/-! ### Runs -/

/-- **A run.** -/
theorem copies_runSteps (cfg : Config) (client : Client) (steps : List H2Step)
    (h : CopyInv handle log c) (hinv : H2Inv seen events c)
    (hnodup : (steps.flatMap H2Step.requestEnds).Nodup)
    (hids : ∀ id ∈ steps.flatMap H2Step.requestEnds, id ∉ seen) :
    CopyLog (log ++ copyTrace cfg client handle steps c) := by
  induction steps generalizing seen events log c with
  | nil => exact (List.append_nil log).symm ▸ h.trace
  | cons step steps ih =>
      rw [List.flatMap_cons] at hnodup hids
      obtain ⟨-, hrest, hdisjoint⟩ := List.nodup_append.mp hnodup
      have hfirst : ∀ id ∈ step.requestEnds, id ∉ seen :=
        fun id hid => hids id (List.mem_append_left _ hid)
      have hstep := copies_step cfg client h hinv step hfirst
      rw [copyTrace, ← List.append_assoc]
      refine ih hstep (inv_step cfg client hinv step hfirst) hrest fun id hid hseen => ?_
      rcases List.mem_append.mp hseen with hseen | hseen
      · exact hdisjoint id hseen id hid rfl
      · exact hids id (List.mem_append_right _ hid) hseen

theorem copyInv_empty : CopyInv handle [] {} := ⟨copyLog_nil, nofun, fun _ => rfl⟩

/-- **The copies of a loopback request**: in whatever order things happen to a connection, as long as
no stream id has two requests, the whole request of a stream is written at most eight times; at most
once more than its backend was started again behind a request that was written to its end; and
behind a response byte it is neither written nor started again. -/
theorem loopback_request_copies (cfg : Config) (client : Client) (steps : List H2Step)
    (hrequests : (steps.flatMap H2Step.requestEnds).Nodup) (handle : ℕ) :
    ∀ trace, copyTrace cfg client handle steps {} = trace →
      trace.count .copied ≤ 8 ∧
      trace.count .copied ≤ trace.count (.restarted true) + 1 ∧
      trace.Pairwise fun first second => first = .answered → second = .answered := by
  rintro trace rfl
  have h := copies_runSteps cfg client steps (@copyInv_empty handle) inv_empty hrequests
    fun _ _ => List.not_mem_nil
  exact ⟨h.bound, h.again, h.ordered⟩

/-- A backend that takes the request, and answers only when it has got it a second time. -/
def slowBackendRun : List H2Step :=
  [.session (.beginHeaders true 1 true),
    .session (.frameRecv true 1 ⟨some 7, true, .connected⟩ 0),
    .progress 0 { pollout := true } ⟨false, [.wrote 141], [.again]⟩,
    .retry 0 ⟨true, ⟨some 8, true, .connected⟩⟩,
    .progress 0 { pollout := true } ⟨false, [.wrote 141], [.again]⟩,
    .progress 0 { pollin := true } ⟨false, [], [.data [72] true, .eof]⟩,
    .submit 0 0]

/-- The request of that stream is written twice. -/
theorem slow_backend_served_twice :
    copyTrace loopbackConfig loopbackClient 0 slowBackendRun {} =
        [.copied, .restarted true, .copied, .answered] ∧
      ¬∀ (cfg : Config) (client : Client) (steps : List H2Step),
        (steps.flatMap H2Step.requestEnds).Nodup →
        ∀ handle, (copyTrace cfg client handle steps {}).count .copied ≤ 1 := by
  have htrace : copyTrace loopbackConfig loopbackClient 0 slowBackendRun {} =
      [.copied, .restarted true, .copied, .answered] := by decide +kernel
  refine ⟨htrace, fun hall => ?_⟩
  have honce := hall loopbackConfig loopbackClient slowBackendRun (by decide) 0
  rw [htrace] at honce
  exact absurd honce (by decide)

theorem loopback_request_copies_slow :
    (slowBackendRun.flatMap H2Step.requestEnds).Nodup ∧
      (copyTrace loopbackConfig loopbackClient 0 slowBackendRun {}).count .copied ≤ 8 :=
  ⟨by decide, (loopback_request_copies loopbackConfig loopbackClient slowBackendRun (by decide) 0
    _ rfl).1⟩

end Rpsiod

import Rpsiod.Http2.StaleStreams
import Rpsiod.Http2.StreamSteps

/-!
# An HTTP/2 connection in any order of steps

The loop of `rpsiod_http2_serve_connection` is left out here: a run is any list of the things that
happen to a connection, namely a callback of the session, and for one stream `h2_progress_backend_stream`,
`retry_delayed_loopback` or the body of `submit_ready_streams`.  A step has *events*: a response
that nghttp2 accepts, response bytes that are stored, a backend that is started again.

* `H2Inv`: what every reachable state satisfies, with the events so far.
* `inv_step`, `inv_runSteps`: **a step, and then a run, keeps it**.
* `backend_invariant`: **the streams, their descriptors and their counters in every reachable state,
  one response for each stream, and no retry behind a response byte**.
-/

namespace Rpsiod

open NamedObjects

/-- One thing that happens to a connection. -/
inductive H2Step where
  | session (callback : Callback)
  | progress (handle : ℕ) (revents : Revents) (io : BackendIo)
  | retry (handle : ℕ) (io : RetryIo)
  | submit (handle : ℕ) (rc : ℤ)

/-- What a step can bring about. -/
inductive H2Event where
  /-- `nghttp2_submit_response` for this stream id returns 0. -/
  | submitted (id : ℤ)
  /-- Response bytes are stored for this stream. -/
  | stored (handle : ℕ)
  /-- The backend of this stream is started again. -/
  | retried (handle : ℕ)
  deriving DecidableEq

/-- The stream behind a pointer. -/
def H2Conn.entryAt (c : H2Conn) (handle : ℕ) : Option (Entry ℤ H2Stream) :=
  c.streams.entries.find? fun e => e.handle = handle

/-- The method is answered with 405. -/
def H2Stream.refused (s : H2Stream) : Bool :=
  !streqCi s.method (ascii "GET") && !streqCi s.method (ascii "HEAD")

/-- `submit_ready_streams` has a response for the stream. -/
def H2Stream.submits (s : H2Stream) : Bool :=
  !s.responseSubmitted && (s.backendState = .done || s.backendState = .failed)

/-- The connection behind a step. -/
def H2Step.run (cfg : Config) (client : Client) (c : H2Conn) : H2Step → H2Conn
  | .session callback => callback.run cfg client c
  | .progress handle revents io =>
      c.withStream handle fun s active => (h2ProgressBackendStream revents io s active).state
  | .retry handle io => c.withStream handle (retryDelayedLoopback cfg client io)
  | .submit handle rc =>
      c.withStream handle fun s active => ((submitReadyStream rc s).1, active)

/-- An event of the stream behind a pointer, if there is one and the condition holds. -/
def eventIf (e : Option (Entry ℤ H2Stream)) (condition : H2Stream → Bool)
    (event : Entry ℤ H2Stream → H2Event) : List H2Event :=
  match e with
  | some e => if condition e.value then [event e] else []
  | none => []

/-- The events of a step. -/
def H2Step.events (c : H2Conn) : H2Step → List H2Event
  | .session (.frameRecv true id _ rc) =>
      eventIf (findStream c id) (fun s => s.refused && rc = 0) fun e => .submitted e.name
  | .session _ => []
  | .progress handle revents io =>
      eventIf (c.entryAt handle)
        (fun s => (h2ProgressBackendStream revents io s c.activeBackendStreams).state.1.rawResponse ≠
          s.rawResponse)
        fun e => .stored e.handle
  | .retry handle io => eventIf (c.entryAt handle) (·.retries io) fun e => .retried e.handle
  | .submit handle rc =>
      eventIf (c.entryAt handle) (fun s => s.submits && rc = 0) fun e => .submitted e.name

/-- A run, with its events. -/
def runSteps (cfg : Config) (client : Client) : List H2Step → H2Conn → H2Conn × List H2Event
  | [], c => (c, [])
  | step :: steps, c =>
      let r := runSteps cfg client steps (step.run cfg client c)
      (r.1, step.events c ++ r.2)

/-- The ids of the request HEADERS frames with END_STREAM. -/
def H2Step.requestEnds : H2Step → List ℤ
  | .session (.frameRecv true id _ _) => [id]
  | _ => []

/-! ### The invariant -/

/-- What a stream satisfies: `seen` are the ids of the requests that have ended, `log` the events so
far. -/
structure EntryInv (seen : List ℤ) (log : List H2Event) (e : Entry ℤ H2Stream) : Prop where
  inv : e.value.Inv
  fresh : e.name ∉ seen → e.value.backendState = .none ∧ e.value.backendAttempts = 0 ∧
    .stored e.handle ∉ log
  answered : .submitted e.name ∈ log →
    e.value.responseSubmitted = true ∨ e.value.backendState = .none
  kept : .stored e.handle ∈ log → e.value.rawResponse ≠ [] ∨ e.value.working = false

/-- What the events satisfy. -/
structure LogInv (seen : List ℤ) (log : List H2Event) (next : ℕ) : Prop where
  submitted_seen : ∀ id, .submitted id ∈ log → id ∈ seen
  submitted_once : ∀ id, log.count (.submitted id) ≤ 1
  stored_lt : ∀ handle, .stored handle ∈ log → handle < next
  retried_first : log.Pairwise fun first second =>
    ∀ handle, second = .retried handle → first ≠ .stored handle

/-- **The invariant of a connection.** -/
structure H2Inv (seen : List ℤ) (log : List H2Event) (c : H2Conn) : Prop where
  active : c.activeBackendStreams = c.streams.entries.countP fun e => e.value.isOpen
  entries : ∀ e ∈ c.streams.entries, EntryInv seen log e
  log : LogInv seen log c.streams.next

variable {seen seen' : List ℤ} {log : List H2Event} {c : H2Conn}

/-- An open backend is counted. -/
theorem H2Inv.le (h : H2Inv seen log c) {e : Entry ℤ H2Stream} (he : e ∈ c.streams.entries) :
    e.value.isOpen.toNat ≤ c.activeBackendStreams := by
  rw [h.active]
  cases hopen : e.value.isOpen with
  | false => exact Nat.zero_le _
  | true => exact List.countP_pos_iff.mpr ⟨e, he, hopen⟩

/-- A stream whose request has not ended. -/
theorem EntryInv.not_working {e : Entry ℤ H2Stream} (h : EntryInv seen log e)
    (hid : e.name ∉ seen) : e.value.working = false :=
  H2Stream.not_working_of_none (h.fresh hid).1

/-- A stream that has a response to submit. -/
theorem H2Stream.submits_of {s : H2Stream} (h : s.submits = true) :
    s.responseSubmitted = false ∧ s.backendState ≠ .none ∧ s.working = false := by
  unfold submits at h
  rw [Bool.and_eq_true, Bool.or_eq_true, Bool.not_eq_true', decide_eq_true_iff,
    decide_eq_true_iff] at h
  obtain ⟨hsubmitted, hstate⟩ := h
  refine ⟨hsubmitted, ?_⟩
  unfold working
  rcases hstate with hstate | hstate
  · rw [hstate]
    exact ⟨BackendState.noConfusion, rfl⟩
  · rw [hstate]
    exact ⟨BackendState.noConfusion, rfl⟩

/-- A stream that the new events are not about. -/
theorem EntryInv.mono {e : Entry ℤ H2Stream} (h : EntryInv seen log e) {more : List H2Event}
    (hseen : seen ⊆ seen') (hsubmitted : .submitted e.name ∉ more)
    (hstored : .stored e.handle ∉ more) : EntryInv seen' (log ++ more) e where
  inv := h.inv
  fresh := fun hname => by
    obtain ⟨hstate, hattempts, hlog⟩ := h.fresh fun hmem => hname (hseen hmem)
    refine ⟨hstate, hattempts, fun hmem => ?_⟩
    rcases List.mem_append.mp hmem with hmem | hmem
    · exact hlog hmem
    · exact hstored hmem
  answered := fun hmem => by
    rcases List.mem_append.mp hmem with hmem | hmem
    · exact h.answered hmem
    · exact absurd hmem hsubmitted
  kept := fun hmem => by
    rcases List.mem_append.mp hmem with hmem | hmem
    · exact h.kept hmem
    · exact absurd hmem hstored

/-- A run without events. -/
theorem LogInv.silent {next next' : ℕ} (h : LogInv seen log next) (hseen : seen ⊆ seen')
    (hnext : next ≤ next') : LogInv seen' log next' :=
  ⟨fun id hid => hseen (h.submitted_seen id hid), h.submitted_once,
    fun handle hhandle => (h.stored_lt handle hhandle).trans_le hnext, h.retried_first⟩

/-- One more event. -/
theorem LogInv.event {next : ℕ} (h : LogInv seen log next) (hseen : seen ⊆ seen') {e : H2Event}
    (hsubmitted : ∀ id, e = .submitted id → id ∈ seen' ∧ .submitted id ∉ log)
    (hstored : ∀ handle, e = .stored handle → handle < next)
    (hretried : ∀ handle, e = .retried handle → .stored handle ∉ log) :
    LogInv seen' (log ++ [e]) next where
  submitted_seen := fun id hmem => by
    rcases List.mem_append.mp hmem with hmem | hmem
    · exact hseen (h.submitted_seen id hmem)
    · exact (hsubmitted id (List.mem_singleton.mp hmem).symm).1
  submitted_once := fun id => by
    rw [List.count_append]
    by_cases hsame : e = .submitted id
    · rw [List.count_eq_zero_of_not_mem (hsubmitted id hsame).2, Nat.zero_add]
      exact List.count_le_length
    · have hother : List.count (.submitted id) [e] = 0 :=
        List.count_eq_zero_of_not_mem fun hmem => hsame (List.mem_singleton.mp hmem).symm
      rw [hother]
      exact h.submitted_once id
  stored_lt := fun handle hmem => by
    rcases List.mem_append.mp hmem with hmem | hmem
    · exact h.stored_lt handle hmem
    · exact hstored handle (List.mem_singleton.mp hmem).symm
  retried_first := by
    rw [List.pairwise_append]
    refine ⟨h.retried_first, List.pairwise_singleton .., ?_⟩
    intro first hfirst second hsecond handle hsame heq
    rw [List.mem_singleton.mp hsecond] at hsame
    rw [heq] at hfirst
    exact hretried handle hsame hfirst

/-- A first response for an id whose request has ended. -/
theorem LogInv.submitted {next : ℕ} (h : LogInv seen log next) (hseen : seen ⊆ seen') {id : ℤ}
    (hid : id ∈ seen') (hnew : .submitted id ∉ log) :
    LogInv seen' (log ++ [.submitted id]) next := by
  refine h.event hseen ?_ nofun nofun
  intro id' heq
  rw [← H2Event.submitted.inj heq]
  exact ⟨hid, hnew⟩

/-- Bytes that are stored. -/
theorem LogInv.stored {next : ℕ} (h : LogInv seen log next) {handle : ℕ} (hlt : handle < next) :
    LogInv seen (log ++ [.stored handle]) next := by
  refine h.event (List.Subset.refl seen) nofun ?_ nofun
  intro handle' heq
  rw [← H2Event.stored.inj heq]
  exact hlt

/-- A retry of a stream without response bytes. -/
theorem LogInv.retried {next : ℕ} (h : LogInv seen log next) {handle : ℕ}
    (hnot : .stored handle ∉ log) : LogInv seen (log ++ [.retried handle]) next := by
  refine h.event (List.Subset.refl seen) nofun nofun ?_
  intro handle' heq
  rw [← H2Event.retried.inj heq]
  exact hnot

/-! ### The steps -/

theorem mem_of_entryAt {handle : ℕ} {e : Entry ℤ H2Stream} (h : c.entryAt handle = some e) :
    e ∈ c.streams.entries ∧ e.handle = handle :=
  ⟨List.mem_of_find?_eq_some h, by simpa using List.find?_some h⟩

theorem mem_of_findStream {id : ℤ} {e : Entry ℤ H2Stream} (h : findStream c id = some e) :
    e ∈ c.streams.entries ∧ e.name = id :=
  ⟨List.mem_of_find?_eq_some h, by simpa using List.find?_some h⟩

/-- The stream behind its own pointer. -/
theorem entryAt_handle {e : Entry ℤ H2Stream} (he : e ∈ c.streams.entries) :
    c.entryAt e.handle = some e := by
  unfold H2Conn.entryAt
  cases hfind : c.streams.entries.find? fun e' => e'.handle = e.handle with
  | none => exact absurd (decide_eq_true rfl) (List.find?_eq_none.mp hfind e he)
  | some e' =>
      obtain ⟨hmem, hhandle⟩ := mem_of_entryAt hfind
      rw [List.inj_on_of_nodup_map c.streams.handles_nodup hmem he hhandle]

/-- A stale pointer. -/
theorem withStream_none {handle : ℕ} (h : c.entryAt handle = none)
    (f : H2Stream → ℕ → H2Stream × ℕ) : c.withStream handle f = c := by
  unfold H2Conn.entryAt at h
  unfold H2Conn.withStream
  rw [h]

/-- The stream behind a pointer changes, and the count with it. -/
theorem withStream_some {handle : ℕ} {e : Entry ℤ H2Stream} (h : c.entryAt handle = some e)
    (f : H2Stream → ℕ → H2Stream × ℕ) :
    c.withStream handle f =
      { streams := c.streams.adjusted handle fun _ => (f e.value c.activeBackendStreams).1
        activeBackendStreams := (f e.value c.activeBackendStreams).2 } := by
  unfold H2Conn.entryAt at h
  unfold H2Conn.withStream
  rw [h]

/-- **A step on one stream**, with its events. -/
theorem H2Inv.step {handle : ℕ} {e : Entry ℤ H2Stream} (h : H2Inv seen log c)
    (he : c.entryAt handle = some e) {f : H2Stream → ℕ → H2Stream × ℕ} {more : List H2Event}
    (hkeeps : H2Stream.Keeps e.value c.activeBackendStreams (f e.value c.activeBackendStreams))
    (hlog : LogInv seen' (log ++ more) c.streams.next)
    (hentry : EntryInv seen' (log ++ more)
      { e with value := (f e.value c.activeBackendStreams).1 })
    (hother : ∀ e' ∈ c.streams.entries, e'.handle ≠ e.handle → e'.name ≠ e.name →
      EntryInv seen' (log ++ more) e') :
    H2Inv seen' (log ++ more) (c.withStream handle f) := by
  obtain ⟨hmem, hhandle⟩ := mem_of_entryAt he
  rw [withStream_some he]
  refine ⟨?_, fun e' he' => ?_, hlog⟩
  · have hcount := countP_adjusted hmem (fun _ => (f e.value c.activeBackendStreams).1)
      H2Stream.isOpen
    have hactive := h.active
    have hbalance := hkeeps.count
    rw [hhandle] at hcount
    simp only
    omega
  · obtain ⟨e₀, he₀, rfl⟩ := mem_adjusted.mp he'
    by_cases hsame : e₀.handle = handle
    · rw [if_pos hsame]
      have heq : e₀ = e :=
        List.inj_on_of_nodup_map c.streams.handles_nodup he₀ hmem (hsame.trans hhandle.symm)
      rw [heq]
      exact hentry
    · rw [if_neg hsame]
      refine hother e₀ he₀ (fun heq => hsame (heq.trans hhandle)) fun hname => hsame ?_
      rw [List.inj_on_of_nodup_map c.streams.names_nodup he₀ hmem hname]
      exact hhandle

/-! ### One lemma for each step -/

/-- A change that is not about the backend. -/
theorem inv_sameBackend (h : H2Inv seen log c) (handle : ℕ) {f : H2Stream → H2Stream}
    (hf : ∀ s, H2Stream.SameBackend s (f s)) :
    H2Inv seen log (c.withStream handle fun s active => (f s, active)) := by
  cases he : c.entryAt handle with
  | none =>
      rw [withStream_none he]
      exact h
  | some e =>
      have hentry := h.entries e (mem_of_entryAt he).1
      have hsame := hf e.value
      have hchanged : EntryInv seen log { e with value := f e.value } := by
        refine ⟨hsame.inv hentry.inv, ?_, ?_, ?_⟩
        · rw [hsame.state, hsame.attempts]
          exact hentry.fresh
        · rw [hsame.submitted, hsame.state]
          exact hentry.answered
        · rw [hsame.raw, hsame.working_eq]
          exact hentry.kept
      have hstep := h.step he (f := fun s active => (f s, active)) (hsame.keeps hentry.inv)
        ((List.append_nil log).symm ▸ h.log) ((List.append_nil log).symm ▸ hchanged)
        fun e' he' _ _ => (List.append_nil log).symm ▸ h.entries e' he'
      rwa [List.append_nil] at hstep

theorem sameBackend_applyH2Header (name value : Bytes) (s : H2Stream) :
    H2Stream.SameBackend s (applyH2Header name value s) := by
  unfold applyH2Header
  split_ifs
  · exact ⟨rfl, rfl, rfl, rfl, rfl, rfl, rfl⟩
  · exact ⟨rfl, rfl, rfl, rfl, rfl, rfl, rfl⟩
  · exact ⟨rfl, rfl, rfl, rfl, rfl, rfl, rfl⟩
  · exact ⟨rfl, rfl, rfl, rfl, rfl, rfl, rfl⟩

/-- A new stream. -/
theorem entryInv_default (hlog : LogInv seen log c.streams.next) (id : ℤ) :
    EntryInv seen log ⟨c.streams.next, id, {}⟩ where
  inv := ⟨rfl, Nat.le_refl _, Nat.zero_le _⟩
  fresh := fun _ => ⟨rfl, rfl, fun hmem => Nat.lt_irrefl _ (hlog.stored_lt _ hmem)⟩
  answered := fun _ => Or.inr rfl
  kept := fun _ => Or.inr rfl

theorem inv_getOrCreate (h : H2Inv seen log c) {allocates : Bool} {id : ℤ} {c' : H2Conn}
    (hcreate : getOrCreateStream allocates c id = some c') : H2Inv seen log c' := by
  rcases getOrCreateStream_cases hcreate with rfl | ⟨hnew, rfl⟩
  · exact h
  · unfold Registry.opened
    rw [dif_neg hnew]
    refine ⟨?_, fun e he => ?_, h.log.silent (fun _ hid => hid) (Nat.le_succ _)⟩
    · exact h.active.trans (List.countP_cons_of_neg Bool.false_ne_true).symm
    · rcases List.mem_cons.mp he with rfl | he
      · exact entryInv_default h.log id
      · exact h.entries e he

theorem inv_removeStream (h : H2Inv seen log c) (id : ℤ) : H2Inv seen log (removeStream c id) := by
  unfold removeStream
  cases hfind : findStream c id with
  | none => exact h
  | some e =>
      have hcount := countP_closed hfind H2Stream.isOpen
      have hactive := h.active
      refine ⟨?_, fun e' he' => h.entries e' (mem_closed.mp he').1, h.log⟩
      dsimp only
      have hisOpen : e.value.backendFd.isSome = e.value.isOpen := rfl
      rw [hisOpen]
      cases hopen : e.value.isOpen with
      | false =>
          rw [hopen] at hcount
          rw [if_neg Bool.false_ne_true, hactive]
          exact hcount.symm
      | true =>
          rw [hopen] at hcount
          rw [if_pos rfl, hactive, ← hcount]
          rfl

/-- The other streams, behind an event of this one. -/
theorem H2Inv.others (h : H2Inv seen log c) {e : Entry ℤ H2Stream} {more : List H2Event}
    (hseen : seen ⊆ seen') (hmore : ∀ event ∈ more, event = .submitted e.name ∨
      event = .stored e.handle ∨ event = .retried e.handle) :
    ∀ e' ∈ c.streams.entries, e'.handle ≠ e.handle → e'.name ≠ e.name →
      EntryInv seen' (log ++ more) e' := by
  intro e' he' hhandle hname
  apply (h.entries e' he').mono hseen
  · intro hmem
    rcases hmore _ hmem with heq | heq | heq
    · exact hname (H2Event.submitted.inj heq)
    · exact nomatch heq
    · exact nomatch heq
  · intro hmem
    rcases hmore _ hmem with heq | heq | heq
    · exact nomatch heq
    · exact hhandle (H2Event.stored.inj heq)
    · exact nomatch heq

/-- A stream whose request has just ended. -/
theorem EntryInv.closed {e : Entry ℤ H2Stream} (h : EntryInv seen log e) (hid : e.name ∉ seen) :
    e.value.backendFd = none ∧ e.value.backendAttempts < backendMaxAttempts := by
  obtain ⟨-, hattempts, -⟩ := h.fresh hid
  constructor
  · rw [← Option.not_isSome_iff_eq_none, h.inv.fd_iff, h.not_working hid]
    exact Bool.false_ne_true
  · rw [hattempts]
    decide

/-- **A request that is complete**: it is refused, or its backend is started. -/
theorem inv_onFrameRecv (cfg : Config) (client : Client) (h : H2Inv seen log c) {id : ℤ}
    (hid : id ∉ seen) (loopback : LoopbackIo) (rc : ℤ) :
    H2Inv (id :: seen)
      (log ++ eventIf (findStream c id) (fun s => s.refused && rc = 0) fun e => .submitted e.name)
      (onFrameRecvCallback cfg client true id loopback rc c) := by
  have hsub : seen ⊆ id :: seen := List.subset_cons_self id seen
  unfold onFrameRecvCallback eventIf
  rw [if_pos rfl]
  cases hfind : findStream c id with
  | none =>
      simp only [List.append_nil]
      refine ⟨h.active, fun e he => ?_, h.log.silent hsub (Nat.le_refl _)⟩
      have hmono := @EntryInv.mono seen (id :: seen) log e (h.entries e he) [] hsub
        List.not_mem_nil List.not_mem_nil
      rwa [List.append_nil] at hmono
  | some e =>
      obtain ⟨hmem, rfl⟩ := mem_of_findStream hfind
      have hentry := h.entries e hmem
      obtain ⟨hfd, hlt⟩ := hentry.closed hid
      have hstored := (hentry.fresh hid).2.2
      have hnew : .submitted e.name ∉ log := fun hlog => hid (h.log.submitted_seen _ hlog)
      set s₁ : H2Stream :=
        { e.value with
          authority := if e.value.authority = [] then ascii "localhost" else e.value.authority }
        with hs₁
      have hinv : s₁.Inv := ⟨hentry.inv.fd_iff, hentry.inv.off_le, hentry.inv.attempts_le⟩
      by_cases hrefused : e.value.refused = true
      · have hanswer : ∀ active, answerRequest cfg client loopback rc e.value active =
            ({ s₁ with responseSubmitted := rc = 0 }, active) := fun active => if_pos hrefused
        have hinv' : ({ s₁ with responseSubmitted := rc = 0 } : H2Stream).Inv :=
          ⟨hinv.fd_iff, hinv.off_le, hinv.attempts_le⟩
        by_cases hrc : rc = 0
        · have hcond : (e.value.refused && decide (rc = 0)) = true := by simp [hrefused, hrc]
          simp only [hcond, if_true]
          apply h.step (entryAt_handle hmem)
          · rw [hanswer]
            exact ⟨hinv', rfl⟩
          · exact h.log.submitted hsub List.mem_cons_self hnew
          · rw [hanswer]
            refine ⟨hinv', fun hfresh => absurd List.mem_cons_self hfresh, fun _ => Or.inl ?_, ?_⟩
            · exact decide_eq_true hrc
            · intro hlog
              rcases List.mem_append.mp hlog with hlog | hlog
              · exact absurd hlog hstored
              · exact nomatch List.mem_singleton.mp hlog
          · exact h.others hsub fun event hevent => Or.inl (List.mem_singleton.mp hevent)
        · have hcond : (e.value.refused && decide (rc = 0)) = false := by simp [hrc]
          simp only [hcond, Bool.false_eq_true, if_false]
          apply h.step (entryAt_handle hmem)
          · rw [hanswer]
            exact ⟨hinv', rfl⟩
          · rw [List.append_nil]
            exact h.log.silent hsub (Nat.le_refl _)
          · rw [hanswer, List.append_nil]
            exact ⟨hinv', fun hfresh => absurd List.mem_cons_self hfresh,
              fun hlog => absurd hlog hnew, fun hlog => absurd hlog hstored⟩
          · exact h.others hsub nofun
      · have hcond : (e.value.refused && decide (rc = 0)) = false := by simp [hrefused]
        have hanswer : ∀ active, answerRequest cfg client loopback rc e.value active =
            startLoopbackRequestAsync cfg client loopback s₁ active := fun active => if_neg hrefused
        have hstart := H2Stream.keeps_start cfg client loopback hinv hfd hlt c.activeBackendStreams
        simp only [hcond, Bool.false_eq_true, if_false]
        apply h.step (entryAt_handle hmem)
        · rw [hanswer]
          exact ⟨hstart.inv, hstart.count⟩
        · rw [List.append_nil]
          exact h.log.silent hsub (Nat.le_refl _)
        · rw [hanswer, List.append_nil]
          exact ⟨hstart.inv, fun hfresh => absurd List.mem_cons_self hfresh,
            fun hlog => absurd hlog hnew, fun hlog => absurd hlog hstored⟩
        · exact h.others hsub nofun

/-- **A backend that is ready.** -/
theorem inv_progress (h : H2Inv seen log c) (handle : ℕ) (revents : Revents) (io : BackendIo) :
    H2Inv seen (log ++ eventIf (c.entryAt handle)
        (fun s => (h2ProgressBackendStream revents io s c.activeBackendStreams).state.1.rawResponse ≠
          s.rawResponse)
        fun e => .stored e.handle)
      (c.withStream handle fun s active => (h2ProgressBackendStream revents io s active).state) := by
  unfold eventIf
  cases he : c.entryAt handle with
  | none =>
      rw [withStream_none he, List.append_nil]
      exact h
  | some e =>
      obtain ⟨hmem, hhandle⟩ := mem_of_entryAt he
      have hentry := h.entries e hmem
      have hok := H2Stream.progress_ok revents io e.value c.activeBackendStreams
      have hkeeps := hok.keeps hentry.inv (h.le hmem)
      have hidle := hok.advances.idle
      have hfresh : e.name ∉ seen →
          (h2ProgressBackendStream revents io e.value c.activeBackendStreams).state.1 = e.value :=
        fun hid => hidle (hentry.not_working hid)
      -- the stream behind the step, whatever the events before it
      have hafter : ∀ more : List H2Event, .submitted e.name ∉ more →
          (.stored e.handle ∈ more →
            (h2ProgressBackendStream revents io e.value c.activeBackendStreams).state.1.rawResponse
              ≠ e.value.rawResponse) →
          EntryInv seen (log ++ more) { e with
            value := (h2ProgressBackendStream revents io e.value c.activeBackendStreams).state.1 } := by
        intro more hsubmitted hstored
        refine ⟨hkeeps.inv, fun hid => ?_, fun hlog => ?_, fun hlog => ?_⟩
        · obtain ⟨hstate, hattempts, hlog⟩ := hentry.fresh hid
          have hsame := hfresh hid
          refine ⟨?_, ?_, fun hmem => ?_⟩
          · exact (congrArg H2Stream.backendState hsame).trans hstate
          · exact (congrArg H2Stream.backendAttempts hsame).trans hattempts
          · rcases List.mem_append.mp hmem with hmem | hmem
            · exact hlog hmem
            · exact hstored hmem (congrArg H2Stream.rawResponse hsame)
        · rcases List.mem_append.mp hlog with hlog | hlog
          · rcases hentry.answered hlog with hdone | hnone
            · exact Or.inl (hok.advances.submitted.trans hdone)
            · have hsame := hidle (H2Stream.not_working_of_none hnone)
              exact Or.inr ((congrArg H2Stream.backendState hsame).trans hnone)
          · exact absurd hlog hsubmitted
        · rcases List.mem_append.mp hlog with hlog | hlog
          · rcases hentry.kept hlog with hraw | hworking
            · exact Or.inl (hok.advances.raw_ne_nil hraw)
            · exact Or.inr ((congrArg H2Stream.working (hidle hworking)).trans hworking)
          · obtain ⟨bytes, hbytes⟩ := hok.advances.raw
            refine Or.inl fun hnil => hstored hlog ?_
            rw [hbytes, List.append_eq_nil_iff] at hnil
            rw [hbytes, hnil.1, hnil.2, List.append_nil]
      dsimp only
      split_ifs with hchanged
      · have hnew := of_decide_eq_true hchanged
        apply h.step he hkeeps
        · exact h.log.stored (c.streams.handles_lt e hmem)
        · exact hafter _ (fun hmem => nomatch List.mem_singleton.mp hmem) fun _ => hnew
        · exact h.others (fun _ hid => hid) fun event hevent =>
            Or.inr (Or.inl (List.mem_singleton.mp hevent))
      · apply h.step he hkeeps
        · rw [List.append_nil]
          exact h.log
        · exact hafter _ List.not_mem_nil fun hmem => absurd hmem List.not_mem_nil
        · exact h.others (fun _ hid => hid) nofun

/-- **A retry.** -/
theorem inv_retry (cfg : Config) (client : Client) (h : H2Inv seen log c) (handle : ℕ)
    (io : RetryIo) :
    H2Inv seen (log ++ eventIf (c.entryAt handle) (·.retries io) fun e => .retried e.handle)
      (c.withStream handle (retryDelayedLoopback cfg client io)) := by
  unfold eventIf
  cases he : c.entryAt handle with
  | none =>
      rw [withStream_none he, List.append_nil]
      exact h
  | some e =>
      obtain ⟨hmem, hhandle⟩ := mem_of_entryAt he
      have hentry := h.entries e hmem
      have hkeeps := H2Stream.keeps_retry cfg client io hentry.inv (h.le hmem)
      dsimp only
      by_cases hretries : e.value.retries io = true
      · obtain ⟨hraw, hworking⟩ := H2Stream.retries_of hretries
        have hnot : .stored e.handle ∉ log := fun hlog => by
          rcases hentry.kept hlog with hkept | hidle
          · exact hkept hraw
          · rw [hworking] at hidle
            exact Bool.noConfusion hidle
        have hstored : .stored e.handle ∉ log ++ [.retried e.handle] := fun hlog => by
          rcases List.mem_append.mp hlog with hlog | hlog
          · exact hnot hlog
          · exact nomatch List.mem_singleton.mp hlog
        rw [if_pos hretries]
        apply h.step he hkeeps
        · exact h.log.retried hnot
        · refine ⟨hkeeps.inv, fun hid => ?_, fun hlog => ?_, fun hlog => absurd hlog hstored⟩
          · rw [hentry.not_working hid] at hworking
            exact Bool.noConfusion hworking
          · rw [H2Stream.retryDelayedLoopback_eq, if_pos hretries]
            obtain ⟨-, -, hsubmitted⟩ := H2Stream.start_busy cfg client io.loopback e.value.reset
              (c.activeBackendStreams - e.value.isOpen.toNat)
            rcases List.mem_append.mp hlog with hlog | hlog
            · rcases hentry.answered hlog with hdone | hnone
              · exact Or.inl (hsubmitted.trans hdone)
              · rw [H2Stream.not_working_of_none hnone] at hworking
                exact Bool.noConfusion hworking
            · exact nomatch List.mem_singleton.mp hlog
        · exact h.others (fun _ hid => hid) fun event hevent =>
            Or.inr (Or.inr (List.mem_singleton.mp hevent))
      · have hsame : ∀ active, retryDelayedLoopback cfg client io e.value active =
            (e.value, active) := fun active => by
          rw [H2Stream.retryDelayedLoopback_eq, if_neg hretries]
        rw [if_neg hretries]
        apply h.step he hkeeps
        · rw [List.append_nil]
          exact h.log
        · rw [hsame, List.append_nil]
          exact hentry
        · exact h.others (fun _ hid => hid) nofun

/-- `submit_ready_streams` on a stream it has a response for, and on any other. -/
theorem submitReadyStream_eq (rc : ℤ) (s : H2Stream) :
    (submitReadyStream rc s).1 =
      if s.submits && rc = 0 then { s with responseSubmitted := true, rawResponse := [] }
      else s := by
  unfold submitReadyStream H2Stream.submits
  cases s.responseSubmitted with
  | true => rfl
  | false =>
      rw [if_neg Bool.false_ne_true]
      by_cases hended : (s.backendState = .done || s.backendState = .failed) = true
      · by_cases hrc : rc = 0
        · simp [hended, hrc]
        · simp [hended, hrc]
      · simp [hended]

/-- **A response that is ready.** -/
theorem inv_submit (h : H2Inv seen log c) (handle : ℕ) (rc : ℤ) :
    H2Inv seen
      (log ++ eventIf (c.entryAt handle) (fun s => s.submits && rc = 0) fun e => .submitted e.name)
      (c.withStream handle fun s active => ((submitReadyStream rc s).1, active)) := by
  unfold eventIf
  cases he : c.entryAt handle with
  | none =>
      rw [withStream_none he, List.append_nil]
      exact h
  | some e =>
      obtain ⟨hmem, hhandle⟩ := mem_of_entryAt he
      have hentry := h.entries e hmem
      dsimp only
      by_cases hsubmits : (e.value.submits && decide (rc = 0)) = true
      · have hended := H2Stream.submits_of (Bool.and_eq_true _ _ ▸ hsubmits).1
        have hid : e.name ∈ seen := by
          by_contra hnot
          obtain ⟨hstate, -, -⟩ := hentry.fresh hnot
          exact hended.2.1 hstate
        have hnew : .submitted e.name ∉ log := fun hlog => by
          rcases hentry.answered hlog with hdone | hnone
          · rw [hended.1] at hdone
            exact Bool.noConfusion hdone
          · exact hended.2.1 hnone
        have hafter : (submitReadyStream rc e.value).1 =
            { e.value with responseSubmitted := true, rawResponse := [] } := by
          rw [submitReadyStream_eq, if_pos hsubmits]
        have hinv : ({ e.value with responseSubmitted := true, rawResponse := [] } : H2Stream).Inv :=
          ⟨hentry.inv.fd_iff, hentry.inv.off_le, hentry.inv.attempts_le⟩
        rw [if_pos hsubmits]
        apply h.step he
        · rw [hafter]
          exact ⟨hinv, rfl⟩
        · exact h.log.submitted (fun _ hid => hid) hid hnew
        · rw [hafter]
          exact ⟨hinv, fun hnot => absurd hid hnot, fun _ => Or.inl rfl, fun _ => Or.inr hended.2.2⟩
        · exact h.others (fun _ hid => hid) fun event hevent =>
            Or.inl (List.mem_singleton.mp hevent)
      · have hsame : (submitReadyStream rc e.value).1 = e.value := by
          rw [submitReadyStream_eq, if_neg hsubmits]
        rw [if_neg hsubmits]
        apply h.step he
        · rw [hsame]
          exact .refl hentry.inv
        · rw [List.append_nil]
          exact h.log
        · rw [hsame, List.append_nil]
          exact hentry
        · exact h.others (fun _ hid => hid) nofun

/-- A stream is looked for, created if it is not there, and changed where its backend is not. -/
theorem inv_createdStream (h : H2Inv seen log c) (id : ℤ) (allocates : Bool)
    {f : H2Stream → H2Stream} (hf : ∀ s, H2Stream.SameBackend s (f s)) :
    H2Inv seen log
      (match getOrCreateStream allocates c id with
      | none => c
      | some c =>
          match findStream c id with
          | none => c
          | some e => c.withStream e.handle fun s active => (f s, active)) := by
  cases hcreate : getOrCreateStream allocates c id with
  | none => exact h
  | some c' =>
      have hcreated := inv_getOrCreate h hcreate
      dsimp only
      cases findStream c' id with
      | none => exact hcreated
      | some e => exact inv_sameBackend hcreated e.handle hf

theorem inv_onBeginHeaders (h : H2Inv seen log c) (request : Bool) (id : ℤ) (allocates : Bool) :
    H2Inv seen log (onBeginHeadersCallback request id allocates c) := by
  cases request with
  | false => exact h
  | true =>
      apply inv_createdStream h id allocates (f := fun s => { s with requestSeen := true })
      exact fun s => ⟨rfl, rfl, rfl, rfl, rfl, rfl, rfl⟩

theorem inv_onHeader (h : H2Inv seen log c) (request : Bool) (id : ℤ) (name value : Bytes)
    (allocates : Bool) : H2Inv seen log (onHeaderCallback request id name value allocates c) := by
  cases request with
  | false => exact h
  | true => exact inv_createdStream h id allocates (sameBackend_applyH2Header name value)

/-! ### Runs -/

/-- **A step keeps the invariant**, with its events, if it is no second request for an id. -/
theorem inv_step (cfg : Config) (client : Client) (h : H2Inv seen log c) (step : H2Step)
    (hids : ∀ id ∈ step.requestEnds, id ∉ seen) :
    H2Inv (step.requestEnds ++ seen) (log ++ step.events c) (step.run cfg client c) := by
  cases step with
  | session callback =>
      cases callback with
      | beginHeaders request id allocates =>
          exact (List.append_nil log).symm ▸ inv_onBeginHeaders h request id allocates
      | header request id name value allocates =>
          exact (List.append_nil log).symm ▸ inv_onHeader h request id name value allocates
      | frameRecv requestEnd id loopback rc =>
          cases requestEnd with
          | false => exact (List.append_nil log).symm ▸ h
          | true => exact inv_onFrameRecv cfg client h (hids id (List.mem_singleton_self id)) loopback rc
      | streamClose id => exact (List.append_nil log).symm ▸ inv_removeStream h id
  | progress handle revents io => exact inv_progress h handle revents io
  | retry handle io => exact inv_retry cfg client h handle io
  | submit handle rc => exact inv_submit h handle rc

/-- **A run keeps it**, if no id has two requests. -/
theorem inv_runSteps (cfg : Config) (client : Client) (steps : List H2Step)
    (h : H2Inv seen log c) (hnodup : (steps.flatMap H2Step.requestEnds).Nodup)
    (hids : ∀ id ∈ steps.flatMap H2Step.requestEnds, id ∉ seen) :
    ∃ seen', H2Inv seen' (log ++ (runSteps cfg client steps c).2) (runSteps cfg client steps c).1 := by
  induction steps generalizing seen log c with
  | nil => exact ⟨seen, (List.append_nil log).symm ▸ h⟩
  | cons step steps ih =>
      rw [List.flatMap_cons] at hnodup hids
      obtain ⟨-, hrest, hdisjoint⟩ := List.nodup_append.mp hnodup
      have hstep := inv_step cfg client h step fun id hid => hids id (List.mem_append_left _ hid)
      obtain ⟨seen', hrun⟩ := ih hstep hrest fun id hid hseen => by
        rcases List.mem_append.mp hseen with hseen | hseen
        · exact hdisjoint id hseen id hid rfl
        · exact hids id (List.mem_append_right _ hid) hseen
      refine ⟨seen', ?_⟩
      rw [List.append_assoc] at hrun
      exact hrun

theorem inv_empty : H2Inv [] [] {} where
  active := rfl
  entries := nofun
  log := ⟨nofun, fun _ => Nat.zero_le _, nofun, List.Pairwise.nil⟩

/-- **The state machine of the backends**: whatever happens to a connection in whatever order, as
long as no stream id has two requests. -/
theorem backend_invariant (cfg : Config) (client : Client) (steps : List H2Step)
    (hrequests : (steps.flatMap H2Step.requestEnds).Nodup) :
    ∀ conn events, runSteps cfg client steps {} = (conn, events) →
      (conn.streams.entries.map Entry.name).Nodup ∧
      (∀ e ∈ conn.streams.entries,
        (e.value.backendFd.isSome ↔ e.value.backendState = .connecting ∨
          e.value.backendState = .writing ∨ e.value.backendState = .reading) ∧
        (e.value.backendFd.isSome → 0 < conn.activeBackendStreams) ∧
        e.value.backendRequestOff ≤ e.value.backendRequest.length ∧
        e.value.backendAttempts ≤ 8) ∧
      conn.activeBackendStreams =
        conn.streams.entries.countP (fun e => e.value.backendFd.isSome) ∧
      (∀ id, events.count (.submitted id) ≤ 1) ∧
      events.Pairwise fun first second =>
        ∀ handle, second = .retried handle → first ≠ .stored handle := by
  intro conn events hrun
  obtain ⟨seen, h⟩ := inv_runSteps cfg client steps inv_empty hrequests fun _ _ => List.not_mem_nil
  rw [hrun, List.nil_append] at h
  refine ⟨conn.streams.names_nodup, fun e he => ?_, h.active, h.log.submitted_once,
    h.log.retried_first⟩
  have hinv := (h.entries e he).inv
  refine ⟨?_, fun hopen => ?_, hinv.off_le, hinv.attempts_le⟩
  · rw [hinv.fd_iff]
    unfold H2Stream.working
    simp only [Bool.or_eq_true, decide_eq_true_iff, or_assoc]
  · have hle := h.le he
    unfold H2Stream.isOpen at hle
    rw [hopen] at hle
    exact hle

/-- A request whose backend is started twice, and then answers. -/
def retriedRun : List H2Step :=
  [.session (.beginHeaders true 1 true),
    .session (.frameRecv true 1 ⟨some 7, true, .inProgress⟩ 0),
    .retry 0 ⟨true, ⟨some 8, true, .connected⟩⟩,
    .progress 0 { pollin := true } ⟨false, [.wrote 100, .wrote 200], [.data [72] true, .eof]⟩,
    .submit 0 0]

theorem backend_invariant_retriedRun :
    (runSteps loopbackConfig loopbackClient retriedRun {}).2 =
        [.retried 0, .stored 0, .submitted 1] ∧
      (retriedRun.flatMap H2Step.requestEnds).Nodup ∧
      (runSteps loopbackConfig loopbackClient retriedRun {}).1.activeBackendStreams =
        (runSteps loopbackConfig loopbackClient retriedRun {}).1.streams.entries.countP
          (fun e => e.value.backendFd.isSome) :=
  ⟨by decide +kernel, by decide, (backend_invariant loopbackConfig loopbackClient retriedRun
    (by decide) _ _ rfl).2.2.1⟩

end Rpsiod

import Rpsiod.Http2.Stream

/-!
# What the steps do to a stream

One lemma for each function of `http2.c` on a stream.  A stream in good order has a descriptor exactly
while its backend is at work, its offset is within its request, and it has not been tried too often;
`Keeps` says that a step leaves the stream in good order and counts the open backends right, and
`Advances` what a step on an open backend can change.

* `keeps_start`, `keeps_retry`, `progress_ok`: **the functions that start, retry and drive a
  backend**.
-/

namespace Rpsiod

namespace H2Stream

/-- What every stream satisfies. -/
structure Inv (s : H2Stream) : Prop where
  fd_iff : s.backendFd.isSome = s.working
  off_le : s.backendRequestOff ≤ s.backendRequest.length
  attempts_le : s.backendAttempts ≤ backendMaxAttempts

theorem not_working_of_none {s : H2Stream} (h : s.backendState = .none) : s.working = false := by
  unfold working
  rw [h]
  rfl

/-- The backend has a descriptor. -/
def isOpen (s : H2Stream) : Bool := s.backendFd.isSome

/-- The stream is in good order behind a step, and the open backends are counted right. -/
structure Keeps (s : H2Stream) (active : ℕ) (r : H2Stream × ℕ) : Prop where
  inv : r.1.Inv
  count : r.2 + s.isOpen.toNat = active + r.1.isOpen.toNat

/-- What a step on an open backend can change. -/
structure Advances (s r : H2Stream) : Prop where
  submitted : r.responseSubmitted = s.responseSubmitted
  attempts : r.backendAttempts = s.backendAttempts
  raw : ∃ more, r.rawResponse = s.rawResponse ++ more
  working : r.working = true → s.working = true
  busy : s.backendState ≠ .none → r.backendState ≠ .none
  idle : s.working = false → r = s

variable {s r : H2Stream} {active : ℕ}

theorem Keeps.refl (h : s.Inv) : Keeps s active (s, active) := ⟨h, rfl⟩

theorem Keeps.trans {p q : H2Stream × ℕ} (first : Keeps s active p) (second : Keeps p.1 p.2 q) :
    Keeps s active q := by
  refine ⟨second.inv, ?_⟩
  have h₁ := first.count
  have h₂ := second.count
  omega

/-- An open backend is still counted. -/
theorem Keeps.le {p : H2Stream × ℕ} (h : Keeps s active p) (hactive : s.isOpen.toNat ≤ active) :
    p.1.isOpen.toNat ≤ p.2 := by
  have := h.count
  omega

theorem Advances.refl : Advances s s :=
  ⟨rfl, rfl, ⟨[], (List.append_nil _).symm⟩, id, id, fun _ => rfl⟩

theorem Advances.trans {t : H2Stream} (first : Advances s r) (second : Advances r t) :
    Advances s t where
  submitted := second.submitted.trans first.submitted
  attempts := second.attempts.trans first.attempts
  raw := by
    obtain ⟨more, hmore⟩ := first.raw
    obtain ⟨more', hmore'⟩ := second.raw
    exact ⟨more ++ more', by rw [hmore', hmore, List.append_assoc]⟩
  working := fun h => first.working (second.working h)
  busy := fun h => second.busy (first.busy h)
  idle := fun h => by
    have hsame := first.idle h
    rw [hsame] at second
    exact second.idle h

/-- Stored bytes stay. -/
theorem Advances.raw_ne_nil (h : Advances s r) (hraw : s.rawResponse ≠ []) :
    r.rawResponse ≠ [] := by
  obtain ⟨more, hmore⟩ := h.raw
  rw [hmore]
  exact List.append_ne_nil_of_left_ne_nil hraw more

/-- The backend of a stream is as it was. -/
structure SameBackend (s r : H2Stream) : Prop where
  fd : r.backendFd = s.backendFd
  state : r.backendState = s.backendState
  request : r.backendRequest = s.backendRequest
  off : r.backendRequestOff = s.backendRequestOff
  attempts : r.backendAttempts = s.backendAttempts
  raw : r.rawResponse = s.rawResponse
  submitted : r.responseSubmitted = s.responseSubmitted

theorem SameBackend.working_eq (h : SameBackend s r) : r.working = s.working := by
  unfold working
  rw [h.state]

theorem SameBackend.inv (h : SameBackend s r) (hinv : s.Inv) : r.Inv where
  fd_iff := by rw [h.fd, h.working_eq, hinv.fd_iff]
  off_le := by rw [h.off, h.request]; exact hinv.off_le
  attempts_le := by rw [h.attempts]; exact hinv.attempts_le

theorem SameBackend.keeps (h : SameBackend s r) (hinv : s.Inv) : Keeps s active (r, active) := by
  refine ⟨h.inv hinv, ?_⟩
  show active + s.backendFd.isSome.toNat = active + r.backendFd.isSome.toNat
  rw [h.fd]

/-! ### Closing -/

theorem closeBackendStream_eq (s : H2Stream) (active : ℕ) :
    closeBackendStream s active = ({ s with backendFd := none }, active - s.isOpen.toNat) := by
  obtain ⟨method, path, authority, requestSeen, fd, state, request, off, raw, attempts, submitted⟩ := s
  cases fd with
  | none => rfl
  | some fd => rfl

theorem failBackend_eq (s : H2Stream) (active : ℕ) :
    failBackend s active =
      ({ s with backendFd := none, backendState := .failed }, active - s.isOpen.toNat) := by
  unfold failBackend
  rw [closeBackendStream_eq]

/-- The same stream without its descriptor, when its backend is done or has failed. -/
theorem inv_ended (h : s.Inv) {state : BackendState}
    (hstate : state = .done ∨ state = .failed ∨ state = .none) :
    ({ s with backendFd := none, backendState := state } : H2Stream).Inv := by
  refine ⟨?_, h.off_le, h.attempts_le⟩
  rcases hstate with rfl | rfl | rfl
  · rfl
  · rfl
  · rfl

theorem keeps_fail (h : s.Inv) (hactive : s.isOpen.toNat ≤ active) :
    Keeps s active (failBackend s active) := by
  rw [failBackend_eq]
  exact ⟨inv_ended h (Or.inr (Or.inl rfl)), Nat.sub_add_cancel hactive⟩

/-- A backend at work that ends. -/
theorem advances_ended (hworking : s.working = true) {state : BackendState}
    (hstate : state = .done ∨ state = .failed) :
    Advances s { s with backendFd := none, backendState := state } where
  submitted := rfl
  attempts := rfl
  raw := ⟨[], (List.append_nil _).symm⟩
  working := fun _ => hworking
  busy := fun _ => by
    rcases hstate with rfl | rfl
    · exact BackendState.noConfusion
    · exact BackendState.noConfusion
  idle := fun h => absurd hworking (by rw [h]; exact Bool.false_ne_true)

theorem advances_fail (hworking : s.working = true) : Advances s (failBackend s active).1 := by
  rw [failBackend_eq]
  exact advances_ended hworking (Or.inr rfl)

/-! ### Starting and retrying -/

/-- A closed stream that has failed. -/
theorem keeps_failed (h : s.Inv) (hfd : s.backendFd = none) :
    Keeps s active ({ s with backendState := .failed }, active) := by
  have hsame : ({ s with backendFd := none, backendState := .failed } : H2Stream) =
      { s with backendState := .failed } := by rw [hfd]
  refine ⟨?_, rfl⟩
  rw [← hsame]
  exact inv_ended h (Or.inr (Or.inl rfl))

/-- A stream whose backend has just been started. -/
def started (client : Client) (s : H2Stream) (fd : ℕ) (state : BackendState) : H2Stream :=
  { s with
    backendRequest := loopbackRequest client s
    backendRequestOff := 0
    backendFd := some fd
    backendState := state
    backendAttempts := s.backendAttempts + 1 }

/-- **What `start_loopback_request_async` can do**: fail in front of `connect`, start a backend, or
fail in `connect`. -/
theorem start_cases (cfg : Config) (client : Client) (io : LoopbackIo) (s : H2Stream)
    (active : ℕ) :
    startLoopbackRequestAsync cfg client io s active =
        ({ s with backendState := .failed }, active) ∨
      ∃ fd, io.socket = some fd ∧
        ((∃ state, (state = .connecting ∨ state = .writing) ∧
            startLoopbackRequestAsync cfg client io s active =
              (s.started client fd state, active + 1)) ∨
          startLoopbackRequestAsync cfg client io s active =
            ({ s.started client fd .connecting with
              backendFd := none, backendState := .failed }, active)) := by
  unfold startLoopbackRequestAsync
  cases findSiteForListener cfg (loopbackAuthority s) client.localPort client.serverIp.bytes with
  | none => exact Or.inl rfl
  | some site =>
      dsimp only
      by_cases hport : site.httpPort = 0
      · rw [if_pos hport]
        exact Or.inl rfl
      rw [if_neg hport]
      cases io.socket with
      | none => exact Or.inl rfl
      | some fd =>
          dsimp only
          cases io.setNonblocking with
          | false => exact Or.inl rfl
          | true =>
              by_cases hlength : 8192 ≤ (loopbackRequest client s).length
              · rw [if_neg (by decide), if_pos hlength]
                exact Or.inl rfl
              rw [if_neg (by decide), if_neg hlength]
              refine Or.inr ⟨fd, rfl, ?_⟩
              cases io.connect with
              | connected => exact Or.inl ⟨.writing, Or.inr rfl, rfl⟩
              | inProgress => exact Or.inl ⟨.connecting, Or.inl rfl, rfl⟩
              | failed =>
                  dsimp only
                  rw [failBackend_eq]
                  exact Or.inr rfl

theorem inv_started (client : Client) (hlt : s.backendAttempts < backendMaxAttempts) (fd : ℕ)
    {state : BackendState} (hstate : state = .connecting ∨ state = .writing) :
    (s.started client fd state).Inv := by
  refine ⟨?_, Nat.zero_le _, hlt⟩
  rcases hstate with rfl | rfl
  · rfl
  · rfl

/-- **`start_loopback_request_async`** on a stream without a descriptor. -/
theorem keeps_start (cfg : Config) (client : Client) (io : LoopbackIo) (h : s.Inv)
    (hfd : s.backendFd = none) (hlt : s.backendAttempts < backendMaxAttempts) (active : ℕ) :
    Keeps s active (startLoopbackRequestAsync cfg client io s active) := by
  have hclosed : s.isOpen.toNat = 0 := by
    unfold isOpen
    rw [hfd]
    rfl
  rcases start_cases cfg client io s active with
    hfailed | ⟨fd, -, ⟨state, hstate, hstarted⟩ | hfailed⟩
  · rw [hfailed]
    exact keeps_failed h hfd
  · rw [hstarted]
    refine ⟨inv_started client hlt fd hstate, ?_⟩
    rw [hclosed]
    rfl
  · rw [hfailed]
    refine ⟨inv_ended (inv_started client hlt fd (Or.inl rfl)) (Or.inr (Or.inl rfl)), ?_⟩
    rw [hclosed]
    rfl

/-- Starting a backend leaves a state other than `none`, whatever comes of it, and stores and
submits nothing. -/
theorem start_busy (cfg : Config) (client : Client) (io : LoopbackIo) (s : H2Stream) (active : ℕ) :
    (startLoopbackRequestAsync cfg client io s active).1.backendState ≠ .none ∧
      (startLoopbackRequestAsync cfg client io s active).1.rawResponse = s.rawResponse ∧
      (startLoopbackRequestAsync cfg client io s active).1.responseSubmitted =
        s.responseSubmitted := by
  rcases start_cases cfg client io s active with
    hfailed | ⟨fd, -, ⟨state, hstate, hstarted⟩ | hfailed⟩
  · rw [hfailed]
    exact ⟨BackendState.noConfusion, rfl, rfl⟩
  · rw [hstarted]
    refine ⟨?_, rfl, rfl⟩
    rcases hstate with rfl | rfl
    · exact BackendState.noConfusion
    · exact BackendState.noConfusion
  · rw [hfailed]
    exact ⟨BackendState.noConfusion, rfl, rfl⟩

/-- `retry_delayed_loopback` does start the backend again. -/
def retries (io : RetryIo) (s : H2Stream) : Bool :=
  s.backendAttempts < backendMaxAttempts && s.rawResponse = [] && s.working && io.due

theorem retries_of {io : RetryIo} (h : s.retries io = true) :
    s.rawResponse = [] ∧ s.working = true := by
  unfold retries at h
  simp only [Bool.and_eq_true, decide_eq_true_iff] at h
  exact ⟨h.1.1.2, h.1.2⟩

/-- The stream that is started again. -/
def reset (s : H2Stream) : H2Stream :=
  { s with
    backendFd := none
    rawResponse := []
    backendRequest := []
    backendRequestOff := 0
    backendState := .none }

theorem retryDelayedLoopback_eq (cfg : Config) (client : Client) (io : RetryIo) (s : H2Stream)
    (active : ℕ) :
    retryDelayedLoopback cfg client io s active =
      if s.retries io then
        startLoopbackRequestAsync cfg client io.loopback s.reset (active - s.isOpen.toNat)
      else (s, active) := by
  unfold retryDelayedLoopback retries reset
  rw [closeBackendStream_eq]
  by_cases hmax : backendMaxAttempts ≤ s.backendAttempts
  · simp [hmax]
  by_cases hraw : s.rawResponse = []
  · cases hworking : s.working with
    | false => simp
    | true =>
        cases hdue : io.due with
        | false => simp
        | true => simp [hraw, hmax, not_le.mp hmax]
  · simp [hraw]

/-- **`retry_delayed_loopback`**. -/
theorem keeps_retry (cfg : Config) (client : Client) (io : RetryIo) (h : s.Inv)
    (hactive : s.isOpen.toNat ≤ active) :
    Keeps s active (retryDelayedLoopback cfg client io s active) := by
  rw [retryDelayedLoopback_eq]
  by_cases hretries : s.retries io = true
  · have hlt : s.backendAttempts < backendMaxAttempts := by
      unfold retries at hretries
      simp only [Bool.and_eq_true, decide_eq_true_iff] at hretries
      exact hretries.1.1.1
    have hreset : s.reset.Inv := ⟨rfl, Nat.zero_le _, h.attempts_le⟩
    have hstart := keeps_start cfg client io.loopback hreset rfl hlt (active - s.isOpen.toNat)
    rw [if_pos hretries]
    refine ⟨hstart.inv, ?_⟩
    have hcount := hstart.count
    have hclosed : s.reset.isOpen.toNat = 0 := rfl
    omega
  · rw [if_neg hretries]
    exact .refl h

/-! ### A backend that is ready -/

/-- A part of `h2_progress_backend_stream` only advances the stream, and keeps one in good order. -/
structure Ok (s : H2Stream) (active : ℕ) (p : Progress) : Prop where
  keeps : s.Inv → s.isOpen.toNat ≤ active → Keeps s active p.state
  advances : Advances s p.state.1

theorem ok_refl : Ok s active (.next s active) := ⟨fun h _ => .refl h, .refl⟩

theorem ok_stop (rc : ℤ) : Ok s active (.stop s active rc) := ⟨fun h _ => .refl h, .refl⟩

theorem ok_fail (hworking : s.working = true) : Ok s active (.fail s active) :=
  ⟨keeps_fail, advances_fail hworking⟩

theorem Ok.bind {p : Progress} {next : H2Stream → ℕ → Progress} (h : Ok s active p)
    (hnext : ∀ s active, Ok s active (next s active)) : Ok s active (p.bind next) := by
  cases p with
  | stop s' active' rc => exact h
  | next s' active' =>
      have hthen := hnext s' active'
      refine ⟨fun hinv hactive => ?_, h.advances.trans hthen.advances⟩
      have hkeeps := h.keeps hinv hactive
      exact hkeeps.trans (hthen.keeps hkeeps.inv (hkeeps.le hactive))

/-- Behind a change of a stream that is at work and stays so. -/
theorem Ok.after {p : Progress} (h : Ok r active p) (hs : s.working = true)
    (hinv : s.Inv → r.Inv) (hopen : r.isOpen = s.isOpen)
    (hsubmitted : r.responseSubmitted = s.responseSubmitted)
    (hattempts : r.backendAttempts = s.backendAttempts)
    (hraw : ∃ more, r.rawResponse = s.rawResponse ++ more) (hstate : r.backendState ≠ .none) :
    Ok s active p where
  keeps := fun hs' hactive => by
    have hkeeps : Keeps s active (r, active) := ⟨hinv hs', by rw [hopen]⟩
    exact hkeeps.trans (h.keeps hkeeps.inv (hkeeps.le hactive))
  advances := by
    have hadvances : Advances s r := by
      refine ⟨hsubmitted, hattempts, hraw, fun _ => hs, fun _ => hstate, fun hidle => ?_⟩
      rw [hidle] at hs
      exact Bool.noConfusion hs
    exact hadvances.trans h.advances

theorem working_of_state {state : BackendState}
    (h : state = .connecting ∨ state = .writing ∨ state = .reading) (hs : s.backendState = state) :
    s.working = true := by
  unfold working
  rw [hs]
  rcases h with rfl | rfl | rfl
  · rfl
  · rfl
  · rfl

/-- A backend at work that goes on to its next state. -/
theorem ok_nextState (hworking : s.working = true) {state : BackendState}
    (hstate : state = .writing ∨ state = .reading) :
    Ok s active (.next { s with backendState := state } active) := by
  apply ok_refl.after hworking
  · intro h
    refine ⟨h.fd_iff.trans (hworking.trans ?_), h.off_le, h.attempts_le⟩
    rcases hstate with rfl | rfl
    · rfl
    · rfl
  · rfl
  · rfl
  · rfl
  · exact ⟨[], (List.append_nil _).symm⟩
  · rcases hstate with rfl | rfl
    · exact BackendState.noConfusion
    · exact BackendState.noConfusion

theorem progressConnecting_ok (revents : Revents) (io : BackendIo) (s : H2Stream) (active : ℕ) :
    Ok s active (progressConnecting revents io s active) := by
  unfold progressConnecting
  by_cases hstate : s.backendState = .connecting
  · have hworking := working_of_state (Or.inl rfl) hstate
    rw [if_pos hstate]
    split_ifs
    · exact ok_stop 0
    · exact ok_fail hworking
    · exact ok_nextState hworking (Or.inl rfl)
  · rw [if_neg hstate]
    exact ok_refl

theorem writeLoop_ok (writes : List WriteResult) (hstate : s.backendState = .writing) :
    Ok s active (writeLoop writes s active) := by
  have hworking := working_of_state (Or.inr (Or.inl rfl)) hstate
  induction writes generalizing s with
  | nil =>
      unfold writeLoop
      split_ifs
      · exact ok_stop 0
      · exact ok_nextState hworking (Or.inr rfl)
  | cons write writes ih =>
      unfold writeLoop
      by_cases hmore : s.backendRequestOff < s.backendRequest.length
      · rw [if_pos hmore]
        cases write with
        | wrote n =>
            dsimp only
            split_ifs
            · exact ok_stop 0
            · set off := min (s.backendRequestOff + n) s.backendRequest.length with hoff
              have hrest : Ok { s with backendRequestOff := off } active _ := ih hstate hworking
              apply hrest.after hworking
              · exact fun h => ⟨h.fd_iff, min_le_right _ _, h.attempts_le⟩
              · rfl
              · rfl
              · rfl
              · exact ⟨[], (List.append_nil _).symm⟩
              · exact fun hnone => BackendState.noConfusion (hstate.symm.trans hnone)
        | interrupted => exact ih hstate hworking
        | again => exact ok_stop 0
        | failed => exact ok_fail hworking
      · rw [if_neg hmore]
        exact ok_nextState hworking (Or.inr rfl)

theorem progressWriting_ok (io : BackendIo) (s : H2Stream) (active : ℕ) :
    Ok s active (progressWriting io s active) := by
  unfold progressWriting
  by_cases hstate : s.backendState = .writing
  · rw [if_pos hstate]
    exact writeLoop_ok io.writes hstate
  · rw [if_neg hstate]
    exact ok_refl

theorem readLoop_ok (reads : List ReadResult) (hstate : s.backendState = .reading) :
    Ok s active (readLoop reads s active) := by
  have hworking := working_of_state (Or.inr (Or.inr rfl)) hstate
  induction reads generalizing s with
  | nil => exact ok_stop 0
  | cons read reads ih =>
      cases read with
      | data bytes allocates =>
          rw [readLoop]
          cases happend : appendBytes s.rawResponse bytes allocates with
          | none => exact ok_fail hworking
          | some raw =>
              have hraw : ∃ more, raw = s.rawResponse ++ more := by
                unfold appendBytes at happend
                split_ifs at happend
                exact ⟨bytes, (Option.some.inj happend).symm⟩
              have hrest : Ok { s with rawResponse := raw } active _ := ih hstate hworking
              apply hrest.after hworking
              · exact fun h => ⟨h.fd_iff, h.off_le, h.attempts_le⟩
              · rfl
              · rfl
              · rfl
              · exact hraw
              · exact fun hnone => BackendState.noConfusion (hstate.symm.trans hnone)
      | eof =>
          rw [readLoop, closeBackendStream_eq]
          refine ⟨fun h hactive => ?_, advances_ended hworking (Or.inl rfl)⟩
          exact ⟨inv_ended h (Or.inl rfl), Nat.sub_add_cancel hactive⟩
      | interrupted => exact ih hstate hworking
      | again => exact ok_stop 0
      | failed => exact ok_fail hworking

theorem progressReading_ok (io : BackendIo) (s : H2Stream) (active : ℕ) :
    Ok s active (progressReading io s active) := by
  unfold progressReading
  by_cases hstate : s.backendState = .reading
  · rw [if_pos hstate]
    exact readLoop_ok io.reads hstate
  · rw [if_neg hstate]
    exact ok_stop 0

/-- **`h2_progress_backend_stream`**. -/
theorem progress_ok (revents : Revents) (io : BackendIo) (s : H2Stream) (active : ℕ) :
    Ok s active (h2ProgressBackendStream revents io s active) :=
  ((progressConnecting_ok revents io s active).bind (progressWriting_ok io)).bind
    (progressReading_ok io)

end H2Stream

end Rpsiod

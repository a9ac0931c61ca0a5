import Rpsiod.Http2.Connection

/-!
# Stream pointers across `poll`

The loop of `rpsiod_http2_serve_connection` records stream pointers for `poll` and uses them behind
two calls of the session, which may close streams in between.

* `evolves_run`, `evolves_withStream`, …: every step evolves the registry of streams; only
  `on_stream_close_callback` closes names.
* `live_iff_not_closed`: **a recorded pointer is still good, exactly if no callback in between closed
  its stream**.
* `fresh_iff_undisturbed`: **no pass of a run uses a stale pointer, exactly if no pass closes a
  stream that it then goes on with**.
-/

namespace Rpsiod

open NamedObjects

/-! ### What the steps do to the registry -/

theorem evolves_withStream (c : H2Conn) (handle : ℕ) (f : H2Stream → ℕ → H2Stream × ℕ) :
    Evolves [] c.streams (c.withStream handle f).streams := by
  unfold H2Conn.withStream
  cases c.streams.entries.find? fun e => e.handle = handle with
  | none => exact .refl _
  | some e =>
      show Evolves [] c.streams (c.streams.adjusted handle fun _ => _)
      exact Evolves.adjusted c.streams handle _

theorem evolves_getOrCreateStream {allocates : Bool} {c c' : H2Conn} {id : ℤ}
    (h : getOrCreateStream allocates c id = some c') : Evolves [] c.streams c'.streams := by
  rcases getOrCreateStream_cases h with rfl | ⟨-, rfl⟩
  · exact .refl _
  · exact .opened _ _ _

theorem evolves_removeStream (c : H2Conn) (id : ℤ) :
    Evolves [id] c.streams (removeStream c id).streams := by
  unfold removeStream
  cases hfind : findStream c id with
  | none =>
      have hclosed := Evolves.closed c.streams id
      rw [closed_eq_self hfind] at hclosed
      exact hclosed
  | some e => exact .closed _ _

/-- A change of the stream of an id. -/
theorem evolves_find (c : H2Conn) (id : ℤ) (f : H2Stream → ℕ → H2Stream × ℕ) :
    Evolves [] c.streams (match findStream c id with
      | none => c
      | some e => c.withStream e.handle f).streams := by
  cases findStream c id with
  | none => exact .refl _
  | some e => exact evolves_withStream c e.handle f

/-- The ids that a callback closes. -/
def Callback.closes : Callback → List ℤ
  | .streamClose id => [id]
  | _ => []

/-- A change of the stream of an id, which is created if it is missing. -/
theorem evolves_create (allocates : Bool) (c : H2Conn) (id : ℤ)
    (f : H2Stream → ℕ → H2Stream × ℕ) :
    Evolves [] c.streams (match getOrCreateStream allocates c id with
      | none => c
      | some c =>
          match findStream c id with
          | none => c
          | some e => c.withStream e.handle f).streams := by
  cases hcreate : getOrCreateStream allocates c id with
  | none => exact .refl _
  | some c' => exact (evolves_getOrCreateStream hcreate).andThen (evolves_find c' id f)

/-- **A callback** closes a name only if it is `on_stream_close_callback`. -/
theorem evolves_run (cfg : Config) (client : Client) (c : H2Conn) (callback : Callback) :
    Evolves callback.closes c.streams (callback.run cfg client c).streams := by
  cases callback with
  | beginHeaders request id allocates =>
      unfold Callback.run onBeginHeadersCallback
      cases request with
      | false => exact .refl _
      | true => exact evolves_create allocates c id _
  | header request id name value allocates =>
      unfold Callback.run onHeaderCallback
      cases request with
      | false => exact .refl _
      | true => exact evolves_create allocates c id _
  | frameRecv requestEnd id loopback submit =>
      unfold Callback.run onFrameRecvCallback
      cases requestEnd with
      | false => exact .refl _
      | true => exact evolves_find c id _
  | streamClose id => exact evolves_removeStream c id

theorem evolves_runCallbacks (cfg : Config) (client : Client) (callbacks : List Callback)
    (c : H2Conn) :
    Evolves (callbacks.flatMap Callback.closes) c.streams
      (runCallbacks cfg client callbacks c).streams := by
  induction callbacks generalizing c with
  | nil => exact .refl _
  | cons callback callbacks ih =>
      exact (evolves_run cfg client c callback).trans (ih (callback.run cfg client c))

theorem mem_closes {id : ℤ} {callbacks : List Callback} :
    id ∈ callbacks.flatMap Callback.closes ↔ .streamClose id ∈ callbacks := by
  rw [List.mem_flatMap]
  constructor
  · rintro ⟨callback, hmem, hid⟩
    cases callback with
    | streamClose id' =>
        obtain rfl := List.mem_singleton.mp hid
        exact hmem
    | _ => exact absurd hid List.not_mem_nil
  · intro hmem
    exact ⟨_, hmem, List.mem_singleton_self id⟩

/-! ### Between `poll` and the loop over the recorded streams -/

/-- The connection when the loop over the recorded streams begins. -/
def H2Conn.received (cfg : Config) (client : Client) (ready : Ready) (c : H2Conn) : H2Conn :=
  runCallbacks cfg client ready.callbacks c

/-- The result of the `send` behind `poll`. -/
def Ready.sendRc (ready : Ready) : ℤ :=
  match ready.sent with
  | none => 0
  | some call => if call.rc = errWouldblock then 0 else call.rc

theorem driveSessionSend_eq (cfg : Config) (client : Client) (ready : Ready) (c : H2Conn) :
    driveSessionSend cfg client ready.sent c =
      (runCallbacks cfg client (match ready.sent with
        | some call => call.callbacks
        | none => []) c, ready.sendRc) := by
  unfold driveSessionSend Ready.sendRc
  cases ready.sent with
  | none => rfl
  | some call => rfl

/-- The streams that a pass goes on with: recorded, and with events. -/
def Ready.progressed (ready : Ready) (c : H2Conn) : List ℕ :=
  ((pollStreams c).zipIdx.filter fun p => ready.revents p.2 ≠ {}).map Prod.fst

/-- The loop over the recorded streams calls `h2_progress_backend_stream` for those with events, and
closes no stream. -/
theorem progressLoop_calls (ready : Ready) (recorded : List (ℕ × ℕ)) (c : H2Conn) :
    (progressLoop ready recorded c).2.map ProgressCall.handle =
        (recorded.filter fun p => ready.revents p.2 ≠ {}).map Prod.fst ∧
      ∀ call ∈ (progressLoop ready recorded c).2, Evolves [] c.streams call.conn.streams := by
  induction recorded generalizing c with
  | nil => exact ⟨rfl, nofun⟩
  | cons p recorded ih =>
      obtain ⟨handle, i⟩ := p
      rw [progressLoop]
      by_cases hquiet : ready.revents i = {}
      · rw [if_pos hquiet, List.filter_cons_of_neg (by simpa using hquiet)]
        exact ih c
      · obtain ⟨hhandles, hcalls⟩ := ih (c.withStream handle fun s active =>
          (h2ProgressBackendStream (ready.revents i) (ready.backend i) s active).state)
        rw [if_neg hquiet, List.filter_cons_of_pos (by simpa using hquiet)]
        refine ⟨by rw [List.map_cons, List.map_cons, hhandles], fun call hcall => ?_⟩
        rcases List.mem_cons.mp hcall with rfl | hcall
        · exact .refl _
        · exact (evolves_withStream c handle _).andThen (hcalls call hcall)

theorem received_eq (cfg : Config) (client : Client) (ready : Ready) (c : H2Conn) :
    c.received cfg client ready =
      if ready.pollin then
        runCallbacks cfg client (receivedCallbacks ready.reads)
          (driveSessionSend cfg client ready.sent c).1
      else (driveSessionSend cfg client ready.sent c).1 := by
  rw [driveSessionSend_eq, H2Conn.received, Ready.callbacks]
  by_cases hpollin : ready.pollin = true
  · rw [if_pos hpollin, if_pos hpollin]
    exact List.foldl_append
  · rw [if_neg hpollin, if_neg hpollin]
    exact congrArg (fun more => runCallbacks cfg client more c) (List.append_nil _)

/-- The calls of a pass. -/
theorem pass_calls (cfg : Config) (client : Client) (p : Pass) (l : H2Loop) :
    (∃ c ready, beforePoll cfg client p l = some c ∧ p.poll = .ready ready ∧ ready.sendRc = 0 ∧
        (pass cfg client p l).2 =
          (progressLoop ready (pollStreams c).zipIdx (c.received cfg client ready)).2) ∨
      (pass cfg client p l).2 = [] ∧
        ∀ c ready, beforePoll cfg client p l = some c → p.poll = .ready ready →
          ready.sendRc ≠ 0 := by
  unfold pass
  cases hbefore : beforePoll cfg client p l with
  | none => exact Or.inr ⟨rfl, nofun⟩
  | some c =>
      cases hpoll : p.poll with
      | failed => exact Or.inr ⟨rfl, nofun⟩
      | timeout => exact Or.inr ⟨rfl, nofun⟩
      | ready ready =>
          by_cases hsend : ready.sendRc = 0
          · refine Or.inl ⟨c, ready, rfl, rfl, hsend, ?_⟩
            have hrc : (driveSessionSend cfg client ready.sent c).2 = 0 := by
              rw [driveSessionSend_eq]
              exact hsend
            simp only [afterPoll, hrc, received_eq]
            rw [if_neg (by decide)]
            split_ifs <;> rfl
          · refine Or.inr ⟨?_, ?_⟩
            · simp only [afterPoll, driveSessionSend_eq, if_pos hsend]
            · intro c' ready' hc' hready'
              obtain rfl := PollResult.ready.inj hready'
              exact hsend

/-- **A recorded pointer stays good, exactly if no callback closes its stream.** -/
theorem live_iff_not_closed (cfg : Config) (client : Client) (ready : Ready) {c : H2Conn}
    {e : Entry ℤ H2Stream} (he : e ∈ c.streams.entries) {conn : H2Conn}
    (hlater : Evolves [] (c.received cfg client ready).streams conn.streams) :
    conn.streams.Live e.handle ↔ .streamClose e.name ∉ ready.callbacks := by
  have hall := (evolves_runCallbacks cfg client ready.callbacks c).trans hlater
  rw [List.append_nil] at hall
  rw [hall.live_iff ⟨e, he, rfl, rfl⟩, mem_closes]

/-! ### Runs -/

/-- Between `poll` and the loop over the recorded streams, no callback closes a stream that the
pass goes on with. -/
def Undisturbed (cfg : Config) (client : Client) (p : Pass) (l : H2Loop) : Prop :=
  ∀ c ready, beforePoll cfg client p l = some c → p.poll = .ready ready → ready.sendRc = 0 →
    ∀ e ∈ c.streams.entries, e.handle ∈ ready.progressed c →
      .streamClose e.name ∉ ready.callbacks

/-- The same for every pass of a run. -/
def UndisturbedRun (cfg : Config) (client : Client) : List Pass → H2Loop → Prop
  | [], _ => True
  | p :: ps, l =>
      Undisturbed cfg client p l ∧
        ∀ l', (pass cfg client p l).1 = some l' → UndisturbedRun cfg client ps l'

/-- The stream pointer is that of a stream of the connection. -/
def ProgressCall.Fresh (call : ProgressCall) : Prop := call.conn.streams.Live call.handle

theorem mem_progressed {ready : Ready} {c : H2Conn} {handle : ℕ} (h : handle ∈ ready.progressed c) :
    ∃ e ∈ c.streams.entries, e.handle = handle := by
  obtain ⟨p, hp, rfl⟩ := List.mem_map.mp h
  have hpoll : p.1 ∈ pollStreams c := List.fst_mem_of_mem_zipIdx (List.mem_of_mem_filter hp)
  obtain ⟨e, he, hhandle⟩ := List.mem_map.mp hpoll
  exact ⟨e, List.mem_of_mem_filter he, hhandle⟩

/-- **One pass.** -/
theorem pass_fresh_iff (cfg : Config) (client : Client) (p : Pass) (l : H2Loop) :
    (∀ call ∈ (pass cfg client p l).2, call.Fresh) ↔ Undisturbed cfg client p l := by
  rcases pass_calls cfg client p l with ⟨c, ready, hbefore, hpoll, hsend, hcalls⟩ | ⟨hnil, hnone⟩
  · obtain ⟨hhandles, hlater⟩ :=
      progressLoop_calls ready (pollStreams c).zipIdx (c.received cfg client ready)
    rw [hcalls]
    constructor
    · intro hfresh c' ready' hbefore' hpoll' _ e he hmem
      obtain rfl := Option.some.inj (hbefore.symm.trans hbefore')
      obtain rfl := PollResult.ready.inj (hpoll.symm.trans hpoll')
      rw [Ready.progressed, ← hhandles] at hmem
      obtain ⟨call, hcall, hhandle⟩ := List.mem_map.mp hmem
      have hlive := hfresh call hcall
      rw [ProgressCall.Fresh, hhandle] at hlive
      exact (live_iff_not_closed cfg client ready he (hlater call hcall)).mp hlive
    · intro hundisturbed call hcall
      have hmem : call.handle ∈ ready.progressed c := by
        rw [Ready.progressed, ← hhandles]
        exact List.mem_map_of_mem hcall
      obtain ⟨e, he, hhandle⟩ := mem_progressed hmem
      rw [← hhandle] at hmem
      have hnot := hundisturbed c ready hbefore hpoll hsend e he hmem
      rw [ProgressCall.Fresh, ← hhandle]
      exact (live_iff_not_closed cfg client ready he (hlater call hcall)).mpr hnot
  · rw [hnil]
    refine iff_of_true nofun fun c ready hbefore hpoll hsend => ?_
    exact absurd hsend (hnone c ready hbefore hpoll)

/-- **No run uses a stale stream pointer, exactly if every pass of it is undisturbed.** -/
theorem fresh_iff_undisturbed (cfg : Config) (client : Client) (ps : List Pass) (l : H2Loop) :
    (∀ call ∈ serveConnection cfg client ps l, call.Fresh) ↔ UndisturbedRun cfg client ps l := by
  induction ps generalizing l with
  | nil => exact iff_of_true nofun trivial
  | cons p ps ih =>
      have hpass := pass_fresh_iff cfg client p l
      rw [serveConnection, UndisturbedRun]
      cases hnext : pass cfg client p l with
      | mk next calls =>
          rw [hnext] at hpass
          cases next with
          | none =>
              rw [← hpass]
              exact (and_iff_left nofun).symm
          | some l' =>
              simp only [List.mem_append, or_imp, forall_and, hpass, ih, Option.some.injEq]
              refine and_congr_right fun _ => ⟨?_, fun h => h l' rfl⟩
              rintro h _ rfl
              exact h

/-! ### A reset in the same round -/

/-- A configuration with one site, on the loopback interface. -/
def loopbackConfig : Config where
  sites :=
    [{ domains := [.lit "localhost"]
       listenIp := .lit "127.0.0.1" }]
  routeTable i :=
    if i.val = 2430 then
      some
        { defaultSite := false
          host := .lit "localhost"
          listenIp := .lit "127.0.0.1"
          port := 443
          siteIndex := 0 }
    else none

/-- A TLS client of it. -/
def loopbackClient : Client := ⟨443, true, .lit "127.0.0.1", .lit "127.0.0.1"⟩

/-- A pass that receives these callbacks, while these events are there for every backend. -/
def receivingPass (callbacks : List Callback) (revents : Revents) : Pass where
  wants := true
  submit := fun _ => 0
  retry := fun _ => ⟨false, ⟨none, false, .failed⟩⟩
  send := none
  allocates := true
  poll := .ready
    { pollout := false
      pollin := true
      revents := fun _ => revents
      send := none
      reads := [.data ⟨callbacks, 0⟩]
      backend := fun _ => ⟨false, [], []⟩ }
  retryLate := fun _ => ⟨false, ⟨none, false, .failed⟩⟩
  submitLate := fun _ => 0
  sendLate := none

/-- A request on stream 1, and then a reset of it while its backend is ready. -/
def resetRun : List Pass :=
  [receivingPass
      [.beginHeaders true 1 true, .frameRecv true 1 ⟨some 7, true, .inProgress⟩ 0] {},
    receivingPass [.streamClose 1] { pollout := true }]

/-- **The trace of a reset**: in the second pass the pointer to the stream is recorded, the stream
is freed when the reset is received, and its pointer is used. -/
theorem reset_uses_stale_pointer :
    (serveConnection loopbackConfig loopbackClient resetRun {}).map
        (fun call => (call.handle, call.conn.pointers)) = [(0, [])] ∧
      ¬ ∀ call ∈ serveConnection loopbackConfig loopbackClient resetRun {}, call.Fresh := by
  set calls := serveConnection loopbackConfig loopbackClient resetRun {} with hcalls
  have htrace : calls.map (fun call => (call.handle, call.conn.pointers)) = [(0, [])] := by
    rw [hcalls]
    decide +kernel
  refine ⟨htrace, fun hfresh => ?_⟩
  obtain ⟨call, hcall, heq⟩ := List.mem_map.mp (htrace ▸ List.mem_singleton_self (0, []))
  obtain ⟨e, he, -⟩ := hfresh call hcall
  have hpointer : e.handle ∈ call.conn.pointers := List.mem_map_of_mem he
  rw [(Prod.mk.inj heq).2] at hpointer
  exact absurd hpointer List.not_mem_nil

end Rpsiod

import Rpsiod.Http2.Steps

/-!
# The loop of an HTTP/2 connection as a run

The loop of `rpsiod_http2_serve_connection` takes the steps of a connection in its own order: the
responses that are ready, the retries, the callbacks of the session, the backends that `poll`
reports.

* `leads_pass`: **a pass of the loop is a run of steps**, with the requests that its callbacks end.
* `inv_pass`: so it keeps what every reachable state satisfies.
-/

namespace Rpsiod

open NamedObjects

variable {seen : List ℤ} {log : List H2Event}

/-- Some steps, with these ids of requests that end, lead from a connection to another one. -/
def Leads (cfg : Config) (client : Client) (ids : List ℤ) (c c' : H2Conn) : Prop :=
  ∃ steps, (runSteps cfg client steps c).1 = c' ∧ steps.flatMap H2Step.requestEnds = ids

variable {cfg : Config} {client : Client}

theorem Leads.refl (c : H2Conn) : Leads cfg client [] c c := ⟨[], rfl, rfl⟩

theorem runSteps_append (steps more : List H2Step) (c : H2Conn) :
    (runSteps cfg client (steps ++ more) c).1 =
      (runSteps cfg client more (runSteps cfg client steps c).1).1 := by
  induction steps generalizing c with
  | nil => rfl
  | cons step steps ih => exact ih (step.run cfg client c)

theorem Leads.trans {ids ids' : List ℤ} {c' c'' : H2Conn} (first : Leads cfg client ids c c')
    (second : Leads cfg client ids' c' c'') : Leads cfg client (ids ++ ids') c c'' := by
  obtain ⟨steps, rfl, rfl⟩ := first
  obtain ⟨more, rfl, rfl⟩ := second
  exact ⟨steps ++ more, runSteps_append steps more c, List.flatMap_append⟩

/-- Behind steps that end no request. -/
theorem Leads.andThen {ids : List ℤ} {c' c'' : H2Conn} (first : Leads cfg client ids c c')
    (second : Leads cfg client [] c' c'') : Leads cfg client ids c c'' := by
  have htrans := first.trans second
  rwa [List.append_nil] at htrans

theorem leads_step (step : H2Step) (c : H2Conn) :
    Leads cfg client step.requestEnds c (step.run cfg client c) :=
  ⟨[step], rfl, List.append_nil _⟩

/-- The ids of the requests that end in callbacks. -/
def requestEndsOf (callbacks : List Callback) : List ℤ :=
  callbacks.flatMap fun callback => (H2Step.session callback).requestEnds

theorem leads_runCallbacks (callbacks : List Callback) (c : H2Conn) :
    Leads cfg client (requestEndsOf callbacks) c (runCallbacks cfg client callbacks c) := by
  induction callbacks generalizing c with
  | nil => exact .refl c
  | cons callback callbacks ih =>
      exact (leads_step (.session callback) c).trans (ih (callback.run cfg client c))

/-- The callbacks of a call of the session, if there is one. -/
def SessionCall.callbacksOf (send : Option SessionCall) : List Callback :=
  match send with
  | none => []
  | some call => call.callbacks

theorem leads_driveSessionSend (send : Option SessionCall) (c : H2Conn) :
    Leads cfg client (requestEndsOf (SessionCall.callbacksOf send)) c
      (driveSessionSend cfg client send c).1 := by
  cases send with
  | none => exact .refl c
  | some call => exact leads_runCallbacks call.callbacks c

theorem leads_submitLoop (submit : ℕ → ℤ) (handles : List ℕ) (c : H2Conn) :
    Leads cfg client [] c (submitLoop submit handles c).1 := by
  induction handles generalizing c with
  | nil => exact .refl c
  | cons handle handles ih =>
      rw [submitLoop]
      cases c.streams.entries.find? fun e => e.handle = handle with
      | none => exact ih c
      | some e =>
          have hstep : Leads cfg client [] c _ := leads_step (.submit handle (submit handle)) c
          dsimp only
          split_ifs
          · exact hstep
          · exact hstep.trans (ih _)

theorem leads_retryDelayedLoopbacks (io : ℕ → RetryIo) (c : H2Conn) :
    Leads cfg client [] c (retryDelayedLoopbacks cfg client io c) := by
  unfold retryDelayedLoopbacks
  induction c.pointers generalizing c with
  | nil => exact .refl c
  | cons handle handles ih =>
      have hstep : Leads cfg client [] c _ := leads_step (.retry handle (io handle)) c
      exact hstep.trans (ih _)

theorem leads_progressLoop (ready : Ready) (recorded : List (ℕ × ℕ)) (c : H2Conn) :
    Leads cfg client [] c (progressLoop ready recorded c).1 := by
  induction recorded generalizing c with
  | nil => exact .refl c
  | cons p recorded ih =>
      obtain ⟨handle, i⟩ := p
      rw [progressLoop]
      split_ifs
      · exact ih c
      · have hstep : Leads cfg client [] c _ :=
          leads_step (.progress handle (ready.revents i) (ready.backend i)) c
        exact hstep.trans (ih _)

/-- The ids of the requests that can end in a pass. -/
def Pass.requestEnds (p : Pass) : List ℤ :=
  requestEndsOf (SessionCall.callbacksOf p.send) ++
    match p.poll with
    | .ready ready =>
        requestEndsOf ready.callbacks ++ requestEndsOf (SessionCall.callbacksOf p.sendLate)
    | _ => []

theorem leads_beforePoll {p : Pass} {l : H2Loop} {c : H2Conn}
    (h : beforePoll cfg client p l = some c) :
    Leads cfg client (requestEndsOf (SessionCall.callbacksOf p.send)) l.conn c := by
  unfold beforePoll at h
  dsimp only at h
  split_ifs at h
  rw [← Option.some.inj h]
  have hsubmit : Leads cfg client [] l.conn _ := leads_submitLoop p.submit l.conn.pointers l.conn
  exact (hsubmit.trans (leads_retryDelayedLoopbacks p.retry _)).trans
    (leads_driveSessionSend p.send _)

theorem leads_afterPoll {p : Pass} {l l' : H2Loop} {ready : Ready} {c : H2Conn}
    (h : (afterPoll cfg client p l ready c).1 = some l') :
    Leads cfg client
      (requestEndsOf ready.callbacks ++ requestEndsOf (SessionCall.callbacksOf p.sendLate))
      c l'.conn := by
  have hreceived : Leads cfg client (requestEndsOf ready.callbacks) c _ :=
    leads_runCallbacks ready.callbacks c
  set c₁ := (progressLoop ready (pollStreams c).zipIdx (c.received cfg client ready)).1 with hc₁
  have hprogress : Leads cfg client [] (c.received cfg client ready) c₁ :=
    leads_progressLoop ready (pollStreams c).zipIdx (c.received cfg client ready)
  have hsubmit : Leads cfg client [] c₁ (submitReadyStreams p.submitLate c₁).1 :=
    leads_submitLoop p.submitLate c₁.pointers c₁
  have hall := ((hreceived.andThen hprogress).andThen hsubmit).trans
    (leads_driveSessionSend p.sendLate (submitReadyStreams p.submitLate c₁).1)
  simp only [afterPoll, ← received_eq] at h
  split_ifs at h
  all_goals
    rw [← Option.some.inj h]
    exact hall

/-- **A pass of the loop is a run of steps.** -/
theorem leads_pass {p : Pass} {l l' : H2Loop} (h : (pass cfg client p l).1 = some l') :
    Leads cfg client p.requestEnds l.conn l'.conn := by
  unfold pass at h
  cases hbefore : beforePoll cfg client p l with
  | none =>
      rw [hbefore] at h
      exact nomatch h
  | some c =>
      have hfirst := leads_beforePoll hbefore
      rw [hbefore] at h
      unfold Pass.requestEnds
      cases hpoll : p.poll with
      | failed =>
          rw [hpoll] at h
          exact nomatch h
      | timeout =>
          rw [hpoll] at h
          have hretry := @leads_retryDelayedLoopbacks cfg client p.retryLate c
          simp only [afterTimeout] at h
          split_ifs at h
          all_goals
            rw [← Option.some.inj h]
            exact hfirst.trans hretry
      | ready ready =>
          rw [hpoll] at h
          exact hfirst.trans (leads_afterPoll h)

/-- **A pass keeps the invariant**, if no id has two requests. -/
theorem inv_pass {p : Pass} {l l' : H2Loop} (hinv : H2Inv seen log l.conn)
    (h : (pass cfg client p l).1 = some l') (hnodup : p.requestEnds.Nodup)
    (hids : ∀ id ∈ p.requestEnds, id ∉ seen) :
    ∃ seen' more, H2Inv seen' (log ++ more) l'.conn := by
  obtain ⟨steps, hsteps, hends⟩ := leads_pass h
  rw [← hends] at hnodup hids
  obtain ⟨seen', hrun⟩ := inv_runSteps cfg client steps hinv hnodup hids
  rw [hsteps] at hrun
  exact ⟨seen', _, hrun⟩

end Rpsiod

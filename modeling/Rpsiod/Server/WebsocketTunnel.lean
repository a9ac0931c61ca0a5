import Rpsiod.Lib.Relay
import Rpsiod.Server.ProxyRelay

/-!
# The two directions of a WebSocket (`websocket_tunnel`)

Once an upstream has answered with 101, `serve_proxy` hands both connections to `websocket_tunnel`,
which waits for either of them and passes on what has come, until one of them ends.

* `websocketTunnel`: the loop, on any answers of `select`, any reads and writes that fail anywhere.
* `TunnelOk.websocketTunnel`: **each side gets what the other has sent**, in its order and at any
  time, whatever the order in which the sides are ready.
* `websocket_conversation`: with what `serve_proxy` does before that: **the client gets the bytes of
  the upstream from the status line on**.
-/

namespace Rpsiod

open ListSearch Crlf Collect Relay

/-! ### The code -/

/-- The directions of a tunnel. -/
inductive Direction where
  | toUpstream
  | toClient
  deriving DecidableEq

/-- A read into `buf`: bytes, or the end of the stream or an error. -/
inductive TunnelRead where
  | data (bytes : Bytes) (ne : bytes ≠ []) (le : bytes.length ≤ 16384)
  | ended

/-- What happens on a side that is ready: the read, and where its write fails if it does. -/
structure Passing where
  read : TunnelRead
  failsBehind : Option ℕ

/-- What `select` answers. -/
inductive Selected where
  | interrupted
  | failed
  | ready (client upstream : Option Passing)

/-- What a tunnel has read and written. -/
abbrev TunnelTrace := List (Relay.Event Direction UInt8)

/-- The branch for a side that is ready, with what is returned if anything is. -/
def passOnce (direction : Direction) (p : Passing) (t : TunnelTrace) : TunnelTrace × Option ℤ :=
  match p.read with
  | .ended => (t, some 0)
  | .data bytes _ _ =>
      match p.failsBehind with
      | none => (t ++ [.got direction bytes, .sent direction bytes], none)
      | some n => (t ++ [.got direction bytes, .sent direction (bytes.take n)], some (-1))

/-- The branch, if the side is in the set. -/
def passReady (direction : Direction) (p : Option Passing) (t : TunnelTrace) :
    TunnelTrace × Option ℤ :=
  match p with
  | none => (t, none)
  | some p => passOnce direction p t

/-- The loop body. -/
def tunnelRound (selected : Selected) (t : TunnelTrace) : TunnelTrace × Option ℤ :=
  match selected with
  | .interrupted => (t, none)
  | .failed => (t, some (-1))
  | .ready client upstream =>
      let r := passReady .toUpstream client t
      if r.2 = none then passReady .toClient upstream r.1 else r

/-- `websocket_tunnel`, on these answers of `select`; without a result it waits for more. -/
def websocketTunnel : List Selected → TunnelTrace → TunnelTrace × Option ℤ
  | [], t => (t, none)
  | selected :: more, t =>
      let r := tunnelRound selected t
      if r.2 = none then websocketTunnel more r.1 else r

/-! ### What it keeps -/

/-- A tunnel with one buffer at most in its hands, and with nothing in them unless it has failed. -/
structure TunnelOk (r : TunnelTrace × Option ℤ) : Prop where
  faithful : Faithful 16384 r.1
  drained : r.2 ≠ some (-1) → Drained r.1

theorem TunnelOk.passReady {t : TunnelTrace} {rc : Option ℤ} (h : TunnelOk (t, rc))
    (hrc : rc = none) (direction : Direction) (p : Option Passing) :
    TunnelOk (passReady direction p t) := by
  have hdrained : Drained t := h.drained (by rw [hrc]; exact fun hc => by cases hc)
  cases p with
  | none => exact ⟨h.faithful, fun _ => hdrained⟩
  | some p =>
      obtain ⟨read, failsBehind⟩ := p
      cases read with
      | ended => exact ⟨h.faithful, fun _ => hdrained⟩
      | data bytes ne le =>
          cases failsBehind with
          | none =>
              obtain ⟨hfaithful, hall⟩ := h.faithful.pass hdrained direction le
              exact ⟨hfaithful, fun _ => hall⟩
          | some n =>
              exact ⟨h.faithful.cut hdrained direction le (List.take_prefix n bytes),
                fun hc => absurd rfl hc⟩

/-- A round keeps it. -/
theorem TunnelOk.tunnelRound {t : TunnelTrace} (h : TunnelOk (t, none)) (selected : Selected) :
    TunnelOk (tunnelRound selected t) := by
  cases selected with
  | interrupted => exact h
  | failed => exact ⟨h.faithful, fun hc => absurd rfl hc⟩
  | ready client upstream =>
      have hfirst := h.passReady rfl .toUpstream client
      unfold Rpsiod.tunnelRound
      dsimp only
      split_ifs with hrc
      · exact TunnelOk.passReady hfirst hrc .toClient upstream
      · exact hfirst

/-- **Each side gets what the other has sent.** -/
theorem TunnelOk.websocketTunnel (selected : List Selected) {t : TunnelTrace}
    (h : TunnelOk (t, none)) : TunnelOk (websocketTunnel selected t) := by
  induction selected generalizing t with
  | nil => exact h
  | cons first more ih =>
      have hfirst := h.tunnelRound first
      unfold Rpsiod.websocketTunnel
      dsimp only
      split_ifs with hrc
      · have hpair : Rpsiod.tunnelRound first t = ((Rpsiod.tunnelRound first t).1, none) :=
          Prod.ext rfl hrc
        rw [hpair] at hfirst
        exact ih hfirst
      · exact hfirst

/-- What the tunnel has done. -/
def tunnelRun (selected : List Selected) : TunnelTrace × Option ℤ := websocketTunnel selected []

theorem tunnelOk_run (selected : List Selected) : TunnelOk (tunnelRun selected) :=
  TunnelOk.websocketTunnel selected ⟨faithful_nil, fun _ => drained_nil⟩

/-! ### The whole conversation -/

variable {w : World} {site : Site} {req : HttpRequest}

/-- An upstream that answers with 101 and then speaks through the tunnel: `serve_proxy` itself reads
until the line is there. -/
structure UpstreamSwitches (w : World) (upstream : Upstream) (selected : List Selected) : Prop where
  answers : UpstreamAnswers w upstream
  line : indexOfSub crlf (upstreamBytes upstream.reads) ≠ none
  status : parseProxyStatusLine (upstreamBytes upstream.reads) = some 101
  fits : FirstLineFits upstream.reads
  last : ∀ front, front <+: readBytes upstream.reads →
    indexOfSub crlf front.flatten ≠ none → front = readBytes upstream.reads
  tunnelled : upstream.tunnelled = delivered .toClient (tunnelRun selected).1

/-- The bytes with the line go to the client, and then those of the tunnel. -/
theorem relayLoop_tunnel {upstream : Upstream} {selected : List Selected}
    (h : UpstreamSwitches w upstream selected) (hwants : wantsTunnel site req = true) :
    relayLoop w site req upstream.ending upstream.tunnelled upstream.reads {} [] =
      (.body (upstreamBytes upstream.reads) :: writeOf .body upstream.tunnelled ++
        [.logged 101 (upstreamBytes upstream.reads).length], 0) := by
  have hstart : indexOfSub crlf ([] : Bytes) = none := rfl
  obtain ⟨stop, hstop⟩ := Option.ne_none_iff_exists'.mp h.line
  have hrun : relayLoop w site req upstream.ending upstream.tunnelled upstream.reads {} [] = _ :=
    relayLoop_eq h.answers.peer upstream.ending upstream.tunnelled upstream.reads [] []
  rcases @collect_found_or_full _ _ crlf firstResponseLen [] (readBytes upstream.reads) stop
    (Nat.zero_le _) hstart hstop with ⟨-, all, rest, hcollect⟩ | ⟨hnot, -⟩
  · obtain ⟨hflat, hindex, front, hfront⟩ := collect_found hcollect
    -- the line is complete with the last read only
    have hall : all = front.flatten := by
      rw [hfront, List.flatten_append, List.nil_append] at hflat
      exact (List.append_cancel_right hflat).symm
    have hfrontAll : front = readBytes upstream.reads := by
      refine h.last front ⟨rest, hfront.symm⟩ ?_
      rw [← hall, hindex]
      exact Option.some_ne_none _
    have hstream : all = upstreamBytes upstream.reads := by rw [hall, hfrontAll]; rfl
    have hstatus := h.status
    rw [← hstream] at hstatus
    rw [hcollect] at hrun
    simp only [hstatus, if_pos (show Tunnels site req 101 from ⟨hwants, rfl⟩)] at hrun
    rw [hrun, ← hstream]
    simp [relayDone, logAccess]
  · exact absurd h.fits hnot

/-- **A WebSocket through the proxy**: the client is sent the bytes of the upstream from its status
line on, and the upstream those of the client, each side's in their order, whatever the order in
which the sides are ready; if no write fails nothing is left behind when one of them ends. -/
theorem websocket_conversation {upstream : Upstream} {selected : List Selected}
    (hupstream : UpstreamSwitches w upstream selected) (hwants : wantsTunnel site req = true)
    {buf : Bytes} (hparse : httpParseRequest buf = .accepted req) (keepAlive : Bool)
    (body : Bytes) :
    Faithful 16384 (tunnelRun selected).1 ∧
      ((tunnelRun selected).2 ≠ some (-1) → Drained (tunnelRun selected).1) ∧
      (serveProxy w site { req with keepAlive := keepAlive } upstream buf body []).2 = 0 ∧
      written (serveProxy w site { req with keepAlive := keepAlive } upstream buf body []).1 =
        upstreamBytes upstream.reads ++ delivered .toClient (tunnelRun selected).1 ∧
      (serveProxy w site { req with keepAlive := keepAlive } upstream buf body []).1.getLast? =
        some (.logged 101 (upstreamBytes upstream.reads).length) := by
  obtain ⟨hfaithful, hdrained⟩ := tunnelOk_run selected
  have hwants' : wantsTunnel site { req with keepAlive := keepAlive } = true := hwants
  rw [serveProxy_eq_relayLoop hupstream.answers hparse, relayLoop_tunnel hupstream hwants',
    hupstream.tunnelled]
  refine ⟨hfaithful, hdrained, rfl, ?_, ?_⟩
  · unfold writeOf
    split_ifs with hnil
    · simp [written, Event.bytes, hnil]
    · simp [written, Event.bytes]
  · rw [List.getLast?_concat]

/-- An upstream that takes the switch. -/
def switchHead : Bytes := ascii "HTTP/1.1 101 Switching Protocols\x0d\n\x0d\n"

/-- Both sides speak, the upstream first, and then the client leaves. -/
def switchedRounds : List Selected :=
  [.ready none (some ⟨.data (ascii "hello") (by decide) (by decide), none⟩), .interrupted,
    .ready (some ⟨.data (ascii "hi") (by decide) (by decide), none⟩)
      (some ⟨.data (ascii "there") (by decide) (by decide), none⟩),
    .ready (some ⟨.ended, none⟩) none]

/-- A request for a WebSocket. -/
def switchRequest : Bytes :=
  ascii "GET / HTTP/1.1\x0d\nHost: a\x0d\nConnection: Upgrade\x0d\nUpgrade: websocket\x0d\n\x0d\n"

/-- The same, parsed. -/
def switchParsed : HttpRequest := { relayedParsed with headerLen := 68, upgradeWebsocket := true }

/-- The upstream, whose line comes in two reads. -/
def switchUpstream : Upstream :=
  ⟨true, true, [.data (switchHead.take 20) (by decide) (by decide), .interrupted,
    .data (switchHead.drop 20) (by decide) (by decide)], .closed, ascii "hellothere"⟩

theorem websocket_conversation_hello :
    written (serveProxy sampleWorld { proxyWebsocket := true }
        { switchParsed with keepAlive := false } switchUpstream switchRequest [] []).1 =
        switchHead ++ ascii "hellothere" ∧
      received .toClient (tunnelRun switchedRounds).1 = ascii "hellothere" ∧
      delivered .toUpstream (tunnelRun switchedRounds).1 = ascii "hi" := by
  have hreads : readBytes switchUpstream.reads = [switchHead.take 20, switchHead.drop 20] := rfl
  have hswitches : UpstreamSwitches sampleWorld switchUpstream switchedRounds := by
    refine ⟨⟨rfl, rfl, rfl, rfl⟩, by decide, by decide, ?_, ?_, by decide⟩
    · exact (fits_cons rfl).mpr ⟨by decide, fun hnone =>
        (fits_cons hnone).mpr ⟨by decide, fun _ => fits_nil _⟩⟩
    · intro front hfront hline
      rw [hreads] at hfront ⊢
      -- the line ends in the second read
      match front, hfront, hline with
      | [], _, hline => exact absurd rfl hline
      | [first], hfront, hline =>
          obtain ⟨rfl, -⟩ := List.cons_prefix_cons.mp hfront
          exact absurd (by decide) hline
      | first :: second :: more, hfront, _ =>
          exact hfront.eq_of_length_le (by simp)
  have hconversation := @websocket_conversation sampleWorld { proxyWebsocket := true } switchParsed
    switchUpstream switchedRounds hswitches (by decide) switchRequest (by decide) false []
  exact ⟨hconversation.2.2.2.1, by decide, by decide⟩

end Rpsiod

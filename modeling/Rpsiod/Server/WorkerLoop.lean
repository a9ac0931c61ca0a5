import Rpsiod.Lib.EventBatch
import Rpsiod.Server.ClientList
import Rpsiod.Server.Listeners

/-!
# The loop of a worker (`rpsiod_server_run_worker`, `accept_clients`)

A worker waits for events with `epoll`, and every event carries a pointer: to a listener, or to a
client that was registered under it.  Handling an event may free its client, and the sweep behind
the batch frees others.  An access to a client that has been freed is an error of the model, and so
is a `close` of a socket that is not open.

* `exists_closeClient`: closing a client, with its registration and the counters.
* `exists_acceptClients`: a whole backlog is accepted; connections that do not get through their
  TLS handshake, or that are served as HTTP/2 at once, leave nothing behind.
* `exists_wait`: one round of the loop.
* `worker_run`: **over every run of the loop**, no step fails, and the registrations, the open
  sockets and the counters are those of the clients that are open.
* `worker_ends`: a worker that ends has freed every client and closed every socket.
-/

namespace Rpsiod.WorkerLoop

open DoublyLinked ClientList EventBatch

/-! ### The code -/

/-- What an event points to. -/
inductive Target (α : Type*) where
  | listener (i : ℕ)
  | client (client : α)
  deriving DecidableEq

/-- The part of `rpsiod_perf_counters` about connections. -/
structure Perf where
  acceptedConnections : ℕ := 0
  closedConnections : ℕ := 0
  activeConnections : ℕ := 0
  peakActiveConnections : ℕ := 0
  deriving DecidableEq

/-- What does not change while the loop runs. -/
structure Setup where
  epfd : ℤ
  listeners : List Listener
  keepAlive : KeepAliveConfig

/-- What changes: the clients, the registrations in `epfd`, the sockets that the loop has opened and
not yet closed, and the counters. -/
structure State (α : Type*) where
  clients : Clients α
  interest : List (ℤ × Target α)
  sockets : List ℤ
  perf : Perf

variable {α : Type*}

/-- The counters when a connection has been accepted, with `perf_note_active_connection`. -/
def Perf.opened (p : Perf) : Perf :=
  let active := p.activeConnections + 1
  { acceptedConnections := p.acceptedConnections + 1
    closedConnections := p.closedConnections
    activeConnections := active
    peakActiveConnections :=
      if p.peakActiveConnections < active then active else p.peakActiveConnections }

/-- The counters when a connection has been closed. -/
def Perf.ended (p : Perf) : Perf :=
  { p with
    closedConnections := p.closedConnections + 1
    activeConnections :=
      if 0 < p.activeConnections then p.activeConnections - 1 else p.activeConnections }

/-- `epoll_ctl(epfd, EPOLL_CTL_DEL, fd)`. -/
def State.epollDel (w : State α) (fd : ℤ) : State α :=
  { w with interest := w.interest.filter fun entry => entry.1 ≠ fd }

/-- `close(fd)`: the kernel also drops the registration. -/
def State.closeFd (w : State α) (fd : ℤ) : Option (State α) :=
  if fd ∈ w.sockets then some { w.epollDel fd with sockets := w.sockets.erase fd } else none

section Code

variable [DecidableEq α]

/-- `close_client`. -/
def closeClient (w : State α) (client : α) : Option (State α) := do
  let node ← w.clients.heap client
  let w := w.epollDel node.data.fd
  let clients ← ClientList.closeClient w.clients client
  let w ← { w with clients := clients }.closeFd node.data.fd
  some { w with perf := w.perf.ended }

/-- `discard_accepted_client`: the client is not in the list. -/
def discardAcceptedClient (w : State α) (fd : ℤ) : Option (State α) :=
  (w.closeFd fd).map fun w => { w with perf := w.perf.ended }

/-- What becomes of the TLS handshake of a new connection. -/
inductive Handshake where
  | noSsl
  | failed
  /-- The connection is served as HTTP/2 before the loop goes on. -/
  | http2
  | http1
  deriving DecidableEq

/-- What the system answers to `accept4` and to the calls behind it. -/
inductive Accept (α : Type*) where
  | interrupted
  | again
  | failed
  | noMemory (fd : ℤ)
  | connection (fd : ℤ) (client : α) (started : Timespec) (handshake : Handshake) (added : Bool)

/-- Whether the connection is kept. -/
def keeps (tls : Bool) (handshake : Handshake) (added : Bool) : Bool :=
  (!tls || handshake = .http1) && added

/-- The fields of a new client that its list and the sweep read. -/
def acceptedData (fd : ℤ) (started : Timespec) : ClientData := ⟨fd, false, 0, started⟩

/-- `accept_clients` behind `calloc`. -/
def acceptConnection (tls : Bool) (w : State α) (fd : ℤ) (client : α) (started : Timespec)
    (handshake : Handshake) (added : Bool) : Option (State α) :=
  let w := { w with sockets := fd :: w.sockets, perf := w.perf.opened }
  if keeps tls handshake added then do
    let w := { w with interest := (fd, .client client) :: w.interest }
    let clients ← acceptClient w.clients client (acceptedData fd started)
    some { w with clients := clients }
  else discardAcceptedClient w fd

/-- `accept_clients`, with the answers to its calls. -/
def acceptClients (tls : Bool) : List (Accept α) → State α → Option (State α)
  | [], w => some w
  | .interrupted :: rest, w => acceptClients tls rest w
  | .again :: _, w => some w
  | .failed :: _, w => some w
  | .noMemory fd :: _, w => { w with sockets := fd :: w.sockets }.closeFd fd
  | .connection fd client started handshake added :: rest, w =>
      (acceptConnection tls w fd client started handshake added).bind (acceptClients tls rest)

/-- What `handle_client_event` does to its client. -/
inductive Handled where
  | stays (idle : Bool) (used : ℕ) (active : Timespec)
  | ends

/-- An event of a batch, with what happens when it is handled. -/
inductive Ready (α : Type*) where
  | connections (i : ℕ) (accepts : List (Accept α))
  /-- `EPOLLHUP`, `EPOLLERR` or `EPOLLRDHUP`. -/
  | hangup (client : α)
  | readable (client : α) (handled : Handled)

/-- `events[i].data.ptr`. -/
def Ready.target : Ready α → Target α
  | .connections i _ => .listener i
  | .hangup client => .client client
  | .readable client _ => .client client

/-- The loop body over a batch. -/
def handleReady (setup : Setup) (w : State α) : Ready α → Option (State α)
  | .connections i accepts =>
      setup.listeners[i]?.bind fun listener => acceptClients listener.tls accepts w
  | .hangup client => closeClient w client
  | .readable client .ends => closeClient w client
  | .readable client (.stays idle used active) =>
      (touchClient w.clients client idle used active).map fun clients =>
        { w with clients := clients }

/-- The loop of `sweep_idle_keep_alive_clients`. -/
def sweepLoop (cfg : KeepAliveConfig) (now : Timespec) :
    ℕ → Option α → State α → Option (State α)
  | _, none, w => some w
  | 0, some _, _ => none
  | fuel + 1, some client, w => do
      let node ← w.clients.heap client
      let w ←
        if node.data.idleKeepAlive && node.data.used = 0 &&
            timespecElapsedSec node.data.lastActiveMono now cfg.keepAliveTimeoutSec then
          closeClient w client
        else some w
      sweepLoop cfg now fuel node.next w

/-- `sweep_idle_keep_alive_clients`.  There are no more clients than have been accepted. -/
def sweepIdleKeepAliveClients (cfg : KeepAliveConfig) (clock : Option Timespec) (w : State α) :
    Option (State α) :=
  if !cfg.keepAliveEnabled || cfg.keepAliveTimeoutSec ≤ 0 then some w
  else
    match clock with
    | none => some w
    | some now => sweepLoop cfg now w.perf.acceptedConnections w.clients.head w

/-- What `epoll_wait` returns, and what `clock_gettime` returns in the sweep behind the batch. -/
inductive Wait (α : Type*) where
  | interrupted
  | failed
  | ready (batch : List (Ready α)) (clock : Option Timespec)

/-- A round that gets a batch. -/
def handleBatch (setup : Setup) (w : State α) (batch : List (Ready α)) (clock : Option Timespec) :
    Option (State α) := do
  let w ← batch.foldlM (handleReady setup) w
  sweepIdleKeepAliveClients setup.keepAlive clock w

/-- The loop, until it is to stop or `epoll_wait` fails. -/
def serveLoop (setup : Setup) : List (Wait α) → State α → Option (State α)
  | [], w => some w
  | .interrupted :: rest, w => serveLoop setup rest w
  | .failed :: _, w => some w
  | .ready batch clock :: rest, w => (handleBatch setup w batch clock).bind (serveLoop setup rest)

/-- `while (clients_head != NULL) close_client(epfd, &clients_head, clients_head)`. -/
def closeAllClients : ℕ → State α → Option (State α)
  | 0, w => if w.clients.head.isNone then some w else none
  | fuel + 1, w =>
      match w.clients.head with
      | none => some w
      | some client => (closeClient w client).bind (closeAllClients fuel)

/-- The end of a worker. -/
def finish (setup : Setup) (w : State α) : Option (State α) := do
  let w ← closeAllClients w.perf.acceptedConnections w
  let w ← (setup.listeners.map fun listener => (listener.fd : ℤ)).foldlM State.closeFd w
  w.closeFd setup.epfd

end Code

/-- The registrations that `add_one_listener` has made. -/
def Setup.entries (setup : Setup) : List (ℤ × Target α) :=
  setup.listeners.zipIdx.map fun (listener, i) => ((listener.fd : ℤ), .listener i)

/-- The sockets there are before the loop. -/
def Setup.sockets (setup : Setup) : List ℤ :=
  setup.listeners.map (fun listener => (listener.fd : ℤ)) ++ [setup.epfd]

/-- A worker before its loop. -/
def start (setup : Setup) : State α where
  clients := .start
  interest := setup.entries
  sockets := setup.sockets
  perf := {}

/-! ### What holds between two steps -/

/-- The registrations of the clients. -/
def registrations (clients : List (α × ClientData)) : List (ℤ × Target α) :=
  clients.map fun x => (x.2.fd, .client x.1)

/-- Their sockets. -/
def socketsOf (clients : List (α × ClientData)) : List ℤ := clients.map fun x => x.2.fd

/-- A worker that has these clients, and nothing else but its listeners. -/
structure Sound (setup : Setup) (w : State α) (c : ClientSet α) : Prop where
  holds : Holds w.clients c
  interest : w.interest = registrations c.clients ++ setup.entries
  sockets : w.sockets = socketsOf c.clients ++ setup.sockets
  distinct : w.sockets.Nodup
  active : w.perf.activeConnections = c.clients.length
  balance : w.perf.acceptedConnections = w.perf.closedConnections + w.perf.activeConnections
  peak : w.perf.activeConnections ≤ w.perf.peakActiveConnections

variable {setup : Setup} {w : State α} {c : ClientSet α}

theorem fst_registrations (clients : List (α × ClientData)) :
    (registrations clients).map Prod.fst = socketsOf clients := by
  simp [registrations, socketsOf]

theorem fst_entries (setup : Setup) :
    (setup.entries : List (ℤ × Target α)).map Prod.fst =
      setup.listeners.map fun listener => (listener.fd : ℤ) := by
  have hzip : ∀ (l : List Listener) (n : ℕ),
      (l.zipIdx n).map (fun x => (x.1.fd : ℤ)) = l.map fun listener => (listener.fd : ℤ) := by
    intro l
    induction l with
    | nil => intro n; rfl
    | cons a l ih => intro n; simp [List.zipIdx_cons, ih]
  unfold Setup.entries
  rw [List.map_map]
  exact hzip setup.listeners 0

/-- What is registered is open. -/
theorem Sound.fst_sublist (h : Sound setup w c) : (w.interest.map Prod.fst).Sublist w.sockets := by
  rw [h.interest, h.sockets, List.map_append, fst_registrations, fst_entries]
  exact List.Sublist.append_left (List.sublist_append_left _ _) _

/-- Nothing is taken out for a descriptor that is not registered. -/
theorem filter_fst_ne_self {l : List (ℤ × Target α)} {fd : ℤ} (h : fd ∉ l.map Prod.fst) :
    l.filter (fun entry => entry.1 ≠ fd) = l := by
  apply List.filter_eq_self.mpr
  intro entry hentry
  simp only [decide_eq_true_eq]
  intro heq
  exact h (heq ▸ List.mem_map_of_mem hentry)

/-- A registration is taken out by its descriptor. -/
theorem filter_fst_ne {l before behind : List (ℤ × Target α)} {y : ℤ × Target α}
    (hl : l = before ++ y :: behind) (hdistinct : (l.map Prod.fst).Nodup) :
    l.filter (fun entry => entry.1 ≠ y.1) = before ++ behind := by
  subst hl
  rw [List.map_append, List.map_cons] at hdistinct
  obtain ⟨hnot, -⟩ := List.nodup_cons.mp (List.nodup_middle.mp hdistinct)
  rw [List.mem_append, not_or] at hnot
  rw [List.filter_append, List.filter_cons_of_neg (by simp), filter_fst_ne_self hnot.1,
    filter_fst_ne_self hnot.2]

theorem closeFd_eq {fd : ℤ} (h : fd ∈ w.sockets) :
    w.closeFd fd = some { w.epollDel fd with sockets := w.sockets.erase fd } := if_pos h

theorem epollDel_epollDel (w : State α) (fd : ℤ) :
    (w.epollDel fd).interest.filter (fun entry => entry.1 ≠ fd) = (w.epollDel fd).interest := by
  unfold State.epollDel
  simp

/-- A socket that is opened and closed again leaves nothing. -/
theorem closeFd_opened (h : Sound setup w c) {fd : ℤ} (hfd : fd ∉ w.sockets) (perf : Perf) :
    ({ w with sockets := fd :: w.sockets, perf := perf } : State α).closeFd fd =
      some { w with perf := perf } := by
  have hfst : fd ∉ w.interest.map Prod.fst := fun hmem => hfd (h.fst_sublist.subset hmem)
  have hmem : fd ∈ ({ w with sockets := fd :: w.sockets, perf := perf } : State α).sockets :=
    List.mem_cons_self
  rw [closeFd_eq hmem]
  unfold State.epollDel
  simp only [List.erase_cons_head, filter_fst_ne_self hfst]

/-- The object is there: a listener of the worker, or a client that is open. -/
def Live (setup : Setup) (c : ClientSet α) : Target α → Prop
  | .listener i => i < setup.listeners.length
  | .client client => client ∈ c.clients.map Prod.fst

/-- Only clients that are open, and the listeners, are registered. -/
theorem Sound.live (h : Sound setup w c) {target : Target α}
    (htarget : target ∈ w.interest.map Prod.snd) : Live setup c target := by
  rw [h.interest, List.map_append, List.mem_append] at htarget
  rcases htarget with hclient | hlistener
  · simp only [registrations, List.map_map, List.mem_map, Function.comp] at hclient
    obtain ⟨x, hx, rfl⟩ := hclient
    exact List.mem_map_of_mem hx
  · simp only [Setup.entries, List.map_map, List.mem_map, Function.comp] at hlistener
    obtain ⟨⟨listener, i⟩, hmem, rfl⟩ := hlistener
    show i < setup.listeners.length
    simpa using (List.mem_zipIdx hmem).2.1

/-- No more clients than have been accepted. -/
theorem Sound.length_le (h : Sound setup w c) :
    c.clients.length ≤ w.perf.acceptedConnections := by
  have hactive := h.active
  have hbalance := h.balance
  omega

theorem sound_start (hdistinct : setup.sockets.Nodup) :
    Sound setup (start setup : State α) .empty :=
  ⟨⟨represents_nil, rfl⟩, rfl, rfl, hdistinct, rfl, rfl, le_rfl⟩

/-- The descriptors in front of the others are closed. -/
theorem exists_closeFds {fds rest : List ℤ} (hsockets : w.sockets = fds ++ rest) :
    ∃ w', fds.foldlM State.closeFd w = some w' ∧ w'.sockets = rest ∧ w'.clients = w.clients ∧
      w'.perf = w.perf := by
  induction fds generalizing w with
  | nil => exact ⟨w, rfl, hsockets, rfl, rfl⟩
  | cons fd fds ih =>
      have hmem : fd ∈ w.sockets := by simp [hsockets]
      have herase : ({ w.epollDel fd with sockets := w.sockets.erase fd } : State α).sockets =
          fds ++ rest := by
        simp [hsockets]
      obtain ⟨w', hrest, hleft, hclients, hperf⟩ := ih herase
      refine ⟨w', ?_, hleft, hclients, hperf⟩
      rw [foldlM_cons_of_eq (closeFd_eq hmem), hrest]

/-! ### Closing a client -/

variable [DecidableEq α]

/-- **`close_client`**, wherever the client is in the list. -/
theorem exists_closeClient {pre post : List (α × ClientData)} {x : α × ClientData}
    (h : Sound setup w c) (hc : c.clients = pre ++ x :: post) :
    ∃ w', closeClient w x.1 = some w' ∧
      Sound setup w' ⟨pre ++ post, c.closed ++ [x.2.fd]⟩ := by
  have hr := h.holds.list
  rw [hc] at hr
  obtain ⟨s', hclose, hr', hclosed⟩ := ClientList.exists_closeClient hr
  have hinterest := h.interest
  have hsockets := h.sockets
  have hdistinct := h.distinct
  rw [hc] at hinterest hsockets
  have hmem : x.2.fd ∈ w.sockets := by simp [hsockets, socketsOf]
  have hfilter : (w.epollDel x.2.fd).interest = registrations (pre ++ post) ++ setup.entries := by
    have hsplit : w.interest = registrations pre ++ (x.2.fd, Target.client x.1) ::
        (registrations post ++ setup.entries) := by
      simp [hinterest, registrations]
    have hfst := h.fst_sublist.nodup hdistinct
    show w.interest.filter _ = _
    rw [filter_fst_ne hsplit hfst]
    simp [registrations]
  have herase : w.sockets.erase x.2.fd = socketsOf (pre ++ post) ++ setup.sockets := by
    have hsplit : w.sockets = socketsOf pre ++ x.2.fd :: (socketsOf post ++ setup.sockets) := by
      simp [hsockets, socketsOf]
    have hnot : x.2.fd ∉ socketsOf pre := by
      intro hpre
      rw [hsplit] at hdistinct
      exact List.disjoint_of_nodup_append hdistinct hpre List.mem_cons_self
    rw [hsplit, List.erase_append_right _ hnot, List.erase_cons_head]
    simp [socketsOf]
  refine ⟨⟨s', registrations (pre ++ post) ++ setup.entries,
    socketsOf (pre ++ post) ++ setup.sockets, w.perf.ended⟩, ?_, ?_⟩
  · have hopen : x.2.fd ∈ ({ w.epollDel x.2.fd with clients := s' } : State α).sockets := hmem
    have hlist : ClientList.closeClient (w.epollDel x.2.fd).clients x.1 = some s' := hclose
    unfold closeClient
    simp only [Option.bind_eq_bind, hr.node, Option.bind_some, hlist, closeFd_eq hopen]
    rw [← hfilter, ← herase]
    have htwice := epollDel_epollDel w x.2.fd
    unfold State.epollDel at htwice ⊢
    simp only [htwice]
  · have hactive := h.active
    have hbalance := h.balance
    have hpeak := h.peak
    rw [hc, List.length_append, List.length_cons] at hactive
    have hpos : 0 < w.perf.activeConnections := by omega
    refine ⟨⟨hr', ?_⟩, rfl, rfl, ?_, ?_, ?_, ?_⟩
    · rw [hclosed, h.holds.closed]
    · rw [← herase]
      exact hdistinct.erase _
    · simp only [Perf.ended, if_pos hpos, List.length_append]
      omega
    · simp only [Perf.ended, if_pos hpos]
      omega
    · simp only [Perf.ended, if_pos hpos]
      omega

/-! ### Accepting connections -/

/-- `accept4` gives a socket that is not open, and `calloc` memory that is not in use. -/
def AcceptsPossible (tls : Bool) : List (Accept α) → State α → Prop
  | [], _ => True
  | .interrupted :: rest, w => AcceptsPossible tls rest w
  | .again :: _, _ => True
  | .failed :: _, _ => True
  | .noMemory fd :: _, w => fd ∉ w.sockets
  | .connection fd client started handshake added :: rest, w =>
      fd ∉ w.sockets ∧ w.clients.heap client = none ∧
        Behind (acceptConnection tls w fd client started handshake added)
          (AcceptsPossible tls rest)

/-- The clients that a backlog adds. -/
def acceptOps (tls : Bool) : List (Accept α) → List (ClientOp α)
  | [] => []
  | .interrupted :: rest => acceptOps tls rest
  | .again :: _ => []
  | .failed :: _ => []
  | .noMemory _ :: _ => []
  | .connection fd client started handshake added :: rest =>
      (if keeps tls handshake added then [.accept client (acceptedData fd started)] else []) ++
        acceptOps tls rest

/-- **A new connection** is kept, or leaves nothing but a count. -/
theorem exists_acceptConnection (cfg : KeepAliveConfig) (h : Sound setup w c) {fd : ℤ} {client : α}
    (hfd : fd ∉ w.sockets) (hclient : w.clients.heap client = none) (tls : Bool)
    (started : Timespec) (handshake : Handshake) (added : Bool) :
    ∃ w', acceptConnection tls w fd client started handshake added = some w' ∧
      Sound setup w' (acceptOps tls [.connection fd client started handshake added] |>.foldl
        (ClientSet.apply cfg) c) := by
  have hactive := h.active
  have hbalance := h.balance
  have hpeak := h.peak
  unfold acceptConnection
  cases hkeeps : keeps tls handshake added with
  | true =>
      have hnew : client ∉ c.clients.map Prod.fst := by
        intro hmem
        obtain ⟨pre, x, post, hsplit, rfl, -⟩ := h.holds.list.exists_split hmem
        have hr := h.holds.list
        rw [hsplit] at hr
        rw [hr.node] at hclient
        exact Option.some_ne_none _ hclient
      obtain ⟨s', haccept, hr', hclosed⟩ :=
        exists_acceptClient h.holds.list hnew (acceptedData fd started)
      refine ⟨⟨s', (fd, .client client) :: w.interest, fd :: w.sockets, w.perf.opened⟩, ?_, ?_⟩
      · rw [if_pos rfl]
        simp only [Option.bind_eq_bind, haccept, Option.bind_some]
      · simp only [acceptOps, hkeeps, if_pos, List.append_nil, List.foldl_cons, List.foldl_nil]
        refine ⟨⟨hr', hclosed.trans h.holds.closed⟩, ?_, ?_, ?_, ?_, ?_, ?_⟩
        · rw [h.interest]
          rfl
        · rw [h.sockets]
          rfl
        · exact List.nodup_cons.mpr ⟨hfd, h.distinct⟩
        · show w.perf.activeConnections + 1 = c.clients.length + 1
          rw [hactive]
        · show w.perf.acceptedConnections + 1 = w.perf.closedConnections + (_ + 1)
          omega
        · simp only [Perf.opened]
          split_ifs
          · exact le_rfl
          · omega
  | false =>
      refine ⟨{ w with perf := w.perf.opened.ended }, ?_, ?_⟩
      · rw [if_neg Bool.false_ne_true]
        unfold discardAcceptedClient
        rw [closeFd_opened h hfd]
        rfl
      · simp only [acceptOps, hkeeps, if_neg Bool.false_ne_true, List.append_nil, List.foldl_nil]
        refine ⟨h.holds, h.interest, h.sockets, h.distinct, ?_, ?_, ?_⟩
        · simp [Perf.opened, Perf.ended, hactive]
        · simp only [Perf.opened, Perf.ended]
          simp
          omega
        · simp only [Perf.opened, Perf.ended]
          grind

/-- **A backlog.** -/
theorem exists_acceptClients (cfg : KeepAliveConfig) (tls : Bool) {accepts : List (Accept α)}
    (h : Sound setup w c) (hpossible : AcceptsPossible tls accepts w) :
    ∃ w', acceptClients tls accepts w = some w' ∧
      Sound setup w' ((acceptOps tls accepts).foldl (ClientSet.apply cfg) c) := by
  induction accepts generalizing w c with
  | nil => exact ⟨w, rfl, h⟩
  | cons accept rest ih =>
      cases accept with
      | interrupted => exact ih h hpossible
      | again => exact ⟨w, rfl, h⟩
      | failed => exact ⟨w, rfl, h⟩
      | noMemory fd =>
          refine ⟨w, ?_, h⟩
          exact closeFd_opened h hpossible w.perf
      | connection fd client started handshake added =>
          obtain ⟨hfd, hclient, hrest⟩ := hpossible
          obtain ⟨w₁, hw₁, h₁⟩ :=
            exists_acceptConnection cfg h hfd hclient tls started handshake added
          obtain ⟨w', hw', h'⟩ := ih h₁ (hrest w₁ hw₁)
          refine ⟨w', ?_, ?_⟩
          · unfold acceptClients
            rw [hw₁, Option.bind_some, hw']
          · rw [← List.foldl_append] at h'
            simpa [acceptOps] using h'

/-! ### A batch -/

/-- What an event does to the list of clients. -/
def Ready.ops (setup : Setup) : Ready α → List (ClientOp α)
  | .connections i accepts =>
      setup.listeners[i]?.elim [] fun listener => acceptOps listener.tls accepts
  | .hangup client => [.close client]
  | .readable client .ends => [.close client]
  | .readable client (.stays idle used active) => [.touch client idle used active]

/-- The set of clients behind an event. -/
def afterReady (setup : Setup) (c : ClientSet α) (e : Ready α) : ClientSet α :=
  (e.ops setup).foldl (ClientSet.apply setup.keepAlive) c

/-- What the outside can do when an event is handled. -/
def Ready.Possible (setup : Setup) (w : State α) : Ready α → Prop
  | .connections i accepts =>
      Behind setup.listeners[i]? fun listener => AcceptsPossible listener.tls accepts w
  | .hangup _ => True
  | .readable _ _ => True

/-- A client that is closed. -/
theorem exists_close (h : Sound setup w c) {client : α} (hlive : client ∈ c.clients.map Prod.fst) :
    ∃ w', closeClient w client = some w' ∧
      Sound setup w' (c.apply setup.keepAlive (.close client)) := by
  obtain ⟨pre, x, post, hsplit, rfl, hpre, hpost⟩ := h.holds.list.exists_split hlive
  obtain ⟨w', hclose, h'⟩ := exists_closeClient h hsplit
  refine ⟨w', hclose, ?_⟩
  have hset : c.apply setup.keepAlive (.close x.1) = ⟨pre ++ post, c.closed ++ [x.2.fd]⟩ := by
    have hother : ∀ l : List (α × ClientData), (∀ y ∈ l, y.1 ≠ x.1) →
        l.filter (fun y => y.1 ≠ x.1) = l ∧ l.filter (fun y => y.1 = x.1) = [] := by
      intro l hl
      constructor
      · apply List.filter_eq_self.mpr
        intro y hy
        simpa using hl y hy
      · apply List.filter_eq_nil_iff.mpr
        intro y hy
        simpa using hl y hy
    show ClientSet.mk _ _ = _
    rw [hsplit]
    simp only [List.filter_append, List.filter_cons, (hother pre hpre).1, (hother post hpost).1,
      (hother pre hpre).2, (hother post hpost).2]
    simp
  rw [hset]
  exact h'

/-- An event of a client that stays open. -/
theorem exists_touch (h : Sound setup w c) {client : α} (hlive : client ∈ c.clients.map Prod.fst)
    (idle : Bool) (used : ℕ) (active : Timespec) :
    ∃ w', (touchClient w.clients client idle used active).map
        (fun clients => { w with clients := clients }) = some w' ∧
      Sound setup w' (c.apply setup.keepAlive (.touch client idle used active)) := by
  obtain ⟨s', htouch, hholds⟩ := exists_step setup.keepAlive h.holds (le_refl c.clients.length)
    (show c.Allows (.touch client idle used active) from hlive)
  have hfds : ∀ l : List (α × ClientData),
      registrations (l.map fun x => if x.1 = client then (x.1, x.2.touched idle used active) else x) =
        registrations l ∧
      socketsOf (l.map fun x => if x.1 = client then (x.1, x.2.touched idle used active) else x) =
        socketsOf l := by
    intro l
    constructor
    · unfold registrations
      rw [List.map_map]
      apply List.map_congr_left
      intro x _
      simp only [Function.comp]
      split_ifs <;> rfl
    · unfold socketsOf
      rw [List.map_map]
      apply List.map_congr_left
      intro x _
      simp only [Function.comp]
      split_ifs <;> rfl
  refine ⟨{ w with clients := s' }, ?_, hholds, ?_, ?_, h.distinct, ?_, h.balance, h.peak⟩
  · have hlist : touchClient w.clients client idle used active = some s' := htouch
    rw [hlist, Option.map_some]
  · exact h.interest.trans (congrArg (· ++ setup.entries) (hfds c.clients).1.symm)
  · exact h.sockets.trans (congrArg (· ++ setup.sockets) (hfds c.clients).2.symm)
  · exact h.active.trans (List.length_map _).symm

/-- **An event**, if the object is there that it points to. -/
theorem exists_handleReady {e : Ready α} (h : Sound setup w c) (hlive : Live setup c e.target)
    (hpossible : e.Possible setup w) :
    ∃ w', handleReady setup w e = some w' ∧ Sound setup w' (afterReady setup c e) := by
  cases e with
  | connections i accepts =>
      have hlistener : setup.listeners[i]? = some setup.listeners[i] :=
        List.getElem?_eq_getElem hlive
      obtain ⟨w', hw', h'⟩ := exists_acceptClients setup.keepAlive setup.listeners[i].tls h
        (hpossible _ hlistener)
      refine ⟨w', ?_, ?_⟩
      · show setup.listeners[i]?.bind (fun listener => acceptClients listener.tls accepts w) = _
        rw [hlistener, Option.bind_some, hw']
      · show Sound setup w' ((setup.listeners[i]?.elim [] fun listener =>
          acceptOps listener.tls accepts).foldl (ClientSet.apply setup.keepAlive) c)
        rw [hlistener]
        exact h'
  | hangup client => exact exists_close h hlive
  | readable client handled =>
      cases handled with
      | ends => exact exists_close h hlive
      | stays idle used active => exact exists_touch h hlive idle used active

/-- Which clients there are behind a backlog. -/
theorem mem_acceptOps (cfg : KeepAliveConfig) (tls : Bool)
    {accepts : List (Accept α)} {c : ClientSet α} {client : α}
    (h : client ∈ c.clients.map Prod.fst) :
    client ∈ (((acceptOps tls accepts).foldl (ClientSet.apply cfg) c).clients.map Prod.fst) := by
  induction accepts generalizing c with
  | nil => exact h
  | cons accept rest ih =>
      cases accept with
      | interrupted => exact ih h
      | again => exact h
      | failed => exact h
      | noMemory fd => exact h
      | connection fd other started handshake added =>
          unfold acceptOps
          rw [List.foldl_append]
          apply ih
          split_ifs
          · exact List.mem_cons_of_mem _ h
          · exact h

/-- **An event leaves all other objects.** -/
theorem live_afterReady {e : Ready α} {target : Target α} (hother : target ≠ e.target)
    (hlive : Live setup c target) : Live setup (afterReady setup c e) target := by
  cases target with
  | listener i => exact hlive
  | client client =>
      have hclose : ∀ closed, client ≠ closed →
          client ∈ (c.apply setup.keepAlive (.close closed)).clients.map Prod.fst := by
        intro closed hne
        obtain ⟨x, hx, rfl⟩ := List.mem_map.mp hlive
        apply List.mem_map_of_mem
        apply List.mem_filter.mpr
        exact ⟨hx, by simpa using hne⟩
      have hne : ∀ closed, e.target = .client closed → client ≠ closed := by
        rintro closed htarget rfl
        exact hother htarget.symm
      cases e with
      | connections i accepts =>
          show client ∈ ((setup.listeners[i]?.elim [] fun listener =>
            acceptOps listener.tls accepts).foldl
              (ClientSet.apply setup.keepAlive) c).clients.map Prod.fst
          cases setup.listeners[i]? with
          | none => exact hlive
          | some listener => exact mem_acceptOps _ _ hlive
      | hangup closed => exact hclose closed (hne closed rfl)
      | readable closed handled =>
          cases handled with
          | ends => exact hclose closed (hne closed rfl)
          | stays idle used active =>
              obtain ⟨x, hx, hfst⟩ := List.mem_map.mp hlive
              apply List.mem_map.mpr
              refine ⟨_, List.mem_map_of_mem hx, ?_⟩
              split_ifs
              · exact hfst
              · exact hfst

/-! ### The sweep -/

/-- The loop: of what it has not visited yet, it closes the clients that have expired. -/
theorem exists_sweepLoop {cfg : KeepAliveConfig} (hpos : 0 < cfg.keepAliveTimeoutSec)
    (now : Timespec) {kept todo : List (α × ClientData)} {fuel : ℕ} (hfuel : todo.length ≤ fuel)
    (h : Sound setup w c) (hc : c.clients = kept ++ todo) :
    ∃ w', sweepLoop cfg now fuel (first todo none) w = some w' ∧
      Sound setup w' ⟨kept ++ todo.filter fun x => ¬ Expired cfg now x.2,
        c.closed ++ (todo.filter fun x => Expired cfg now x.2).map fun x => x.2.fd⟩ := by
  induction todo generalizing kept fuel w c with
  | nil =>
      refine ⟨w, ?_, ?_⟩
      · cases fuel <;> rfl
      · obtain ⟨clients, closed⟩ := c
        obtain rfl : clients = kept ++ [] := hc
        simpa using h
  | cons x todo ih =>
      cases fuel with
      | zero => exact absurd hfuel (Nat.not_succ_le_zero _)
      | succ fuel =>
          have hrest : todo.length ≤ fuel := Nat.le_of_succ_le_succ hfuel
          have hr := h.holds.list
          rw [hc] at hr
          show ∃ w', sweepLoop cfg now (fuel + 1) (some x.1) w = _ ∧ _
          unfold sweepLoop
          simp only [Option.bind_eq_bind, hr.node, Option.bind_some, sweeps_iff hpos]
          by_cases hexpired : Expired cfg now x.2
          · -- the client is closed, and its `next` has been read
            obtain ⟨w₁, hclose, h₁⟩ := exists_closeClient h hc
            obtain ⟨w', hloop, h'⟩ := ih hrest h₁ rfl
            refine ⟨w', ?_, ?_⟩
            · rw [if_pos hexpired, hclose, Option.bind_some, hloop]
            · simpa [List.filter_cons, hexpired] using h'
          · obtain ⟨w', hloop, h'⟩ := @ih w c (kept ++ [x]) fuel hrest h (by simp [hc])
            refine ⟨w', ?_, ?_⟩
            · rw [if_neg hexpired, hloop]
            · simpa [List.filter_cons, hexpired] using h'

/-- **A sweep.** -/
theorem exists_sweep (h : Sound setup w c) (clock : Option Timespec) :
    ∃ w', sweepIdleKeepAliveClients setup.keepAlive clock w = some w' ∧
      Sound setup w' (c.sweep setup.keepAlive clock) := by
  unfold sweepIdleKeepAliveClients ClientSet.sweep sweepTime
  by_cases hon : setup.keepAlive.keepAliveEnabled = true ∧ 0 < setup.keepAlive.keepAliveTimeoutSec
  · have hguard : (!setup.keepAlive.keepAliveEnabled ||
        decide (setup.keepAlive.keepAliveTimeoutSec ≤ 0)) = false := by
      simp [hon.1, hon.2]
    rw [if_pos hon, hguard, if_neg Bool.false_ne_true]
    cases clock with
    | none => exact ⟨w, rfl, h⟩
    | some now =>
        dsimp only
        rw [h.holds.list.head_eq]
        exact @exists_sweepLoop _ _ _ _ _ _ hon.2 now [] c.clients _ h.length_le h rfl
  · have hguard : (!setup.keepAlive.keepAliveEnabled ||
        decide (setup.keepAlive.keepAliveTimeoutSec ≤ 0)) = true := by
      simp only [Bool.or_eq_true, Bool.not_eq_true', decide_eq_true_eq]
      by_cases henabled : setup.keepAlive.keepAliveEnabled = true
      · exact Or.inr (not_lt.mp fun hpos => hon ⟨henabled, hpos⟩)
      · exact Or.inl (by simpa using henabled)
    rw [if_neg hon, hguard, if_pos rfl]
    exact ⟨w, rfl, h⟩

/-! ### The run -/

/-- What `epoll_wait` can return: events of objects that are registered, one for each. -/
structure Harvested (setup : Setup) (w : State α) (batch : List (Ready α)) : Prop where
  registered : ∀ e ∈ batch, e.target ∈ w.interest.map Prod.snd
  distinct : (batch.map Ready.target).Nodup
  possible : Along (Ready.Possible setup) (handleReady setup) w batch

/-- Every wait of a run returns what it can return in the state in which it is made. -/
def WaitsPossible (setup : Setup) : List (Wait α) → State α → Prop
  | [], _ => True
  | .interrupted :: rest, w => WaitsPossible setup rest w
  | .failed :: _, _ => True
  | .ready batch clock :: rest, w =>
      Harvested setup w batch ∧
        Behind (handleBatch setup w batch clock) (WaitsPossible setup rest)

/-- The set of clients behind a run. -/
def afterWaits (setup : Setup) : List (Wait α) → ClientSet α → ClientSet α
  | [], c => c
  | .interrupted :: rest, c => afterWaits setup rest c
  | .failed :: _, c => c
  | .ready batch clock :: rest, c =>
      afterWaits setup rest ((batch.foldl (afterReady setup) c).sweep setup.keepAlive clock)

/-- **A round.** -/
theorem exists_wait (h : Sound setup w c) {batch : List (Ready α)}
    (hharvested : Harvested setup w batch) (clock : Option Timespec) :
    ∃ w', handleBatch setup w batch clock = some w' ∧
      Sound setup w' ((batch.foldl (afterReady setup) c).sweep setup.keepAlive clock) := by
  have hstep : ∀ (w : State α) (c : ClientSet α) (e : Ready α), Sound setup w c →
      Live setup c e.target → e.Possible setup w →
      ∃ w', handleReady setup w e = some w' ∧ Sound setup w' (afterReady setup c e) :=
    fun _ _ _ h hlive hpossible => exists_handleReady h hlive hpossible
  have hkeeps : ∀ (c : ClientSet α) (e : Ready α) (target : Target α), target ≠ e.target →
      Live setup c target → Live setup (afterReady setup c e) target :=
    fun _ _ _ hother hlive => live_afterReady hother hlive
  obtain ⟨w₁, hw₁, h₁⟩ := exists_batch hstep hkeeps h hharvested.distinct
    (fun e he => h.live (hharvested.registered e he)) hharvested.possible
  obtain ⟨w', hw', h'⟩ := exists_sweep h₁ clock
  refine ⟨w', ?_, h'⟩
  unfold handleBatch
  rw [hw₁, Option.bind_eq_bind, Option.bind_some, hw']

/-- Any number of rounds. -/
theorem exists_serveLoop {waits : List (Wait α)} (h : Sound setup w c)
    (hpossible : WaitsPossible setup waits w) :
    ∃ w', serveLoop setup waits w = some w' ∧ Sound setup w' (afterWaits setup waits c) := by
  induction waits generalizing w c with
  | nil => exact ⟨w, rfl, h⟩
  | cons wait rest ih =>
      cases wait with
      | interrupted => exact ih h hpossible
      | failed => exact ⟨w, rfl, h⟩
      | ready batch clock =>
          obtain ⟨hharvested, hrest⟩ := hpossible
          obtain ⟨w₁, hw₁, h₁⟩ := exists_wait h hharvested clock
          obtain ⟨w', hw', h'⟩ := ih h₁ (hrest w₁ hw₁)
          refine ⟨w', ?_, h'⟩
          unfold serveLoop
          rw [hw₁, Option.bind_some, hw']

/-! ### The end -/

theorem exists_closeAllClients {fuel : ℕ} (hfuel : c.clients.length ≤ fuel)
    (h : Sound setup w c) :
    ∃ w' closed, closeAllClients fuel w = some w' ∧ Sound setup w' ⟨[], closed⟩ := by
  obtain ⟨clients, closed⟩ := c
  induction clients generalizing w fuel closed with
  | nil =>
      have hhead : w.clients.head = none := h.holds.list.head_eq
      refine ⟨w, closed, ?_, h⟩
      cases fuel with
      | zero => simp [closeAllClients, hhead]
      | succ fuel => simp [closeAllClients, hhead]
  | cons x clients ih =>
      cases fuel with
      | zero => exact absurd hfuel (Nat.not_succ_le_zero _)
      | succ fuel =>
          have hhead : w.clients.head = some x.1 := h.holds.list.head_eq
          obtain ⟨w₁, hclose, h₁⟩ := @exists_closeClient _ _ _ _ _ [] clients x h rfl
          obtain ⟨w', closed', hrest, h'⟩ := ih _ (Nat.le_of_succ_le_succ hfuel) h₁
          refine ⟨w', closed', ?_, h'⟩
          simp only [closeAllClients, hhead, hclose, Option.bind_some, hrest]

/-- **A worker that ends** has freed all its clients and closed all its sockets. -/
theorem worker_ends (h : Sound setup w c) :
    ∃ w', finish setup w = some w' ∧ (∀ client, w'.clients.heap client = none) ∧
      w'.sockets = [] ∧ w'.perf.activeConnections = 0 ∧
      w'.perf.acceptedConnections = w'.perf.closedConnections := by
  obtain ⟨w₁, closed, hclose, h₁⟩ := exists_closeAllClients h.length_le h
  have hopen : w₁.sockets =
      setup.listeners.map (fun listener => (listener.fd : ℤ)) ++ [setup.epfd] := h₁.sockets
  obtain ⟨w₂, hfds, hsockets, hclients, hperf⟩ := exists_closeFds hopen
  have hepfd : setup.epfd ∈ w₂.sockets := by simp [hsockets]
  have hactive : w₂.perf.activeConnections = 0 := by rw [hperf, h₁.active]; rfl
  refine ⟨{ w₂.epollDel setup.epfd with sockets := w₂.sockets.erase setup.epfd }, ?_, ?_, ?_,
    hactive, ?_⟩
  · unfold finish
    simp only [Option.bind_eq_bind, hclose, Option.bind_some]
    rw [hfds, Option.bind_some, closeFd_eq hepfd]
  · intro client
    show w₂.clients.heap client = none
    rw [hclients]
    by_contra hleft
    exact List.not_mem_nil (h₁.holds.list.only client hleft)
  · simp [hsockets]
  · have hbalance := h₁.balance
    rw [← hperf] at hbalance
    show w₂.perf.acceptedConnections = w₂.perf.closedConnections
    omega

/-- **The loop of a worker**, whatever the network, the clients and the clock do.  No step reads,
writes or frees a client that has been freed, and none closes a socket that is not open; the
registered objects are the listeners and the clients that are open, the open sockets are theirs, and
`active_connections` counts the clients; and when the worker ends, nothing is left. -/
theorem worker_run {setup : Setup} (hdistinct : setup.sockets.Nodup) {waits : List (Wait α)}
    (hpossible : WaitsPossible setup waits (start setup)) :
    ∃ w, serveLoop setup waits (start setup) = some w ∧
      Sound setup w (afterWaits setup waits .empty) ∧
      ∃ w', finish setup w = some w' ∧ (∀ client, w'.clients.heap client = none) ∧
        w'.sockets = [] ∧ w'.perf.activeConnections = 0 ∧
        w'.perf.acceptedConnections = w'.perf.closedConnections := by
  obtain ⟨w, hrun, h⟩ := exists_serveLoop (sound_start hdistinct) hpossible
  exact ⟨w, hrun, h, worker_ends h⟩

/-! ### A run -/

instance decidableAcceptsPossible (tls : Bool) :
    (accepts : List (Accept α)) → (w : State α) → Decidable (AcceptsPossible tls accepts w)
  | [], _ => isTrue trivial
  | .interrupted :: rest, w => decidableAcceptsPossible tls rest w
  | .again :: _, _ => isTrue trivial
  | .failed :: _, _ => isTrue trivial
  | .noMemory fd :: _, w => inferInstanceAs (Decidable (fd ∉ w.sockets))
  | .connection fd client started handshake added :: rest, w =>
      have : DecidablePred fun w : State α => AcceptsPossible tls rest w := decidableAcceptsPossible tls rest
      inferInstanceAs (Decidable (fd ∉ w.sockets ∧ w.clients.heap client = none ∧
        Behind (acceptConnection tls w fd client started handshake added)
          (AcceptsPossible tls rest)))

instance (setup : Setup) (w : State α) : (e : Ready α) → Decidable (e.Possible setup w)
  | .connections i accepts => inferInstanceAs (Decidable (Behind setup.listeners[i]? fun listener =>
      AcceptsPossible listener.tls accepts w))
  | .hangup _ => isTrue trivial
  | .readable _ _ => isTrue trivial

instance (setup : Setup) (w : State α) (batch : List (Ready α)) :
    Decidable (Harvested setup w batch) :=
  decidable_of_iff ((∀ e ∈ batch, e.target ∈ w.interest.map Prod.snd) ∧
      (batch.map Ready.target).Nodup ∧ Along (Ready.Possible setup) (handleReady setup) w batch)
    ⟨fun ⟨h₁, h₂, h₃⟩ => ⟨h₁, h₂, h₃⟩, fun h => ⟨h.1, h.2, h.3⟩⟩

instance decidableWaitsPossible (setup : Setup) :
    (waits : List (Wait α)) → (w : State α) → Decidable (WaitsPossible setup waits w)
  | [], _ => isTrue trivial
  | .interrupted :: rest, w => decidableWaitsPossible setup rest w
  | .failed :: _, _ => isTrue trivial
  | .ready batch clock :: rest, w =>
      have : DecidablePred fun w : State α => WaitsPossible setup rest w := decidableWaitsPossible setup rest
      inferInstanceAs (Decidable (Harvested setup w batch ∧
        Behind (handleBatch setup w batch clock) (WaitsPossible setup rest)))

/-- A plain listener and one with TLS. -/
def twoListeners : Setup where
  epfd := 3
  listeners := [⟨4, .lit "0.0.0.0", 80, false⟩, ⟨5, .lit "0.0.0.0", 443, true⟩]
  keepAlive := ⟨true, 30⟩

/-- Three clients, and a connection that is served as HTTP/2.  In the next batch the first client is
gone, and a new one gets its socket and its memory, before the events of the other two are handled;
the sweep finds the second one idle. -/
def reusedClient : List (Wait ℕ) :=
  [.ready
      [.connections 0 [.connection 6 1 (atSecond 5) .http1 true, .interrupted,
        .connection 7 2 (atSecond 5) .http1 true, .again],
      .connections 1 [.connection 8 3 (atSecond 5) .http2 true,
        .connection 8 3 (atSecond 5) .http1 true, .again]]
      (some (atSecond 5)),
    .interrupted,
    .ready
      [.hangup 1, .connections 0 [.connection 6 1 (atSecond 40) .http1 true, .again],
      .readable 2 (.stays true 0 (atSecond 5)), .readable 3 .ends]
      (some (atSecond 40)),
    .failed]

theorem worker_run_reused :
    ∃ w, serveLoop twoListeners reusedClient (start twoListeners) = some w ∧
      w.sockets = [6, 4, 5, 3] ∧ w.perf.activeConnections = 1 := by
  obtain ⟨w, hrun, h, -⟩ :=
    @worker_run ℕ _ twoListeners (by decide) reusedClient (by decide +kernel)
  refine ⟨w, hrun, ?_, ?_⟩
  · rw [h.sockets]
    decide +kernel
  · rw [h.active]
    decide +kernel

end Rpsiod.WorkerLoop

import Mathlib.Algebra.Order.Ring.Int
import Rpsiod.Lib.DoublyLinked

/-!
# The list of clients (`client_list_add`, `close_client`, `sweep_idle_keep_alive_clients`)

A worker keeps its clients in a doubly linked list.  Clients are added at the front and closed
anywhere: by an event, and by the sweep, which walks the list and takes nodes out of it on its way.
An access to a client that has been freed is an error of the model.

* `timespecElapsedSec_iff`: the comparison of seconds is one of points in time.
* `exists_clientListAdd`, `exists_closeClient`: **one step on the list**.
* `exists_sweepLoop`: the sweep visits every client once and takes out those that have expired.
* `clientList_exact`: **whatever the order of steps**, the list holds the clients that were added and
  not closed.
* `exists_closeAllClients`: at the end, none is left.
-/

namespace Rpsiod.ClientList

open DoublyLinked

/-! ### The code -/

/-- A point in time of a clock. -/
structure Timespec where
  sec : ℤ
  nsec : ℕ
  nsec_lt : nsec < 10 ^ 9

/-- What the list and the sweep read of a client. -/
structure ClientData where
  fd : ℤ
  idleKeepAlive : Bool
  used : ℕ
  lastActiveMono : Timespec

/-- What the sweep reads of `rpsiod_config`. -/
structure KeepAliveConfig where
  keepAliveEnabled : Bool
  keepAliveTimeoutSec : ℤ

/-- The clients of a worker, where their list starts, and the descriptors that have been closed. -/
structure Clients (α : Type*) where
  heap : Heap α ClientData
  head : Option α
  closed : List ℤ

variable {α : Type*} [DecidableEq α]

/-- `client_list_add`. -/
def clientListAdd (head : Option α) (heap : Heap α ClientData) (client : α) :
    Option (Option α × Heap α ClientData) := do
  let heap ← setPrev heap client none
  let heap ← setNext heap client head
  let heap ← setPrevOf heap head (some client)
  some (some client, heap)

/-- The link to a client from what is in front of it: a client or the head. -/
def relinkPrev (head : Option α) (heap : Heap α ClientData) (client : α) (node : Node α ClientData) :
    Option (Option α × Heap α ClientData) :=
  match node.prev with
  | some prev => (setNext heap prev node.next).map fun heap => (head, heap)
  | none => some (if head = some client then node.next else head, heap)

/-- `client_list_remove`. -/
def clientListRemove (head : Option α) (heap : Heap α ClientData) (client : α) :
    Option (Option α × Heap α ClientData) := do
  let node ← heap client
  let (head, heap) ← relinkPrev head heap client node
  let node ← heap client
  let heap ← setPrevOf heap node.next node.prev
  let heap ← setPrev heap client none
  let heap ← setNext heap client none
  some (head, heap)

/-- `close_client`. -/
def closeClient (s : Clients α) (client : α) : Option (Clients α) := do
  let (head, heap) ← clientListRemove s.head s.heap client
  let node ← heap client
  some
    { heap := Function.update heap client none
      head := head
      closed := s.closed ++ [node.data.fd] }

/-- The end of `accept_clients`: a new client, at an address that was free. -/
def acceptClient (s : Clients α) (client : α) (data : ClientData) : Option (Clients α) :=
  if (s.heap client).isSome then none
  else do
    let (head, heap) ←
      clientListAdd s.head (Function.update s.heap client (some ⟨none, none, data⟩)) client
    some { s with heap := heap, head := head }

/-- What `handle_client_event` leaves in a client that stays open. -/
def ClientData.touched (d : ClientData) (idle : Bool) (used : ℕ) (active : Timespec) : ClientData :=
  { d with idleKeepAlive := idle, used := used, lastActiveMono := active }

/-- An event of a client that stays open. -/
def touchClient (s : Clients α) (client : α) (idle : Bool) (used : ℕ) (active : Timespec) :
    Option (Clients α) := do
  let node ← s.heap client
  let node := { node with data := node.data.touched idle used active }
  some { s with heap := Function.update s.heap client (some node) }

/-- `timespec_elapsed_sec`. -/
def timespecElapsedSec (start now : Timespec) (seconds : ℤ) : Bool :=
  if seconds ≤ 0 ∨ start.sec = 0 then false
  else
    let sec := now.sec - start.sec
    let nsec : ℤ := now.nsec - start.nsec
    let sec := if nsec < 0 then sec - 1 else sec
    seconds ≤ sec

/-- The loop of the sweep, with the clients it visits.  A `next` is read before its client may be
freed. -/
def sweepLoop (cfg : KeepAliveConfig) (now : Timespec) :
    ℕ → Option α → Clients α → Option (List α × Clients α)
  | _, none, s => some ([], s)
  | 0, some _, _ => none
  | fuel + 1, some client, s => do
      let node ← s.heap client
      let s ←
        if node.data.idleKeepAlive && node.data.used = 0 &&
            timespecElapsedSec node.data.lastActiveMono now cfg.keepAliveTimeoutSec then
          closeClient s client
        else some s
      let (visited, s) ← sweepLoop cfg now fuel node.next s
      some (client :: visited, s)

/-- `sweep_idle_keep_alive_clients`, with what `clock_gettime` returns. -/
def sweepIdleKeepAliveClients (cfg : KeepAliveConfig) (clock : Option Timespec) (fuel : ℕ)
    (s : Clients α) : Option (List α × Clients α) :=
  if !cfg.keepAliveEnabled || cfg.keepAliveTimeoutSec ≤ 0 then some ([], s)
  else
    match clock with
    | none => some ([], s)
    | some now => sweepLoop cfg now fuel s.head s

/-- The end of a worker: `while (clients_head != NULL) close_client(.., clients_head)`. -/
def closeAllClients : ℕ → Clients α → Option (Clients α)
  | 0, s => if s.head.isNone then some s else none
  | fuel + 1, s =>
      match s.head with
      | none => some s
      | some client => (closeClient s client).bind (closeAllClients fuel)

/-! ### Points in time -/

/-- Nanoseconds since the start of the clock. -/
def Timespec.nanos (t : Timespec) : ℤ := t.sec * 10 ^ 9 + t.nsec

/-- Whole seconds have passed when that many nanoseconds have. -/
theorem timespecElapsedSec_iff (start now : Timespec) (seconds : ℤ) :
    timespecElapsedSec start now seconds = true ↔
      0 < seconds ∧ start.sec ≠ 0 ∧ start.nanos + seconds * 10 ^ 9 ≤ now.nanos := by
  have hstart := start.nsec_lt
  have hnow := now.nsec_lt
  unfold timespecElapsedSec Timespec.nanos
  split_ifs with hoff
  · constructor
    · intro h
      exact False.elim h
    · rintro ⟨hpos, hset, -⟩
      exact absurd hoff (not_or.mpr ⟨by omega, hset⟩)
  · rw [not_or] at hoff
    obtain ⟨hpos, hset⟩ := hoff
    dsimp only
    rw [decide_eq_true_iff]
    constructor
    · intro h
      refine ⟨by omega, hset, ?_⟩
      split_ifs at h with hneg
      · omega
      · omega
    · rintro ⟨-, -, h⟩
      split_ifs with hneg
      · omega
      · omega

/-! ### One step on the list -/

section Steps

variable {s : Clients α}

/-- A client is added at the front. -/
theorem exists_clientListAdd {heap : Heap α ClientData} {head : Option α}
    {l : List (α × ClientData)} (hr : Represents heap head l) {client : α}
    (hnew : client ∉ l.map Prod.fst) (data : ClientData) :
    ∃ heap', clientListAdd head
        (Function.update heap client (some ⟨none, none, data⟩)) client = some (some client, heap') ∧
      Represents heap' (some client) ((client, data) :: l) := by
  obtain ⟨heap', hset, hr'⟩ := hr.link_front hnew data
  refine ⟨heap', ?_, hr'⟩
  have hprev : setPrev (Function.update heap client (some ⟨none, none, data⟩)) client none =
      some (Function.update heap client (some ⟨none, none, data⟩)) := by
    unfold setPrev
    rw [Function.update_self, Option.map_some, Function.update_idem]
  have hnext : setNext (Function.update heap client (some ⟨none, none, data⟩)) client head =
      some (Function.update heap client (some ⟨none, head, data⟩)) := by
    unfold setNext
    rw [Function.update_self, Option.map_some, Function.update_idem]
  unfold clientListAdd
  simp only [Option.bind_eq_bind, Option.bind_some, hprev, hnext, hset]

/-- A client is taken out, wherever it is in the list. -/
theorem exists_clientListRemove {heap : Heap α ClientData} {head : Option α}
    {pre post : List (α × ClientData)} {x : α × ClientData}
    (hr : Represents heap head (pre ++ x :: post)) :
    ∃ heap', clientListRemove head heap x.1 = some (first (pre ++ post) none, heap') ∧
      heap' x.1 = some ⟨none, none, x.2⟩ ∧
      Represents (Function.update heap' x.1 none) (first (pre ++ post) none) (pre ++ post) := by
  obtain ⟨h₁, h₂, hset₁, hnode₁, hset₂, hnode₂, hr'⟩ := hr.unlink
  have hnode := hr.node
  rw [hnode] at hnode₁ hnode₂
  have hfront : relinkPrev head heap x.1 ⟨last none pre, first post none, x.2⟩ =
      some (first (pre ++ post) none, h₁) := by
    unfold relinkPrev
    dsimp only
    cases pre with
    | nil =>
        -- the client is the first one
        obtain rfl : heap = h₁ := Option.some_inj.mp hset₁
        show some (if head = some x.1 then first post none else head, heap) = _
        have hhead : head = some x.1 := hr.head_eq
        rw [if_pos hhead]
        rfl
    | cons y pre =>
        obtain ⟨prev, hprev⟩ := Option.ne_none_iff_exists'.mp (last_cons_ne_none none y pre)
        rw [hprev] at hset₁ ⊢
        dsimp only [setNextOf] at hset₁ ⊢
        rw [hset₁, Option.map_some, hr.head_eq]
        rfl
  have hprev : setPrev h₂ x.1 none =
      some (Function.update h₂ x.1 (some ⟨none, first post none, x.2⟩)) := by
    unfold setPrev
    rw [hnode₂, Option.map_some]
  have hnext : setNext (Function.update h₂ x.1 (some ⟨none, first post none, x.2⟩)) x.1 none =
      some (Function.update h₂ x.1 (some ⟨none, none, x.2⟩)) := by
    unfold setNext
    rw [Function.update_self, Option.map_some, Function.update_idem]
  refine ⟨Function.update h₂ x.1 (some ⟨none, none, x.2⟩), ?_, Function.update_self _ _ _, ?_⟩
  · unfold clientListRemove
    simp only [Option.bind_eq_bind, Option.bind_some, hnode, hfront, hnode₁, hset₂, hprev, hnext]
  · rw [Function.update_idem]
    exact hr'

/-- What a client is closed into. -/
theorem exists_closeClient {pre post : List (α × ClientData)} {x : α × ClientData}
    (hr : Represents s.heap s.head (pre ++ x :: post)) :
    ∃ s', closeClient s x.1 = some s' ∧ Represents s'.heap s'.head (pre ++ post) ∧
      s'.closed = s.closed ++ [x.2.fd] := by
  obtain ⟨heap', hremove, hnode, hr'⟩ := exists_clientListRemove hr
  refine ⟨⟨Function.update heap' x.1 none, first (pre ++ post) none, s.closed ++ [x.2.fd]⟩, ?_, hr',
    rfl⟩
  unfold closeClient
  simp only [Option.bind_eq_bind, Option.bind_some, hremove, hnode]

theorem exists_acceptClient {l : List (α × ClientData)} (hr : Represents s.heap s.head l)
    {client : α} (hnew : client ∉ l.map Prod.fst) (data : ClientData) :
    ∃ s', acceptClient s client data = some s' ∧
      Represents s'.heap s'.head ((client, data) :: l) ∧ s'.closed = s.closed := by
  obtain ⟨heap', hadd, hr'⟩ := exists_clientListAdd hr hnew data
  have hfree : ¬ (s.heap client).isSome = true := by
    rw [Bool.not_eq_true, Option.isSome_eq_false_iff, Option.isNone_iff_eq_none]
    exact not_not.mp fun h => hnew (hr.only client h)
  refine ⟨⟨heap', some client, s.closed⟩, ?_, hr', rfl⟩
  unfold acceptClient
  rw [if_neg hfree]
  simp only [Option.bind_eq_bind, Option.bind_some, hadd]

theorem exists_touchClient {pre post : List (α × ClientData)} {x : α × ClientData}
    (hr : Represents s.heap s.head (pre ++ x :: post)) (idle : Bool) (used : ℕ)
    (active : Timespec) :
    ∃ s', touchClient s x.1 idle used active = some s' ∧
      Represents s'.heap s'.head (pre ++ (x.1, x.2.touched idle used active) :: post) ∧
      s'.closed = s.closed := by
  have hr' := hr.set_data (x.2.touched idle used active)
  let node : Node α ClientData :=
    ⟨last none pre, first post none, x.2.touched idle used active⟩
  refine ⟨⟨Function.update s.heap x.1 (some node), s.head, s.closed⟩, ?_, hr', rfl⟩
  unfold touchClient
  simp only [Option.bind_eq_bind, Option.bind_some, hr.node]
  rfl

end Steps

/-! ### The sweep -/

/-- An idle client with an empty buffer whose last activity is at least the timeout ago. -/
structure Expired (cfg : KeepAliveConfig) (now : Timespec) (d : ClientData) : Prop where
  idle : d.idleKeepAlive = true
  empty : d.used = 0
  recorded : d.lastActiveMono.sec ≠ 0
  inactive : d.lastActiveMono.nanos + cfg.keepAliveTimeoutSec * 10 ^ 9 ≤ now.nanos

instance (cfg : KeepAliveConfig) (now : Timespec) (d : ClientData) :
    Decidable (Expired cfg now d) :=
  decidable_of_iff (d.idleKeepAlive = true ∧ d.used = 0 ∧ d.lastActiveMono.sec ≠ 0 ∧
      d.lastActiveMono.nanos + cfg.keepAliveTimeoutSec * 10 ^ 9 ≤ now.nanos)
    ⟨fun ⟨h₁, h₂, h₃, h₄⟩ => ⟨h₁, h₂, h₃, h₄⟩, fun h => ⟨h.1, h.2, h.3, h.4⟩⟩

theorem sweeps_iff {cfg : KeepAliveConfig} (hpos : 0 < cfg.keepAliveTimeoutSec) (now : Timespec)
    (d : ClientData) :
    (d.idleKeepAlive && d.used = 0 &&
      timespecElapsedSec d.lastActiveMono now cfg.keepAliveTimeoutSec) = true ↔
      Expired cfg now d := by
  rw [Bool.and_eq_true, Bool.and_eq_true, decide_eq_true_iff, timespecElapsedSec_iff]
  constructor
  · rintro ⟨⟨hidle, hempty⟩, -, hset, hlong⟩
    exact ⟨hidle, hempty, hset, hlong⟩
  · intro h
    exact ⟨⟨h.idle, h.empty⟩, hpos, h.recorded, h.inactive⟩

/-- **The loop**: of what it has not visited yet, it takes out the clients that have expired. -/
theorem exists_sweepLoop {cfg : KeepAliveConfig} (hpos : 0 < cfg.keepAliveTimeoutSec)
    (now : Timespec) {kept todo : List (α × ClientData)} {fuel : ℕ} (hfuel : todo.length ≤ fuel)
    {s : Clients α} (hr : Represents s.heap s.head (kept ++ todo)) :
    ∃ s', sweepLoop cfg now fuel (first todo none) s = some (todo.map Prod.fst, s') ∧
      Represents s'.heap s'.head (kept ++ todo.filter fun x => ¬ Expired cfg now x.2) ∧
      s'.closed = s.closed ++
        (todo.filter fun x => Expired cfg now x.2).map fun x => x.2.fd := by
  induction todo generalizing kept fuel s with
  | nil =>
      refine ⟨s, ?_, hr, (List.append_nil _).symm⟩
      cases fuel with
      | zero => rfl
      | succ fuel => rfl
  | cons x todo ih =>
      cases fuel with
      | zero => exact absurd hfuel (Nat.not_succ_le_zero _)
      | succ fuel =>
          have hrest : todo.length ≤ fuel := Nat.le_of_succ_le_succ hfuel
          show ∃ s', sweepLoop cfg now (fuel + 1) (some x.1) s = _ ∧ _
          unfold sweepLoop
          simp only [Option.bind_eq_bind, hr.node, Option.bind_some, sweeps_iff hpos]
          by_cases hexpired : Expired cfg now x.2
          · -- the client is closed, and its `next` has been read
            obtain ⟨s₁, hclose, hr₁, hclosed₁⟩ := exists_closeClient hr
            obtain ⟨s', hloop, hr', hclosed⟩ := ih hrest hr₁
            refine ⟨s', ?_, ?_, ?_⟩
            · rw [if_pos hexpired, hclose, Option.bind_some, hloop]
              rfl
            · rw [List.filter_cons_of_neg (by simpa using hexpired)]
              exact hr'
            · rw [List.filter_cons_of_pos (by simpa using hexpired), hclosed, hclosed₁,
                List.map_cons, List.append_assoc]
              rfl
          · -- the client is kept
            have hr₁ : Represents s.heap s.head ((kept ++ [x]) ++ todo) := by
              rw [List.append_assoc]
              exact hr
            obtain ⟨s', hloop, hr', hclosed⟩ := ih hrest hr₁
            refine ⟨s', ?_, ?_, ?_⟩
            · rw [if_neg hexpired, hloop]
              rfl
            · rw [List.filter_cons_of_pos (by simpa using hexpired)]
              rw [List.append_assoc] at hr'
              exact hr'
            · rw [List.filter_cons_of_neg (by simpa using hexpired)]
              exact hclosed

/-! ### What the list is for -/

/-- The clients that are open, the last one added first, and the descriptors that have been
closed. -/
structure ClientSet (α : Type*) where
  clients : List (α × ClientData)
  closed : List ℤ

/-- Whether a sweep looks at the clients at all, and when. -/
def sweepTime (cfg : KeepAliveConfig) (clock : Option Timespec) : Option Timespec :=
  if cfg.keepAliveEnabled = true ∧ 0 < cfg.keepAliveTimeoutSec then clock else none

/-- Those that have expired are closed. -/
def ClientSet.sweep (cfg : KeepAliveConfig) (clock : Option Timespec) (c : ClientSet α) :
    ClientSet α :=
  match sweepTime cfg clock with
  | none => c
  | some now =>
      { clients := c.clients.filter fun x => ¬ Expired cfg now x.2
        closed := c.closed ++ (c.clients.filter fun x => Expired cfg now x.2).map fun x => x.2.fd }

/-- What is done to the list. -/
inductive ClientOp (α : Type*) where
  | accept (client : α) (data : ClientData)
  | touch (client : α) (idle : Bool) (used : ℕ) (active : Timespec)
  | close (client : α)
  | sweep (clock : Option Timespec)

/-- An operation on the set of clients. -/
def ClientSet.apply (cfg : KeepAliveConfig) (c : ClientSet α) : ClientOp α → ClientSet α
  | .accept client data => { c with clients := (client, data) :: c.clients }
  | .touch client idle used active =>
      { c with clients := c.clients.map fun x =>
          if x.1 = client then (x.1, x.2.touched idle used active) else x }
  | .close client =>
      { clients := c.clients.filter fun x => x.1 ≠ client
        closed := c.closed ++ (c.clients.filter fun x => x.1 = client).map fun x => x.2.fd }
  | .sweep clock => c.sweep cfg clock

/-- A new client is at an address that is free, and events are those of clients that are open. -/
def ClientSet.Allows (c : ClientSet α) : ClientOp α → Prop
  | .accept client _ => client ∉ c.clients.map Prod.fst
  | .touch client _ _ _ => client ∈ c.clients.map Prod.fst
  | .close client => client ∈ c.clients.map Prod.fst
  | .sweep _ => True

/-- Operations that are allowed one after the other. -/
def Legal (cfg : KeepAliveConfig) : ClientSet α → List (ClientOp α) → Prop
  | _, [] => True
  | c, op :: ops => c.Allows op ∧ Legal cfg (c.apply cfg op) ops

/-- The same operation in memory. -/
def Clients.step (cfg : KeepAliveConfig) (fuel : ℕ) (s : Clients α) :
    ClientOp α → Option (Clients α)
  | .accept client data => acceptClient s client data
  | .touch client idle used active => touchClient s client idle used active
  | .close client => closeClient s client
  | .sweep clock => (sweepIdleKeepAliveClients cfg clock fuel s).map Prod.snd

/-- No client yet. -/
def Clients.start : Clients α := ⟨fun _ => none, none, []⟩

def ClientSet.empty : ClientSet α := ⟨[], []⟩

/-- Memory holds the set. -/
structure Holds (s : Clients α) (c : ClientSet α) : Prop where
  list : Represents s.heap s.head c.clients
  closed : s.closed = c.closed

/-- **A sweep.** -/
theorem exists_sweep (cfg : KeepAliveConfig) {s : Clients α} {c : ClientSet α} (h : Holds s c)
    {fuel : ℕ} (hfuel : c.clients.length ≤ fuel) (clock : Option Timespec) :
    ∃ s', sweepIdleKeepAliveClients cfg clock fuel s =
        some (if (sweepTime cfg clock).isSome then c.clients.map Prod.fst else [], s') ∧
      Holds s' (c.sweep cfg clock) := by
  unfold sweepIdleKeepAliveClients ClientSet.sweep sweepTime
  by_cases hon : cfg.keepAliveEnabled = true ∧ 0 < cfg.keepAliveTimeoutSec
  · have hguard : ¬ (!cfg.keepAliveEnabled || decide (cfg.keepAliveTimeoutSec ≤ 0)) = true := by
      rw [hon.1, Bool.not_true, Bool.false_or, decide_eq_true_iff]
      exact Int.not_le.mpr hon.2
    rw [if_pos hon, if_neg hguard]
    cases clock with
    | none => exact ⟨s, rfl, h⟩
    | some now =>
        obtain ⟨s', hloop, hr', hclosed⟩ :=
          @exists_sweepLoop _ _ _ hon.2 now [] c.clients fuel hfuel s h.list
        refine ⟨s', ?_, hr', ?_⟩
        · dsimp only
          rw [h.list.head_eq, hloop]
          rfl
        · rw [hclosed, h.closed]
  · have hguard : (!cfg.keepAliveEnabled || decide (cfg.keepAliveTimeoutSec ≤ 0)) = true := by
      rw [Bool.or_eq_true, Bool.not_eq_true', decide_eq_true_iff]
      by_cases henabled : cfg.keepAliveEnabled = true
      · exact Or.inr (Int.not_lt.mp fun hpos => hon ⟨henabled, hpos⟩)
      · exact Or.inl (Bool.not_eq_true _ ▸ henabled)
    rw [if_neg hon, if_pos hguard]
    exact ⟨s, rfl, h⟩

/-- **One operation.** -/
theorem exists_step (cfg : KeepAliveConfig) {s : Clients α} {c : ClientSet α} (h : Holds s c)
    {fuel : ℕ} (hfuel : c.clients.length ≤ fuel) {op : ClientOp α} (hop : c.Allows op) :
    ∃ s', s.step cfg fuel op = some s' ∧ Holds s' (c.apply cfg op) := by
  cases op with
  | accept client data =>
      obtain ⟨s', haccept, hr', hclosed⟩ := exists_acceptClient h.list hop data
      exact ⟨s', haccept, hr', hclosed.trans h.closed⟩
  | touch client idle used active =>
      obtain ⟨pre, x, post, hsplit, rfl, hpre, hpost⟩ := h.list.exists_split hop
      have hr := h.list
      rw [hsplit] at hr
      obtain ⟨s', htouch, hr', hclosed⟩ := exists_touchClient hr idle used active
      refine ⟨s', htouch, ?_, hclosed.trans h.closed⟩
      have hmap : ∀ l : List (α × ClientData), (∀ y ∈ l, y.1 ≠ x.1) →
          l.map (fun y => if y.1 = x.1 then (y.1, y.2.touched idle used active) else y) = l := by
        intro l hl
        rw [List.map_congr_left fun y hy => if_neg (hl y hy)]
        exact List.map_id l
      show Represents s'.heap s'.head (c.clients.map _)
      rw [hsplit, List.map_append, List.map_cons, hmap pre hpre, hmap post hpost, if_pos rfl]
      exact hr'
  | close client =>
      obtain ⟨pre, x, post, hsplit, rfl, hpre, hpost⟩ := h.list.exists_split hop
      have hr := h.list
      rw [hsplit] at hr
      obtain ⟨s', hclose, hr', hclosed⟩ := exists_closeClient hr
      refine ⟨s', hclose, ?_, ?_⟩
      · show Represents s'.heap s'.head (c.clients.filter _)
        rw [hsplit, List.filter_append, List.filter_cons_of_neg (by simp),
          List.filter_eq_self.mpr fun y hy => decide_eq_true (hpre y hy),
          List.filter_eq_self.mpr fun y hy => decide_eq_true (hpost y hy)]
        exact hr'
      · show s'.closed = c.closed ++ (c.clients.filter _).map _
        rw [hsplit, List.filter_append, List.filter_cons_of_pos (by simp),
          List.filter_eq_nil_iff.mpr fun y hy => by simpa using hpre y hy,
          List.filter_eq_nil_iff.mpr fun y hy => by simpa using hpost y hy, hclosed, h.closed]
        rfl
  | sweep clock =>
      obtain ⟨s', hsweep, hholds⟩ := exists_sweep cfg h hfuel clock
      refine ⟨s', ?_, hholds⟩
      show (sweepIdleKeepAliveClients cfg clock fuel s).map Prod.snd = _
      rw [hsweep]
      rfl

/-- At most one client more. -/
theorem length_apply_le (cfg : KeepAliveConfig) (c : ClientSet α) (op : ClientOp α) :
    (c.apply cfg op).clients.length ≤ c.clients.length + 1 := by
  cases op with
  | accept client data => exact Nat.le_refl _
  | touch client idle used active =>
      show (c.clients.map _).length ≤ _
      rw [List.length_map]
      exact Nat.le_succ _
  | close client => exact Nat.le_succ_of_le (List.length_filter_le _ _)
  | sweep clock =>
      show (c.sweep cfg clock).clients.length ≤ _
      unfold ClientSet.sweep
      cases sweepTime cfg clock with
      | none => exact Nat.le_succ _
      | some now => exact Nat.le_succ_of_le (List.length_filter_le _ _)

theorem length_run_le (cfg : KeepAliveConfig) (c : ClientSet α) (ops : List (ClientOp α)) :
    (ops.foldl (ClientSet.apply cfg) c).clients.length ≤ c.clients.length + ops.length := by
  induction ops generalizing c with
  | nil => exact Nat.le_refl _
  | cons op ops ih =>
      have hstep := length_apply_le cfg c op
      have hrest := ih (c.apply cfg op)
      rw [List.foldl_cons, List.length_cons]
      omega

/-- **Any number of operations.** -/
theorem exists_run (cfg : KeepAliveConfig) {s : Clients α} {c : ClientSet α} (h : Holds s c)
    {ops : List (ClientOp α)} (hlegal : Legal cfg c ops) {fuel : ℕ}
    (hfuel : c.clients.length + ops.length ≤ fuel) :
    ∃ s', ops.foldlM (Clients.step cfg fuel) s = some s' ∧
      Holds s' (ops.foldl (ClientSet.apply cfg) c) := by
  induction ops generalizing s c with
  | nil => exact ⟨s, rfl, h⟩
  | cons op ops ih =>
      obtain ⟨hop, hlegal⟩ := hlegal
      rw [List.length_cons] at hfuel
      obtain ⟨s₁, hstep, hholds⟩ := exists_step cfg h (by omega : c.clients.length ≤ fuel) hop
      have hlength := length_apply_le cfg c op
      obtain ⟨s', hrun, hholds'⟩ := ih hholds hlegal (by omega)
      refine ⟨s', ?_, hholds'⟩
      rw [List.foldlM_cons, hstep, Option.bind_eq_bind, Option.bind_some]
      exact hrun

/-- **The list of clients is what it is for**, whatever is done to it and in whatever order.  No step
reads or writes a client that has been freed; the list holds the clients that are open, each once,
linked both ways; and a sweep, unless it is switched off or has no clock, visits every client once
and closes those that have expired. -/
theorem clientList_exact (cfg : KeepAliveConfig) {ops : List (ClientOp α)}
    (hlegal : Legal cfg .empty ops) {fuel : ℕ} (hfuel : ops.length ≤ fuel) :
    ∃ s, ops.foldlM (Clients.step cfg fuel) .start = some s ∧
      Holds s (ops.foldl (ClientSet.apply cfg) .empty) ∧
      ∀ clock, ∃ s', sweepIdleKeepAliveClients cfg clock fuel s =
          some (if (sweepTime cfg clock).isSome then
            (ops.foldl (ClientSet.apply cfg) .empty).clients.map Prod.fst else [], s') ∧
        Holds s' ((ops.foldl (ClientSet.apply cfg) .empty).sweep cfg clock) := by
  have hstart : Holds (Clients.start : Clients α) .empty := ⟨represents_nil, rfl⟩
  have hlength : _ ≤ 0 + ops.length := length_run_le cfg .empty ops
  have henough : (ClientSet.empty : ClientSet α).clients.length + ops.length ≤ fuel := by
    show 0 + ops.length ≤ fuel
    omega
  obtain ⟨s, hrun, hholds⟩ := exists_run cfg hstart hlegal henough
  exact ⟨s, hrun, hholds, fun clock => exists_sweep cfg hholds (by omega) clock⟩

/-- **A worker that ends** has freed all its clients. -/
theorem exists_closeAllClients {s : Clients α} {c : ClientSet α} (h : Holds s c) {fuel : ℕ}
    (hfuel : c.clients.length ≤ fuel) :
    ∃ s', closeAllClients fuel s = some s' ∧ (∀ client, s'.heap client = none) ∧
      s'.closed = c.closed ++ c.clients.map fun x => x.2.fd := by
  obtain ⟨clients, closed⟩ := c
  induction clients generalizing s fuel closed with
  | nil =>
      have hhead : s.head = none := h.list.head_eq
      refine ⟨s, ?_, fun client => ?_, h.closed.trans (List.append_nil _).symm⟩
      · cases fuel with
        | zero =>
            unfold closeAllClients
            rw [hhead]
            rfl
        | succ fuel =>
            unfold closeAllClients
            rw [hhead]
      · by_contra hleft
        exact List.not_mem_nil (h.list.only client hleft)
  | cons x clients ih =>
      cases fuel with
      | zero => exact absurd hfuel (Nat.not_succ_le_zero _)
      | succ fuel =>
          have hhead : s.head = some x.1 := h.list.head_eq
          obtain ⟨s₁, hclose, hr₁, hclosed₁⟩ := @exists_closeClient _ _ s [] clients x h.list
          rw [h.closed] at hclosed₁
          obtain ⟨s', hrest, hfree, hclosed⟩ :=
            ih _ ⟨hr₁, hclosed₁⟩ (Nat.le_of_succ_le_succ hfuel)
          refine ⟨s', ?_, hfree, ?_⟩
          · unfold closeAllClients
            rw [hhead]
            dsimp only
            rw [hclose, Option.bind_some]
            exact hrest
          · rw [hclosed, List.map_cons, List.append_assoc]
            rfl

/-! ### Runs -/

instance (c : ClientSet α) (op : ClientOp α) : Decidable (c.Allows op) :=
  match op with
  | .accept client _ => inferInstanceAs (Decidable (client ∉ c.clients.map Prod.fst))
  | .touch client _ _ _ => inferInstanceAs (Decidable (client ∈ c.clients.map Prod.fst))
  | .close client => inferInstanceAs (Decidable (client ∈ c.clients.map Prod.fst))
  | .sweep _ => isTrue trivial

instance decidableLegal (cfg : KeepAliveConfig) :
    (c : ClientSet α) → (ops : List (ClientOp α)) → Decidable (Legal cfg c ops)
  | _, [] => isTrue trivial
  | c, op :: ops =>
      have := decidableLegal cfg (c.apply cfg op) ops
      inferInstanceAs (Decidable (c.Allows op ∧ Legal cfg (c.apply cfg op) ops))

/-- A second of the clock. -/
def atSecond (sec : ℤ) : Timespec := ⟨sec, 0, by decide⟩

/-- A client that has been idle since then. -/
def idleSince (fd sec : ℤ) : ClientData := ⟨fd, true, 0, atSecond sec⟩

/-- Four clients: one is closed in the middle, and a sweep closes the first and the last one. -/
def fourClients : List (ClientOp ℕ) :=
  [.accept 1 (idleSince 11 5), .accept 2 (idleSince 12 5), .accept 3 (idleSince 13 90),
    .accept 4 (idleSince 14 5), .close 2, .sweep (some (atSecond 100))]

theorem clientList_exact_four :
    ∃ s, fourClients.foldlM (Clients.step ⟨true, 30⟩ 6) .start = some s ∧ s.head = some 3 ∧
      s.closed = [12, 14, 11] := by
  obtain ⟨s, hrun, hholds, -⟩ :=
    @clientList_exact ℕ _ ⟨true, 30⟩ fourClients (by decide +kernel) 6 (by decide)
  refine ⟨s, hrun, ?_, ?_⟩
  · rw [hholds.list.head_eq]
    decide +kernel
  · rw [hholds.closed]
    decide +kernel

/-- Where the list starts and what has been closed when a sweep has looked at one client at second
100. -/
def sweptClient (cfg : KeepAliveConfig) (data : ClientData) : Option (Option ℕ × List ℤ) :=
  ([.accept 1 data, .sweep (some (atSecond 100))].foldlM (Clients.step cfg 2) .start).map
    fun s => (s.head, s.closed)

/-- An idle client stays: its last activity was in the first second of the clock, or the timeout is
0, or keep-alive is switched off. -/
theorem idle_client_stays :
    (idleSince 11 0).idleKeepAlive = true ∧ (idleSince 11 0).used = 0 ∧
      (idleSince 11 0).lastActiveMono.nanos + 30 * 10 ^ 9 ≤ (atSecond 100).nanos ∧
      (idleSince 11 5).lastActiveMono.nanos + 30 * 10 ^ 9 ≤ (atSecond 100).nanos ∧
      sweptClient ⟨true, 30⟩ (idleSince 11 0) = some (some 1, []) ∧
      sweptClient ⟨true, 0⟩ (idleSince 11 5) = some (some 1, []) ∧
      sweptClient ⟨false, 30⟩ (idleSince 11 5) = some (some 1, []) := by
  decide +kernel

end Rpsiod.ClientList

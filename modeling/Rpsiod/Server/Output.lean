import Rpsiod.Util

/-!
# What a client is sent

A responder writes to the client a few times, may see its backend fail in between, and logs the
request at the end.  `Trace` is that history; a responder takes a trace to a longer one and
returns the C code, `0` or `-1`.  `Peer` is the client's end of the connection: which of the
writes it refuses, and after how many bytes.

A response head has a constructor of its own, so that "one head" and "nothing in front of the
head" are facts about a trace; everything else that is written is `body`.
-/

namespace Rpsiod

/-- One thing that happens while a request is answered. -/
inductive Event where
  /-- Bytes of a response head that the server composed itself. -/
  | head (bytes : Bytes)
  /-- Any other bytes for the client. -/
  | body (bytes : Bytes)
  /-- The responder sees that its backend has failed. -/
  | backendFailed
  /-- `rpsiod_log_access`. -/
  | logged (status : ℤ) (bytes : ℕ)
  deriving DecidableEq

/-- The history of an answer. -/
abbrev Trace := List Event

/-- The bytes of an event that went to the client. -/
def Event.bytes : Event → Bytes
  | .head b => b
  | .body b => b
  | .backendFailed => []
  | .logged _ _ => []

/-- A write to the client. -/
def Event.isWrite : Event → Bool
  | .head _ => true
  | .body _ => true
  | .backendFailed => false
  | .logged _ _ => false

/-- A response head. -/
def Event.isHead : Event → Bool
  | .head _ => true
  | .body _ => false
  | .backendFailed => false
  | .logged _ _ => false

/-- What may come behind a head. -/
def Event.isTail : Event → Bool
  | .head _ => false
  | .body _ => true
  | .backendFailed => false
  | .logged _ _ => true

/-- Body bytes and the log, no head and no failure. -/
def Tail (t : Trace) : Prop := ∀ e ∈ t, e.isTail = true

/-- Everything the client has been sent. -/
def written (t : Trace) : Bytes := t.flatMap Event.bytes

@[simp] theorem written_nil : written [] = [] := rfl

@[simp] theorem written_append (t u : Trace) : written (t ++ u) = written t ++ written u :=
  List.flatMap_append

@[simp] theorem written_cons (e : Event) (t : Trace) : written (e :: t) = e.bytes ++ written t :=
  rfl

/-- Writes of body bytes, as the client sees them. -/
@[simp] theorem written_bodies (bs : List Bytes) : written (bs.map .body) = bs.flatten := by
  induction bs with
  | nil => rfl
  | cons b bs ih => rw [List.map_cons, written_cons, ih, List.flatten_cons]; rfl

theorem tail_nil : Tail [] := nofun

theorem tail_singleton {e : Event} (h : e.isTail = true) : Tail [e] := by
  intro e' he
  rw [List.mem_singleton.mp he]
  exact h

theorem Tail.append {t u : Trace} (ht : Tail t) (hu : Tail u) : Tail (t ++ u) := by
  intro e he
  rcases List.mem_append.mp he with he | he
  · exact ht e he
  · exact hu e he

theorem Tail.noHead {t : Trace} (h : Tail t) (b : Bytes) : .head b ∉ t := fun hmem =>
  Bool.noConfusion (h _ hmem)

theorem Tail.noError {t : Trace} (h : Tail t) : .backendFailed ∉ t := fun hmem =>
  Bool.noConfusion (h _ hmem)

/-- No byte is written without a write. -/
theorem written_eq_nil {t : Trace} (h : ∀ e ∈ t, e.isWrite = false) : written t = [] := by
  refine List.flatMap_eq_nil_iff.mpr fun e he => ?_
  have hquiet := h e he
  cases e with
  | head b => exact Bool.noConfusion hquiet
  | body b => exact Bool.noConfusion hquiet
  | logged status bytes => rfl
  | backendFailed => rfl

/-- The client's end: `refuses k` is the number of bytes behind which the `k`-th write fails. -/
structure Peer where
  refuses : ℕ → Option ℕ

/-- A client that takes everything. -/
def Peer.willing : Peer := ⟨fun _ => none⟩

/-- `if (step < 0) return -1;` and on with the trace. -/
def andThen (r : Trace × ℤ) (next : Trace → Trace × ℤ) : Trace × ℤ :=
  if r.2 < 0 then (r.1, -1) else next r.1

/-- `client_write_all`; nothing is written for an empty buffer. -/
def clientWriteAll (peer : Peer) (kind : Bytes → Event) (buf : Bytes) (t : Trace) : Trace × ℤ :=
  if buf = [] then (t, 0)
  else
    match peer.refuses t.length with
    | none => (t ++ [kind buf], 0)
    | some n => (t ++ [kind (buf.take n)], -1)

/-- The buffers of `client_writev_all`, one behind the other. -/
def writeEach (peer : Peer) : List ((Bytes → Event) × Bytes) → Trace → Trace × ℤ
  | [], t => (t, 0)
  | (kind, buf) :: iov, t => andThen (clientWriteAll peer kind buf t) (writeEach peer iov)

/-- `client_writev_all`; on a plain connection `writev` of empty buffers returns 0, which counts
as an error. -/
def clientWritevAll (peer : Peer) (tls : Bool) (iov : List ((Bytes → Event) × Bytes)) (t : Trace) :
    Trace × ℤ :=
  if !tls && iov.all fun v => v.2 = [] then (t, -1) else writeEach peer iov t

/-- `rpsiod_log_access` at the end of a responder. -/
def logAccess (status : ℤ) (bytes : ℕ) (t : Trace) : Trace := t ++ [.logged status bytes]

@[simp] theorem andThen_zero (t : Trace) (next : Trace → Trace × ℤ) :
    andThen (t, 0) next = next t := rfl

@[simp] theorem andThen_neg (t : Trace) (next : Trace → Trace × ℤ) :
    andThen (t, -1) next = (t, -1) := rfl

/-! ### The heads of an answer -/

/-- Every head that is added to the history has this property. -/
def AddsOnly (P : Bytes → Prop) (f : Trace → Trace × ℤ) : Prop :=
  ∀ t b, .head b ∈ (f t).1 → .head b ∈ t ∨ P b

section AddsOnly

variable {P : Bytes → Prop} {f g : Trace → Trace × ℤ}

theorem AddsOnly.skip {rc : ℤ} : AddsOnly P fun t => (t, rc) := fun _ _ h => Or.inl h

/-- Two parts one behind the other, where the second may depend on what the first returns. -/
theorem AddsOnly.bind {g : Trace × ℤ → Trace × ℤ} (hf : AddsOnly P f)
    (hg : ∀ rc, AddsOnly P fun t => g (t, rc)) : AddsOnly P fun t => g (f t) := by
  intro t b hb
  rcases hg (f t).2 (f t).1 b hb with hmem | hadded
  · exact hf t b hmem
  · exact Or.inr hadded

theorem AddsOnly.ite {p : Prop} [Decidable p] (hf : p → AddsOnly P f) (hg : ¬p → AddsOnly P g) :
    AddsOnly P fun t => if p then f t else g t := by
  intro t b hb
  dsimp only at hb
  split_ifs at hb with h
  · exact hf h t b hb
  · exact hg h t b hb

theorem AddsOnly.andThen (hf : AddsOnly P f) (hg : AddsOnly P g) :
    AddsOnly P fun t => andThen (f t) g := by
  refine hf.bind (g := fun r => Rpsiod.andThen r g) fun rc => ?_
  show AddsOnly P fun t => if rc < 0 then (t, -1) else g t
  exact .ite (fun _ => .skip) fun _ => hg

/-- An event that is no head. -/
theorem AddsOnly.event (h : AddsOnly P f) {e : Event} (he : e.isHead = false) :
    AddsOnly P fun t => f (t ++ [e]) := by
  intro t b hb
  rcases h (t ++ [e]) b hb with hmem | hadded
  · rcases List.mem_append.mp hmem with hmem | hmem
    · exact Or.inl hmem
    · rw [← List.mem_singleton.mp hmem] at he
      exact Bool.noConfusion he
  · exact Or.inr hadded

theorem AddsOnly.log (h : AddsOnly P f) (status : ℤ) (bytes : ℕ) :
    AddsOnly P fun t => (logAccess status bytes (f t).1, (f t).2) :=
  h.bind (g := fun r => (logAccess status bytes r.1, r.2)) fun rc =>
    (@AddsOnly.skip P rc).event (e := .logged status bytes) rfl

/-- Body bytes. -/
theorem addsOnly_body (peer : Peer) (buf : Bytes) :
    AddsOnly P (clientWriteAll peer .body buf) := by
  intro t b hb
  unfold clientWriteAll at hb
  split_ifs at hb
  · exact Or.inl hb
  · cases hrefuses : peer.refuses t.length with
    | none =>
        rw [hrefuses] at hb
        exact Or.inl (by simpa using hb)
    | some n =>
        rw [hrefuses] at hb
        exact Or.inl (by simpa using hb)

/-- A head, or a start of it that the client takes. -/
theorem addsOnly_head {peer : Peer} {head : Bytes}
    (h : ∀ b, b <+: head → (peer = .willing → b = head) → P b) :
    AddsOnly P (clientWriteAll peer .head head) := by
  intro t b hb
  unfold clientWriteAll at hb
  split_ifs at hb
  · exact Or.inl hb
  · cases hrefuses : peer.refuses t.length with
    | none =>
        rw [hrefuses] at hb
        rcases List.mem_append.mp hb with hmem | hmem
        · exact Or.inl hmem
        · rw [Event.head.inj (List.mem_singleton.mp hmem)]
          exact Or.inr (h head List.prefix_rfl fun _ => rfl)
    | some n =>
        rw [hrefuses] at hb
        rcases List.mem_append.mp hb with hmem | hmem
        · exact Or.inl hmem
        · rw [Event.head.inj (List.mem_singleton.mp hmem)]
          refine Or.inr (h _ (List.take_prefix n head) fun hwilling => ?_)
          rw [hwilling] at hrefuses
          cases hrefuses

/-- Several buffers. -/
theorem addsOnly_writeEach {peer : Peer} {iov : List ((Bytes → Event) × Bytes)}
    (h : ∀ v ∈ iov, AddsOnly P (clientWriteAll peer v.1 v.2)) :
    AddsOnly P (writeEach peer iov) := by
  induction iov with
  | nil => exact .skip
  | cons v iov ih =>
      obtain ⟨kind, buf⟩ := v
      exact AddsOnly.andThen (h _ List.mem_cons_self)
        (ih fun v hv => h v (List.mem_cons_of_mem _ hv))

theorem addsOnly_writev {peer : Peer} {iov : List ((Bytes → Event) × Bytes)} (tls : Bool)
    (h : ∀ v ∈ iov, AddsOnly P (clientWriteAll peer v.1 v.2)) :
    AddsOnly P (clientWritevAll peer tls iov) :=
  AddsOnly.ite (fun _ => .skip) fun _ => addsOnly_writeEach h

end AddsOnly

/-! ### A client that takes everything -/

/-- The events of a write of this buffer. -/
def writeOf (kind : Bytes → Event) (buf : Bytes) : Trace := if buf = [] then [] else [kind buf]

@[simp] theorem writeOf_nil (kind : Bytes → Event) : writeOf kind [] = [] := rfl

theorem writeOf_of_ne {kind : Bytes → Event} {buf : Bytes} (h : buf ≠ []) :
    writeOf kind buf = [kind buf] := if_neg h

theorem tail_writeOf (buf : Bytes) : Tail (writeOf .body buf) := by
  unfold writeOf
  split_ifs
  · exact tail_nil
  · exact tail_singleton rfl

@[simp] theorem written_writeOf_body (buf : Bytes) : written (writeOf .body buf) = buf := by
  unfold writeOf
  split_ifs with h
  · rw [h]
    rfl
  · exact List.append_nil buf

theorem clientWriteAll_willing (kind : Bytes → Event) (buf : Bytes) (t : Trace) :
    clientWriteAll .willing kind buf t = (t ++ writeOf kind buf, 0) := by
  unfold clientWriteAll writeOf
  split_ifs
  · rw [List.append_nil]
  · rfl

theorem writeEach_willing (iov : List ((Bytes → Event) × Bytes)) (t : Trace) :
    writeEach .willing iov t = (t ++ iov.flatMap fun v => writeOf v.1 v.2, 0) := by
  induction iov generalizing t with
  | nil => rw [List.flatMap_nil, List.append_nil]; rfl
  | cons v iov ih =>
      obtain ⟨kind, buf⟩ := v
      rw [writeEach, clientWriteAll_willing, andThen_zero, ih, List.flatMap_cons, List.append_assoc]

theorem clientWritevAll_willing {tls : Bool} {iov : List ((Bytes → Event) × Bytes)}
    (h : ∃ v ∈ iov, v.2 ≠ []) (t : Trace) :
    clientWritevAll .willing tls iov t = (t ++ iov.flatMap fun v => writeOf v.1 v.2, 0) := by
  unfold clientWritevAll
  rw [if_neg, writeEach_willing]
  obtain ⟨v, hv, hne⟩ := h
  rw [Bool.and_eq_true, not_and, List.all_eq_true]
  intro _ hall
  exact hne (by simpa using hall v hv)

end Rpsiod

import Mathlib.Data.List.Infix
import Rpsiod.Server.Output

/-!
# The write loops (`client_write_all`, `client_writev_all`)

Both call the system until everything has been handed over, or until a call fails.  What the calls
return is given as a list; behind its end, a call has not returned yet.

* `HandedOver`: what has been handed over is a start of the buffers, all of them when the loop
  returns 0, and less when it returns -1.
* `clientWriteAll_of_loop`, `clientWritevAll_of_loop`: **a loop that returns does what some `Peer`
  does**.
-/

namespace Rpsiod

/-- What a call of `write`, `writev` or `SSL_write` returns. -/
inductive CallResult where
  /-- This many bytes are taken, at most those that are offered. -/
  | accepted (n : ℕ)
  /-- `EINTR`. -/
  | interrupted
  /-- `EAGAIN`, and whether the connection is ready before the wait for it ends. -/
  | again (ready : Bool)
  /-- Any other error. -/
  | failed

/-- What a loop has handed over, what it has returned, and the results that are left. -/
structure WriteRun where
  handed : Bytes
  result : Option ℤ
  rest : List CallResult

/-- Bytes that have been handed over before. -/
def WriteRun.behind (first : Bytes) (r : WriteRun) : WriteRun :=
  { r with handed := first ++ r.handed }

/-- `client_write_all`. -/
def clientWriteLoop : List CallResult → Bytes → WriteRun
  | results, [] => ⟨[], some 0, results⟩
  | [], _ => ⟨[], none, []⟩
  | result :: results, buf =>
      match result with
      | .accepted n =>
          if n = 0 then ⟨[], some (-1), results⟩
          else (clientWriteLoop results (buf.drop n)).behind (buf.take n)
      | .interrupted => clientWriteLoop results buf
      | .again ready => if ready then clientWriteLoop results buf else ⟨[], some (-1), results⟩
      | .failed => ⟨[], some (-1), results⟩

/-- The buffers behind the bytes that a `writev` has taken. -/
def advance : ℕ → List Bytes → List Bytes
  | _, [] => []
  | n, buf :: iov => if buf.length ≤ n then advance (n - buf.length) iov else buf.drop n :: iov

/-- The loop of `client_writev_all` on a plain connection. -/
def clientWritevLoop : List CallResult → List Bytes → WriteRun
  | results, [] => ⟨[], some 0, results⟩
  | [], _ => ⟨[], none, []⟩
  | result :: results, iov =>
      match result with
      | .accepted n =>
          if min n iov.flatten.length = 0 then ⟨[], some (-1), results⟩
          else (clientWritevLoop results (advance n iov)).behind (iov.flatten.take n)
      | .interrupted => clientWritevLoop results iov
      | .again ready => if ready then clientWritevLoop results iov else ⟨[], some (-1), results⟩
      | .failed => ⟨[], some (-1), results⟩

/-- The buffers one after the other, as on a TLS connection. -/
def clientWriteEachLoop : List CallResult → List Bytes → WriteRun
  | results, [] => ⟨[], some 0, results⟩
  | results, buf :: iov =>
      let r := clientWriteLoop results buf
      if r.result = some 0 then (clientWriteEachLoop r.rest iov).behind r.handed else r

/-! ### What is handed over -/

/-- A start of the bytes, all of them exactly behind a return of 0, and not all behind -1. -/
inductive HandedOver (all : Bytes) (r : WriteRun) : Prop where
  | done (result : r.result = some 0) (handed : r.handed = all)
  | stopped (result : r.result = some (-1) ∨ r.result = none) (start : r.handed <+: all)
      (short : r.handed.length < all.length)

theorem HandedOver.behind {all : Bytes} {r : WriteRun} (h : HandedOver all r) (first : Bytes) :
    HandedOver (first ++ all) (r.behind first) := by
  cases h with
  | done result handed =>
      refine .done result ?_
      unfold WriteRun.behind
      rw [handed]
  | stopped result start short =>
      refine .stopped result ((List.prefix_append_right_inj first).mpr start) ?_
      unfold WriteRun.behind
      rw [List.length_append, List.length_append]
      omega

/-- Nothing has been handed over. -/
theorem HandedOver.nothing {all : Bytes} (hne : all ≠ []) {result : Option ℤ}
    (hresult : result = some (-1) ∨ result = none) (rest : List CallResult) :
    HandedOver all ⟨[], result, rest⟩ :=
  .stopped hresult List.nil_prefix (List.length_pos_of_ne_nil hne)

theorem handedOver_writeLoop (results : List CallResult) (buf : Bytes) :
    HandedOver buf (clientWriteLoop results buf) := by
  induction results generalizing buf with
  | nil =>
      cases buf with
      | nil => exact .done rfl rfl
      | cons b buf => exact .nothing (List.cons_ne_nil b buf) (Or.inr rfl) []
  | cons result results ih =>
      cases buf with
      | nil => exact .done rfl rfl
      | cons b buf =>
          have hfail : HandedOver (b :: buf) ⟨[], some (-1), results⟩ :=
            .nothing (List.cons_ne_nil b buf) (Or.inl rfl) results
          cases result with
          | accepted n =>
              show HandedOver (b :: buf) (if n = 0 then ⟨[], some (-1), results⟩
                else (clientWriteLoop results ((b :: buf).drop n)).behind ((b :: buf).take n))
              split_ifs with hzero
              · exact hfail
              · have hrest := (ih ((b :: buf).drop n)).behind ((b :: buf).take n)
                rw [List.take_append_drop] at hrest
                exact hrest
          | interrupted => exact ih (b :: buf)
          | again ready =>
              cases ready with
              | true => exact ih (b :: buf)
              | false => exact hfail
          | failed => exact hfail

/-- What the buffers hold behind the bytes that have been taken. -/
theorem flatten_advance (n : ℕ) (iov : List Bytes) :
    (advance n iov).flatten = iov.flatten.drop n := by
  induction iov generalizing n with
  | nil => exact (List.drop_nil).symm
  | cons buf iov ih =>
      unfold advance
      split_ifs with hle
      · rw [ih, List.flatten_cons, List.drop_append, List.drop_of_length_le hle, List.nil_append]
      · rw [List.flatten_cons, List.flatten_cons, List.drop_append_of_le_length (not_le.mp hle).le]

/-- No empty buffer is left alone. -/
theorem advance_eq_nil {n : ℕ} {iov : List Bytes} (h : iov.flatten.length ≤ n) :
    advance n iov = [] := by
  induction iov generalizing n with
  | nil => rfl
  | cons buf iov ih =>
      rw [List.flatten_cons, List.length_append] at h
      unfold advance
      rw [if_pos (by omega)]
      exact ih (by omega)

/-- What is left holds bytes, if anything is. -/
theorem advance_nil_or_bytes (n : ℕ) (iov : List Bytes) :
    advance n iov = [] ∨ (advance n iov).flatten ≠ [] := by
  by_cases hall : iov.flatten.length ≤ n
  · exact Or.inl (advance_eq_nil hall)
  · refine Or.inr ?_
    rw [flatten_advance]
    exact fun hnil => hall (List.drop_eq_nil_iff.mp hnil)

theorem handedOver_writevLoop (results : List CallResult) {iov : List Bytes}
    (h : iov = [] ∨ iov.flatten ≠ []) : HandedOver iov.flatten (clientWritevLoop results iov) := by
  induction results generalizing iov with
  | nil =>
      cases iov with
      | nil => exact .done rfl rfl
      | cons buf iov =>
          exact .nothing (h.resolve_left (List.cons_ne_nil buf iov)) (Or.inr rfl) []
  | cons result results ih =>
      cases iov with
      | nil => exact .done rfl rfl
      | cons buf iov =>
          have hne : (buf :: iov).flatten ≠ [] := h.resolve_left (List.cons_ne_nil buf iov)
          have hfail : HandedOver (buf :: iov).flatten ⟨[], some (-1), results⟩ :=
            .nothing hne (Or.inl rfl) results
          cases result with
          | accepted n =>
              show HandedOver (buf :: iov).flatten
                (if min n (buf :: iov).flatten.length = 0 then ⟨[], some (-1), results⟩
                else (clientWritevLoop results (advance n (buf :: iov))).behind
                  ((buf :: iov).flatten.take n))
              split_ifs with hzero
              · exact hfail
              · have hrest := (ih (advance_nil_or_bytes n (buf :: iov))).behind
                  ((buf :: iov).flatten.take n)
                rw [flatten_advance, List.take_append_drop] at hrest
                exact hrest
          | interrupted => exact ih h
          | again ready =>
              cases ready with
              | true => exact ih h
              | false => exact hfail
          | failed => exact hfail

theorem handedOver_writeEachLoop (results : List CallResult) (iov : List Bytes) :
    HandedOver iov.flatten (clientWriteEachLoop results iov) := by
  induction iov generalizing results with
  | nil => exact .done rfl rfl
  | cons buf iov ih =>
      have hfirst := handedOver_writeLoop results buf
      unfold clientWriteEachLoop
      dsimp only
      cases hfirst with
      | done result handed =>
          rw [if_pos result, handed]
          exact (ih _).behind buf
      | stopped result start short =>
          have hnot : (clientWriteLoop results buf).result ≠ some 0 := by
            rcases result with heq | heq
            · rw [heq]
              decide
            · rw [heq]
              decide
          rw [if_neg hnot, List.flatten_cons]
          refine .stopped result (start.trans (List.prefix_append _ _)) ?_
          rw [List.length_append]
          omega

/-! ### Peers -/

theorem clientWriteAll_congr {p q : Peer} {kind : Bytes → Event} {buf : Bytes} {t : Trace}
    (h : p.refuses t.length = q.refuses t.length) :
    clientWriteAll p kind buf t = clientWriteAll q kind buf t := by
  unfold clientWriteAll
  rw [h]

theorem length_le_clientWriteAll (p : Peer) (kind : Bytes → Event) (buf : Bytes) (t : Trace) :
    t.length ≤ (clientWriteAll p kind buf t).1.length := by
  unfold clientWriteAll
  split_ifs
  · exact le_rfl
  · cases p.refuses t.length with
    | none => exact (List.prefix_append _ _).length_le
    | some n => exact (List.prefix_append _ _).length_le

/-- Only the writes from here on count. -/
theorem writeEach_congr {p q : Peer} {iov : List ((Bytes → Event) × Bytes)} {t : Trace}
    (h : ∀ k, t.length ≤ k → p.refuses k = q.refuses k) :
    writeEach p iov t = writeEach q iov t := by
  induction iov generalizing t with
  | nil => rfl
  | cons v iov ih =>
      obtain ⟨kind, buf⟩ := v
      unfold writeEach
      rw [clientWriteAll_congr (h t.length le_rfl)]
      unfold andThen
      split_ifs
      · rfl
      · exact ih fun k hk => h k ((length_le_clientWriteAll q kind buf t).trans hk)

/-- Buffers that are heads or bodies. -/
def Sends (iov : List ((Bytes → Event) × Bytes)) : Prop := ∀ v ∈ iov, ∀ b, (v.1 b).bytes = b

theorem written_writeOf {kind : Bytes → Event} (hkind : ∀ b, (kind b).bytes = b) (buf : Bytes) :
    written (writeOf kind buf) = buf := by
  unfold writeOf
  split_ifs with hnil
  · exact hnil.symm
  · rw [written_cons, written_nil, hkind, List.append_nil]

/-- A peer that stops the writes behind some bytes. -/
theorem writeEach_stopped {iov : List ((Bytes → Event) × Bytes)} (hiov : Sends iov) {m : ℕ}
    (hm : m < (iov.map Prod.snd).flatten.length) (t : Trace) :
    ∃ peer ev, writeEach peer iov t = (t ++ ev, -1) ∧
      written ev = (iov.map Prod.snd).flatten.take m := by
  induction iov generalizing m t with
  | nil => exact absurd hm (Nat.not_lt_zero m)
  | cons v iov ih =>
      obtain ⟨kind, buf⟩ := v
      have hkind : ∀ b, (kind b).bytes = b := hiov (kind, buf) List.mem_cons_self
      rw [List.map_cons, List.flatten_cons, List.length_append] at hm
      rw [List.map_cons, List.flatten_cons]
      dsimp only at hm ⊢
      by_cases hstop : m < buf.length
      · -- this buffer is cut off
        refine ⟨⟨fun _ => some m⟩, [kind (buf.take m)], ?_, ?_⟩
        · have hne : buf ≠ [] := List.ne_nil_of_length_pos (Nat.zero_lt_of_lt hstop)
          unfold writeEach clientWriteAll
          rw [if_neg hne]
          rfl
        · rw [written_cons, written_nil, hkind, List.append_nil,
            List.take_append_of_le_length hstop.le]
      · -- it is taken, and a later one is cut off
        have hsends : Sends iov := fun v hv => hiov v (List.mem_cons_of_mem _ hv)
        obtain ⟨peer, ev, heq, hev⟩ := @ih hsends (m - buf.length) (by omega)
          (t ++ writeOf kind buf)
        refine ⟨⟨fun k => if k < (t ++ writeOf kind buf).length then none else peer.refuses k⟩,
          writeOf kind buf ++ ev, ?_, ?_⟩
        · have hfirst : clientWriteAll
              ⟨fun k => if k < (t ++ writeOf kind buf).length then none else peer.refuses k⟩
              kind buf t = (t ++ writeOf kind buf, 0) := by
            unfold clientWriteAll writeOf
            split_ifs with hnil
            · rw [List.append_nil]
            · dsimp only
              rw [if_pos (by rw [List.length_append, List.length_singleton]; omega)]
          unfold writeEach
          rw [hfirst, andThen_zero, ← List.append_assoc, ← heq]
          exact writeEach_congr fun k hk => if_neg (not_lt.mpr hk)
        · rw [written_append, written_writeOf hkind, hev, List.take_append,
            List.take_of_length_le (not_lt.mp hstop)]

theorem written_writes {iov : List ((Bytes → Event) × Bytes)} (hiov : Sends iov) :
    written (iov.flatMap fun v => writeOf v.1 v.2) = (iov.map Prod.snd).flatten := by
  induction iov with
  | nil => rfl
  | cons v iov ih =>
      have hsends : Sends iov := fun v hv => hiov v (List.mem_cons_of_mem _ hv)
      rw [List.flatMap_cons, written_append, written_writeOf (hiov v List.mem_cons_self), ih hsends,
        List.map_cons, List.flatten_cons]

/-- **What `client_writev_all` does, whatever the calls return, is what it does with some peer**, as
far as it returns. -/
theorem clientWritevAll_of_loop (tls : Bool) {iov : List ((Bytes → Event) × Bytes)}
    (hiov : Sends iov) (hne : (iov.map Prod.snd).flatten ≠ []) (results : List CallResult)
    (t : Trace) :
    let r := if tls then clientWriteEachLoop results (iov.map Prod.snd)
      else clientWritevLoop results (iov.map Prod.snd)
    r.result = none ∨ ∃ peer ev rc, clientWritevAll peer tls iov t = (t ++ ev, rc) ∧
      r.result = some rc ∧ written ev = r.handed := by
  intro r
  have hhanded : HandedOver (iov.map Prod.snd).flatten r := by
    unfold r
    split_ifs
    · exact handedOver_writeEachLoop results _
    · exact handedOver_writevLoop results (Or.inr hne)
  have heach : ∀ peer, clientWritevAll peer tls iov t = writeEach peer iov t := by
    intro peer
    have hnot : ¬ (!tls && iov.all fun v => v.2 = []) = true := by
      rw [Bool.and_eq_true, not_and, List.all_eq_true]
      intro _ hall
      apply hne
      rw [List.flatten_eq_nil_iff]
      intro buf hbuf
      obtain ⟨v, hv, rfl⟩ := List.mem_map.mp hbuf
      exact of_decide_eq_true (hall v hv)
    unfold clientWritevAll
    rw [if_neg hnot]
  cases hhanded with
  | done result handed =>
      refine Or.inr ⟨.willing, _, 0, (heach .willing).trans (writeEach_willing iov t), result, ?_⟩
      rw [written_writes hiov, handed]
  | stopped result start short =>
      rcases result with hresult | hnone
      · obtain ⟨peer, ev, heq, hev⟩ := writeEach_stopped hiov short t
        refine Or.inr ⟨peer, ev, -1, (heach peer).trans heq, hresult, ?_⟩
        rw [hev]
        exact (List.prefix_iff_eq_take.mp start).symm
      · exact Or.inl hnone

/-- **So is what `client_write_all` does.** -/
theorem clientWriteAll_of_loop {kind : Bytes → Event} (hkind : ∀ b, (kind b).bytes = b)
    (buf : Bytes) (results : List CallResult) (t : Trace) :
    let r := clientWriteLoop results buf
    r.result = none ∨ ∃ peer ev rc, clientWriteAll peer kind buf t = (t ++ ev, rc) ∧
      r.result = some rc ∧ written ev = r.handed := by
  intro r
  have hhanded : HandedOver buf r := handedOver_writeLoop results buf
  cases hhanded with
  | done result handed =>
      refine Or.inr ⟨.willing, _, 0, clientWriteAll_willing kind buf t, result, ?_⟩
      rw [written_writeOf hkind, handed]
  | stopped result start short =>
      rcases result with hresult | hnone
      · refine Or.inr ⟨⟨fun _ => some r.handed.length⟩, [kind (buf.take r.handed.length)], -1, ?_,
          hresult, ?_⟩
        · unfold clientWriteAll
          rw [if_neg (List.ne_nil_of_length_pos (Nat.zero_lt_of_lt short))]
        · rw [written_cons, written_nil, hkind, List.append_nil]
          exact (List.prefix_iff_eq_take.mp start).symm
      · exact Or.inl hnone

end Rpsiod

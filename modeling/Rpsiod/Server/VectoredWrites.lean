import Rpsiod.Server.ClientWrites

/-!
# Vectored writes (`client_writev_all`)

The source keeps a copy of the buffers and moves through it: a count of bytes of type `ssize_t` is
compared with lengths of type `size_t`, whole buffers are passed, and the one the count ends in is
cut off at the front.

* `Iovec`, `Buffer`: a pointer with a length, and one whose bytes are there to be read.
* `advanceBy`: what the inner loop and the cut behind it leave of the buffers.
* `map_bytes_advanceBy`: **it leaves what a list without the first bytes leaves**, wherever the count
  ends: inside a buffer, at a boundary, next to empty ones.
* `writevLoop_refines`: so the loop does what `clientWritevLoop` does.
* `vectoredWrites_exact`: **the bytes accepted are the buffers one after the other**, and the loop
  returns unless the calls end in interruptions and waits only.
* `handedOver_chunk`: the same of a chunk, with its length in front and its line end behind.
-/

namespace Rpsiod.Vectored

open Crlf

/-- A buffer of `writev`: the memory from `iov_base` on, and `iov_len`. -/
structure Iovec where
  iovBase : Bytes
  iovLen : UInt64

/-- The bytes that are offered. -/
def Iovec.bytes (v : Iovec) : Bytes := v.iovBase.take v.iovLen.toNat

/-- `(ssize_t)iov_len`. -/
def Iovec.ssize (v : Iovec) : ℤ := v.iovLen.toInt64.toInt

/-- A buffer of a caller: all its bytes are there. -/
structure Buffer extends Iovec where
  readable : iovLen.toNat ≤ iovBase.length

/-- `SSIZE_MAX`. -/
def ssizeMax : ℕ := 2 ^ 63 - 1

/-- A count of bytes fits into the `ssize_t` that `writev` returns. -/
def clip : CallResult → CallResult
  | .accepted n => .accepted (min n ssizeMax)
  | .interrupted => .interrupted
  | .again ready => .again ready
  | .failed => .failed

/-- `writev`: a length above `SSIZE_MAX` is `EINVAL`, and no more is taken than is offered. -/
def writev (left : List Iovec) (result : CallResult) : CallResult :=
  if left.any fun v => ssizeMax < v.iovLen.toNat then .failed
  else
    match clip result with
    | .accepted n => .accepted (min n (left.flatMap Iovec.bytes).length)
    | .interrupted => .interrupted
    | .again ready => .again ready
    | .failed => .failed

/-- The inner loop: the buffers that the count covers are passed. -/
def passWritten : ℤ → List Iovec → ℤ × List Iovec
  | n, [] => (n, [])
  | n, v :: left => if v.ssize ≤ n then passWritten (n - v.ssize) left else (n, v :: left)

/-- A buffer without its first bytes. -/
def Iovec.cut (v : Iovec) (n : ℤ) : Iovec :=
  { iovBase := v.iovBase.drop n.toNat, iovLen := v.iovLen - UInt64.ofInt n }

/-- The inner loop and the cut behind it. -/
def advanceBy (n : ℤ) (left : List Iovec) : List Iovec :=
  match passWritten n left with
  | (_, []) => []
  | (n, v :: left) =>
      if 0 < n then v.cut n :: left else v :: left

/-- The loop on `local`, of which the buffers from `first` on are left. -/
def writevLoop : List CallResult → List Iovec → WriteRun
  | results, [] => ⟨[], some 0, results⟩
  | [], _ => ⟨[], none, []⟩
  | result :: results, left =>
      match writev left result with
      | .accepted n =>
          if n = 0 then ⟨[], some (-1), results⟩
          else (writevLoop results (advanceBy n left)).behind ((left.flatMap Iovec.bytes).take n)
      | .interrupted => writevLoop results left
      | .again ready => if ready then writevLoop results left else ⟨[], some (-1), results⟩
      | .failed => ⟨[], some (-1), results⟩

/-- Number of buffers in `local`. -/
def localMax : ℕ := 8

/-- `client_writev_all`, with `iovcnt` buffers at `iov`. -/
def clientWritevAll (tls : Bool) (results : List CallResult) (iov : List Iovec) : WriteRun :=
  if iov = [] then ⟨[], some 0, results⟩
  else if tls then clientWriteEachLoop results (iov.map Iovec.bytes)
  else if localMax < iov.length then ⟨[], some (-1), results⟩
  else writevLoop results iov

/-- A buffer in memory of its own. -/
def Buffer.ofBytes (b : Bytes) : Buffer where
  iovBase := b
  iovLen := UInt64.ofNat b.length
  readable := by
    rw [UInt64.toNat_ofNat']
    exact Nat.mod_le _ _

/-- The line in front of a chunk. -/
def chunkPrefix (bodyLen : UInt64) : Bytes := hexadecimal bodyLen.toNat ++ crlf

/-- Size of the array for it. -/
def prefixSize : ℕ := 32

/-- `client_write_chunked_body`. -/
def clientWriteChunkedBody (tls : Bool) (results : List CallResult) (body : Buffer) : WriteRun :=
  if body.iovLen = 0 then ⟨[], some 0, results⟩
  else if prefixSize ≤ (chunkPrefix body.iovLen).length then ⟨[], some (-1), results⟩
  else
    clientWritevAll tls results
      ([.ofBytes (chunkPrefix body.iovLen), body, .ofBytes crlf].map Buffer.toIovec)

/-! ### One call -/

/-- What the loop relies on: the bytes are there, and the length is the same as a signed one. -/
structure Iovec.Sound (v : Iovec) : Prop where
  readable : v.iovLen.toNat ≤ v.iovBase.length
  fits : v.iovLen.toNat ≤ ssizeMax

theorem length_bytes {v : Iovec} (h : v.Sound) : v.bytes.length = v.iovLen.toNat := by
  unfold Iovec.bytes
  rw [List.length_take]
  exact min_eq_left h.readable

theorem ssize_eq {v : Iovec} (h : v.Sound) : v.ssize = v.iovLen.toNat := by
  have hfits : v.iovLen.toNat ≤ 2 ^ 63 - 1 := h.fits
  unfold Iovec.ssize Int64.toInt
  rw [UInt64.toBitVec_toInt64, BitVec.toInt_eq_toNat_of_lt]
  · rfl
  · show 2 * v.iovLen.toNat < 2 ^ 64
    omega

/-- The length behind the cut. -/
theorem toNat_cut {len : UInt64} {n : ℕ} (h : n ≤ len.toNat) :
    (len - UInt64.ofInt n).toNat = len.toNat - n := by
  have hlt := len.toNat_lt
  have hn : (UInt64.ofInt n).toNat = n := by
    unfold UInt64.ofInt
    rw [UInt64.toNat_ofNat']
    omega
  rw [UInt64.toNat_sub_of_le _ _ (UInt64.le_iff_toNat_le.mpr (by rw [hn]; exact h)), hn]

theorem sound_cut {v : Iovec} (h : v.Sound) {n : ℕ} (hn : n ≤ v.iovLen.toNat) :
    (v.cut n).Sound := by
  have hlen : (v.cut n).iovLen.toNat = v.iovLen.toNat - n := toNat_cut hn
  have hbase : (v.cut n).iovBase.length = v.iovBase.length - n := List.length_drop
  have hreadable := h.readable
  have hfits := h.fits
  constructor
  · omega
  · omega

theorem bytes_cut {v : Iovec} {n : ℕ} (hn : n ≤ v.iovLen.toNat) :
    (v.cut n).bytes = v.bytes.drop n := by
  have hlen : (v.cut n).iovLen.toNat = v.iovLen.toNat - n := toNat_cut hn
  unfold Iovec.bytes
  rw [hlen, List.drop_take]
  rfl

theorem advanceBy_cons_of_le {v : Iovec} {n : ℤ} (h : v.ssize ≤ n) (left : List Iovec) :
    advanceBy n (v :: left) = advanceBy (n - v.ssize) left := by
  unfold advanceBy
  rw [passWritten, if_pos h]

theorem advanceBy_cons_of_lt {v : Iovec} {n : ℤ} (h : n < v.ssize) (left : List Iovec) :
    advanceBy n (v :: left) = (if 0 < n then v.cut n else v) :: left := by
  unfold advanceBy
  rw [passWritten, if_neg (not_le.mpr h)]
  dsimp only
  split_ifs
  · rfl
  · rfl

/-- **The buffers behind a count**, wherever it ends. -/
theorem map_bytes_advanceBy {left : List Iovec} (h : ∀ v ∈ left, v.Sound) (n : ℕ) :
    (advanceBy n left).map Iovec.bytes = advance n (left.map Iovec.bytes) := by
  induction left generalizing n with
  | nil => rfl
  | cons v left ih =>
      have hv : v.Sound := h v List.mem_cons_self
      have hsize := ssize_eq hv
      rw [List.map_cons, advance, length_bytes hv]
      by_cases hle : v.iovLen.toNat ≤ n
      · have hnext : (n : ℤ) - v.ssize = (n - v.iovLen.toNat : ℕ) := by omega
        rw [if_pos hle, advanceBy_cons_of_le (by omega), hnext]
        exact ih (fun v hv => h v (List.mem_cons_of_mem _ hv)) _
      · rw [if_neg hle, advanceBy_cons_of_lt (by omega), List.map_cons]
        by_cases hpos : (0 : ℤ) < n
        · rw [if_pos hpos, bytes_cut (not_le.mp hle).le]
        · obtain rfl : n = 0 := by omega
          rw [if_neg hpos, List.drop_zero]

/-- The buffers stay sound. -/
theorem sound_advanceBy {left : List Iovec} (h : ∀ v ∈ left, v.Sound) (n : ℕ) :
    ∀ v ∈ advanceBy n left, v.Sound := by
  induction left generalizing n with
  | nil =>
      intro v hv
      exact absurd hv List.not_mem_nil
  | cons v left ih =>
      have hv : v.Sound := h v List.mem_cons_self
      have hleft : ∀ v ∈ left, v.Sound := fun v hv => h v (List.mem_cons_of_mem _ hv)
      have hsize := ssize_eq hv
      by_cases hle : v.iovLen.toNat ≤ n
      · have hnext : (n : ℤ) - v.ssize = (n - v.iovLen.toNat : ℕ) := by omega
        rw [advanceBy_cons_of_le (by omega), hnext]
        exact ih hleft _
      · rw [advanceBy_cons_of_lt (by omega)]
        intro u hu
        rcases List.mem_cons.mp hu with rfl | hu
        · split_ifs
          · exact sound_cut hv (not_le.mp hle).le
          · exact hv
        · exact hleft u hu

/-! ### The loop -/

theorem flatten_map_bytes (left : List Iovec) :
    (left.map Iovec.bytes).flatten = left.flatMap Iovec.bytes := by
  rw [List.flatMap_def]

/-- Bytes that are not there cannot be taken. -/
theorem advance_min (n : ℕ) (iov : List Bytes) :
    advance (min n iov.flatten.length) iov = advance n iov := by
  rcases le_total n iov.flatten.length with hle | hge
  · rw [min_eq_left hle]
  · rw [min_eq_right hge, advance_eq_nil le_rfl, advance_eq_nil hge]

/-- No length is too large. -/
theorem writev_of_sound {left : List Iovec} (h : ∀ v ∈ left, v.Sound) (result : CallResult) :
    writev left result =
      match clip result with
      | .accepted n => .accepted (min n (left.flatMap Iovec.bytes).length)
      | .interrupted => .interrupted
      | .again ready => .again ready
      | .failed => .failed := by
  have hnone : ¬ (left.any fun v => ssizeMax < v.iovLen.toNat) = true := by
    rw [List.any_eq_true]
    rintro ⟨v, hv, hlarge⟩
    exact absurd (h v hv).fits (not_le.mpr (of_decide_eq_true hlarge))
  unfold writev
  rw [if_neg hnone]

/-- A length is too large, whatever else happens. -/
theorem writev_of_large {left : List Iovec} (h : ∃ v ∈ left, ssizeMax < v.iovLen.toNat)
    (result : CallResult) : writev left result = .failed := by
  obtain ⟨v, hv, hlarge⟩ := h
  unfold writev
  rw [if_pos (List.any_eq_true.mpr ⟨v, hv, decide_eq_true hlarge⟩)]

/-- One round. -/
theorem writevLoop_step (result : CallResult) (results : List CallResult) (v : Iovec)
    (left : List Iovec) :
    writevLoop (result :: results) (v :: left) =
      match writev (v :: left) result with
      | .accepted n =>
          if n = 0 then ⟨[], some (-1), results⟩
          else (writevLoop results (advanceBy n (v :: left))).behind
            (((v :: left).flatMap Iovec.bytes).take n)
      | .interrupted => writevLoop results (v :: left)
      | .again ready =>
          if ready then writevLoop results (v :: left) else ⟨[], some (-1), results⟩
      | .failed => ⟨[], some (-1), results⟩ := rfl

/-- One round on buffers that are sound. -/
theorem writevLoop_cons {v : Iovec} {left : List Iovec} (h : ∀ u ∈ v :: left, u.Sound)
    (result : CallResult) (results : List CallResult) :
    writevLoop (result :: results) (v :: left) =
      match clip result with
      | .accepted n =>
          let m := min n ((v :: left).flatMap Iovec.bytes).length
          if m = 0 then ⟨[], some (-1), results⟩
          else (writevLoop results (advanceBy m (v :: left))).behind
            (((v :: left).flatMap Iovec.bytes).take m)
      | .interrupted => writevLoop results (v :: left)
      | .again ready =>
          if ready then writevLoop results (v :: left) else ⟨[], some (-1), results⟩
      | .failed => ⟨[], some (-1), results⟩ := by
  rw [writevLoop_step, writev_of_sound h]
  cases result with
  | accepted n => rfl
  | interrupted => rfl
  | again ready => rfl
  | failed => rfl

/-- **The loop on `local` does what the loop on lists of bytes does.** -/
theorem writevLoop_refines (results : List CallResult) {left : List Iovec}
    (h : ∀ v ∈ left, v.Sound) :
    (writevLoop results left).result =
        (clientWritevLoop (results.map clip) (left.map Iovec.bytes)).result ∧
      (writevLoop results left).handed =
        (clientWritevLoop (results.map clip) (left.map Iovec.bytes)).handed := by
  induction results generalizing left with
  | nil =>
      cases left with
      | nil => exact ⟨rfl, rfl⟩
      | cons v left => exact ⟨rfl, rfl⟩
  | cons result results ih =>
      cases left with
      | nil => exact ⟨rfl, rfl⟩
      | cons v left =>
          rw [writevLoop_cons h]
          cases result with
          | accepted n =>
              have hflat := flatten_map_bytes (v :: left)
              have hright : clientWritevLoop ((CallResult.accepted n :: results).map clip)
                  ((v :: left).map Iovec.bytes) =
                  if min (min n ssizeMax) ((v :: left).flatMap Iovec.bytes).length = 0 then
                    ⟨[], some (-1), results.map clip⟩
                  else
                    (clientWritevLoop (results.map clip)
                      (advance (min n ssizeMax) ((v :: left).map Iovec.bytes))).behind
                      (((v :: left).flatMap Iovec.bytes).take (min n ssizeMax)) := by
                rw [← hflat]
                rfl
              rw [hright]
              dsimp only [clip]
              split_ifs with hzero
              · exact ⟨rfl, rfl⟩
              · -- a count is cut down to what is offered in both
                have hrest := ih (sound_advanceBy h
                  (min (min n ssizeMax) ((v :: left).flatMap Iovec.bytes).length))
                rw [map_bytes_advanceBy h, ← hflat, advance_min, hflat] at hrest
                refine ⟨hrest.1, ?_⟩
                unfold WriteRun.behind
                rw [hrest.2, ← List.take_eq_take_min]
          | interrupted => exact ih h
          | again ready =>
              cases ready with
              | true => exact ih h
              | false => exact ⟨rfl, rfl⟩
          | failed => exact ⟨rfl, rfl⟩

/-! ### Schedules -/

/-- What a call returns that asks for another one with the same buffers. -/
def retries : CallResult → Bool
  | .accepted _ => false
  | .interrupted => true
  | .again ready => ready
  | .failed => false

/-- The results of the first calls. -/
def calls (schedule : ℕ → CallResult) (k : ℕ) : List CallResult := (List.range k).map schedule

theorem calls_succ (schedule : ℕ → CallResult) (k : ℕ) :
    calls schedule (k + 1) = calls schedule k ++ [schedule k] := by
  unfold calls
  rw [List.range_succ, List.map_append]
  rfl

theorem calls_mono (schedule : ℕ → CallResult) {k m : ℕ} (h : k ≤ m) :
    calls schedule k <+: calls schedule m := by
  induction m, h using Nat.le_induction with
  | base => exact List.prefix_rfl
  | succ m _ ih =>
      rw [calls_succ]
      exact ih.trans (List.prefix_append _ _)

/-- Calls that are no retries come as often as they are asked for. -/
theorem exists_le_countP {schedule : ℕ → CallResult}
    (h : ∀ i, ∃ j, i ≤ j ∧ retries (schedule j) = false) (m : ℕ) :
    ∃ k, m ≤ (calls schedule k).countP fun r => !retries r := by
  induction m with
  | zero => exact ⟨0, Nat.zero_le _⟩
  | succ m ih =>
      obtain ⟨k, hk⟩ := ih
      obtain ⟨j, hkj, hj⟩ := h k
      refine ⟨j + 1, ?_⟩
      have hmono := @List.Sublist.countP_le _ (fun r => !retries r) _ _
        (calls_mono schedule hkj).sublist
      rw [calls_succ, List.countP_append, List.countP_singleton, hj]
      simp only [Bool.not_false, if_true]
      omega

/-- **As many calls as there are bytes, not counting retries, are enough.** -/
theorem clientWritevLoop_returns (results : List CallResult) {iov : List Bytes}
    (h : iov = [] ∨ iov.flatten ≠ [])
    (hcalls : iov.flatten.length ≤ results.countP fun r => !retries r) :
    (clientWritevLoop results iov).result ≠ none := by
  induction results generalizing iov with
  | nil =>
      cases iov with
      | nil => exact Option.some_ne_none 0
      | cons buf iov =>
          have hpos := List.length_pos_of_ne_nil (h.resolve_left (List.cons_ne_nil buf iov))
          rw [List.countP_nil] at hcalls
          omega
  | cons result results ih =>
      cases iov with
      | nil => exact Option.some_ne_none 0
      | cons buf iov =>
          rw [List.countP_cons] at hcalls
          cases result with
          | accepted n =>
              show (if min n (buf :: iov).flatten.length = 0 then ⟨[], some (-1), results⟩
                else (clientWritevLoop results (advance n (buf :: iov))).behind
                  ((buf :: iov).flatten.take n) : WriteRun).result ≠ none
              split_ifs with hzero
              · exact Option.some_ne_none (-1)
              · apply ih (advance_nil_or_bytes n (buf :: iov))
                rw [flatten_advance, List.length_drop]
                have htaken : (!retries (CallResult.accepted n)) = true := rfl
                rw [if_pos htaken] at hcalls
                omega
          | interrupted => exact ih h hcalls
          | again ready =>
              cases ready with
              | true => exact ih h hcalls
              | false => exact Option.some_ne_none (-1)
          | failed => exact Option.some_ne_none (-1)

/-- A loop that has returned makes no more calls. -/
theorem writevLoop_append {results : List CallResult} {left : List Iovec}
    (h : (writevLoop results left).result ≠ none) (more : List CallResult) :
    (writevLoop (results ++ more) left).result = (writevLoop results left).result ∧
      (writevLoop (results ++ more) left).handed = (writevLoop results left).handed := by
  induction results generalizing left with
  | nil =>
      cases left with
      | nil => cases more with
        | nil => exact ⟨rfl, rfl⟩
        | cons result more => exact ⟨rfl, rfl⟩
      | cons v left => exact absurd rfl h
  | cons result results ih =>
      cases left with
      | nil => exact ⟨rfl, rfl⟩
      | cons v left =>
          rw [List.cons_append]
          rw [writevLoop_step] at h
          rw [writevLoop_step, writevLoop_step]
          cases hcall : writev (v :: left) result with
          | accepted n =>
              rw [hcall] at h
              dsimp only at h ⊢
              split_ifs with hzero
              · exact ⟨rfl, rfl⟩
              · rw [if_neg hzero] at h
                obtain ⟨hresult, hhanded⟩ := ih h
                refine ⟨hresult, ?_⟩
                unfold WriteRun.behind
                rw [hhanded]
          | interrupted =>
              rw [hcall] at h
              exact ih h
          | again ready =>
              rw [hcall] at h
              cases ready with
              | true => exact ih h
              | false => exact ⟨rfl, rfl⟩
          | failed => exact ⟨rfl, rfl⟩

/-! ### Exactness -/

theorem handedOver_congr {all : Bytes} {r s : WriteRun} (h : HandedOver all s)
    (hresult : r.result = s.result) (hhanded : r.handed = s.handed) : HandedOver all r := by
  cases h with
  | done result handed => exact .done (hresult.trans result) (hhanded.trans handed)
  | stopped result start short =>
      rw [← hhanded] at start short
      rw [← hresult] at result
      exact .stopped result start short

/-- A length is too large: no call takes anything. -/
theorem writevLoop_of_large {left : List Iovec} (h : ∃ v ∈ left, ssizeMax < v.iovLen.toNat)
    (result : CallResult) (results : List CallResult) :
    writevLoop (result :: results) left = ⟨[], some (-1), results⟩ := by
  have hcall := writev_of_large h result
  cases left with
  | nil =>
      obtain ⟨v, hv, -⟩ := h
      exact absurd hv List.not_mem_nil
  | cons v left => rw [writevLoop_step, hcall]

/-- What the buffers of a caller are to the loop. -/
theorem sound_or_large (bufs : List Buffer) :
    (∀ v ∈ bufs.map Buffer.toIovec, v.Sound) ∨
      ∃ v ∈ bufs.map Buffer.toIovec, ssizeMax < v.iovLen.toNat := by
  by_cases hlarge : ∃ v ∈ bufs.map Buffer.toIovec, ssizeMax < v.iovLen.toNat
  · exact Or.inr hlarge
  · refine Or.inl fun v hv => ?_
    obtain ⟨buf, _, rfl⟩ := List.mem_map.mp hv
    exact ⟨buf.readable, not_lt.mp fun h => hlarge ⟨_, hv, h⟩⟩

/-- The bytes of all buffers. -/
def contents (bufs : List Buffer) : Bytes := bufs.flatMap fun b => b.toIovec.bytes

theorem flatMap_bytes (bufs : List Buffer) :
    (bufs.map Buffer.toIovec).flatMap Iovec.bytes = contents bufs := by
  rw [List.flatMap_map]
  rfl

/-- There is something to write. -/
theorem contents_ne_nil {bufs : List Buffer} (h : ∃ b ∈ bufs, b.iovLen ≠ 0) :
    contents bufs ≠ [] := by
  obtain ⟨b, hb, hlen⟩ := h
  intro hnil
  have hempty : b.toIovec.bytes = [] := List.flatMap_eq_nil_iff.mp hnil b hb
  have hlength : b.toIovec.bytes.length = b.iovLen.toNat := by
    unfold Iovec.bytes
    rw [List.length_take]
    exact min_eq_left b.readable
  rw [hempty, List.length_nil] at hlength
  apply hlen
  apply UInt64.toNat_inj.mp
  exact hlength.symm

/-- On a plain connection, the loop is reached. -/
theorem clientWritevAll_eq {bufs : List Buffer} (hmax : bufs.length ≤ localMax)
    (h : contents bufs ≠ []) (results : List CallResult) :
    clientWritevAll false results (bufs.map Buffer.toIovec) =
      writevLoop results (bufs.map Buffer.toIovec) := by
  have hbufs : bufs.map Buffer.toIovec ≠ [] := by
    intro hnil
    rw [List.map_eq_nil_iff] at hnil
    exact h (by rw [hnil]; rfl)
  have hfew : ¬ localMax < (bufs.map Buffer.toIovec).length := by
    rw [List.length_map]
    exact not_lt.mpr hmax
  unfold clientWritevAll
  rw [if_neg hbufs, if_neg Bool.false_ne_true, if_neg hfew]

/-- **The bytes accepted are those of the buffers**, as far as the loop goes. -/
theorem handedOver_vectored {bufs : List Buffer} (hne : contents bufs ≠ [])
    (results : List CallResult) :
    HandedOver (contents bufs) (writevLoop results (bufs.map Buffer.toIovec)) := by
  have hflat : ((bufs.map Buffer.toIovec).map Iovec.bytes).flatten = contents bufs := by
    rw [flatten_map_bytes, flatMap_bytes]
  rcases sound_or_large bufs with hsound | hlarge
  · obtain ⟨hresult, hhanded⟩ := writevLoop_refines results hsound
    have hloop := @handedOver_writevLoop (results.map clip)
      ((bufs.map Buffer.toIovec).map Iovec.bytes) (Or.inr (by rw [hflat]; exact hne))
    rw [hflat] at hloop
    exact handedOver_congr hloop hresult hhanded
  · cases results with
    | nil =>
        cases bufs with
        | nil => exact absurd rfl hne
        | cons b bufs => exact .nothing hne (Or.inr rfl) []
    | cons result results =>
        rw [writevLoop_of_large hlarge]
        exact .nothing hne (Or.inl rfl) results

/-- **As many calls as there are bytes, not counting retries, are enough.** -/
theorem writevLoop_returns {bufs : List Buffer} (hne : contents bufs ≠ [])
    {results : List CallResult}
    (hcalls : (contents bufs).length ≤ results.countP fun r => !retries r) :
    (writevLoop results (bufs.map Buffer.toIovec)).result ≠ none := by
  have hflat : ((bufs.map Buffer.toIovec).map Iovec.bytes).flatten = contents bufs := by
    rw [flatten_map_bytes, flatMap_bytes]
  rcases sound_or_large bufs with hsound | hlarge
  · have hclip : (results.map clip).countP (fun r => !retries r) =
        results.countP fun r => !retries r := by
      rw [List.countP_map]
      apply List.countP_congr
      intro r _
      cases r <;> rfl
    rw [(writevLoop_refines results hsound).1]
    apply clientWritevLoop_returns
    · exact Or.inr (by rw [hflat]; exact hne)
    · rw [hflat, hclip]
      exact hcalls
  · cases results with
    | nil =>
        have := List.length_pos_of_ne_nil hne
        rw [List.countP_nil] at hcalls
        omega
    | cons result results =>
        rw [writevLoop_of_large hlarge]
        exact Option.some_ne_none (-1)

/-- **Vectored writes are exact.**  On a plain connection, with 1 to 8 buffers that are not all
empty, the loop returns unless from some call on all calls are interrupted or told to wait for a
connection that gets ready.  A return is final.  What the socket has accepted behind a return of 0
is all of the buffers in order, and behind -1 a start of it. -/
theorem vectoredWrites_exact (bufs : List Buffer) (hmax : bufs.length ≤ localMax)
    (h : ∃ b ∈ bufs, b.iovLen ≠ 0) (schedule : ℕ → CallResult) :
    let run := fun k => clientWritevAll false (calls schedule k) (bufs.map Buffer.toIovec)
    ((∀ i, ∃ j, i ≤ j ∧ retries (schedule j) = false) → ∃ k, (run k).result ≠ none) ∧
      (∀ k m, k ≤ m → (run k).result ≠ none →
        (run m).result = (run k).result ∧ (run m).handed = (run k).handed) ∧
      ∀ k, (run k).result = none ∨
        (run k).result = some 0 ∧ (run k).handed = contents bufs ∨
        (run k).result = some (-1) ∧ (run k).handed <+: contents bufs ∧
          (run k).handed.length < (contents bufs).length := by
  intro run
  have hne := contents_ne_nil h
  have hrun : ∀ k, run k = writevLoop (calls schedule k) (bufs.map Buffer.toIovec) :=
    fun k => clientWritevAll_eq hmax hne (calls schedule k)
  refine ⟨fun hfair => ?_, fun k m hkm hreturned => ?_, fun k => ?_⟩
  · obtain ⟨k, hk⟩ := exists_le_countP hfair (contents bufs).length
    refine ⟨k, ?_⟩
    rw [hrun]
    exact writevLoop_returns hne hk
  · obtain ⟨more, hmore⟩ := calls_mono schedule hkm
    rw [hrun] at hreturned
    rw [hrun, hrun, ← hmore]
    exact writevLoop_append hreturned more
  · rw [hrun]
    cases handedOver_vectored hne (calls schedule k) with
    | done result handed => exact Or.inr (Or.inl ⟨result, handed⟩)
    | stopped result start short =>
        rcases result with hfailed | hnone
        · exact Or.inr (Or.inr ⟨hfailed, start, short⟩)
        · exact Or.inl hnone

/-- Four buffers, two of them empty. -/
def fourBuffers : List Buffer :=
  [.ofBytes [], .ofBytes (ascii "abc"), .ofBytes [], .ofBytes (ascii "d")]

/-- A first call that stops inside a buffer, and calls that take all the rest. -/
def shortFirst (i : ℕ) : CallResult := if i = 0 then .accepted 2 else .accepted 5

theorem vectoredWrites_exact_short :
    (clientWritevAll false (calls shortFirst 2) (fourBuffers.map Buffer.toIovec)).handed =
      contents fourBuffers := by
  obtain ⟨-, -, hexact⟩ :=
    vectoredWrites_exact fourBuffers (by decide) (by decide) shortFirst
  have hzero : (clientWritevAll false (calls shortFirst 2)
      (fourBuffers.map Buffer.toIovec)).result = some 0 := by
    decide +kernel
  rcases hexact 2 with hnone | hdone | hstopped
  · rw [hzero] at hnone
    exact absurd hnone (Option.some_ne_none 0)
  · exact hdone.2
  · rw [hzero] at hstopped
    exact absurd hstopped.1 (by decide)

/-- A loop that is only interrupted and told to wait goes on. -/
theorem writevLoop_of_retries {results : List CallResult} (h : ∀ r ∈ results, retries r = true)
    {v : Iovec} {left : List Iovec} (hsound : ∀ u ∈ v :: left, u.Sound) :
    (writevLoop results (v :: left)).result = none := by
  induction results with
  | nil => rfl
  | cons result results ih =>
      have hrest := ih fun r hr => h r (List.mem_cons_of_mem _ hr)
      have hfirst : retries result = true := h result List.mem_cons_self
      rw [writevLoop_cons hsound]
      cases result with
      | accepted n => exact absurd hfirst Bool.false_ne_true
      | interrupted => exact hrest
      | again ready =>
          cases ready with
          | true => exact hrest
          | false => exact absurd hfirst Bool.false_ne_true
      | failed => exact absurd hfirst Bool.false_ne_true

/-- Every call is interrupted: the loop never returns. -/
theorem interrupted_forever :
    [Buffer.ofBytes (ascii "a")].length ≤ localMax ∧
      (∃ b ∈ [Buffer.ofBytes (ascii "a")], b.iovLen ≠ 0) ∧
      ∀ k, (clientWritevAll false (calls (fun _ => .interrupted) k)
        ([Buffer.ofBytes (ascii "a")].map Buffer.toIovec)).result = none := by
  refine ⟨by decide, by decide, fun k => ?_⟩
  have hcalls : ∀ r ∈ calls (fun _ => .interrupted) k, retries r = true := by
    intro r hr
    obtain ⟨i, -, rfl⟩ := List.mem_map.mp hr
    rfl
  have hsound : ∀ v ∈ [Buffer.ofBytes (ascii "a")].map Buffer.toIovec, v.Sound := by
    intro v hv
    obtain rfl := List.mem_singleton.mp hv
    exact ⟨by decide, by decide⟩
  rw [clientWritevAll_eq (by decide) (by decide)]
  exact writevLoop_of_retries hcalls hsound

/-! ### Chunks -/

/-- A buffer in memory of its own holds what is there. -/
theorem bytes_ofBytes {b : Bytes} (h : b.length < 2 ^ 64) : (Buffer.ofBytes b).bytes = b := by
  unfold Iovec.bytes Buffer.ofBytes
  dsimp only
  rw [UInt64.toNat_ofNat_of_lt' h]
  exact List.take_of_length_le le_rfl

/-- The line in front of a chunk fits. -/
theorem length_chunkPrefix (n : UInt64) : (chunkPrefix n).length ≤ 18 := by
  have hdigits : (hexadecimal n.toNat).length ≤ 16 :=
    Digits.render_length_le (by decide) (by decide) n.toNat_lt
  unfold chunkPrefix
  rw [List.length_append]
  exact Nat.add_le_add hdigits le_rfl

/-- **A chunk goes out as one**: its length, its bytes and the line ends, or a start of that. -/
theorem handedOver_chunk (body : Buffer) (h : body.iovLen ≠ 0) (results : List CallResult) :
    HandedOver (chunkPrefix body.iovLen ++ (body.bytes ++ crlf))
      (clientWriteChunkedBody false results body) := by
  have hlength := length_chunkPrefix body.iovLen
  have hfits : ¬ prefixSize ≤ (chunkPrefix body.iovLen).length :=
    not_le.mpr (lt_of_le_of_lt hlength (by decide))
  have hcontents :
      contents [.ofBytes (chunkPrefix body.iovLen), body, .ofBytes crlf] =
        chunkPrefix body.iovLen ++ (body.bytes ++ crlf) := by
    have hprefix : (Buffer.ofBytes (chunkPrefix body.iovLen)).bytes = chunkPrefix body.iovLen :=
      bytes_ofBytes (by omega)
    have hend : (Buffer.ofBytes crlf).bytes = crlf := bytes_ofBytes (by decide)
    unfold contents
    rw [List.flatMap_cons, List.flatMap_cons, List.flatMap_singleton, hprefix, hend]
  have hne := @contents_ne_nil [.ofBytes (chunkPrefix body.iovLen), body, .ofBytes crlf]
    ⟨body, List.mem_cons_of_mem _ List.mem_cons_self, h⟩
  have hfew : [.ofBytes (chunkPrefix body.iovLen), body, .ofBytes crlf].length ≤ localMax :=
    (by decide : 3 ≤ localMax)
  unfold clientWriteChunkedBody
  rw [if_neg h, if_neg hfits, clientWritevAll_eq hfew hne, ← hcontents]
  exact handedOver_vectored hne results

end Rpsiod.Vectored

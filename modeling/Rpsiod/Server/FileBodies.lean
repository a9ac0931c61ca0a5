import Rpsiod.Server.ClientWrites
import Rpsiod.Server.Responders

/-!
# The ways to send a file (`send_file_body`, `copy_file_read_write`)

On a plain connection the kernel copies the file with `sendfile`, which counts on an offset of its
own; on a TLS connection, without `sendfile`, or when it refuses, the rest is read into a buffer and
written, from where the descriptor has been put.  As in the write loops, what the calls return is
given as lists.

* `copyFileReadWrite`, `sendfileLoop`, `sendFileBodyCalls`: the functions of `server.c`.
* `handedOver_copyLoop`, `handedOver_sendfileLoop`: what one way hands over, from any place on.
* `sendFileBodyCalls_delivers`: **whichever way is taken and wherever it is changed, the client gets
  the bytes asked for when the function returns 0, and a start of them otherwise**.
* `sendFileBody_of_calls`: a function that returns does what some `Peer` does.
-/

namespace Rpsiod

/-- An open file: what it holds, and where the descriptor stands. -/
structure FileCursor where
  content : Bytes
  position : ℕ

/-- The `length` bytes from `offset`. -/
def fileSlice (content : Bytes) (offset length : ℕ) : Bytes := (content.drop offset).take length

/-- `lseek(file_fd, offset, SEEK_SET)`. -/
def FileCursor.seek (file : FileCursor) (offset : ℕ) : FileCursor := { file with position := offset }

/-- `read`: at most `n` bytes, and the descriptor stands behind them. -/
def FileCursor.read (file : FileCursor) (n : ℕ) : Bytes × FileCursor :=
  let rd := fileSlice file.content file.position n
  (rd, { file with position := file.position + rd.length })

/-- What the calls return, each kind of call in its order. -/
structure FileCalls where
  sendfile : List CallResult
  /-- Whether `lseek` succeeds. -/
  seeks : Bool
  read : List CallResult
  write : List CallResult

/-- `char chunk[65536]`. -/
def copyChunk : ℕ := 65536

/-- The loop of `copy_file_read_write`; `read` never waits for a file. -/
def copyLoop : List CallResult → List CallResult → FileCursor → ℕ → WriteRun
  | _, writes, _, 0 => ⟨[], some 0, writes⟩
  | [], writes, _, _ => ⟨[], none, writes⟩
  | result :: reads, writes, file, remaining =>
      match result with
      | .accepted n =>
          let rd := file.read (min n (min remaining copyChunk))
          if rd.1 = [] then ⟨[], some (-1), writes⟩
          else
            let r := clientWriteLoop writes rd.1
            if r.result = some 0 then
              (copyLoop reads r.rest rd.2 (remaining - rd.1.length)).behind r.handed
            else r
      | .interrupted => copyLoop reads writes file remaining
      | .again _ => ⟨[], some (-1), writes⟩
      | .failed => ⟨[], some (-1), writes⟩

/-- `copy_file_read_write`. -/
def copyFileReadWrite (calls : FileCalls) (file : FileCursor) (offset length : ℕ) : WriteRun :=
  if calls.seeks then copyLoop calls.read calls.write (file.seek offset) length
  else ⟨[], some (-1), calls.write⟩

/-- The loop of `send_file_body`, with `current` and `remaining`; `sendfile` leaves the place of the
descriptor alone. -/
def sendfileLoop (calls : FileCalls) (file : FileCursor) : List CallResult → ℕ → ℕ → WriteRun
  | _, _, 0 => ⟨[], some 0, calls.write⟩
  | [], _, _ => ⟨[], none, calls.write⟩
  | result :: results, current, remaining =>
      match result with
      | .accepted n =>
          let sent := fileSlice file.content current (min n remaining)
          if sent = [] then ⟨[], some (-1), calls.write⟩
          else
            (sendfileLoop calls file results (current + sent.length)
              (remaining - sent.length)).behind sent
      | .interrupted => sendfileLoop calls file results current remaining
      | .again ready =>
          if ready then sendfileLoop calls file results current remaining
          else ⟨[], some (-1), calls.write⟩
      | .failed => copyFileReadWrite calls file current remaining

/-- `send_file_body`, call by call. -/
def sendFileBodyCalls (tls sendfileEnabled : Bool) (calls : FileCalls) (file : FileCursor)
    (offset length : ℕ) : WriteRun :=
  if length = 0 then ⟨[], some 0, calls.write⟩
  else if tls || !sendfileEnabled then copyFileReadWrite calls file offset length
  else sendfileLoop calls file calls.sendfile offset length

/-! ### Slices -/

theorem length_fileSlice {content : Bytes} {offset length : ℕ}
    (h : offset + length ≤ content.length) : (fileSlice content offset length).length = length := by
  unfold fileSlice
  rw [List.length_take, List.length_drop]
  omega

/-- A slice is its first bytes and the slice behind them. -/
theorem fileSlice_split {content : Bytes} {offset length n : ℕ} (hn : n ≤ length) :
    fileSlice content offset length =
      fileSlice content offset n ++ fileSlice content (offset + n) (length - n) := by
  unfold fileSlice
  rw [← List.drop_drop, ← List.take_add, Nat.add_sub_cancel' hn]

theorem fileSlice_ne_nil {content : Bytes} {offset length : ℕ} (hpos : 0 < length)
    (h : offset + length ≤ content.length) : fileSlice content offset length ≠ [] := by
  apply List.ne_nil_of_length_pos
  rw [length_fileSlice h]
  exact hpos

/-! ### One way -/

/-- The copy from where the descriptor stands. -/
theorem handedOver_copyLoop (reads writes : List CallResult) (file : FileCursor) (remaining : ℕ)
    (h : file.position + remaining ≤ file.content.length) :
    HandedOver (fileSlice file.content file.position remaining)
      (copyLoop reads writes file remaining) := by
  induction reads generalizing writes file remaining with
  | nil =>
      cases remaining with
      | zero => exact .done rfl rfl
      | succ n => exact .nothing (fileSlice_ne_nil (Nat.succ_pos n) h) (Or.inr rfl) writes
  | cons result reads ih =>
      cases remaining with
      | zero => exact .done rfl rfl
      | succ m =>
          set remaining := m + 1 with hremaining
          have hfail : HandedOver (fileSlice file.content file.position remaining)
              ⟨[], some (-1), writes⟩ :=
            .nothing (fileSlice_ne_nil (Nat.succ_pos m) h) (Or.inl rfl) writes
          cases result with
          | accepted n =>
              set want := min n (min remaining copyChunk) with hwant
              have hle : want ≤ remaining := (min_le_right _ _).trans (min_le_left _ _)
              have hlen : (fileSlice file.content file.position want).length = want :=
                length_fileSlice (by omega)
              -- the chunk that is read is the start of what is left
              have hchunk : (file.read want).1 = fileSlice file.content file.position want := rfl
              have hnext : (file.read want).2 =
                  { file with position := file.position + want } := by
                unfold FileCursor.read
                dsimp only
                rw [hlen]
              show HandedOver _ (if (file.read want).1 = [] then ⟨[], some (-1), writes⟩
                else if (clientWriteLoop writes (file.read want).1).result = some 0 then
                  (copyLoop reads (clientWriteLoop writes (file.read want).1).rest
                    (file.read want).2 (remaining - (file.read want).1.length)).behind
                    (clientWriteLoop writes (file.read want).1).handed
                else clientWriteLoop writes (file.read want).1)
              rw [hnext, hchunk, hlen, fileSlice_split hle]
              split_ifs with hempty hwritten
              · rw [← fileSlice_split hle]
                exact hfail
              · have hwrite := handedOver_writeLoop writes (fileSlice file.content file.position want)
                cases hwrite with
                | done result handed =>
                    rw [handed]
                    exact (ih _ { file with position := file.position + want } (remaining - want)
                      (by dsimp only; omega)).behind _
                | stopped result start short =>
                    rcases result with heq | heq
                    · exact absurd (heq.symm.trans hwritten) (by decide)
                    · exact absurd (heq.symm.trans hwritten) (by decide)
              · have hwrite := handedOver_writeLoop writes (fileSlice file.content file.position want)
                cases hwrite with
                | done result handed => exact absurd result hwritten
                | stopped result start short =>
                    refine .stopped result (start.trans (List.prefix_append _ _)) ?_
                    rw [List.length_append]
                    omega
          | interrupted => exact ih writes file remaining h
          | again ready => exact hfail
          | failed => exact hfail

theorem handedOver_copyFileReadWrite (calls : FileCalls) (file : FileCursor) {offset length : ℕ}
    (hpos : 0 < length) (h : offset + length ≤ file.content.length) :
    HandedOver (fileSlice file.content offset length)
      (copyFileReadWrite calls file offset length) := by
  unfold copyFileReadWrite
  split_ifs
  · exact handedOver_copyLoop calls.read calls.write (file.seek offset) length h
  · exact .nothing (fileSlice_ne_nil hpos h) (Or.inl rfl) _

/-- `sendfile` from `current` on; when it refuses, the copy goes on from there. -/
theorem handedOver_sendfileLoop (calls : FileCalls) (file : FileCursor)
    (results : List CallResult) (current remaining : ℕ)
    (h : current + remaining ≤ file.content.length) :
    HandedOver (fileSlice file.content current remaining)
      (sendfileLoop calls file results current remaining) := by
  induction results generalizing current remaining with
  | nil =>
      cases remaining with
      | zero => exact .done rfl rfl
      | succ n => exact .nothing (fileSlice_ne_nil (Nat.succ_pos n) h) (Or.inr rfl) _
  | cons result results ih =>
      cases remaining with
      | zero => exact .done rfl rfl
      | succ m =>
          set remaining := m + 1 with hremaining
          have hfail : HandedOver (fileSlice file.content current remaining)
              ⟨[], some (-1), calls.write⟩ :=
            .nothing (fileSlice_ne_nil (Nat.succ_pos m) h) (Or.inl rfl) _
          cases result with
          | accepted n =>
              have hle : min n remaining ≤ remaining := min_le_right _ _
              have hlen : (fileSlice file.content current (min n remaining)).length =
                  min n remaining := length_fileSlice (by omega)
              show HandedOver _ (if fileSlice file.content current (min n remaining) = [] then
                  ⟨[], some (-1), calls.write⟩
                else (sendfileLoop calls file results
                  (current + (fileSlice file.content current (min n remaining)).length)
                  (remaining - (fileSlice file.content current (min n remaining)).length)).behind
                  (fileSlice file.content current (min n remaining)))
              rw [hlen]
              split_ifs with hempty
              · exact hfail
              · rw [fileSlice_split hle]
                exact (ih (current + min n remaining) (remaining - min n remaining)
                  (by omega)).behind _
          | interrupted => exact ih current remaining h
          | again ready =>
              cases ready with
              | true => exact ih current remaining h
              | false => exact hfail
          | failed => exact handedOver_copyFileReadWrite calls file (Nat.succ_pos m) h

/-! ### All ways -/

theorem handedOver_sendFileBody (tls sendfileEnabled : Bool) (calls : FileCalls)
    (file : FileCursor) {offset length : ℕ} (h : offset + length ≤ file.content.length) :
    HandedOver (fileSlice file.content offset length)
      (sendFileBodyCalls tls sendfileEnabled calls file offset length) := by
  unfold sendFileBodyCalls
  split_ifs with hzero hcopy
  · subst hzero
    exact .done rfl rfl
  · exact handedOver_copyFileReadWrite calls file (Nat.pos_of_ne_zero hzero) h
  · exact handedOver_sendfileLoop calls file calls.sendfile offset length h

/-- **The bytes asked for arrive when 0 is returned, and otherwise a start of them**, whatever the
calls return and wherever the descriptor stood. -/
theorem sendFileBodyCalls_delivers (tls sendfileEnabled : Bool) (calls : FileCalls)
    (file : FileCursor) (offset length : ℕ) (h : offset + length ≤ file.content.length) :
    let r := sendFileBodyCalls tls sendfileEnabled calls file offset length
    (r.result = some 0 → r.handed = fileSlice file.content offset length) ∧
      (r.result ≠ some 0 → r.handed <+: fileSlice file.content offset length) ∧
      (r.result = some 0 ∨ r.result = some (-1) ∨ r.result = none) := by
  intro r
  have hhanded : HandedOver (fileSlice file.content offset length) r :=
    handedOver_sendFileBody tls sendfileEnabled calls file h
  cases hhanded with
  | done result handed =>
      exact ⟨fun _ => handed, fun hne => absurd result hne, Or.inl result⟩
  | stopped result start short =>
      refine ⟨fun hzero => ?_, fun _ => start, Or.inr result⟩
      rcases result with heq | heq
      · exact absurd (heq.symm.trans hzero) (by decide)
      · exact absurd (heq.symm.trans hzero) (by decide)

/-- Two bytes by `sendfile`, then a refusal, and the last three by two reads. -/
theorem sendFileBodyCalls_delivers_switched :
    let r := sendFileBodyCalls false true
      ⟨[.accepted 2, .interrupted, .failed], true, [.accepted 1, .accepted 9],
        [.again true, .accepted 1, .accepted 1, .accepted 1]⟩ ⟨[10, 11, 12, 13, 14, 15, 16], 6⟩ 1 5
    r.result = some 0 ∧ r.handed = [11, 12, 13, 14, 15] :=
  ⟨by decide, (sendFileBodyCalls_delivers false true
    ⟨[.accepted 2, .interrupted, .failed], true, [.accepted 1, .accepted 9],
      [.again true, .accepted 1, .accepted 1, .accepted 1]⟩ ⟨[10, 11, 12, 13, 14, 15, 16], 6⟩ 1 5
    (by decide)).1 (by decide)⟩

/-- **A function that returns does what it does with some peer.** -/
theorem sendFileBody_of_calls (w : World) (tls sendfileEnabled : Bool) (calls : FileCalls)
    (file : FileCursor) {offset length : ℕ} (h : offset + length ≤ file.content.length)
    (t : Trace) :
    let r := sendFileBodyCalls tls sendfileEnabled calls file offset length
    r.result = none ∨ ∃ peer ev rc,
      sendFileBody { w with peer := peer } file.content offset length t = (t ++ ev, rc) ∧
        r.result = some rc ∧ written ev = r.handed := by
  intro r
  have hhanded : HandedOver (fileSlice file.content offset length) r :=
    handedOver_sendFileBody tls sendfileEnabled calls file h
  have hlen : (fileSlice file.content offset length).length = length := length_fileSlice h
  by_cases hzero : length = 0
  · have hr : r = ⟨[], some 0, calls.write⟩ := by
      unfold r sendFileBodyCalls
      rw [if_pos hzero]
    refine Or.inr ⟨.willing, [], 0, ?_, by rw [hr], by rw [hr]; rfl⟩
    unfold sendFileBody
    rw [if_pos hzero, List.append_nil]
  have hbody : ∀ peer, sendFileBody { w with peer := peer } file.content offset length t =
      andThen (clientWriteAll peer .body (fileSlice file.content offset length) t)
        fun t => (t, 0) := by
    intro peer
    have hwhole : ¬ (fileSlice file.content offset length).length < length := by
      rw [hlen]
      exact lt_irrefl length
    unfold sendFileBody
    rw [if_neg hzero]
    show andThen _ (fun t => (t, if (fileSlice file.content offset length).length < length then -1
      else 0)) = _
    rw [if_neg hwhole]
    rfl
  cases hhanded with
  | done result handed =>
      refine Or.inr ⟨.willing, writeOf .body (fileSlice file.content offset length), 0, ?_, result,
        ?_⟩
      · rw [hbody, clientWriteAll_willing, andThen_zero]
      · rw [written_writeOf fun _ => rfl, handed]
  | stopped result start short =>
      rcases result with hresult | hnone
      · refine Or.inr ⟨⟨fun _ => some r.handed.length⟩,
          [.body ((fileSlice file.content offset length).take r.handed.length)], -1, ?_, hresult, ?_⟩
        · rw [hbody]
          unfold clientWriteAll
          rw [if_neg (List.ne_nil_of_length_pos (Nat.zero_lt_of_lt short))]
          rfl
        · exact (List.append_nil _).trans (List.prefix_iff_eq_take.mp start).symm
      · exact Or.inl hnone

end Rpsiod

import Rpsiod.Lib.ReturnCodes
import Rpsiod.Server.ServeRequest

/-!
# The entry of a request in the access log (`server.c`)

Every responder logs its request itself, on each of the ways through it that end in a reply.

* `Logged`: the history ends with its only entry, whose status is the one of the last head.
* `accounts_sendFileFd`, `accounts_sendPhpFpm`, `accounts_serveProxy`: the responders.
* `accounts_serveRequest`: **a request that is answered is logged exactly once**, with the status
  that the client has been sent last; one that is not is logged once at most.
-/

namespace Rpsiod

open ListSearch Crlf FastCgi ReturnCode

/-! ### Histories -/

/-- The status and the length of an entry. -/
def Event.entry : Event → Option (ℤ × ℕ)
  | .logged status bytes => some (status, bytes)
  | _ => none

/-- The bytes of a head. -/
def Event.headText : Event → Option Bytes
  | .head bytes => some bytes
  | _ => none

/-- The entries of a history. -/
def entries (t : Trace) : List (ℤ × ℕ) := t.filterMap Event.entry

/-- The last head of a history. -/
def lastHead (t : Trace) : Option Bytes := (t.filterMap Event.headText).getLast?

/-- An `int` of C. -/
def IsInt (n : ℤ) : Prop := -2 ^ 31 ≤ n ∧ n < 2 ^ 31

instance (n : ℤ) : Decidable (IsInt n) := inferInstanceAs (Decidable (_ ∧ _))

/-- Nothing has been logged. -/
def Unlogged (t : Trace) : Prop := entries t = []

/-- Nothing has been sent either. -/
def Headless (t : Trace) : Prop := entries t = [] ∧ lastHead t = none

/-- Nothing has been logged, and the last head, if there is one, has this status. -/
def Announces (status : ℤ) (t : Trace) : Prop :=
  entries t = [] ∧ ∀ head ∈ lastHead t, statusLine status ++ crlf <+: head

/-- The history ends with its only entry, which has the status of the last head. -/
def Logged (t : Trace) : Prop :=
  ∃ front status bytes, t = front ++ [.logged status bytes] ∧ Announces status front ∧ IsInt status

/-- At most one entry. -/
def AtMostOne (t : Trace) : Prop := (entries t).length ≤ 1 ∧ ∀ e ∈ entries t, IsInt e.1

@[simp] theorem entries_append (t u : Trace) : entries (t ++ u) = entries t ++ entries u :=
  List.filterMap_append

theorem lastHead_concat_head (t : Trace) (head : Bytes) :
    lastHead (t ++ [.head head]) = some head := by
  simp [lastHead, Event.headText]

theorem lastHead_concat {e : Event} (h : e.headText = none) (t : Trace) :
    lastHead (t ++ [e]) = lastHead t := by
  simp [lastHead, h]

theorem Announces.unlogged {status : ℤ} {t : Trace} (h : Announces status t) : Unlogged t := h.1

theorem Headless.announces {t : Trace} (h : Headless t) (status : ℤ) : Announces status t := by
  refine ⟨h.1, fun head hhead => ?_⟩
  rw [h.2] at hhead
  exact absurd hhead (Option.not_mem_none head)

theorem Unlogged.atMostOne {t : Trace} (h : Unlogged t) : AtMostOne t := by
  unfold AtMostOne
  rw [h]
  exact ⟨Nat.zero_le 1, fun e he => absurd he List.not_mem_nil⟩

theorem atMostOne_of_entries {t : Trace} {status : ℤ} {bytes : ℕ}
    (h : entries t = [(status, bytes)]) (hint : IsInt status) : AtMostOne t := by
  unfold AtMostOne
  rw [h]
  refine ⟨le_rfl, fun e he => ?_⟩
  rw [List.mem_singleton.mp he]
  exact hint

theorem Unlogged.logged_atMostOne {t : Trace} (h : Unlogged t) {status : ℤ} (hint : IsInt status)
    (bytes : ℕ) : AtMostOne (logAccess status bytes t) := by
  refine @atMostOne_of_entries _ status bytes ?_ hint
  unfold logAccess
  rw [entries_append, show entries t = [] from h]
  rfl

theorem Announces.logged {status : ℤ} {t : Trace} (h : Announces status t) (hint : IsInt status)
    (bytes : ℕ) : Logged (logAccess status bytes t) := ⟨t, status, bytes, rfl, h, hint⟩

/-- There is exactly one entry. -/
theorem Logged.entries_eq {t : Trace} (h : Logged t) :
    ∃ status bytes, entries t = [(status, bytes)] ∧ IsInt status ∧
      ∀ head ∈ lastHead t, statusLine status ++ crlf <+: head := by
  obtain ⟨front, status, bytes, rfl, ⟨hfront, hhead⟩, hint⟩ := h
  refine ⟨status, bytes, ?_, hint, ?_⟩
  · rw [entries_append, hfront]
    rfl
  · rw [lastHead_concat rfl]
    exact hhead

theorem Logged.atMostOne {t : Trace} (h : Logged t) : AtMostOne t := by
  obtain ⟨status, bytes, hentries, hint, -⟩ := h.entries_eq
  exact atMostOne_of_entries hentries hint

/-- Body bytes and failures of the backend do not show. -/
def BlindToBodies (P : Trace → Prop) : Prop := ∀ t e, e.entry = none → e.headText = none → P t → P (t ++ [e])

theorem blind_unlogged : BlindToBodies Unlogged := by
  intro t e hentry _ h
  unfold Unlogged entries
  rw [List.filterMap_append, List.filterMap_cons_none hentry]
  exact List.append_eq_nil_iff.mpr ⟨h, rfl⟩

theorem blind_announces (status : ℤ) : BlindToBodies (Announces status) := by
  intro t e hentry hhead h
  refine ⟨blind_unlogged t e hentry hhead h.1, ?_⟩
  rw [lastHead_concat hhead]
  exact h.2

theorem blind_headless : BlindToBodies Headless := by
  intro t e hentry hhead h
  refine ⟨blind_unlogged t e hentry hhead h.1, ?_⟩
  rw [lastHead_concat hhead]
  exact h.2

/-- A responder that logs its request. -/
def Accounts (f : Trace → Trace × ℤ) : Prop := Yields Unlogged f Logged AtMostOne

/-! ### Writes -/

variable {w : World} {s : Site} {req : HttpRequest} {P : Trace → Prop} {status : ℤ}

/-- `if (step < 0) return -1;` between two parts. -/
theorem yields_andThen {f g : Trace → Trace × ℤ} {Q Q' R R' : Trace → Prop} (hf : Yields P f Q R)
    (hg : Yields Q g Q' R') (hR : ∀ t, R t → R' t) : Yields P (fun t => andThen (f t) g) Q' R' :=
  hf.andThen hg hR

theorem yields_body (hP : BlindToBodies P) (peer : Peer) (buf : Bytes) :
    Yields P (clientWriteAll peer .body buf) P P := by
  refine .ite (fun _ => .succeed fun _ h => h) fun _ t ht => ?_
  cases peer.refuses t.length with
  | none => exact Or.inl ⟨rfl, hP t _ rfl rfl ht⟩
  | some n => exact Or.inr ⟨rfl, hP t _ rfl rfl ht⟩

theorem yields_bodies (hP : BlindToBodies P) (peer : Peer) (bufs : List Bytes) :
    Yields P (writeEach peer (bufs.map fun buf => (.body, buf))) P P := by
  induction bufs with
  | nil => exact .succeed fun _ h => h
  | cons buf bufs ih => exact yields_andThen (yields_body hP peer buf) ih fun _ h => h

theorem yields_writevBodies (hP : BlindToBodies P) (peer : Peer) (tls : Bool) (bufs : List Bytes) :
    Yields P (clientWritevAll peer tls (bufs.map fun buf => (.body, buf))) P P :=
  .ite (fun _ => .fail fun _ h => h) fun _ => yields_bodies hP peer bufs

/-- A head with this status. -/
theorem yields_head (peer : Peer) {head : Bytes} (h : statusLine status ++ crlf <+: head) :
    Yields Unlogged (clientWriteAll peer .head head) (Announces status) Unlogged := by
  have hne : head ≠ [] := by
    rintro rfl
    exact absurd (List.prefix_nil.mp h) (by simp [crlf])
  intro t ht
  unfold clientWriteAll
  rw [if_neg hne]
  have hkeep : ∀ b, Unlogged (t ++ [.head b]) := by
    intro b
    unfold Unlogged
    rw [entries_append, show entries t = [] from ht]
    rfl
  cases peer.refuses t.length with
  | none =>
      refine Or.inl ⟨rfl, hkeep head, fun head' hhead => ?_⟩
      rw [lastHead_concat_head] at hhead
      rw [← Option.some.inj hhead]
      exact h
  | some n => exact Or.inr ⟨rfl, hkeep _⟩

theorem prefix_headOf (status : ℤ) (fields : List Field) :
    statusLine status ++ crlf <+: headOf status fields := by
  unfold headOf
  rw [unlines_cons, List.append_assoc]
  exact List.prefix_append _ _

/-- What `build_response_headers` returns has the status. -/
theorem prefix_of_build {host : Host} {client : Client} {contentType : Bytes}
    {contentLength : Option ℕ} {keepAlive : Bool} {opts : ResponseOptions} {n : ℕ} {head : Bytes}
    (h : buildResponseHeaders host client status contentType contentLength keepAlive opts n =
      some head) : statusLine status ++ crlf <+: head := by
  rw [buildResponseHeaders_eq] at h
  unfold fitting at h
  split_ifs at h
  rw [← Option.some.inj h]
  exact prefix_headOf status _

theorem yields_writeHead (w : World) (status : ℤ) (contentType : Bytes) (contentLength : Option ℕ)
    (keepAlive : Bool) (opts : ResponseOptions) :
    Yields Unlogged (w.writeHead status contentType contentLength keepAlive opts)
      (Announces status) Unlogged := by
  unfold World.writeHead writeResponseHeaders
  cases hbuilt : buildResponseHeaders w.host w.client status contentType contentLength keepAlive
      opts responseHeadLen with
  | none => exact .fail fun _ h => h
  | some head => exact yields_head w.peer (prefix_of_build hbuilt)

theorem yields_writePhpHead (w : World) (s : Site) (status : ℤ) (contentType : Bytes)
    (contentLength : Option ℕ) (keepAlive : Bool) (cgiHeaders : Bytes) (chunkedResponse : Bool) :
    Yields Unlogged (writePhpResponseHeaders w.peer w.host w.client s status contentType
      contentLength keepAlive cgiHeaders chunkedResponse) (Announces status) Unlogged := by
  unfold writePhpResponseHeaders
  cases hbuilt : phpResponseHead w.host w.client s status contentType contentLength keepAlive
      cgiHeaders chunkedResponse with
  | none => exact .fail fun _ h => h
  | some head =>
      apply yields_head
      rw [phpResponseHead_eq] at hbuilt
      unfold fitting at hbuilt
      split_ifs at hbuilt
      rw [← Option.some.inj hbuilt]
      exact prefix_headOf status _

/-- The log at the end. -/
theorem yields_log {R : Trace → Prop} (hint : IsInt status) (bytes : ℕ) :
    Yields (Announces status) (fun t => (logAccess status bytes t, 0)) Logged R := fun _ h =>
  Or.inl ⟨rfl, h.logged hint bytes⟩

/-- The log in any case. -/
theorem accounts_of_log {f : Trace → Trace × ℤ} (hint : IsInt status) (bytes : ℕ)
    (h : Yields Unlogged f (Announces status) Unlogged) :
    Accounts fun t => (logAccess status bytes (f t).1, (f t).2) :=
  h.bind (k := fun r => (logAccess status bytes r.1, r.2)) (yields_log hint bytes)
    fun _ h => Or.inr ⟨rfl, h.logged_atMostOne hint bytes⟩

/-! ### Texts and files -/

/-- No body for a HEAD request. -/
theorem yields_unlessHead {f : Trace → Trace × ℤ} (h : Yields P f P P) :
    Yields P (fun t => if req.headOnly then (t, 0) else f t) P P :=
  .ite (fun _ => .succeed fun _ h => h) fun _ => h

/-- A head, a body and the log, with a return after each error. -/
theorem accounts_headThenBody {contentType : Bytes} {contentLength : Option ℕ}
    {opts : ResponseOptions} {body : Trace → Trace × ℤ} (hint : IsInt status)
    (hbody : Yields (Announces status) body (Announces status) (Announces status)) (bytes : ℕ) :
    Accounts fun t =>
      andThen (w.writeHead status contentType contentLength req.keepAlive opts t) fun t =>
      andThen (if req.headOnly then (t, 0) else body t) fun t => (logAccess status bytes t, 0) :=
  yields_andThen (yields_writeHead w status contentType contentLength req.keepAlive opts)
    (yields_andThen (yields_unlessHead hbody) (yields_log hint bytes) fun _ h => h.unlogged.atMostOne)
    fun _ h => h.atMostOne

theorem accounts_sendShort (hint : IsInt status) (text : Bytes) (opts : ResponseOptions) :
    Accounts (sendShort w status text opts req) :=
  accounts_headThenBody hint (yields_writevBodies (blind_announces status) _ _ [text]) text.length

theorem accounts_sendText (site : Option Site) (hint : IsInt status) (text : Bytes) :
    Accounts (sendText w site status text req) :=
  accounts_sendShort hint text _

theorem accounts_sendRedirect (hint : IsInt status) (location : Bytes) :
    Accounts (sendRedirect w s status location req) :=
  .ite (fun _ => .fail fun _ h => h.atMostOne) fun _ => accounts_sendShort hint _ _

theorem accounts_sendRateLimited (retryAfter : ℕ) :
    Accounts (sendRateLimited w s retryAfter req) :=
  accounts_sendShort (by decide) _ _

theorem yields_sendFileBody (hP : BlindToBodies P) (content : Bytes) (offset length : ℕ) :
    Yields P (sendFileBody w content offset length) P P := by
  refine .ite (fun _ => .succeed fun _ h => h) fun _ => ?_
  refine yields_andThen (yields_body hP w.peer _) (fun t ht => ?_) fun _ h => h
  show Returns P P (t, if ((content.drop offset).take length).length < length then -1 else 0)
  split_ifs
  · exact Or.inr ⟨rfl, ht⟩
  · exact Or.inl ⟨rfl, ht⟩

theorem accounts_sendHeadOnly (hint : IsInt status) (contentType : Bytes) (opts : ResponseOptions) :
    Accounts (sendHeadOnly w status contentType opts req) :=
  accounts_of_log hint 0 (yields_writeHead w status contentType (some 0) req.keepAlive opts)

/-- A head of this length, a body, and the log in any case. -/
theorem accounts_sendEncoded (hint : IsInt status) {contentType : Bytes} {length : ℕ}
    {opts : ResponseOptions} {body : Trace → Trace × ℤ}
    (hbody : Yields (Announces status) body (Announces status) (Announces status)) :
    Accounts (sendEncoded w status contentType length opts req body) := by
  apply accounts_of_log hint length
  refine (yields_writeHead w status contentType (some length) req.keepAlive opts).bind
    (k := fun r => if r.2 = 0 && !req.headOnly then body r.1 else r) ?_ ?_
  · cases hhead : req.headOnly with
    | false => exact hbody.mono (fun _ h => h) (fun _ h => h) fun _ h => h.unlogged
    | true => exact .succeed fun _ h => h
  · exact .fail fun _ h => h

/-- The attempt with one `writev` leaves no head behind unless it has succeeded, or the log is
still to come. -/
theorem yields_trySmallFile (mime : Bytes) (file : OpenFile) (opts : ResponseOptions) :
    Yields Unlogged (trySmallFile w status mime file opts req) (Announces status) Unlogged := by
  refine .ite (fun _ => .ite (fun _ => .fail fun _ h => h) fun _ => ?_) fun _ => .fail fun _ h => h
  cases hbuilt : buildResponseHeaders w.host w.client status mime (some file.stat.size)
      req.keepAlive opts responseHeadLen with
  | none => exact .fail fun _ h => h
  | some head =>
      refine .ite (fun _ => .fail fun _ h => h) fun _ => .ite (fun _ => .fail fun _ h => h) fun _ => ?_
      exact yields_andThen (yields_head w.peer (prefix_of_build hbuilt))
        ((yields_bodies (blind_announces status) w.peer [_]).mono (fun _ h => h) (fun _ h => h)
          fun _ h => h.unlogged) fun _ h => h

theorem accounts_sendWholeFile (hint : IsInt status) (mime : Bytes) (etag : Option Bytes)
    (file : OpenFile) : Accounts (sendWholeFile w s status mime etag file req) := by
  set opts := wholeFileOptions s status etag file.stat
  refine (@yields_trySmallFile w req status mime file opts).bind (k := fun small =>
    if small.2 = 0 then (logAccess status file.stat.size small.1, 0)
    else sendPlainFile w status mime file opts req small.1) (yields_log hint _) ?_
  exact accounts_headThenBody hint (yields_sendFileBody (blind_announces status) _ _ _) _

theorem accounts_sendFileRange (mime : Bytes) (etag : Option Bytes) (file : OpenFile) :
    Accounts (sendFileRange w s mime etag file req) := by
  unfold sendFileRange
  dsimp only
  cases requestedRange req file.stat.size with
  | none => exact accounts_sendHeadOnly (by decide) _ _
  | some range =>
      exact accounts_headThenBody (by decide) (yields_sendFileBody (blind_announces 206) _ _ _) _

/-- **`send_file_fd`**. -/
theorem accounts_sendFileFd (hint : IsInt status) (path : Bytes) (file : OpenFile)
    (cached : Option StaticMeta) : Accounts (sendFileFd w s status path file cached req) := by
  refine .ite (fun _ => accounts_sendHeadOnly (by decide) _ _) fun _ =>
    .ite (fun _ => accounts_sendFileRange _ _ _) fun _ => ?_
  apply sendFileContent_cases (P := fun _ f => Accounts f)
  · intro v encoding _
    exact accounts_sendEncoded hint (yields_sendFileBody (blind_announces status) _ _ _)
  · intro c encoding _
    exact accounts_sendEncoded hint (yields_body (blind_announces status) w.peer c)
  · exact accounts_sendWholeFile hint _ _ file

/-- **`send_error_page`**. -/
theorem accounts_sendErrorPage (hint : IsInt status) : Accounts (sendErrorPage w s status req) := by
  unfold sendErrorPage
  cases openErrorPage w s status with
  | some page => exact accounts_sendFileFd hint page.1 page.2 none
  | none => exact accounts_sendText (some s) hint (errorText status)

theorem accounts_redirectDirectorySlash : Accounts (redirectDirectorySlash w s req) :=
  .ite (fun _ => accounts_sendErrorPage (by decide)) fun _ =>
    .ite (fun _ => accounts_sendErrorPage (by decide)) fun _ => accounts_sendRedirect (by decide) _

/-- The error page of a backend that has failed. -/
theorem accounts_backendError (hint : IsInt status) : Accounts (backendError w s req status) :=
  fun t ht => accounts_sendErrorPage hint _ (blind_unlogged t .backendFailed rfl rfl ht)

/-! ### FastCGI -/

/-- The variables of `send_php_fpm` fit the history. -/
structure PhpReady (st : PhpState) (t : Trace) : Prop where
  isInt : IsInt st.status
  unlogged : Unlogged t
  announces : st.responseStarted = true → Announces st.status t

/-- The loop body of `send_php_fpm` goes on, or ends the request. -/
def FlowAccounts (flow : Flow) : Prop :=
  match flow with
  | .next st t => PhpReady st t
  | .stop r => Returns Logged AtMostOne r

theorem isInt_atoi (text : Bytes) : IsInt (atoi text) := by
  unfold atoi
  exact ⟨Int.le_bmod (by decide), Int.bmod_lt (by decide)⟩

theorem isInt_parseCgiHead (headers : Bytes) : IsInt (parseCgiHead headers).status := by
  unfold parseCgiHead
  refine List.foldlRecOn (motive := fun h : CgiHead => IsInt h.status) _ _ (by decide) fun h hh line _ => ?_
  unfold applyCgiLine
  split_ifs
  · exact isInt_atoi _
  · exact hh
  · exact hh
  · exact hh

/-- Body bytes, behind which the loop goes on. -/
theorem flowAccounts_after {st : PhpState} {f : Trace → Trace × ℤ} {t : Trace}
    (hint : IsInt st.status) (hf : Yields (Announces st.status) f (Announces st.status) Unlogged)
    (ht : Announces st.status t) : FlowAccounts (.after (f t) st) := by
  unfold Flow.after
  rcases hf t ht with ⟨hcode, h⟩ | ⟨hcode, h⟩
  · rw [hcode]
    exact ⟨hint, h.unlogged, fun _ => h⟩
  · rw [hcode]
    exact Or.inr ⟨rfl, h.atMostOne⟩

theorem yields_writePhpBody (hP : BlindToBodies P) (body : Bytes) (chunkedResponse : Bool) :
    Yields P (writePhpBody w req body chunkedResponse) P P := by
  refine .ite (fun _ => .succeed fun _ h => h) fun _ => .ite (fun _ => ?_) fun _ => ?_
  · refine .ite (fun _ => .succeed fun _ h => h) fun _ => ?_
    exact yields_writevBodies hP w.peer w.client.tls [_, body, crlf]
  · exact yields_body hP w.peer body

theorem flowAccounts_phpStart (headerBuffer : Bytes) (stop : ℕ) {t : Trace} (ht : Unlogged t) :
    FlowAccounts (phpStart w s req headerBuffer stop t) := by
  set h := parseCgiHead (cgiHeaders headerBuffer stop) with hh
  have hint : IsInt h.status := isInt_parseCgiHead _
  unfold phpStart
  dsimp only
  rw [← hh]
  split_ifs with halloc hfailed hbody
  · exact accounts_sendErrorPage (by decide) t ht
  all_goals
    rcases yields_writePhpHead w s h.status h.contentType h.contentLength req.keepAlive
      (cgiHeaders headerBuffer stop) (phpChunked req h) t ht with ⟨hcode, hsent⟩ | ⟨hcode, hsent⟩
  · exact Or.inr ⟨rfl, hsent.unlogged.atMostOne⟩
  · exact Or.inr ⟨rfl, hsent.atMostOne⟩
  · exact ⟨hint, hsent.unlogged, fun _ => hsent⟩
  · exact absurd (hcode ▸ hfailed) (by decide)
  · exact flowAccounts_after hint ((yields_writePhpBody (blind_announces h.status) _ _).mono
      (fun _ h => h) (fun _ h => h) fun _ h => h.unlogged) hsent
  · exact absurd (hcode ▸ hfailed) (by decide)

theorem yields_phpFinish {st : PhpState} (hint : IsInt st.status) :
    Yields (PhpReady st) (phpFinish w s req st) Logged AtMostOne := by
  refine .ite (fun _ => ?_) fun hstarted => ?_
  · have hhead := yields_writePhpHead w s st.status (ascii "text/html; charset=utf-8")
      (some st.headerBuffer.length) req.keepAlive [] false
    have hsent : ∀ code : ℤ, code = 0 → Yields (Announces st.status) (fun t =>
        if code = 0 && !req.headOnly && st.headerBuffer ≠ [] then
          clientWriteAll w.peer .body st.headerBuffer t
        else (t, code)) (Announces st.status) Unlogged := by
      rintro _ rfl
      refine .ite (fun _ => ?_) fun _ => .succeed fun _ h => h
      exact (yields_body (blind_announces st.status) w.peer _).mono (fun _ h => h) (fun _ h => h)
        fun _ h => h.unlogged
    have hbody : Yields Unlogged _ (Announces st.status) Unlogged := hhead.bind (k := fun r =>
      if r.2 = 0 && !req.headOnly && st.headerBuffer ≠ [] then
        clientWriteAll w.peer .body st.headerBuffer r.1
      else r) (hsent 0 rfl) (.fail fun _ h => h)
    exact Yields.mono (accounts_of_log hint st.headerBuffer.length hbody) (fun _ h => h.unlogged)
      (fun _ h => h) fun _ h => h
  · have hend : Yields (Announces st.status) (fun t =>
        if st.chunkedResponse && !req.headOnly then clientWriteChunkedEnd w t else (t, 0))
        (Announces st.status) (Announces st.status) :=
      .ite (fun _ => yields_body (blind_announces st.status) w.peer _) fun _ =>
        .succeed fun _ h => h
    have hlogged : Yields (Announces st.status) _ Logged AtMostOne :=
      hend.bind (k := fun r => (logAccess st.status st.bytesStreamed r.1, r.2)) (yields_log hint _)
        fun _ h => Or.inr ⟨rfl, h.unlogged.logged_atMostOne hint st.bytesStreamed⟩
    exact hlogged.mono (fun _ h => h.announces (by simpa using hstarted)) (fun _ h => h) fun _ h => h

/-- **A record of the backend.** -/
theorem flowAccounts_phpStep (r : Record) {st : PhpState} {t : Trace} (h : PhpReady st t) :
    FlowAccounts (phpStep w s req r st t) := by
  unfold phpStep
  split_ifs with hstdout hstarted hlong hend
  · exact accounts_backendError (by decide) t h.unlogged
  · dsimp only
    cases indexOfSub crlfcrlf (st.headerBuffer ++ r.content) with
    | none =>
        have hfresh : st.responseStarted = false := by simpa using hstarted
        exact ⟨h.isInt, h.unlogged, fun hstart => absurd (hfresh.symm.trans hstart) (by decide)⟩
    | some stop => exact flowAccounts_phpStart _ stop h.unlogged
  · have hann := h.announces (by simpa using hstarted)
    exact @flowAccounts_after { st with bytesStreamed := st.bytesStreamed + r.content.length } _ _
      h.isInt ((yields_writePhpBody (blind_announces st.status) _ _).mono (fun _ h => h)
        (fun _ h => h) fun _ h => h.unlogged) hann
  · exact yields_phpFinish h.isInt t h
  · exact h

/-- **The records of the backend.** -/
theorem returns_phpLoop {ending : BackendEnd} {fuel : ℕ} {pieces : List Piece} {st : PhpState}
    {t : Trace} (h : PhpReady st t) :
    Returns Logged AtMostOne (phpLoop w s req ending fuel pieces st t) := by
  induction fuel generalizing pieces st t with
  | zero => exact Or.inr ⟨rfl, h.unlogged.atMostOne⟩
  | succ fuel ih =>
      rw [phpLoop]
      cases readRecord pieces with
      | none => exact accounts_backendError (by cases ending <;> decide) t h.unlogged
      | some p =>
          obtain ⟨r, rest⟩ := p
          have hstep := @flowAccounts_phpStep w s req r st t h
          dsimp only
          cases hflow : phpStep w s req r st t with
          | stop result =>
              rw [hflow] at hstep
              exact hstep
          | next st' t' =>
              rw [hflow] at hstep
              exact ih hstep

/-- **`send_php_fpm`**. -/
theorem accounts_sendPhpFpm (script body : Bytes) (fpm : Fpm) :
    Accounts (sendPhpFpm w s req script body fpm) := by
  have hpage : ∀ {status}, IsInt status → Accounts (sendErrorPage w s status req) :=
    accounts_sendErrorPage
  have hfailed : Accounts (backendError w s req 502) := accounts_backendError (by decide)
  refine .ite (fun _ => hfailed) fun _ => .ite (fun _ => hfailed) fun _ =>
    .ite (fun _ => hpage (by decide)) fun _ => .ite (fun _ => hpage (by decide)) fun _ => ?_
  cases fcgiParams w.client s req script with
  | none => exact hpage (by decide)
  | some params =>
      refine .ite (fun _ => hfailed) fun _ => .ite (fun _ => hpage (by decide)) fun _ =>
        .ite (fun _ => hfailed) fun _ t ht => ?_
      exact returns_phpLoop ⟨by decide, ht, fun h => Bool.noConfusion h⟩

/-! ### Proxied requests -/

/-- Bytes that `serve_proxy` passes on; they are no head of the server. -/
theorem yields_passOn {next : RelayState → Trace → Trace × ℤ} {st : RelayState}
    (hint : IsInt st.status)
    (h : ∀ st', st'.status = st.status → Yields Headless (next st') Logged AtMostOne)
    (tunnelled bytes : Bytes) :
    Yields Headless (passOn w s req tunnelled bytes st next) Logged AtMostOne := by
  refine yields_andThen (yields_body blind_headless w.peer bytes) ?_ fun _ h =>
    Unlogged.atMostOne h.1
  refine .ite (fun _ => ?_) fun _ => h _ rfl
  have hdone : ∀ code : ℤ, Yields Headless (fun t => relayDone
      { st with bytes := st.bytes + bytes.length, first := false } (t, code).1) Logged AtMostOne :=
    fun _ t ht => Or.inl ⟨rfl, (ht.announces st.status).logged hint _⟩
  exact (yields_body blind_headless w.peer tunnelled).bind (k := fun r => relayDone
    { st with bytes := st.bytes + bytes.length, first := false } r.1) (hdone 0) (hdone (-1))

theorem isInt_parseProxyStatusLine {buf : Bytes} (h : parseProxyStatusLine buf = some status) :
    IsInt status := by
  have hdigit : ∀ c : UInt8, digitValue c < 256 := fun c => by
    unfold digitValue
    have := c.toNat_lt
    omega
  unfold parseProxyStatusLine at h
  dsimp only at h
  split_ifs at h
  generalize splitFirst 32 _ = parts at h
  split at h
  · exact absurd h (by simp)
  · rename_i d0 d1 d2 more _
    split_ifs at h
    have h0 := hdigit d0
    have h1 := hdigit d1
    have h2 := hdigit d2
    obtain rfl := Option.some.inj h
    unfold IsInt
    omega
  · exact absurd h (by simp)

theorem yields_relayLoop (ending : BackendEnd) (tunnelled : Bytes) (reads : List UpstreamRead)
    {st : RelayState} (hint : IsInt st.status) :
    Yields Headless (relayLoop w s req ending tunnelled reads st) Logged AtMostOne := by
  have hfailed : ∀ {status}, IsInt status →
      Yields Headless (backendError w s req status) Logged AtMostOne := fun h t ht =>
    accounts_backendError h t ht.1
  induction reads generalizing st with
  | nil =>
      refine .ite (fun _ => hfailed (by cases ending <;> decide)) fun _ =>
        .ite (fun _ => hfailed (by decide)) fun _ t ht => ?_
      exact Or.inl ⟨rfl, (ht.announces st.status).logged hint _⟩
  | cons read reads ih =>
      cases read with
      | interrupted => exact ih hint
      | data bytes ne le =>
          have hnext : ∀ {status}, IsInt status → ∀ st' : RelayState, st'.status = status →
              Yields Headless (relayLoop w s req ending tunnelled reads st') Logged AtMostOne :=
            fun h st' hst' => ih (hst' ▸ h)
          refine .ite (fun _ => .ite (fun _ => hfailed (by decide)) fun _ => ?_) fun _ =>
            yields_passOn hint (hnext hint) tunnelled bytes
          dsimp only
          cases indexOfSub crlf (st.firstResponse ++ bytes) with
          | none => exact hnext hint _ rfl
          | some _ =>
              cases hstatus : parseProxyStatusLine (st.firstResponse ++ bytes) with
              | none => exact hfailed (by decide)
              | some status =>
                  have hread := isInt_parseProxyStatusLine hstatus
                  exact yields_passOn hread (hnext hread) tunnelled _

/-- **`serve_proxy`**. -/
theorem yields_serveProxy (upstream : Upstream) (buf body : Bytes) :
    Yields Headless (serveProxy w s req upstream buf body) Logged AtMostOne := by
  have hfailed : Yields Headless (backendError w s req 502) Logged AtMostOne := fun t ht =>
    accounts_backendError (by decide) t ht.1
  have hpage : ∀ {status}, IsInt status →
      Yields Headless (sendErrorPage w s status req) Logged AtMostOne := fun h t ht =>
    accounts_sendErrorPage h t ht.1
  refine .ite (fun _ => hfailed) fun _ => .ite (fun _ => hpage (by decide)) fun _ => ?_
  cases buildProxyRequest (proxyCapacity req body) w.client s req buf body with
  | none => exact hpage (by decide)
  | some _ => exact .ite (fun _ => hfailed) fun _ => yields_relayLoop _ _ _ (by decide)

/-! ### A request -/

/-- The status of a responder of `serve_static` is an `int`. -/
def StaticResponder.IntStatus : StaticResponder → Prop
  | .sendErrorPage status => IsInt status
  | .sendFileFd status _ _ _ => IsInt status
  | _ => True

theorem intStatus_openFailed (errno : Errno) : (openFailed errno).IntStatus := by
  unfold openFailed StaticResponder.IntStatus
  split_ifs
  · decide
  · decide

theorem intStatus_servePhp (selected : Bytes) : (servePhp s req selected).IntStatus := by
  unfold servePhp
  split_ifs
  · exact (by decide : IsInt 413)
  · trivial

theorem intStatus_servePhpRouting (course : Course) (decoded : Bytes) :
    (servePhpRouting s course req decoded).IntStatus := by
  unfold servePhpRouting
  cases tryOpenStatic course.request s (phpTarget s decoded) with
  | error errno => exact intStatus_openFailed errno
  | ok p =>
      obtain ⟨selected, file⟩ := p
      dsimp only
      split_ifs
      · exact (by decide : IsInt 403)
      · exact (by decide : IsInt 403)
      · exact intStatus_servePhp selected

theorem intStatus_serveFiles (course : Course) (cache : MetaCache) (decoded : Bytes) :
    (serveFiles s course cache req decoded).IntStatus := by
  unfold serveFiles
  cases openRequested s course decoded with
  | error errno => exact intStatus_openFailed errno
  | ok p =>
      obtain ⟨selected, file⟩ := p
      dsimp only
      split_ifs
      · exact (by decide : IsInt 403)
      · exact intStatus_servePhp selected
      · exact (by decide : IsInt 405)
      · exact (by decide : IsInt 403)
      · exact (by decide : IsInt 403)
      · exact (by decide : IsInt 200)

theorem intStatus_staticAnswer (hsite : IsInt s.maintenanceStatus) (course : Course)
    (cache : MetaCache) : (staticAnswer w s course cache req).IntStatus := by
  have hmaintenance : (serveMaintenance w s).IntStatus := by
    unfold serveMaintenance
    generalize (if s.maintenancePage.bytes ≠ [] then w.openPage s.maintenancePage.bytes else none) =
      page
    cases page with
    | none => exact hsite
    | some file =>
        dsimp only
        split_ifs
        · exact hsite
        · exact hsite
  unfold staticAnswer
  split_ifs
  · exact hmaintenance
  · exact (by decide : IsInt 405)
  · cases percentDecodePath req.path pathLen with
    | none => exact (by decide : IsInt 400)
    | some decoded =>
        dsimp only
        unfold serveDecoded
        split_ifs
        · exact (by decide : IsInt 400)
        · exact (by decide : IsInt 403)
        · trivial
        · exact intStatus_servePhpRouting course decoded
        · exact intStatus_serveFiles course cache decoded

theorem accounts_serveStatic (hsite : IsInt s.maintenanceStatus) (course : Course)
    (cache : MetaCache) (fpm : Fpm) (body : Bytes) :
    Accounts (serveStatic w s course cache fpm req body) := by
  have hstatus := @intStatus_staticAnswer (w.under course.variants) s req hsite course cache
  unfold serveStatic
  dsimp only
  cases hanswer : staticAnswer (w.under course.variants) s course cache req with
  | sendErrorPage status =>
      rw [hanswer] at hstatus
      exact accounts_sendErrorPage hstatus
  | sendFileFd status path file cached =>
      rw [hanswer] at hstatus
      exact accounts_sendFileFd hstatus path file cached
  | redirectDirectorySlash => exact accounts_redirectDirectorySlash
  | sendPhpFpm script => exact accounts_sendPhpFpm script body fpm

/-- What a responder of `serve_request` says about its status. -/
def Responder.IntStatus : Responder → Prop
  | .sendText _ status _ => IsInt status
  | .sendRedirect _ status _ => IsInt status
  | .sendErrorPage _ status => IsInt status
  | .sendRateLimited _ _ => True
  | .serveProxy _ => True
  | .serveStatic site => ∀ s ∈ site, IsInt s.maintenanceStatus

theorem isInt_redirectStatus {port : UInt16} {suppress : Bool} {n : ℕ} {location : Bytes}
    (h : buildRedirectLocation s req port suppress n = some (status, location)) : IsInt status := by
  have hcode : ∀ code : RedirectStatus, IsInt code.code := by
    intro code
    cases code <;> decide
  unfold buildRedirectLocation at h
  dsimp only at h
  split_ifs at h
  all_goals
    obtain ⟨rfl, -⟩ := Prod.mk.inj (Option.some.inj h)
    first
    | exact hcode _
    | decide

theorem intStatus_dispatch {cfg : Config} (hsites : ∀ s ∈ cfg.sites, IsInt s.maintenanceStatus)
    (client : Client) (limited : Site → Option ℕ) (req : HttpRequest) :
    (dispatch cfg client limited req).IntStatus := by
  unfold dispatch
  split_ifs
  · exact (by decide : IsInt 405)
  · cases hfound : findSiteForListener cfg req.host client.localPort client.serverIp.bytes with
    | none => exact (by decide : IsInt 404)
    | some site =>
        have hsite := hsites site (mem_of_findSiteForListener hfound)
        dsimp only
        unfold dispatchSite
        split
        · exact (by decide : IsInt 400)
        · cases hredirect : buildRedirectLocation site req client.localPort
            (trustedInternalHttps client req) 1024 with
          | some target => exact isInt_redirectStatus hredirect
          | none =>
              cases limited site with
              | some retryAfter => trivial
              | none =>
                  dsimp only
                  split_ifs
                  · exact (by decide : IsInt 405)
                  · trivial
                  · intro s hs
                    rw [← Option.mem_some.mp hs]
                    exact hsite

/-- **`serve_request`**: what is answered is logged once, and what is not once at most. -/
theorem yields_serveRequest {cfg : Config} (hsites : ∀ s ∈ cfg.sites, IsInt s.maintenanceStatus)
    (s : Serving) (req : HttpRequest) (buf body : Bytes) :
    Yields Headless (serveRequest cfg s req buf body) Logged AtMostOne := by
  have hnothing : Yields Headless (fun t => (t, -1)) Logged AtMostOne := .fail fun _ h =>
    Unlogged.atMostOne h.1
  have hof : ∀ {f}, Accounts f → Yields Headless f Logged AtMostOne := fun h t ht => h t ht.1
  have hstatus := intStatus_dispatch hsites s.w.client s.limited req
  unfold serveRequest
  cases hresponder : dispatch cfg s.w.client s.limited req with
  | sendText site status text =>
      rw [hresponder] at hstatus
      exact hof (accounts_sendText site hstatus text)
  | sendRedirect site status location =>
      rw [hresponder] at hstatus
      cases site with
      | none => exact hnothing
      | some site => exact hof (accounts_sendRedirect hstatus location)
  | sendRateLimited site retryAfter =>
      cases site with
      | none => exact hnothing
      | some site => exact hof (accounts_sendRateLimited retryAfter)
  | sendErrorPage site status =>
      rw [hresponder] at hstatus
      cases site with
      | none => exact hnothing
      | some site => exact hof (accounts_sendErrorPage hstatus)
  | serveProxy site =>
      cases site with
      | none => exact hnothing
      | some site => exact yields_serveProxy s.upstream buf body
  | serveStatic site =>
      rw [hresponder] at hstatus
      cases site with
      | none => exact hnothing
      | some site => exact hof (accounts_serveStatic (hstatus site rfl) s.course s.cache s.fpm body)

end Rpsiod

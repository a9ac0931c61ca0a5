import Rpsiod.Server.ServeRequest

/-!
# The first head of an answer (`server.c`)

Every responder without a relayed response builds one head before it writes anything.  A `HeadPlan`
is that head, with what has to fit besides; the plans follow the branches of the responders.

* `Opens`: a responder starts with its plan: the head goes out first, or nothing is written at all
  and the responder fails.
* `opens_sendFileFd`, `opens_sendErrorPage`, `opens_redirectDirectorySlash`: **each responder starts
  with its plan**, whatever the client takes.
-/

namespace Rpsiod

open ListSearch Crlf FastCgi

/-! ### Plans -/

/-- The head that is built first. -/
structure HeadPlan where
  status : ℤ
  fields : List Field
  /-- A text that is written into a buffer before the head fits. -/
  room : Bool := true
  /-- The responder sees its backend fail first. -/
  failed : Bool := false

/-- The length of the head: the status line, a line for each field, and the line ends. -/
def HeadPlan.size (p : HeadPlan) : ℕ :=
  (statusLine p.status).length + 4 + (p.fields.map fun f => f.1.length + f.2.length + 4).sum

/-- The head and the text in front of it fit their buffers. -/
def HeadPlan.Fits (p : HeadPlan) : Prop := p.room = true ∧ p.size < responseHeadLen

instance (p : HeadPlan) : Decidable p.Fits := inferInstanceAs (Decidable (_ ∧ _))

/-- The head, if there is room. -/
def HeadPlan.head (p : HeadPlan) : Option Bytes :=
  if p.room then fitting responseHeadLen (headOf p.status p.fields) else none

/-- What happens before the head is built. -/
def HeadPlan.before (p : HeadPlan) : Trace := if p.failed then [.backendFailed] else []

theorem length_unlines_fields (fields : List Field) :
    (unlines (fields.map fieldText)).length =
      (fields.map fun f => f.1.length + f.2.length + 4).sum := by
  induction fields with
  | nil => rfl
  | cons f fields ih =>
      have hline : (fieldText f ++ crlf).length = f.1.length + f.2.length + 4 := by
        unfold fieldText headerText
        simp only [List.length_append]
        have hcolon : (ascii ": ").length = 2 := rfl
        have hend : crlf.length = 2 := rfl
        omega
      rw [List.map_cons, unlines_cons, List.length_append, hline, ih, List.map_cons,
        List.sum_cons]

theorem HeadPlan.length_head (p : HeadPlan) : (headOf p.status p.fields).length = p.size := by
  have hend : crlf.length = 2 := rfl
  unfold headOf HeadPlan.size
  rw [unlines_cons]
  simp only [List.length_append, length_unlines_fields]
  omega

theorem HeadPlan.head_eq (p : HeadPlan) :
    p.head = if p.Fits then some (headOf p.status p.fields) else none := by
  unfold HeadPlan.head HeadPlan.Fits fitting
  rw [p.length_head]
  by_cases hroom : p.room = true
  · simp [hroom]
  · simp [hroom]

theorem HeadPlan.before_eq {p : HeadPlan} (hp : p.failed = false) : p.before = [] := by
  unfold HeadPlan.before
  rw [hp]
  rfl

theorem HeadPlan.written_before (p : HeadPlan) : written p.before = [] := by
  unfold HeadPlan.before
  split_ifs
  · rfl
  · rfl

/-- What the client takes of a head at this point. -/
def Peer.takes (peer : Peer) (t : Trace) (head : Bytes) : Bytes :=
  match peer.refuses t.length with
  | none => head
  | some n => head.take n

/-- The history only grows. -/
def Extends (f : Trace → Trace × ℤ) : Prop := ∀ t, t <+: (f t).1

/-- Behind this history the head goes out first, or nothing is written and -1 is returned. -/
def StartsWith (peer : Peer) (p : HeadPlan) (t : Trace) (r : Trace × ℤ) : Prop :=
  match p.head with
  | some head => t ++ p.before ++ [.head (peer.takes (t ++ p.before) head)] <+: r.1
  | none => r.2 = -1 ∧ ∃ more, r.1 = t ++ p.before ++ more ∧ ∀ e ∈ more, e.isWrite = false

/-- The responder starts with this plan, whatever the history. -/
structure Opens (peer : Peer) (p : HeadPlan) (f : Trace → Trace × ℤ) : Prop where
  start : ∀ t, StartsWith peer p t (f t)

/-! ### Steps -/

section steps

variable {peer : Peer} {p : HeadPlan} {f g : Trace → Trace × ℤ}

theorem Extends.skip {rc : ℤ} : Extends fun t => (t, rc) := fun _ => List.prefix_rfl

theorem Extends.bind {g : Trace × ℤ → Trace × ℤ} (hf : Extends f)
    (hg : ∀ rc, Extends fun t => g (t, rc)) : Extends fun t => g (f t) := fun t =>
  (hf t).trans (hg (f t).2 (f t).1)

theorem Extends.ite {c : Prop} [Decidable c] (hf : c → Extends f) (hg : ¬c → Extends g) :
    Extends fun t => if c then f t else g t := by
  intro t
  dsimp only
  split_ifs with h
  · exact hf h t
  · exact hg h t

theorem Extends.andThen (hf : Extends f) (hg : Extends g) :
    Extends fun t => andThen (f t) g := by
  refine hf.bind (g := fun r => Rpsiod.andThen r g) fun rc => ?_
  show Extends fun t => if rc < 0 then (t, -1) else g t
  exact .ite (fun _ => .skip) fun _ => hg

theorem extends_log (status : ℤ) (bytes : ℕ) (rc : ℤ) :
    Extends fun t => (logAccess status bytes t, rc) := fun _ => List.prefix_append _ _

theorem extends_write (kind : Bytes → Event) (buf : Bytes) :
    Extends (clientWriteAll peer kind buf) := by
  intro t
  unfold clientWriteAll
  split_ifs
  · exact List.prefix_rfl
  · cases peer.refuses t.length with
    | none => exact List.prefix_append _ _
    | some n => exact List.prefix_append _ _

theorem extends_writeEach (iov : List ((Bytes → Event) × Bytes)) :
    Extends (writeEach peer iov) := by
  induction iov with
  | nil => exact .skip
  | cons v iov ih => exact (extends_write v.1 v.2).andThen ih

theorem extends_writev (tls : Bool) (iov : List ((Bytes → Event) × Bytes)) :
    Extends (clientWritevAll peer tls iov) :=
  Extends.ite (fun _ => .skip) fun _ => extends_writeEach iov

theorem startsWith_some {head : Bytes} (h : p.head = some head) {t : Trace} {r : Trace × ℤ} :
    StartsWith peer p t r ↔
      t ++ p.before ++ [.head (peer.takes (t ++ p.before) head)] <+: r.1 := by
  unfold StartsWith
  rw [h]

theorem startsWith_none (h : p.head = none) {t : Trace} {r : Trace × ℤ} :
    StartsWith peer p t r ↔
      r.2 = -1 ∧ ∃ more, r.1 = t ++ p.before ++ more ∧ ∀ e ∈ more, e.isWrite = false := by
  unfold StartsWith
  rw [h]

theorem Opens.congr (h : Opens peer p g) (hfg : ∀ t, f t = g t) : Opens peer p f :=
  ⟨fun t => hfg t ▸ h.start t⟩

theorem Opens.extends (h : Opens peer p f) : Extends f := by
  intro t
  have ht := h.start t
  cases hhead : p.head with
  | some head =>
      rw [startsWith_some hhead] at ht
      exact ((List.prefix_append _ _).trans (List.prefix_append _ _)).trans ht
  | none =>
      rw [startsWith_none hhead] at ht
      obtain ⟨-, more, hmore, -⟩ := ht
      rw [hmore, List.append_assoc]
      exact List.prefix_append _ _

/-- What comes behind does not change the start. -/
theorem Opens.andThen (hf : Opens peer p f) (hg : Extends g) :
    Opens peer p fun t => andThen (f t) g := by
  refine ⟨fun t => ?_⟩
  have ht := hf.start t
  unfold Rpsiod.andThen
  cases hhead : p.head with
  | some head =>
      rw [startsWith_some hhead] at ht ⊢
      split_ifs
      · exact ht
      · exact ht.trans (hg (f t).1)
  | none =>
      rw [startsWith_none hhead] at ht ⊢
      rw [ht.1, if_pos (by decide)]
      exact ⟨rfl, ht.2⟩

/-- What follows a head does not change it. -/
theorem Opens.extend {head : Bytes} (hf : Opens peer p f) (hhead : p.head = some head)
    (h : ∀ t, (f t).1 <+: (g t).1) : Opens peer p g := by
  refine ⟨fun t => ?_⟩
  have ht := hf.start t
  rw [startsWith_some hhead] at ht ⊢
  exact ht.trans (h t)

/-- Something follows in case of success. -/
theorem Opens.onSuccess {more : Bool} (hf : Opens peer p f) (hg : Extends g) :
    Opens peer p fun t => if (f t).2 = 0 && more then g (f t).1 else f t := by
  refine ⟨fun t => ?_⟩
  have ht := hf.start t
  split_ifs with hmore
  · rw [Bool.and_eq_true, decide_eq_true_eq] at hmore
    cases hhead : p.head with
    | some head =>
        rw [startsWith_some hhead] at ht ⊢
        exact ht.trans (hg (f t).1)
    | none =>
        rw [startsWith_none hhead, hmore.1] at ht
        exact absurd ht.1 (by decide)
  · exact ht

/-- A log entry behind it does not count. -/
theorem Opens.log (hf : Opens peer p f) (status : ℤ) (bytes : ℕ) :
    Opens peer p fun t => (logAccess status bytes (f t).1, (f t).2) := by
  refine ⟨fun t => ?_⟩
  have ht := hf.start t
  cases hhead : p.head with
  | some head =>
      rw [startsWith_some hhead] at ht ⊢
      exact ht.trans (List.prefix_append _ _)
  | none =>
      rw [startsWith_none hhead] at ht ⊢
      obtain ⟨hrc, more, hmore, hquiet⟩ := ht
      refine ⟨hrc, more ++ [.logged status bytes], ?_, fun e he => ?_⟩
      · dsimp only [logAccess]
        rw [hmore, List.append_assoc]
      · rcases List.mem_append.mp he with he | he
        · exact hquiet e he
        · rw [List.mem_singleton.mp he]
          rfl

/-- The backend is seen to fail first. -/
theorem Opens.failed (hf : Opens peer p f) (hp : p.failed = false) :
    Opens peer { p with failed := true } fun t => f (t ++ [.backendFailed]) := by
  refine ⟨fun t => ?_⟩
  have ht := hf.start (t ++ [.backendFailed])
  unfold StartsWith at ht
  rw [HeadPlan.before_eq hp, List.append_nil] at ht
  exact ht

/-- A head that does not fit is not written. -/
theorem opens_none (hp : p.failed = false) (h : p.head = none) :
    Opens peer p fun t => (t, -1) := by
  refine ⟨fun t => ?_⟩
  rw [startsWith_none h]
  refine ⟨rfl, [], ?_, nofun⟩
  rw [HeadPlan.before_eq hp, List.append_nil, List.append_nil]

theorem opens_some {head : Bytes} (hp : p.failed = false) (h : p.head = some head)
    (hne : head ≠ []) : Opens peer p (clientWriteAll peer .head head) := by
  refine ⟨fun t => ?_⟩
  rw [startsWith_some h, HeadPlan.before_eq hp, List.append_nil]
  unfold clientWriteAll Peer.takes
  rw [if_neg hne]
  cases peer.refuses t.length with
  | none => exact List.prefix_rfl
  | some n => exact List.prefix_rfl

end steps

/-! ### Texts -/

/-- The plan for these arguments of `build_response_headers`. -/
def World.plan (w : World) (status : ℤ) (contentType : Bytes) (contentLength : Option ℕ)
    (keepAlive : Bool) (opts : ResponseOptions) : HeadPlan where
  status := status
  fields := responseFields w.host w.client contentType contentLength keepAlive opts

section plans

variable (w : World) (site : Site) (req : HttpRequest)

/-- `send_text`, `send_rate_limited` and `send_redirect` behind their buffers. -/
def shortPlan (status : ℤ) (text : Bytes) (opts : ResponseOptions) : HeadPlan :=
  w.plan status plainText (some text.length) req.keepAlive opts

/-- `send_text`. -/
def textPlan (site : Option Site) (status : ℤ) (text : Bytes) : HeadPlan :=
  shortPlan w req status text { site := site }

/-- `send_redirect`: its text has a buffer of 1024 bytes. -/
def redirectPlan (status : ℤ) (location : Bytes) : HeadPlan :=
  { shortPlan w req status (redirectText status location)
      { site := some site, location := some location } with
    room := (redirectText status location).length < 1024 }

/-- `send_rate_limited`. -/
def rateLimitedPlan (retryAfter : ℕ) : HeadPlan :=
  shortPlan w req 429 (ascii "429 Too Many Requests\n")
    { site := some site
      retryAfter := some (decimal (if 0 < retryAfter then retryAfter else 1)) }

/-! ### Files -/

/-- A request with a range. -/
def rangePlan (mime : Bytes) (etag : Option Bytes) (file : OpenFile) : HeadPlan :=
  match requestedRange req file.stat.size with
  | none =>
      w.plan 416 plainText (some 0) req.keepAlive
        { site := some site
          contentRange := some (ascii "bytes */" ++ decimal file.stat.size)
          etag := etag
          fileStat := some file.stat
          acceptRanges := true }
  | some (start, stop) =>
      w.plan 206 mime (some (stop + 1 - start)) req.keepAlive
        { site := some site
          contentRange := some (ascii "bytes " ++ decimal start ++ ascii "-" ++ decimal stop ++
            ascii "/" ++ decimal file.stat.size)
          etag := etag
          fileStat := some file.stat
          cacheControl := true
          acceptRanges := true }

/-- A variant, the compressed file, or the file as it is. -/
def contentPlan (status : ℤ) (mime path : Bytes) (etag : Option Bytes) (file : OpenFile)
    (cached : Option StaticMeta) : HeadPlan :=
  let use := usableEncodings w site status mime path file.stat req
  match openVariant w site (fileVariants cached path use.1 use.2) with
  | some (variant, encoding) =>
      w.plan status mime (some variant.stat.size) req.keepAlive
        (encodedOptions site encoding etag file.stat)
  | none =>
      match if use.1 || use.2 then compressFile w use.1 use.2 file else none with
      | some (compressed, encoding) =>
          w.plan status mime (some compressed.length) req.keepAlive
            (encodedOptions site encoding etag file.stat)
      | none =>
          w.plan status mime (some file.stat.size) req.keepAlive
            (wholeFileOptions site status etag file.stat)

/-- `send_file_fd`. -/
def filePlan (status : ℤ) (path : Bytes) (file : OpenFile) (cached : Option StaticMeta) :
    HeadPlan :=
  if status = 200 && !req.rangePresent &&
      requestCacheValidatorMatches w req file.stat (servedEtag cached) then
    w.plan 304 (servedMime cached path) (some 0) req.keepAlive
      (notModifiedOptions site (servedEtag cached) file.stat)
  else if status = 200 && req.rangePresent then
    rangePlan w site req (servedMime cached path) (servedEtag cached) file
  else
    contentPlan w site req status (servedMime cached path) path (servedEtag cached) file cached

/-- `send_error_page`. -/
def errorPagePlan (status : ℤ) : HeadPlan :=
  match openErrorPage w site status with
  | some (page, file) => filePlan w site req status page file none
  | none => textPlan w req (some site) status (errorText status)

/-- `redirect_directory_slash`. -/
def directorySlashPlan : HeadPlan :=
  let path := req.path.takeWhile (· ≠ 63)
  let query := req.path.dropWhile (· ≠ 63)
  if pathLen + 2 ≤ path.length + 1 then errorPagePlan w site req 414
  else if query ≠ [] && pathLen + 2 ≤ path.length + 1 + query.length then
    errorPagePlan w site req 414
  else redirectPlan w site req 301 (path ++ ascii "/" ++ query)

/-- The error page for a failed backend. -/
def backendErrorPlan (status : ℤ) : HeadPlan :=
  { errorPagePlan w site req status with failed := true }

end plans

variable {w : World} {site : Site} {req : HttpRequest}

theorem World.plan_head (status : ℤ) (contentType : Bytes) (contentLength : Option ℕ)
    (keepAlive : Bool) (opts : ResponseOptions) :
    (w.plan status contentType contentLength keepAlive opts).head =
      buildResponseHeaders w.host w.client status contentType contentLength keepAlive opts
        responseHeadLen := (buildResponseHeaders_eq ..).symm

/-- **`write_response_headers`** starts with its plan. -/
theorem opens_writeHead (status : ℤ) (contentType : Bytes) (contentLength : Option ℕ)
    (keepAlive : Bool) (opts : ResponseOptions) :
    Opens w.peer (w.plan status contentType contentLength keepAlive opts)
      (w.writeHead status contentType contentLength keepAlive opts) := by
  have hhead := @World.plan_head w status contentType contentLength keepAlive opts
  unfold World.writeHead writeResponseHeaders
  cases hbuilt : buildResponseHeaders w.host w.client status contentType contentLength keepAlive
      opts responseHeadLen with
  | none => exact opens_none rfl (hhead.trans hbuilt)
  | some head => exact opens_some rfl (hhead.trans hbuilt) (ne_nil_of_build hbuilt)

/-- A head, a body that is not sent for HEAD, and the log. -/
theorem opens_headThenBody {status : ℤ} {contentType : Bytes} {contentLength : Option ℕ}
    {opts : ResponseOptions} {f : Trace → Trace × ℤ} (hf : Extends f) (bytes : ℕ) :
    Opens w.peer (w.plan status contentType contentLength req.keepAlive opts) fun t =>
      andThen (w.writeHead status contentType contentLength req.keepAlive opts t) fun t =>
      andThen (if req.headOnly then (t, 0) else f t) fun t => (logAccess status bytes t, 0) :=
  (opens_writeHead ..).andThen
    ((Extends.ite (fun _ => .skip) fun _ => hf).andThen (extends_log status bytes 0))

theorem opens_sendShort (status : ℤ) (text : Bytes) (opts : ResponseOptions) :
    Opens w.peer (shortPlan w req status text opts) (sendShort w status text opts req) :=
  opens_headThenBody (extends_writev _ _) text.length

theorem opens_sendText (site : Option Site) (status : ℤ) (text : Bytes) :
    Opens w.peer (textPlan w req site status text) (sendText w site status text req) :=
  opens_sendShort status text _

theorem opens_sendRedirect (status : ℤ) (location : Bytes) :
    Opens w.peer (redirectPlan w site req status location)
      (sendRedirect w site status location req) := by
  set text := redirectText status location with htext
  have hredirect : ∀ t, sendRedirect w site status location req t =
      if 1024 ≤ text.length then (t, -1)
      else sendShort w status text { site := some site, location := some location } req t :=
    fun t => rfl
  by_cases hlong : 1024 ≤ text.length
  · have hroom : (redirectPlan w site req status location).room = false :=
      decide_eq_false (not_lt.mpr hlong)
    have hnone : (redirectPlan w site req status location).head = none := by
      unfold HeadPlan.head
      rw [hroom]
      rfl
    refine (opens_none rfl hnone).congr fun t => ?_
    rw [hredirect, if_pos hlong]
  · have hsame : redirectPlan w site req status location =
        shortPlan w req status text { site := some site, location := some location } := by
      unfold redirectPlan
      rw [← htext, decide_eq_true (not_le.mp hlong)]
      rfl
    rw [hsame]
    refine (opens_sendShort status text _).congr fun t => ?_
    rw [hredirect, if_neg hlong]

theorem opens_sendRateLimited (retryAfter : ℕ) :
    Opens w.peer (rateLimitedPlan w site req retryAfter) (sendRateLimited w site retryAfter req) :=
  opens_sendShort ..

/-! ### Answers with a file -/

theorem opens_sendHeadOnly (status : ℤ) (contentType : Bytes) (opts : ResponseOptions) :
    Opens w.peer (w.plan status contentType (some 0) req.keepAlive opts)
      (sendHeadOnly w status contentType opts req) :=
  (opens_writeHead ..).log status 0

theorem extends_sendFileBody (content : Bytes) (offset length : ℕ) :
    Extends (sendFileBody w content offset length) :=
  Extends.ite (fun _ => .skip) fun _ => (extends_write .body _).andThen .skip

theorem opens_sendFileRange (mime : Bytes) (etag : Option Bytes) (file : OpenFile) :
    Opens w.peer (rangePlan w site req mime etag file)
      (sendFileRange w site mime etag file req) := by
  unfold rangePlan sendFileRange
  dsimp only
  cases requestedRange req file.stat.size with
  | none => exact opens_sendHeadOnly ..
  | some range => exact opens_headThenBody (extends_sendFileBody _ _ _) _

theorem opens_sendEncoded {body : Trace → Trace × ℤ} (hbody : Extends body) (status : ℤ)
    (mime : Bytes) (length : ℕ) (opts : ResponseOptions) :
    Opens w.peer (w.plan status mime (some length) req.keepAlive opts)
      (sendEncoded w status mime length opts req body) :=
  ((opens_writeHead ..).onSuccess hbody).log status length

theorem opens_sendPlainFile (status : ℤ) (mime : Bytes) (file : OpenFile)
    (opts : ResponseOptions) :
    Opens w.peer (w.plan status mime (some file.stat.size) req.keepAlive opts)
      (sendPlainFile w status mime file opts req) :=
  opens_headThenBody (extends_sendFileBody _ _ _) file.stat.size

/-- The attempt gives up before it writes, or it starts with the same head. -/
theorem trySmallFile_cases (status : ℤ) (mime : Bytes) (file : OpenFile)
    (opts : ResponseOptions) :
    (∀ t, trySmallFile w status mime file opts req t = (t, -1)) ∨
      ∃ head, (w.plan status mime (some file.stat.size) req.keepAlive opts).head = some head ∧
        Opens w.peer (w.plan status mime (some file.stat.size) req.keepAlive opts)
          (trySmallFile w status mime file opts req) := by
  have hhead := @World.plan_head w status mime (some file.stat.size) req.keepAlive opts
  unfold trySmallFile writeSmallFileResponse
  by_cases hsmall : (!req.headOnly && decide (file.stat.size ≤ smallFileWritevMax)) = true
  · have hsize : ¬ smallFileWritevMax < file.stat.size := by
      rw [Bool.and_eq_true, decide_eq_true_eq] at hsmall
      exact not_lt.mpr hsmall.2
    simp only [if_pos hsmall, if_neg hsize]
    cases hbuilt : buildResponseHeaders w.host w.client status mime (some file.stat.size)
        req.keepAlive opts responseHeadLen with
    | none => exact Or.inl fun t => rfl
    | some head =>
        by_cases hshort : (file.content.take file.stat.size).length ≠ file.stat.size
        · exact Or.inl fun t => if_pos hshort
        · have hne := ne_nil_of_build hbuilt
          have hwrite := (@opens_some w.peer _ _ rfl (hhead.trans hbuilt) hne).andThen
            (@extends_writeEach w.peer [(.body, file.content.take file.stat.size)])
          refine Or.inr ⟨head, hhead.trans hbuilt, hwrite.congr fun t => ?_⟩
          dsimp only
          rw [if_neg hshort]
          exact if_neg (by simp [hne])
  · exact Or.inl fun t => if_neg hsmall

theorem opens_sendWholeFile (status : ℤ) (mime : Bytes) (etag : Option Bytes) (file : OpenFile) :
    Opens w.peer
      (w.plan status mime (some file.stat.size) req.keepAlive
        (wholeFileOptions site status etag file.stat))
      (sendWholeFile w site status mime etag file req) := by
  have hplain := @opens_sendPlainFile w req status mime file
    (wholeFileOptions site status etag file.stat)
  rcases @trySmallFile_cases w req status mime file (wholeFileOptions site status etag file.stat)
    with hgives | ⟨head, hhead, hsmall⟩
  · refine hplain.congr fun t => ?_
    unfold sendWholeFile
    dsimp only
    rw [hgives]
    exact if_neg (by decide : ¬ (-1 : ℤ) = 0)
  · refine hsmall.extend hhead fun t => ?_
    unfold sendWholeFile
    dsimp only
    split_ifs
    · exact List.prefix_append _ _
    · exact hplain.extends _

theorem opens_sendFileContent (status : ℤ) (mime path : Bytes) (etag : Option Bytes)
    (file : OpenFile) (cached : Option StaticMeta) :
    Opens w.peer (contentPlan w site req status mime path etag file cached)
      (sendFileContent w site status mime path etag file cached req) := by
  unfold contentPlan sendFileContent
  dsimp only
  set use := usableEncodings w site status mime path file.stat req
  cases openVariant w site (fileVariants cached path use.1 use.2) with
  | some v => exact opens_sendEncoded (extends_sendFileBody _ _ _) ..
  | none =>
      cases if use.1 || use.2 then compressFile w use.1 use.2 file else none with
      | some c => exact opens_sendEncoded (extends_write _ _) ..
      | none => exact opens_sendWholeFile ..

/-- **`send_file_fd`**. -/
theorem opens_sendFileFd (status : ℤ) (path : Bytes) (file : OpenFile)
    (cached : Option StaticMeta) :
    Opens w.peer (filePlan w site req status path file cached)
      (sendFileFd w site status path file cached req) := by
  unfold filePlan sendFileFd
  split_ifs
  · exact opens_sendHeadOnly ..
  · exact opens_sendFileRange ..
  · exact opens_sendFileContent ..

/-- **`send_error_page`**. -/
theorem opens_sendErrorPage (status : ℤ) :
    Opens w.peer (errorPagePlan w site req status) (sendErrorPage w site status req) := by
  unfold errorPagePlan sendErrorPage
  cases openErrorPage w site status with
  | some page => exact opens_sendFileFd ..
  | none => exact opens_sendText ..

theorem opens_redirectDirectorySlash :
    Opens w.peer (directorySlashPlan w site req) (redirectDirectorySlash w site req) := by
  unfold directorySlashPlan redirectDirectorySlash
  dsimp only
  split_ifs
  · exact opens_sendErrorPage 414
  · exact opens_sendErrorPage 414
  · exact opens_sendRedirect ..

/-- No plan of a file or an error page has a failed backend in front. -/
theorem failed_filePlan (status : ℤ) (path : Bytes) (file : OpenFile)
    (cached : Option StaticMeta) : (filePlan w site req status path file cached).failed = false := by
  unfold filePlan rangePlan contentPlan
  split_ifs
  · rfl
  · cases requestedRange req file.stat.size with
    | none => rfl
    | some range => rfl
  · dsimp only
    split
    · rfl
    · split
      · rfl
      · rfl

theorem failed_errorPagePlan (status : ℤ) : (errorPagePlan w site req status).failed = false := by
  unfold errorPagePlan
  cases openErrorPage w site status with
  | some page => exact failed_filePlan ..
  | none => rfl

theorem opens_backendError (status : ℤ) :
    Opens w.peer (backendErrorPlan w site req status) (backendError w site req status) :=
  (opens_sendErrorPage status).failed (failed_errorPagePlan status)

end Rpsiod

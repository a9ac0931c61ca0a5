import Rpsiod.Server.Responders

/-!
# The reply of a responder

A responder without a backend either sends nothing but a log entry and fails, or it sends one head
first and then body bytes only; if it returns 0, the bytes of the body are as many as the
`Content-Length` of the head promises, none to a HEAD request.  `Reply` says so about what is added
to the history, and there is one lemma for each responder.

The client takes everything here: after a refused write `sendWholeFile` may start a second head.
-/

namespace Rpsiod

open ListSearch Crlf

/-! ### Texts on one line -/

/-- The texts that go into the fields of a response are lines. -/
structure OneLine (contentType : Bytes) (opts : ResponseOptions) : Prop where
  contentType : 10 ∉ contentType
  contentEncoding : ∀ v ∈ opts.contentEncoding, 10 ∉ v
  location : ∀ v ∈ opts.location, 10 ∉ v
  contentRange : ∀ v ∈ opts.contentRange, 10 ∉ v
  retryAfter : ∀ v ∈ opts.retryAfter, 10 ∉ v
  etag : ∀ v ∈ opts.etag, 10 ∉ v

/-! ### Replies -/

/-- What a responder adds to the history, and what it returns: `statuses` are the pairs of a
status and a length it may announce. -/
inductive Reply (w : World) (site : Option Site) (req : HttpRequest) (statuses : ℤ → ℕ → Prop) :
    Trace → ℤ → Prop
  | unsent {ev : Trace} {rc : ℤ} (failed : rc ≠ 0) (quiet : ∀ e ∈ ev, e.isWrite = false)
      (backend : .backendFailed ∉ ev) : Reply w site req statuses ev rc
  | sent {rest : Trace} {rc : ℤ} (status : ℤ) (contentType : Bytes) (length : ℕ)
      (opts : ResponseOptions) (head : Bytes)
      (site_eq : opts.site = site) (allowed : statuses status length)
      (oneLine : OneLine contentType opts)
      (built : buildResponseHeaders w.host w.client status contentType (some length)
        req.keepAlive opts responseHeadLen = some head)
      (tail : Tail rest)
      (body : rc = 0 → (written rest).length = if req.headOnly then 0 else length) :
      Reply w site req statuses (.head head :: rest) rc

/-- Whatever the history, this is what is added to it. -/
def Replies (w : World) (site : Option Site) (req : HttpRequest) (statuses : ℤ → ℕ → Prop)
    (f : Trace → Trace × ℤ) : Prop :=
  ∃ ev rc, (∀ t, f t = (t ++ ev, rc)) ∧ Reply w site req statuses ev rc

/-- Body bytes, `n` of them unless there is an error. -/
def SendsBody (n : ℕ) (f : Trace → Trace × ℤ) : Prop :=
  ∃ ev rc, (∀ t, f t = (t ++ ev, rc)) ∧ Tail ev ∧
    (rc = 0 ∧ (written ev).length = n ∨ rc = -1)

variable {w : World} {site : Option Site} {req : HttpRequest}

theorem Replies.congr {S : ℤ → ℕ → Prop} {f g : Trace → Trace × ℤ} (h : Replies w site req S g)
    (hfg : ∀ t, f t = g t) : Replies w site req S f := by
  obtain ⟨ev, rc, hg, hreply⟩ := h
  exact ⟨ev, rc, fun t => (hfg t).trans (hg t), hreply⟩

/-- A head is not empty. -/
theorem ne_nil_of_build {host : Host} {client : Client} {status : ℤ} {contentType : Bytes}
    {contentLength : Option ℕ} {keepAlive : Bool} {opts : ResponseOptions} {n : ℕ} {head : Bytes}
    (h : buildResponseHeaders host client status contentType contentLength keepAlive opts n =
      some head) : head ≠ [] := by
  rw [buildResponseHeaders_eq] at h
  unfold fitting at h
  split_ifs at h
  rw [Option.some.injEq] at h
  rw [← h]
  unfold headOf
  exact List.append_ne_nil_of_right_ne_nil _ (List.cons_ne_nil _ _)

/-- A head that fits is written. -/
theorem writeHead_of_build (hpeer : w.peer = .willing) {status : ℤ} {contentType : Bytes}
    {contentLength : Option ℕ} {keepAlive : Bool} {opts : ResponseOptions} {head : Bytes}
    (h : buildResponseHeaders w.host w.client status contentType contentLength keepAlive opts
      responseHeadLen = some head) (t : Trace) :
    w.writeHead status contentType contentLength keepAlive opts t = (t ++ [.head head], 0) := by
  unfold World.writeHead writeResponseHeaders
  rw [h]
  show clientWriteAll w.peer .head head t = _
  rw [hpeer, clientWriteAll_willing, writeOf_of_ne (ne_nil_of_build h)]

/-- A head that does not fit is not. -/
theorem writeHead_of_none {status : ℤ} {contentType : Bytes} {contentLength : Option ℕ}
    {keepAlive : Bool} {opts : ResponseOptions}
    (h : buildResponseHeaders w.host w.client status contentType contentLength keepAlive opts
      responseHeadLen = none) (t : Trace) :
    w.writeHead status contentType contentLength keepAlive opts t = (t, -1) := by
  unfold World.writeHead writeResponseHeaders
  rw [h]

/-- No body for a HEAD request. -/
theorem SendsBody.unlessHead {n : ℕ} {f : Trace → Trace × ℤ} (h : SendsBody n f) :
    SendsBody (if req.headOnly then 0 else n) fun t => if req.headOnly then (t, 0) else f t := by
  cases hhead : req.headOnly with
  | false => exact h
  | true =>
      refine ⟨[], 0, fun t => ?_, nofun, Or.inl ⟨rfl, rfl⟩⟩
      simp

theorem tail_logged {ev : Trace} (h : Tail ev) (status : ℤ) (bytes : ℕ) :
    Tail (ev ++ [.logged status bytes]) := h.append (tail_singleton rfl)

/-- A head, then a body, then the log, with a return after each error. -/
theorem replies_headThenBody (hpeer : w.peer = .willing) {status : ℤ} {contentType : Bytes}
    {length : ℕ} {opts : ResponseOptions} (hline : OneLine contentType opts)
    {body : Trace → Trace × ℤ} (hbody : SendsBody length body) (logged : ℕ) :
    Replies w opts.site req (fun s n => s = status ∧ n = length) fun t =>
      andThen (w.writeHead status contentType (some length) req.keepAlive opts t) fun t =>
      andThen (if req.headOnly then (t, 0) else body t) fun t =>
        (logAccess status logged t, 0) := by
  cases hbuild : buildResponseHeaders w.host w.client status contentType (some length)
      req.keepAlive opts responseHeadLen with
  | none =>
      refine ⟨[], -1, fun t => ?_, .unsent (by decide) nofun List.not_mem_nil⟩
      simp only [writeHead_of_none hbuild, andThen_neg, List.append_nil]
  | some head =>
      obtain ⟨ev, rc, hev, hbodies, hend⟩ := @SendsBody.unlessHead req _ _ hbody
      simp only [writeHead_of_build hpeer hbuild, andThen_zero, hev]
      rcases hend with ⟨rfl, hlength⟩ | rfl
      · refine ⟨.head head :: (ev ++ [.logged status logged]), 0, fun t => ?_, ?_⟩
        · simp only [andThen_zero, logAccess, List.append_assoc, List.singleton_append]
          rfl
        · refine .sent status contentType length opts head rfl ⟨rfl, rfl⟩ hline hbuild
            (tail_logged hbodies status logged) fun _ => ?_
          rw [written_append]
          simpa [Event.bytes] using hlength
      · refine ⟨.head head :: ev, -1, fun t => ?_, ?_⟩
        · simp only [andThen_neg, List.append_assoc, List.singleton_append]
        · exact .sent status contentType length opts head rfl ⟨rfl, rfl⟩ hline hbuild
            hbodies nofun

/-- A head and a body, and the log in any case. -/
theorem replies_sendEncoded (hpeer : w.peer = .willing) {status : ℤ} {contentType : Bytes}
    {length : ℕ} {opts : ResponseOptions} (hline : OneLine contentType opts)
    {body : Trace → Trace × ℤ} (hbody : SendsBody length body) :
    Replies w opts.site req (fun s n => s = status ∧ n = length)
      (sendEncoded w status contentType length opts req body) := by
  cases hbuild : buildResponseHeaders w.host w.client status contentType (some length)
      req.keepAlive opts responseHeadLen with
  | none =>
      refine ⟨[.logged status length], -1, fun t => ?_, .unsent (by decide) ?_ ?_⟩
      · simp [sendEncoded, writeHead_of_none hbuild, logAccess]
      · simp [Event.isWrite]
      · simp
  | some head =>
      obtain ⟨ev, rc, hev, hbodies, hend⟩ := @SendsBody.unlessHead req _ _ hbody
      refine ⟨.head head :: (ev ++ [.logged status length]), rc, fun t => ?_, ?_⟩
      · have hbody : (if (decide ((0 : ℤ) = 0) && !req.headOnly) = true then
            body (t ++ [.head head]) else (t ++ [.head head], 0)) = (t ++ [.head head] ++ ev, rc) := by
          refine Eq.trans ?_ (hev (t ++ [.head head]))
          cases req.headOnly with
          | false => rfl
          | true => rfl
        rw [sendEncoded, writeHead_of_build hpeer hbuild]
        dsimp only
        rw [hbody, logAccess, List.append_assoc, List.append_assoc]
        rfl
      · refine .sent status contentType length opts head rfl ⟨rfl, rfl⟩ hline hbuild
          (tail_logged hbodies status length) fun hrc => ?_
        rcases hend with ⟨-, hlength⟩ | rfl
        · rw [written_append]
          simpa [Event.bytes] using hlength
        · exact absurd hrc (by decide)

/-- A head that announces no body. -/
theorem replies_sendHeadOnly (hpeer : w.peer = .willing) {status : ℤ} {contentType : Bytes}
    {opts : ResponseOptions} (hline : OneLine contentType opts) :
    Replies w opts.site req (fun s n => s = status ∧ n = 0)
      (sendHeadOnly w status contentType opts req) := by
  unfold sendHeadOnly
  cases hbuild : buildResponseHeaders w.host w.client status contentType (some 0)
      req.keepAlive opts responseHeadLen with
  | none =>
      refine ⟨[.logged status 0], -1, fun t => ?_, .unsent (by decide) ?_ ?_⟩
      · simp [writeHead_of_none hbuild, logAccess]
      · simp [Event.isWrite]
      · simp
  | some head =>
      refine ⟨[.head head, .logged status 0], 0, fun t => ?_, ?_⟩
      · simp [writeHead_of_build hpeer hbuild, logAccess]
      · refine .sent status contentType 0 opts head rfl ⟨rfl, rfl⟩ hline hbuild ?_ fun _ => ?_
        · exact tail_singleton rfl
        · rw [ite_self]
          rfl

/-! ### Bodies -/

theorem sendsBody_write (hpeer : w.peer = .willing) (bytes : Bytes) :
    SendsBody bytes.length (clientWriteAll w.peer .body bytes) := by
  refine ⟨writeOf .body bytes, 0, fun t => ?_, ?_, Or.inl ⟨rfl, ?_⟩⟩
  · rw [hpeer, clientWriteAll_willing]
  · exact tail_writeOf bytes
  · rw [written_writeOf_body]

theorem sendsBody_text (hpeer : w.peer = .willing) {text : Bytes} (h : text ≠ []) :
    SendsBody text.length (clientWritevAll w.peer w.client.tls [(.body, text)]) := by
  refine ⟨[.body text], 0, fun t => ?_, ?_, Or.inl ⟨rfl, ?_⟩⟩
  · rw [hpeer, clientWritevAll_willing ⟨_, List.mem_singleton_self _, h⟩, List.flatMap_singleton,
      writeOf_of_ne h]
  · exact tail_singleton rfl
  · rw [written_cons, written_nil, List.append_nil]
    rfl

theorem sendsBody_file (hpeer : w.peer = .willing) (content : Bytes) (offset length : ℕ) :
    SendsBody length (sendFileBody w content offset length) := by
  by_cases hzero : length = 0
  · refine ⟨[], 0, fun t => ?_, nofun, Or.inl ⟨rfl, ?_⟩⟩
    · rw [sendFileBody, if_pos hzero, List.append_nil]
    · rw [hzero]
      rfl
  · set sent := (content.drop offset).take length with hsent
    obtain ⟨ev, rc, hev, hbodies, hend⟩ := sendsBody_write hpeer sent
    have hle : sent.length ≤ length := List.length_take_le _ _
    rcases hend with ⟨rfl, hwritten⟩ | rfl
    · refine ⟨ev, if sent.length < length then -1 else 0, fun t => ?_, hbodies, ?_⟩
      · rw [sendFileBody, if_neg hzero, ← hsent]
        simp only [hev, andThen_zero]
      · by_cases hshort : sent.length < length
        · rw [if_pos hshort]
          exact Or.inr rfl
        · rw [if_neg hshort]
          exact Or.inl ⟨rfl, by omega⟩
    · refine ⟨ev, -1, fun t => ?_, hbodies, Or.inr rfl⟩
      rw [sendFileBody, if_neg hzero, ← hsent]
      simp only [hev, andThen_neg]

/-! ### Announced lengths -/

/-- What the head of a reply announces. -/
structure Announced where
  status : ℤ
  length : ℕ
  deriving DecidableEq

/-- The reply has this status, and announces this length. -/
def Announced.Is (a : Announced) (s : ℤ) (n : ℕ) : Prop := s = a.status ∧ n = a.length

/-- The text of a redirect. -/
def redirectText (status : ℤ) (location : Bytes) : Bytes :=
  decimalInt status ++ ascii " " ++ httpStatusText status ++ ascii "\n" ++ location ++ ascii "\n"

/-- A reply to a request with a range, for a file of this size. -/
def announcedRange (req : HttpRequest) (total : ℕ) : Announced :=
  match requestedRange req total with
  | none => ⟨416, 0⟩
  | some (start, stop) => ⟨206, stop + 1 - start⟩

section announced

variable (w : World) (site : Site)

/-- The length of the contents that `send_file_fd` sends. -/
def contentsLength (status : ℤ) (mime path : Bytes) (file : OpenFile) (cached : Option StaticMeta)
    (req : HttpRequest) : ℕ :=
  let use := usableEncodings w site status mime path file.stat req
  match openVariant w site (fileVariants cached path use.1 use.2) with
  | some (variant, _) => variant.stat.size
  | none =>
      match if use.1 || use.2 then compressFile w use.1 use.2 file else none with
      | some (compressed, _) => compressed.length
      | none => file.stat.size

/-- `send_file_fd`. -/
def announcedFile (status : ℤ) (path : Bytes) (file : OpenFile) (cached : Option StaticMeta)
    (req : HttpRequest) : Announced :=
  if status = 200 && !req.rangePresent &&
      requestCacheValidatorMatches w req file.stat (servedEtag cached) then ⟨304, 0⟩
  else if status = 200 && req.rangePresent then announcedRange req file.stat.size
  else ⟨status, contentsLength w site status (servedMime cached path) path file cached req⟩

/-- `send_error_page`. -/
def announcedErrorPage (status : ℤ) (req : HttpRequest) : Announced :=
  match openErrorPage w site status with
  | some (page, file) => announcedFile w site status page file none req
  | none => ⟨status, (errorText status).length⟩

/-- `redirect_directory_slash`. -/
def announcedSlash (req : HttpRequest) : Announced :=
  let path := req.path.takeWhile (· ≠ 63)
  let query := req.path.dropWhile (· ≠ 63)
  if pathLen + 2 ≤ path.length + 1 then announcedErrorPage w site 414 req
  else if query ≠ [] && pathLen + 2 ≤ path.length + 1 + query.length then
    announcedErrorPage w site 414 req
  else ⟨301, (redirectText 301 (path ++ ascii "/" ++ query)).length⟩

end announced

/-! ### Texts -/

theorem plainText_oneLine : 10 ∉ plainText := by decide

theorem replies_sendShort (hpeer : w.peer = .willing) {status : ℤ} {text : Bytes}
    {opts : ResponseOptions} (hline : OneLine plainText opts) (htext : text ≠ []) :
    Replies w opts.site req (Announced.Is ⟨status, text.length⟩)
      (sendShort w status text opts req) :=
  replies_headThenBody hpeer hline (sendsBody_text hpeer htext) text.length

/-- **`send_text`**. -/
theorem replies_sendText (hpeer : w.peer = .willing) (site : Option Site) (status : ℤ)
    {text : Bytes} (htext : text ≠ []) :
    Replies w site req (Announced.Is ⟨status, text.length⟩) (sendText w site status text req) :=
  replies_sendShort hpeer ⟨plainText_oneLine, nofun, nofun, nofun, nofun, nofun⟩ htext

/-- **`send_redirect`**. -/
theorem replies_sendRedirect (hpeer : w.peer = .willing) (site : Site) (status : ℤ)
    {location : Bytes} (hlocation : 10 ∉ location) :
    Replies w (some site) req (Announced.Is ⟨status, (redirectText status location).length⟩)
      (sendRedirect w site status location req) := by
  unfold sendRedirect redirectText
  set body := decimalInt status ++ ascii " " ++ httpStatusText status ++ ascii "\n" ++ location ++
    ascii "\n" with hbody
  have hne : body ≠ [] := List.append_ne_nil_of_right_ne_nil _ (by decide)
  by_cases hlong : 1024 ≤ body.length
  · refine ⟨[], -1, fun t => ?_, .unsent (by decide) nofun List.not_mem_nil⟩
    simp only [if_pos hlong, List.append_nil]
  · have hline : OneLine plainText { site := some site, location := some location } :=
      ⟨plainText_oneLine, nofun, fun v hv => Option.mem_some.mp hv ▸ hlocation, nofun, nofun, nofun⟩
    obtain ⟨ev, rc, hev, hreply⟩ := @replies_sendShort w req hpeer status _ _ hline hne
    refine ⟨ev, rc, fun t => ?_, hreply⟩
    simp only [if_neg hlong, hev]

/-- **`send_rate_limited`**. -/
theorem replies_sendRateLimited (hpeer : w.peer = .willing) (site : Site) (retryAfter : ℕ) :
    Replies w (some site) req (Announced.Is ⟨429, (ascii "429 Too Many Requests\n").length⟩)
      (sendRateLimited w site retryAfter req) :=
  replies_sendShort hpeer
    ⟨plainText_oneLine, nofun, nofun, nofun,
      fun _ hv => Option.mem_some.mp hv ▸ (isText_decimal _).1, nofun⟩ (by decide)

/-! ### Files -/

theorem isText_mimeType (path : Bytes) : IsText (mimeType path) := by
  have hknown : ∀ known ∈ mimeTypes, IsText known.2 := by decide
  unfold mimeType
  cases extension path with
  | none => decide
  | some ext =>
      simp only
      cases hfind : mimeTypes.find? fun known => streqCi ext known.1 with
      | none => decide
      | some known => exact hknown known (List.mem_of_find?_eq_some hfind)

theorem isText_fileEtag (st : FileStat) : IsText (fileEtag st) := by
  have hhex := isText_hexadecimal
  have hweak : IsText (ascii "W/\"") := by decide
  have hdash : IsText (ascii "-") := by decide
  have hquote : IsText (ascii "\"") := by decide
  unfold fileEtag
  exact (((((hweak.append (hhex _)).append hdash).append (hhex _)).append hdash).append
    (hhex _)).append hquote

/-- The value of `Content-Range`. -/
theorem isText_contentRange (start stop size : ℕ) :
    IsText (ascii "bytes " ++ decimal start ++ ascii "-" ++ decimal stop ++ ascii "/" ++
      decimal size) := by
  have hdec := isText_decimal
  have hbytes : IsText (ascii "bytes ") := by decide
  have hdash : IsText (ascii "-") := by decide
  have hslash : IsText (ascii "/") := by decide
  exact ((((hbytes.append (hdec _)).append hdash).append (hdec _)).append hslash).append (hdec _)

/-- A reply to a request with a range. -/
theorem replies_sendFileRange (hpeer : w.peer = .willing) {site : Site} {mime : Bytes}
    {etag : Option Bytes} (hmime : 10 ∉ mime) (hetag : ∀ v ∈ etag, 10 ∉ v) (file : OpenFile) :
    Replies w (some site) req (announcedRange req file.stat.size).Is
      (sendFileRange w site mime etag file req) := by
  unfold announcedRange
  cases hrange : requestedRange req file.stat.size with
  | none =>
      have hline : OneLine plainText
          { site := some site
            contentRange := some (ascii "bytes */" ++ decimal file.stat.size)
            etag := etag
            fileStat := some file.stat
            acceptRanges := true } := by
        refine ⟨plainText_oneLine, nofun, nofun, fun v hv => ?_, nofun, hetag⟩
        rw [← Option.mem_some.mp hv]
        have hunits : IsText (ascii "bytes */") := by decide
        exact (hunits.append (isText_decimal _)).1
      refine (replies_sendHeadOnly hpeer hline).congr fun t => ?_
      rw [sendFileRange, hrange]
  | some range =>
      obtain ⟨start, stop⟩ := range
      set contentRange := ascii "bytes " ++ decimal start ++ ascii "-" ++ decimal stop ++
        ascii "/" ++ decimal file.stat.size with hcontentRange
      have hline : OneLine mime
          { site := some site
            contentRange := some contentRange
            etag := etag
            fileStat := some file.stat
            cacheControl := true
            acceptRanges := true } := by
        refine ⟨hmime, nofun, nofun, fun v hv => ?_, nofun, hetag⟩
        rw [← Option.mem_some.mp hv]
        exact (isText_contentRange start stop file.stat.size).1
      refine (replies_headThenBody hpeer hline
        (sendsBody_file hpeer file.content start (stop + 1 - start)) (stop + 1 - start)).congr
          fun t => ?_
      rw [sendFileRange, hrange]

/-- The small file in one `writev`: all of it, or nothing. -/
theorem trySmallFile_willing (hpeer : w.peer = .willing) (status : ℤ) (mime : Bytes)
    (file : OpenFile) (opts : ResponseOptions) :
    (∃ head, buildResponseHeaders w.host w.client status mime (some file.stat.size) req.keepAlive
        opts responseHeadLen = some head ∧ req.headOnly = false ∧
        (file.content.take file.stat.size).length = file.stat.size ∧
      ∀ t, trySmallFile w status mime file opts req t =
        (t ++ .head head :: writeOf .body (file.content.take file.stat.size), 0)) ∨
    ∀ t, trySmallFile w status mime file opts req t = (t, -1) := by
  unfold trySmallFile writeSmallFileResponse
  by_cases hsmall : (!req.headOnly && decide (file.stat.size ≤ smallFileWritevMax)) = true
  · obtain ⟨hget, hle⟩ := Bool.and_eq_true_iff.mp hsmall
    rw [decide_eq_true_iff] at hle
    cases hbuild : buildResponseHeaders w.host w.client status mime (some file.stat.size)
        req.keepAlive opts responseHeadLen with
    | none =>
        right
        intro t
        rw [if_pos hsmall, if_neg (not_lt.mpr hle)]
    | some head =>
        have hne : head ≠ [] := ne_nil_of_build hbuild
        by_cases hread : (file.content.take file.stat.size).length = file.stat.size
        · left
          refine ⟨head, rfl, by simpa using hget, hread, fun t => ?_⟩
          rw [if_pos hsmall, if_neg (not_lt.mpr hle)]
          dsimp only
          rw [if_neg (not_not.mpr hread), hpeer,
            clientWritevAll_willing ⟨_, List.mem_cons_self, hne⟩, List.flatMap_cons,
            List.flatMap_singleton, writeOf_of_ne hne]
          rfl
        · right
          intro t
          rw [if_pos hsmall, if_neg (not_lt.mpr hle)]
          exact if_pos hread
  · right
    intro t
    rw [if_neg hsmall]

theorem replies_sendPlainFile (hpeer : w.peer = .willing) (status : ℤ) {mime : Bytes}
    (file : OpenFile) {opts : ResponseOptions} (hline : OneLine mime opts) :
    Replies w opts.site req (Announced.Is ⟨status, file.stat.size⟩)
      (sendPlainFile w status mime file opts req) :=
  replies_headThenBody hpeer hline (sendsBody_file hpeer file.content 0 file.stat.size)
    file.stat.size

/-- The file as it is. -/
theorem replies_sendWholeFile (hpeer : w.peer = .willing) {site : Site} (status : ℤ)
    {mime : Bytes} {etag : Option Bytes} (hmime : 10 ∉ mime) (hetag : ∀ v ∈ etag, 10 ∉ v)
    (file : OpenFile) :
    Replies w (some site) req (Announced.Is ⟨status, file.stat.size⟩)
      (sendWholeFile w site status mime etag file req) := by
  have hline : OneLine mime (wholeFileOptions site status etag file.stat) :=
    ⟨hmime, nofun, nofun, nofun, nofun, hetag⟩
  rcases @trySmallFile_willing w req hpeer status mime file
      (wholeFileOptions site status etag file.stat) with
    ⟨head, hbuild, hget, hread, hwrite⟩ | hfailed
  · refine ⟨.head head :: (writeOf .body (file.content.take file.stat.size) ++
      [.logged status file.stat.size]), 0, fun t => ?_, ?_⟩
    · rw [sendWholeFile, hwrite]
      simp [logAccess]
    · obtain ⟨ev, rc, hev, hbodies, -⟩ :=
        sendsBody_write hpeer (file.content.take file.stat.size)
      have hsame : ev = writeOf .body (file.content.take file.stat.size) := by
        have hboth := hev []
        rw [hpeer, clientWriteAll_willing] at hboth
        exact (congrArg Prod.fst hboth).symm
      refine .sent status mime file.stat.size _ head rfl ⟨rfl, rfl⟩ hline hbuild
        (tail_logged (tail_writeOf _) _ _) fun _ => ?_
      rw [written_append, written_writeOf_body, hget]
      simpa [Event.bytes] using hread
  · refine (replies_sendPlainFile hpeer status file hline).congr fun t => ?_
    rw [sendWholeFile, hfailed]
    rfl

theorem oneLine_encoded {site : Site} {mime encoding : Bytes} {etag : Option Bytes}
    {st : FileStat} (hmime : 10 ∉ mime) (hetag : ∀ v ∈ etag, 10 ∉ v) (hencoding : 10 ∉ encoding) :
    OneLine mime (encodedOptions site encoding etag st) :=
  ⟨hmime, fun _ hv => Option.mem_some.mp hv ▸ hencoding, nofun, nofun, nofun, hetag⟩

/-- The encodings of the variants that are tried. -/
theorem encoding_of_openVariant {site : Site} {cached : Option StaticMeta} {path : Bytes}
    {useBr useGzip : Bool} {file : OpenFile} {encoding : Bytes}
    (h : openVariant w site (fileVariants cached path useBr useGzip) = some (file, encoding)) :
    IsText encoding := by
  unfold openVariant at h
  obtain ⟨v, hv, hopen⟩ := List.exists_of_findSome?_eq_some h
  have hencoding : v.2 = encoding := by
    cases hsite : w.openSitePath site v.1 with
    | none =>
        rw [hsite] at hopen
        exact nomatch hopen
    | some variant =>
        rw [hsite] at hopen
        dsimp only at hopen
        split_ifs at hopen
        exact congrArg Prod.snd (Option.some.inj hopen)
  rw [← hencoding]
  unfold fileVariants at hv
  rcases List.mem_append.mp hv with hv | hv
  · split_ifs at hv
    · rw [List.mem_singleton.mp hv]
      show IsText (ascii "br")
      decide
    · exact absurd hv List.not_mem_nil
  · split_ifs at hv
    · rw [List.mem_singleton.mp hv]
      show IsText (ascii "gzip")
      decide
    · exact absurd hv List.not_mem_nil

theorem encoding_of_compressFile {useBr useGzip : Bool} {file : OpenFile}
    {compressed encoding : Bytes}
    (h : compressFile w useBr useGzip file = some (compressed, encoding)) : IsText encoding := by
  unfold compressFile at h
  by_cases hread : (!w.allocates ||
      decide ((file.content.take file.stat.size).length ≠ file.stat.size)) = true
  · rw [if_pos hread] at h
    exact nomatch h
  rw [if_neg hread] at h
  dsimp only at h
  set plain := file.content.take file.stat.size
  cases hbr : if useBr then w.brotliCompress plain else none with
  | some c =>
      rw [hbr] at h
      have : ascii "br" = encoding := congrArg Prod.snd (Option.some.inj h)
      rw [← this]
      decide
  | none =>
      rw [hbr] at h
      by_cases hgzip : useGzip = true
      · dsimp only at h
        rw [if_pos hgzip] at h
        obtain ⟨c, -, hc⟩ := Option.map_eq_some_iff.mp h
        have : ascii "gzip" = encoding := congrArg Prod.snd hc
        rw [← this]
        decide
      · dsimp only at h
        rw [if_neg hgzip] at h
        exact nomatch h

/-- The three replies with the contents of a file: a variant of it, the file compressed, or the file
as it is. -/
theorem sendFileContent_cases {P : ℕ → (Trace → Trace × ℤ) → Prop} {site : Site} {status : ℤ}
    {mime path : Bytes} {etag : Option Bytes} {file : OpenFile} {cached : Option StaticMeta}
    (variant : ∀ (v : OpenFile) encoding, IsText encoding → P v.stat.size
      (sendEncoded w status mime v.stat.size (encodedOptions site encoding etag file.stat) req
        (sendFileBody w v.content 0 v.stat.size)))
    (compressed : ∀ (c : Bytes) encoding, IsText encoding → P c.length
      (sendEncoded w status mime c.length (encodedOptions site encoding etag file.stat) req
        (clientWriteAll w.peer .body c)))
    (whole : P file.stat.size (sendWholeFile w site status mime etag file req)) :
    P (contentsLength w site status mime path file cached req)
      (sendFileContent w site status mime path etag file cached req) := by
  unfold contentsLength sendFileContent
  dsimp only
  set use := usableEncodings w site status mime path file.stat req
  cases hvariant : openVariant w site (fileVariants cached path use.1 use.2) with
  | some v => exact variant v.1 v.2 (encoding_of_openVariant hvariant)
  | none =>
      dsimp only
      cases hcompressed : if use.1 || use.2 then compressFile w use.1 use.2 file else none with
      | some c =>
          have hfile : compressFile w use.1 use.2 file = some c := by
            split_ifs at hcompressed
            exact hcompressed
          exact compressed c.1 c.2 (encoding_of_compressFile hfile)
      | none => exact whole

/-- A reply with the contents of a file. -/
theorem replies_sendFileContent (hpeer : w.peer = .willing) {site : Site} (status : ℤ)
    {mime : Bytes} (path : Bytes) {etag : Option Bytes} (hmime : 10 ∉ mime)
    (hetag : ∀ v ∈ etag, 10 ∉ v) (file : OpenFile) (cached : Option StaticMeta) :
    Replies w (some site) req
      (Announced.Is ⟨status, contentsLength w site status mime path file cached req⟩)
      (sendFileContent w site status mime path etag file cached req) := by
  have hline : ∀ encoding, IsText encoding →
      OneLine mime (encodedOptions site encoding etag file.stat) := fun encoding htext =>
    oneLine_encoded hmime hetag htext.1
  apply sendFileContent_cases (P := fun n => Replies w (some site) req (Announced.Is ⟨status, n⟩))
  · intro v encoding htext
    exact replies_sendEncoded hpeer (hline encoding htext) (sendsBody_file hpeer _ _ _)
  · intro c encoding htext
    exact replies_sendEncoded hpeer (hline encoding htext) (sendsBody_write hpeer _)
  · exact replies_sendWholeFile hpeer status hmime hetag file

theorem isText_servedMime (cached : Option StaticMeta) (path : Bytes) :
    IsText (servedMime cached path) := by
  unfold servedMime
  cases cached with
  | none => exact isText_mimeType path
  | some entry =>
      rw [Option.map_some, Option.filter_some]
      split_ifs
      · exact entry.mime.ok
      · exact isText_mimeType path

theorem isText_servedEtag (cached : Option StaticMeta) : ∀ v ∈ servedEtag cached, IsText v := by
  intro v hv
  unfold servedEtag at hv
  cases cached with
  | none => exact nomatch hv
  | some entry =>
      obtain ⟨hmem, -⟩ := Option.filter_eq_some_iff.mp hv
      rw [← Option.some.inj hmem]
      exact entry.etag.ok

/-- **`send_file_fd`**. -/
theorem replies_sendFileFd (hpeer : w.peer = .willing) (site : Site) (status : ℤ) (path : Bytes)
    (file : OpenFile) (cached : Option StaticMeta) :
    Replies w (some site) req (announcedFile w site status path file cached req).Is
      (sendFileFd w site status path file cached req) := by
  have hmime := (isText_servedMime cached path).1
  have hetag : ∀ v ∈ servedEtag cached, 10 ∉ v := fun v hv => (isText_servedEtag cached v hv).1
  unfold sendFileFd announcedFile
  by_cases hfresh : (decide (status = 200) && !req.rangePresent &&
      requestCacheValidatorMatches w req file.stat (servedEtag cached)) = true
  · have hline : OneLine (servedMime cached path)
        (notModifiedOptions site (servedEtag cached) file.stat) :=
      ⟨hmime, nofun, nofun, nofun, nofun, hetag⟩
    simp only [if_pos hfresh]
    exact replies_sendHeadOnly hpeer hline
  by_cases hrange : (decide (status = 200) && req.rangePresent) = true
  · simp only [if_neg hfresh, if_pos hrange]
    exact replies_sendFileRange hpeer hmime hetag file
  · simp only [if_neg hfresh, if_neg hrange]
    exact replies_sendFileContent hpeer status path hmime hetag file cached

/-- **`send_error_page`**. -/
theorem replies_sendErrorPage (hpeer : w.peer = .willing) (site : Site) (status : ℤ) :
    Replies w (some site) req (announcedErrorPage w site status req).Is
      (sendErrorPage w site status req) := by
  unfold sendErrorPage announcedErrorPage
  cases hpage : openErrorPage w site status with
  | some page => exact replies_sendFileFd hpeer site status page.1 page.2 none
  | none =>
      have hne : errorText status ≠ [] := List.append_ne_nil_of_right_ne_nil _ (by decide)
      exact replies_sendText hpeer (some site) status hne

/-- **`redirect_directory_slash`**. -/
theorem replies_redirectDirectorySlash (hpeer : w.peer = .willing) (site : Site)
    (hpath : 10 ∉ req.path) :
    Replies w (some site) req (announcedSlash w site req).Is
      (redirectDirectorySlash w site req) := by
  have hpage := @replies_sendErrorPage w req hpeer site 414
  set location := req.path.takeWhile (· ≠ 63) ++ ascii "/" ++ req.path.dropWhile (· ≠ 63)
  have hlocation : 10 ∉ location := by
    intro h
    rcases List.mem_append.mp h with h | h
    · rcases List.mem_append.mp h with h | h
      · exact hpath (List.takeWhile_subset _ h)
      · exact absurd h (by decide)
    · exact hpath (List.dropWhile_subset _ h)
  have hredirect := @replies_sendRedirect w req hpeer site 301 location hlocation
  unfold redirectDirectorySlash announcedSlash
  dsimp only
  split_ifs
  · exact hpage
  · exact hpage
  · exact hredirect

/-! ### Failed backends -/

theorem backendFailed_mem (hpeer : w.peer = .willing) (site : Site) (status : ℤ) (t : Trace) :
    .backendFailed ∈ (backendError w site req status t).1 := by
  obtain ⟨ev, rc, hev, -⟩ := @replies_sendErrorPage w req hpeer site status
  unfold backendError
  rw [hev]
  simp

end Rpsiod

import Rpsiod.Server.ClientWrites
import Rpsiod.Server.Replies

/-!
# One head for a file (`send_file_fd`, `write_small_file_response`)

* `sendFileFd_plain`, `headsSent_sendFileFd`: the small-file attempt is made in one branch of
  `send_file_fd`; every other one sends at most one head.
* `sendFileFd_oneHead_iff`: **one head and no second attempt behind bytes, unless the first attempt
  is cut off**.
-/

namespace Rpsiod

/-- A head of which the client has been sent at least one byte. -/
def Event.isSentHead (e : Event) : Bool := e.isHead && e.bytes ≠ []

/-- The heads that the client has been sent, or begun to be sent. -/
def headsSent (t : Trace) : ℕ := t.countP Event.isSentHead

/-- At most this many more heads. -/
def AddsHeads (n : ℕ) (f : Trace → Trace × ℤ) : Prop := ∀ t, headsSent (f t).1 ≤ headsSent t + n

theorem headsSent_append (t u : Trace) : headsSent (t ++ u) = headsSent t + headsSent u :=
  List.countP_append

theorem addsHeads_return (rc : ℤ) : AddsHeads 0 fun t => (t, rc) := fun _ => le_rfl

theorem AddsHeads.mono {n m : ℕ} {f : Trace → Trace × ℤ} (h : AddsHeads n f) (hle : n ≤ m) :
    AddsHeads m f := fun t => (h t).trans (Nat.add_le_add_left hle _)

theorem AddsHeads.andThen {n m : ℕ} {f g : Trace → Trace × ℤ} (hf : AddsHeads n f)
    (hg : AddsHeads m g) : AddsHeads (n + m) fun t => andThen (f t) g := by
  intro t
  have hfirst := hf t
  unfold Rpsiod.andThen
  dsimp only
  split_ifs
  · dsimp only
    omega
  · have hsecond := hg (f t).1
    omega

theorem addsHeads_log (status : ℤ) (bytes : ℕ) (rc : ℤ) :
    AddsHeads 0 fun t => (logAccess status bytes t, rc) := by
  intro t
  unfold logAccess
  rw [headsSent_append]
  exact le_rfl

theorem addsHeads_write (peer : Peer) {n : ℕ} {kind : Bytes → Event}
    (hkind : ∀ b, headsSent [kind b] ≤ n) (buf : Bytes) :
    AddsHeads n (clientWriteAll peer kind buf) := by
  intro t
  unfold clientWriteAll
  split_ifs
  · exact Nat.le_add_right _ _
  · cases peer.refuses t.length with
    | none =>
        dsimp only
        rw [headsSent_append]
        exact Nat.add_le_add_left (hkind buf) _
    | some k =>
        dsimp only
        rw [headsSent_append]
        exact Nat.add_le_add_left (hkind _) _

theorem addsHeads_body (peer : Peer) (buf : Bytes) : AddsHeads 0 (clientWriteAll peer .body buf) :=
  addsHeads_write peer (fun b => (show headsSent [.body b] ≤ 0 from le_rfl)) buf

theorem addsHeads_head (peer : Peer) (buf : Bytes) : AddsHeads 1 (clientWriteAll peer .head buf) :=
  addsHeads_write peer (fun b => (show headsSent [.head b] ≤ 1 from List.countP_le_length)) buf

variable {w : World} {site : Site} {req : HttpRequest}

theorem addsHeads_writeHead (status : ℤ) (contentType : Bytes) (contentLength : Option ℕ)
    (keepAlive : Bool) (opts : ResponseOptions) :
    AddsHeads 1 (w.writeHead status contentType contentLength keepAlive opts) := by
  intro t
  unfold World.writeHead writeResponseHeaders
  cases buildResponseHeaders w.host w.client status contentType contentLength keepAlive opts
      responseHeadLen with
  | none => exact Nat.le_add_right _ _
  | some headers => exact addsHeads_head w.peer headers t

theorem addsHeads_sendFileBody (content : Bytes) (offset length : ℕ) :
    AddsHeads 0 (sendFileBody w content offset length) := by
  intro t
  unfold sendFileBody
  split_ifs
  · exact le_rfl
  · exact ((addsHeads_body w.peer _).andThen (addsHeads_return _)) t

/-- A body that a request with `HEAD` is not sent. -/
theorem AddsHeads.unlessHeadOnly {f : Trace → Trace × ℤ} (h : AddsHeads 0 f) (headOnly : Bool) :
    AddsHeads 0 fun t => if headOnly then (t, 0) else f t := by
  intro t
  cases headOnly with
  | true => exact le_rfl
  | false => exact h t

/-! ### The other branches -/

theorem addsHeads_sendHeadOnly (status : ℤ) (contentType : Bytes) (opts : ResponseOptions) :
    AddsHeads 1 (sendHeadOnly w status contentType opts req) := by
  intro t
  have hhead := addsHeads_writeHead status contentType (some 0) req.keepAlive opts (w := w) t
  exact ((addsHeads_log status 0 0) _).trans hhead

theorem addsHeads_sendFileRange (mime : Bytes) (etag : Option Bytes) (file : OpenFile) :
    AddsHeads 1 (sendFileRange w site mime etag file req) := by
  intro t
  unfold sendFileRange
  dsimp only
  cases requestedRange req file.stat.size with
  | none => exact addsHeads_sendHeadOnly _ _ _ t
  | some range =>
      exact ((addsHeads_writeHead _ _ _ _ _).andThen
        (((addsHeads_sendFileBody _ _ _).unlessHeadOnly req.headOnly).andThen
          (addsHeads_log _ _ 0))) t

theorem addsHeads_sendEncoded (status : ℤ) (mime : Bytes) (length : ℕ) (opts : ResponseOptions)
    {body : Trace → Trace × ℤ} (hbody : AddsHeads 0 body) :
    AddsHeads 1 (sendEncoded w status mime length opts req body) := by
  intro t
  have hhead := addsHeads_writeHead status mime (some length) req.keepAlive opts (w := w) t
  unfold sendEncoded
  dsimp only
  refine ((addsHeads_log status length 0) _).trans ?_
  split_ifs
  · exact (hbody _).trans hhead
  · exact hhead

/-- A head and then the file. -/
theorem addsHeads_sendPlainFile (status : ℤ) (mime : Bytes) (file : OpenFile)
    (opts : ResponseOptions) : AddsHeads 1 (sendPlainFile w status mime file opts req) :=
  (addsHeads_writeHead _ _ _ _ _).andThen
    (((addsHeads_sendFileBody _ _ _).unlessHeadOnly req.headOnly).andThen (addsHeads_log _ _ 0))

/-! ### The file as it is -/

/-- `send_file_fd` gets to its last part: no reply without the file, no range and no encoding. -/
structure SentPlain (w : World) (site : Site) (status : ℤ) (path : Bytes) (file : OpenFile)
    (cached : Option StaticMeta) (req : HttpRequest) : Prop where
  validator : (status = 200 && !req.rangePresent &&
    requestCacheValidatorMatches w req file.stat (servedEtag cached)) = false
  range : (status = 200 && req.rangePresent) = false
  variant : openVariant w site (fileVariants cached path
    (usableEncodings w site status (servedMime cached path) path file.stat req).1
    (usableEncodings w site status (servedMime cached path) path file.stat req).2) = none
  compressed :
    let use := usableEncodings w site status (servedMime cached path) path file.stat req
    (if use.1 || use.2 then compressFile w use.1 use.2 file else none) = none

variable {status : ℤ} {path : Bytes} {file : OpenFile} {cached : Option StaticMeta}

theorem sendFileFd_plain (h : SentPlain w site status path file cached req) (t : Trace) :
    sendFileFd w site status path file cached req t =
      sendWholeFile w site status (servedMime cached path) (servedEtag cached) file req t := by
  unfold sendFileFd
  rw [h.validator, h.range, if_neg Bool.false_ne_true, if_neg Bool.false_ne_true]
  unfold sendFileContent
  dsimp only
  have hcompressed := h.compressed
  dsimp only at hcompressed
  rw [h.variant, hcompressed]

/-- **Every other branch sends at most one head.** -/
theorem addsHeads_sendFileFd (h : ¬ SentPlain w site status path file cached req) :
    AddsHeads 1 (sendFileFd w site status path file cached req) := by
  intro t
  unfold sendFileFd
  split_ifs with hvalidator hrange
  · exact addsHeads_sendHeadOnly _ _ _ t
  · exact addsHeads_sendFileRange _ _ _ t
  · unfold sendFileContent
    dsimp only
    set use := usableEncodings w site status (servedMime cached path) path file.stat req with huse
    cases hvariant : openVariant w site (fileVariants cached path use.1 use.2) with
    | some v =>
        exact addsHeads_sendEncoded _ _ _ _ (addsHeads_sendFileBody _ _ _) t
    | none =>
        cases hcompressed :
            (if use.1 || use.2 then compressFile w use.1 use.2 file else none) with
        | some c => exact addsHeads_sendEncoded _ _ _ _ (addsHeads_body w.peer _) t
        | none =>
            rw [Bool.not_eq_true] at hvalidator hrange
            exact absurd ⟨hvalidator, hrange, hvariant, hcompressed⟩ h

/-! ### The attempt for a small file -/

/-- The first attempt is made, its head is built and the file is read as a whole. -/
structure Attempted (w : World) (site : Site) (status : ℤ) (path : Bytes) (file : OpenFile)
    (cached : Option StaticMeta) (req : HttpRequest) : Prop where
  plain : SentPlain w site status path file cached req
  body : req.headOnly = false
  small : file.stat.size ≤ smallFileWritevMax
  head : (buildResponseHeaders w.host w.client status (servedMime cached path)
    (some file.stat.size) req.keepAlive (wholeFileOptions site status (servedEtag cached) file.stat)
    responseHeadLen).isSome = true
  whole : file.stat.size ≤ file.content.length

/-- The client's end takes a part of head and body and then no more: the head is refused behind its
first byte, or it is taken and the body is refused. -/
def CutOff (peer : Peer) (size : ℕ) (t : Trace) : Prop :=
  (∃ n, 0 < n ∧ peer.refuses t.length = some n) ∨
    (peer.refuses t.length = none ∧ 0 < size ∧ ∃ n, peer.refuses (t.length + 1) = some n)

/-- The two buffers of `write_small_file_response`. -/
theorem clientWritevAll_two (peer : Peer) (tls : Bool) {headers : Bytes} (hne : headers ≠ [])
    (body : Bytes) (t : Trace) :
    clientWritevAll peer tls [(.head, headers), (.body, body)] t =
      andThen (clientWriteAll peer .head headers t) fun t =>
        andThen (clientWriteAll peer .body body t) fun t => (t, 0) := by
  unfold clientWritevAll
  rw [if_neg]
  · rfl
  · rw [Bool.and_eq_true, not_and, List.all_eq_true]
    intro _ hall
    exact hne (of_decide_eq_true (hall (.head, headers) List.mem_cons_self))

/-- What they come to. -/
theorem clientWritev_small (peer : Peer) (tls : Bool) {headers body : Bytes} (hne : headers ≠ [])
    (t : Trace) :
    (¬ CutOff peer body.length t ∧
      ((clientWritevAll peer tls [(.head, headers), (.body, body)] t).2 = 0 ∨
        written (clientWritevAll peer tls [(.head, headers), (.body, body)] t).1 = written t ∧
        headsSent (clientWritevAll peer tls [(.head, headers), (.body, body)] t).1 =
          headsSent t)) ∨
    (CutOff peer body.length t ∧
      (clientWritevAll peer tls [(.head, headers), (.body, body)] t).2 = -1 ∧
      written (clientWritevAll peer tls [(.head, headers), (.body, body)] t).1 ≠ written t) := by
  rw [clientWritevAll_two peer tls hne]
  unfold CutOff clientWriteAll
  rw [if_neg hne]
  cases hhead : peer.refuses t.length with
  | some n =>
      dsimp only
      rw [andThen_neg]
      by_cases hn : 0 < n
      · refine Or.inr ⟨Or.inl ⟨n, hn, rfl⟩, rfl, ?_⟩
        rw [written_append]
        intro hsame
        have hnil : (headers.take n) ++ [] = [] := List.append_right_eq_self.mp hsame
        rw [List.append_nil, List.take_eq_nil_iff] at hnil
        rcases hnil with hzero | hnil
        · omega
        · exact hne hnil
      · have hzero : n = 0 := by omega
        refine Or.inl ⟨?_, Or.inr ⟨?_, ?_⟩⟩
        · rintro (⟨m, hm, hsome⟩ | ⟨hnone, -⟩)
          · rw [Option.some.injEq] at hsome
            omega
          · exact absurd hnone (Option.some_ne_none n)
        · rw [written_append, hzero]
          exact List.append_nil _
        · rw [headsSent_append, hzero]
          rfl
  | none =>
      dsimp only
      rw [andThen_zero]
      by_cases hbody : body = []
      · rw [if_pos hbody, andThen_zero]
        refine Or.inl ⟨?_, Or.inl rfl⟩
        rintro (⟨m, -, hsome⟩ | ⟨-, hpos, -⟩)
        · exact absurd hsome.symm (Option.some_ne_none m)
        · rw [hbody] at hpos
          exact Nat.lt_irrefl 0 hpos
      · have hpos : 0 < body.length := List.length_pos_of_ne_nil hbody
        rw [if_neg hbody, List.length_append, List.length_singleton]
        cases hrest : peer.refuses (t.length + 1) with
        | none =>
            refine Or.inl ⟨?_, Or.inl rfl⟩
            rintro (⟨m, -, hsome⟩ | ⟨-, -, m, hsome⟩)
            · exact absurd hsome.symm (Option.some_ne_none m)
            · exact absurd hsome.symm (Option.some_ne_none m)
        | some n =>
            dsimp only
            rw [andThen_neg]
            refine Or.inr ⟨Or.inr ⟨rfl, hpos, n, rfl⟩, rfl, ?_⟩
            rw [written_append, written_append, List.append_assoc]
            intro hsame
            have hnil := List.append_right_eq_self.mp hsame
            exact hne (List.append_eq_nil_iff.mp
              (List.append_eq_nil_iff.mp hnil).1).1

/-- The first attempt of `send_file_fd`. -/
def firstAttempt (w : World) (site : Site) (status : ℤ) (path : Bytes) (file : OpenFile)
    (cached : Option StaticMeta) (req : HttpRequest) (t : Trace) : Trace × ℤ :=
  trySmallFile w status (servedMime cached path) file
    (wholeFileOptions site status (servedEtag cached) file.stat) req t

theorem firstAttempt_of_attempted (h : Attempted w site status path file cached req) (t : Trace) :
    ∃ headers, headers ≠ [] ∧ firstAttempt w site status path file cached req t =
      clientWritevAll w.peer w.client.tls
        [(.head, headers), (.body, file.content.take file.stat.size)] t := by
  obtain ⟨headers, hheaders⟩ := Option.isSome_iff_exists.mp h.head
  refine ⟨headers, ne_nil_of_build hheaders, ?_⟩
  have hwhole : (file.content.take file.stat.size).length = file.stat.size := by
    rw [List.length_take]
    exact min_eq_left h.whole
  unfold firstAttempt trySmallFile
  rw [h.body, Bool.not_false, Bool.true_and, if_pos (decide_eq_true h.small)]
  unfold writeSmallFileResponse
  rw [if_neg (not_lt.mpr h.small), hheaders]
  dsimp only
  rw [if_neg (not_not.mpr hwhole)]

/-- An attempt that is not made writes nothing. -/
theorem firstAttempt_of_not (hplain : SentPlain w site status path file cached req)
    (h : ¬ Attempted w site status path file cached req) (t : Trace) :
    firstAttempt w site status path file cached req t = (t, -1) := by
  unfold firstAttempt trySmallFile
  split_ifs with htried
  · rw [Bool.and_eq_true, Bool.not_eq_true', decide_eq_true_iff] at htried
    unfold writeSmallFileResponse
    rw [if_neg (not_lt.mpr htried.2)]
    cases hbuild : buildResponseHeaders w.host w.client status (servedMime cached path)
        (some file.stat.size) req.keepAlive
        (wholeFileOptions site status (servedEtag cached) file.stat) responseHeadLen with
    | none => rfl
    | some headers =>
        dsimp only
        rw [if_pos]
        intro hwhole
        rw [List.length_take] at hwhole
        exact h ⟨hplain, htried.1, htried.2, Option.isSome_iff_exists.mpr ⟨headers, hbuild⟩,
          min_eq_left_iff.mp hwhole⟩
  · rfl

/-- At most one head goes out, and `send_file_fd` goes on behind a failed attempt only if the
attempt has handed no byte to the client. -/
structure OneHead (w : World) (site : Site) (status : ℤ) (path : Bytes) (file : OpenFile)
    (cached : Option StaticMeta) (req : HttpRequest) (t : Trace) : Prop where
  heads : headsSent (sendFileFd w site status path file cached req t).1 ≤ headsSent t + 1
  fallback : SentPlain w site status path file cached req →
    (firstAttempt w site status path file cached req t).2 ≠ 0 →
      written (firstAttempt w site status path file cached req t).1 = written t

/-- The last part of `send_file_fd`, by the end of its attempt. -/
theorem sendWholeFile_eq (t : Trace) :
    sendWholeFile w site status (servedMime cached path) (servedEtag cached) file req t =
      if (firstAttempt w site status path file cached req t).2 = 0 then
        (logAccess status file.stat.size (firstAttempt w site status path file cached req t).1, 0)
      else sendPlainFile w status (servedMime cached path) file
        (wholeFileOptions site status (servedEtag cached) file.stat) req
        (firstAttempt w site status path file cached req t).1 := rfl

/-- A second attempt behind no byte. -/
theorem oneHead_of_clean (hplain : SentPlain w site status path file cached req) {t : Trace}
    (hwritten : written (firstAttempt w site status path file cached req t).1 = written t)
    (hheads : headsSent (firstAttempt w site status path file cached req t).1 = headsSent t) :
    OneHead w site status path file cached req t where
  heads := by
    rw [sendFileFd_plain hplain, sendWholeFile_eq]
    split_ifs
    · refine (addsHeads_log status file.stat.size 0 _).trans ?_
      rw [hheads]
      exact Nat.le_add_right _ _
    · refine (addsHeads_sendPlainFile _ _ _ _ _).trans_eq ?_
      rw [hheads]
  fallback := fun _ _ => hwritten

/-- **Exactly when one head goes out, and no second attempt behind bytes**: for every outcome of the
writes and every file, unless the first attempt is cut off behind its first byte. -/
theorem sendFileFd_oneHead_iff (w : World) (site : Site) (status : ℤ) (path : Bytes)
    (file : OpenFile) (cached : Option StaticMeta) (req : HttpRequest) (t : Trace) :
    OneHead w site status path file cached req t ↔
      ¬ (Attempted w site status path file cached req ∧ CutOff w.peer file.stat.size t) := by
  by_cases hplain : SentPlain w site status path file cached req
  · by_cases hattempted : Attempted w site status path file cached req
    · obtain ⟨headers, hne, hattempt⟩ := firstAttempt_of_attempted hattempted t
      have hlength : (file.content.take file.stat.size).length = file.stat.size := by
        rw [List.length_take]
        exact min_eq_left hattempted.whole
      rcases @clientWritev_small w.peer w.client.tls headers
        (file.content.take file.stat.size) hne t with
        ⟨hnot, hdone | ⟨hwritten, hheads⟩⟩ | ⟨hcut, hfailed, hwritten⟩
      · rw [hlength] at hnot
        refine iff_of_true ⟨?_, fun _ hrc => absurd ?_ hrc⟩ fun h => hnot h.2
        · rw [sendFileFd_plain hplain, sendWholeFile_eq, hattempt, if_pos hdone]
          refine (addsHeads_log status file.stat.size 0 _).trans ?_
          rw [clientWritevAll_two w.peer w.client.tls hne]
          exact ((addsHeads_head w.peer _).andThen
            ((addsHeads_body w.peer _).andThen (addsHeads_return 0))) t
        · rw [hattempt]
          exact hdone
      · rw [hlength] at hnot
        rw [← hattempt] at hwritten hheads
        exact iff_of_true (oneHead_of_clean hplain hwritten hheads) fun h => hnot h.2
      · rw [hlength] at hcut
        refine iff_of_false (fun h => ?_) fun h => h ⟨hattempted, hcut⟩
        have hclean := h.fallback hplain (by rw [hattempt, hfailed]; decide)
        rw [hattempt] at hclean
        exact hwritten hclean
    · have hnothing := firstAttempt_of_not hplain hattempted t
      exact iff_of_true (oneHead_of_clean hplain (by rw [hnothing]) (by rw [hnothing]))
        fun h => hattempted h.1
  · exact iff_of_true ⟨addsHeads_sendFileFd hplain t, fun h => absurd h hplain⟩
      fun h => hplain h.1.plain

/-- A client that is slow behind the third byte of the body. -/
def slowWorld : World := { sampleWorld with peer := ⟨fun k => if k = 1 then some 3 else none⟩ }

/-- A file of five bytes. -/
def helloFile : OpenFile := ⟨⟨7, 5, 1000⟩, true, ascii "hello"⟩

theorem second_head_behind_attempt :
    let req : HttpRequest := { method := ascii "GET", path := ascii "/a.txt" }
    let r := sendFileFd slowWorld {} 200 (ascii "a.txt") helloFile none req []
    headsSent r.1 = 2 ∧ r.2 = 0 ∧
      ¬ OneHead slowWorld {} 200 (ascii "a.txt") helloFile none req [] := by
  intro req r
  have hrun : (headsSent r.1, r.2) = (2, 0) := by decide +kernel
  obtain ⟨hcount, hrc⟩ := Prod.mk.inj hrun
  refine ⟨hcount, hrc, fun h => ?_⟩
  have hheads : headsSent r.1 ≤ 0 + 1 := h.heads
  omega

end Rpsiod

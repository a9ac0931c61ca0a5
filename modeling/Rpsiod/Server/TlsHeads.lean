import Rpsiod.Server.BackendFailure
import Rpsiod.Server.HeadIntegrity

/-!
# The policy for heads over TLS

A site that hides the server has no `Server` field in its responses over TLS, and has
`Strict-Transport-Security` once, unless it removes that field.

* `uniform_of_composed`: **every composed head keeps the policy**.
* `relayedPart_answer`: what is written without a composed head in front of it is what `serve_proxy`
  passes on.
* `uniformAnswer_iff`: **exactly when an answer keeps the policy**.
-/

namespace Rpsiod

open ListSearch Crlf FastCgi Collect

/-! ### The policy -/

/-- The name of the field for HTTPS only. -/
def hstsName : Bytes := ascii "Strict-Transport-Security"

/-- How many of these fields a response over TLS has. -/
def Site.hstsCount (site : Site) : ℕ := if headerRemoved (some site) hstsName then 0 else 1

/-- The policy of a site, for a response in which every name occurs so often. -/
structure Uniform (site : Site) (count : Bytes → ℕ) : Prop where
  server : count (ascii "Server") = 0
  hsts : count hstsName = site.hstsCount

instance (site : Site) (count : Bytes → ℕ) : Decidable (Uniform site count) :=
  decidable_of_iff (count (ascii "Server") = 0 ∧ count hstsName = site.hstsCount)
    ⟨fun h => ⟨h.1, h.2⟩, fun h => ⟨h.server, h.hsts⟩⟩

/-- The lines of the heads that a client reads, up to the final response; a head without an end is
all that there is. -/
def shownHeads : ℕ → Bytes → List (List Bytes)
  | 0, _ => []
  | fuel + 1, bytes =>
      match splitHead bytes with
      | none => [lines bytes]
      | some (ls, rest) =>
          let interim := match parseProxyStatusLine bytes with
            | some status => status < 200 && status ≠ 101
            | none => false
          ls :: if interim && rest ≠ [] then shownHeads fuel rest else []

/-- The policy for a response with these bytes: all its heads keep it. -/
def UniformResponse (site : Site) (bytes : Bytes) : Prop :=
  ∀ ls ∈ shownHeads bytes.length bytes,
    Uniform site fun name => ls.tail.countP fun line => streqCi (lineName line) name

instance (site : Site) (bytes : Bytes) : Decidable (UniformResponse site bytes) :=
  inferInstanceAs (Decidable (∀ ls ∈ shownHeads bytes.length bytes, _))

/-! ### Composed heads -/

section composed

variable (host : Host) (client : Client) (contentType : Bytes) (contentLength : Option ℕ)
  (keepAlive : Bool) (opts : ResponseOptions)

theorem ownNames_policy : ∀ hasLength,
    (∀ n ∈ ownNames hasLength, streqCi n (ascii "Server") = true → n = ascii "Server") ∧
    (∀ n ∈ ownNames hasLength, streqCi n hstsName = true → n = hstsName) ∧
    (ownNames hasLength).countP (fun n => streqCi n hstsName) ≤ 1 := by
  decide +kernel

/-- The server shows itself among the leading fields only. -/
theorem server_mem_ownFields {value : Bytes}
    (h : (ascii "Server", value) ∈
      ownFields host client contentType contentLength keepAlive opts) :
    (opts.site.any fun s => s.hideServerHeader) = false := by
  have hframing : ∀ hasLength, ascii "Server" ∉ [framingName hasLength] := by decide
  have htrailing : ascii "Server" ∉ trailingNames := by decide
  rcases List.mem_append.mp h with h | h
  · rcases List.mem_append.mp h with h | h
    · unfold leadingFields at h
      simp +decide only [List.mem_append, mem_fieldIf, mem_fieldOf, Prod.mk.injEq, false_and,
        and_false, exists_false, or_false, false_or, Bool.and_eq_true, Bool.not_eq_true'] at h
      exact h.1.1
    · have hnames := names_framingFields opts.site contentLength opts.chunkedResponse
      exact absurd (hnames.subset (List.mem_map_of_mem h)) (hframing _)
  · have hnames := names_trailingFields host client keepAlive opts
    exact absurd (hnames.subset (List.mem_map_of_mem h)) htrailing

/-- The field for HTTPS is among the trailing fields only. -/
theorem hsts_mem_ownFields (value : Bytes) :
    (hstsName, value) ∈ ownFields host client contentType contentLength keepAlive opts ↔
      (client.tls = true ∧ headerRemoved opts.site hstsName = false) ∧
        value = ascii "max-age=31536000; includeSubDomains" := by
  have hleading : hstsName ∉ leadingNames := by decide
  have hframing : ∀ hasLength, hstsName ∉ [framingName hasLength] := by decide
  have hfront : (hstsName, value) ∉ leadingFields host contentType opts ++
      framingFields opts.site contentLength opts.chunkedResponse :=
    not_mem_frontFields hleading hframing host contentType contentLength opts
  unfold ownFields
  rw [List.mem_append, or_iff_right hfront]
  unfold trailingFields hstsName
  simp +decide only [List.mem_append, mem_fieldIf, mem_fieldOf, Prod.mk.injEq, false_and,
    and_false, exists_false, or_false, false_or, true_and, Bool.and_eq_true, Bool.not_eq_true']

theorem countFields_server (h : (opts.site.any fun s => s.hideServerHeader) = true) :
    countFields (ascii "Server")
      (ownFields host client contentType contentLength keepAlive opts) = 0 := by
  apply List.countP_eq_zero.mpr
  rintro ⟨name, value⟩ hf hname
  have hnames := names_ownFields host client contentType contentLength keepAlive opts
  obtain rfl := (ownNames_policy _).1 name (hnames.subset (List.mem_map_of_mem hf)) hname
  rw [server_mem_ownFields _ _ _ _ _ _ hf] at h
  cases h

theorem countFields_hsts (tls : client.tls = true) :
    countFields hstsName (ownFields host client contentType contentLength keepAlive opts) =
      if headerRemoved opts.site hstsName then 0 else 1 := by
  have hnames := names_ownFields host client contentType contentLength keepAlive opts
  split_ifs with hremoved
  · apply List.countP_eq_zero.mpr
    rintro ⟨name, value⟩ hf hname
    obtain rfl := (ownNames_policy _).2.1 name (hnames.subset (List.mem_map_of_mem hf)) hname
    have hkept := ((hsts_mem_ownFields host client contentType contentLength keepAlive opts
      value).mp hf).1.2
    rw [hremoved] at hkept
    cases hkept
  · rw [Bool.not_eq_true] at hremoved
    have hmem := (hsts_mem_ownFields host client contentType contentLength keepAlive opts _).mpr
      ⟨⟨tls, hremoved⟩, rfl⟩
    refine le_antisymm ?_ (List.countP_pos_iff.mpr ⟨_, hmem, streqCi_iff.mpr rfl⟩)
    exact (countFields_ownFields_le host client contentType contentLength keepAlive opts
      hstsName).trans (ownNames_policy _).2.2

end composed

variable {w : World} {site : Site} {req : HttpRequest}

/-- A composed head has the same lines to every reader. -/
theorem ComposedHead.shownHeads_eq {site : Option Site} {head : Bytes}
    (h : ComposedHead w site head) :
    ∃ ls, splitHead head = some (ls, []) ∧ shownHeads head.length head = [ls] := by
  have hsplit : ∃ ls, splitHead head = some (ls, []) := by
    rcases h.keepsLines with ⟨_, _, _, _, _, -, hls, -⟩ | ⟨_, _, _, _, _, _, _, -, hls, -, -⟩
    · exact ⟨_, hls⟩
    · exact ⟨_, hls⟩
  obtain ⟨ls, hls⟩ := hsplit
  refine ⟨ls, hls, ?_⟩
  cases hlength : head.length with
  | zero =>
      rw [List.length_eq_zero_iff.mp hlength] at hls
      cases hls
  | succ n =>
      unfold shownHeads
      rw [hls]
      simp

/-- **Every composed head keeps the policy.** -/
theorem uniform_of_composed {head : Bytes} (h : ComposedHead w (some site) head)
    (configured : site.Configured) (hide : site.hideServerHeader = true)
    (tls : w.client.tls = true) : UniformResponse site head := by
  obtain ⟨ls, hsplit, hshown⟩ := h.shownHeads_eq
  obtain ⟨contentType, contentLength, keepAlive, opts, hsite, hcount⟩ :=
    h.countNamed_eq fun s hs => Option.mem_some.mp hs ▸ configured
  have hsame := hcount false fun _ _ _ _ => rfl
  unfold countNamed at hsame
  rw [hsplit] at hsame
  intro shown hmem
  rw [hshown] at hmem
  rw [List.mem_singleton.mp hmem]
  constructor
  · refine (hsame _ (by decide)).trans ?_
    apply countFields_server
    rw [hsite]
    exact hide
  · refine (hsame _ (by decide)).trans ?_
    rw [countFields_hsts _ _ _ _ _ _ tls, hsite]
    rfl

/-! ### What is written in front of a composed head -/

/-- The bytes that are written in front of the first composed head, or all of them without one. -/
def relayedPart (t : Trace) : Bytes := written (t.takeWhile fun e => !e.isHead)

/-- No bytes are. -/
def Covered (t : Trace) : Prop := relayedPart t = []

/-- There is a composed head. -/
def HasHead (t : Trace) : Prop := t.any Event.isHead = true

theorem relayedPart_append_of_hasHead {t : Trace} (h : HasHead t) (ev : Trace) :
    relayedPart (t ++ ev) = relayedPart t := by
  induction t with
  | nil => cases h
  | cons e t ih =>
      unfold relayedPart HasHead at *
      rw [List.cons_append]
      cases hhead : e.isHead with
      | true =>
          rw [List.takeWhile_cons_of_neg (by simp [hhead]),
            List.takeWhile_cons_of_neg (by simp [hhead])]
      | false =>
          rw [List.any_cons, hhead, Bool.false_or] at h
          rw [List.takeWhile_cons_of_pos (by simp [hhead]),
            List.takeWhile_cons_of_pos (by simp [hhead]), written_cons, written_cons, ih h]

theorem relayedPart_append_of_not {t : Trace} (h : ¬ HasHead t) (ev : Trace) :
    relayedPart (t ++ ev) = written t ++ relayedPart ev := by
  have hall : ∀ e ∈ t, (!e.isHead) = true := by
    intro e he
    cases hhead : e.isHead with
    | true => exact absurd (List.any_eq_true.mpr ⟨e, he, hhead⟩) h
    | false => rfl
  unfold relayedPart
  rw [List.takeWhile_append_of_pos hall, written_append]

theorem Covered.append {t ev : Trace} (ht : Covered t) (h : HasHead t ∨ Covered ev) :
    Covered (t ++ ev) := by
  by_cases hhead : HasHead t
  · exact (relayedPart_append_of_hasHead hhead ev).trans ht
  · have hev := h.resolve_left hhead
    have hquiet := relayedPart_append_of_not hhead []
    rw [List.append_nil] at hquiet
    have hwritten : written t = [] := (List.append_eq_nil_iff.mp (hquiet.symm.trans ht)).1
    unfold Covered
    rw [relayedPart_append_of_not hhead, hwritten, List.nil_append]
    exact hev

theorem HasHead.append {t : Trace} (h : HasHead t) (ev : Trace) : HasHead (t ++ ev) := by
  unfold HasHead at *
  rw [List.any_append, h, Bool.true_or]

theorem covered_nil : Covered [] := rfl

/-- Nothing is written. -/
theorem covered_of_quiet {t : Trace} (h : Quiet t) : Covered t := by
  unfold Covered relayedPart
  induction t with
  | nil => rfl
  | cons e t ih =>
      have hquiet := h e List.mem_cons_self
      have hnone : e.isHead = false ∧ e.bytes = [] := by
        cases e with
        | head _ => cases hquiet
        | body _ => cases hquiet
        | backendFailed => exact ⟨rfl, rfl⟩
        | logged _ _ => exact ⟨rfl, rfl⟩
      rw [List.takeWhile_cons_of_pos (by simp [hnone.1]), written_cons, hnone.2, List.nil_append]
      exact ih fun e he => h e (List.mem_cons_of_mem _ he)

theorem covered_head (head : Bytes) (rest : Trace) : Covered (.head head :: rest) := rfl

theorem covered_of_reply {S : ℤ → ℕ → Prop} {ev : Trace} {rc : ℤ} {site : Option Site}
    (h : Reply w site req S ev rc) : Covered ev := by
  cases h with
  | unsent failed quiet backend => exact covered_of_quiet quiet
  | sent status contentType length opts head site_eq allowed oneLine built tail body =>
      exact covered_head head _

/-- A responder without a backend. -/
theorem Covered.replies {S : ℤ → ℕ → Prop} {f : Trace → Trace × ℤ} {site : Option Site}
    (h : Replies w site req S f) {t : Trace} (ht : Covered t) : Covered (f t).1 := by
  obtain ⟨ev, rc, hf, hreply⟩ := h
  rw [hf]
  exact ht.append (Or.inr (covered_of_reply hreply))

/-! ### FastCGI responses -/

theorem Covered.backendError (hpeer : w.peer = .willing) {t : Trace} (ht : Covered t)
    (status : ℤ) : Covered (backendError w site req status t).1 :=
  (ht.append (Or.inr (covered_of_quiet quiet_failed))).replies
    (replies_sendErrorPage hpeer site status)

/-- What holds behind the loop body of `send_php_fpm`: a response that has started has a head. -/
def Flow.Covers : Flow → Prop
  | .next st t => Covered t ∧ (st.responseStarted = true → HasHead t)
  | .stop r => Covered r.1

theorem hasHead_concat (t : Trace) (head : Bytes) (rest : Trace) :
    HasHead (t ++ .head head :: rest) := by
  unfold HasHead
  rw [List.any_append, List.any_cons]
  show (t.any Event.isHead || (true || _)) = true
  rw [Bool.true_or, Bool.or_true]

theorem covers_phpStart (hpeer : w.peer = .willing) {t : Trace} (ht : Covered t)
    (headerBuffer : Bytes) (stop : ℕ) : (phpStart w site req headerBuffer stop t).Covers := by
  cases halloc : w.allocates with
  | false =>
      unfold phpStart
      rw [halloc, if_pos (by decide)]
      exact ht.replies (replies_sendErrorPage hpeer site 500)
  | true =>
      rw [phpStart_eq hpeer halloc]
      cases phpHead w site req (cgiHeaders headerBuffer stop) with
      | none => exact ht
      | some head => exact ⟨ht.append (Or.inr (covered_head head _)), fun _ => hasHead_concat t head _⟩

theorem Covered.log {t : Trace} (ht : Covered t) (status : ℤ) (bytes : ℕ) :
    Covered (logAccess status bytes t) :=
  ht.append (Or.inr rfl)

theorem covered_phpFinish (hpeer : w.peer = .willing) {st : PhpState} {t : Trace} (ht : Covered t)
    (hst : st.responseStarted = true → HasHead t) : Covered (phpFinish w site req st t).1 := by
  unfold phpFinish
  split_ifs with hstarted hend
  · -- no head so far: the whole output is the body
    dsimp only
    rw [writePhpResponseHeaders_eq hpeer]
    cases phpResponseHead w.host w.client site st.status (ascii "text/html; charset=utf-8")
        (some st.headerBuffer.length) req.keepAlive [] false with
    | none => exact ht.log _ _
    | some head =>
        have hhead : Covered (t ++ [.head head]) := ht.append (Or.inr (covered_head head []))
        dsimp only
        split_ifs
        · rw [hpeer, clientWriteAll_willing]
          exact (hhead.append (Or.inl (hasHead_concat t head []))).log _ _
        · exact hhead.log _ _
  · rw [Bool.not_eq_true', Bool.not_eq_false] at hstarted
    dsimp only
    unfold clientWriteChunkedEnd
    rw [hpeer, clientWriteAll_willing]
    exact (ht.append (Or.inl (hst hstarted))).log _ _
  · exact ht.log _ _

theorem covers_phpStep (hpeer : w.peer = .willing) (r : Record) {st : PhpState} {t : Trace}
    (ht : Covered t) (hst : st.responseStarted = true → HasHead t) :
    (phpStep w site req r st t).Covers := by
  unfold phpStep
  split_ifs with hout hstarted hfull hend
  · exact ht.backendError hpeer 502
  · dsimp only
    cases indexOfSub crlfcrlf (st.headerBuffer ++ r.content) with
    | none => exact ⟨ht, hst⟩
    | some stop => exact covers_phpStart hpeer ht _ stop
  · rw [Bool.not_eq_true', Bool.not_eq_false] at hstarted
    have hhead := hst hstarted
    rw [writePhpBody_eq hpeer]
    exact ⟨ht.append (Or.inl hhead), fun _ => hhead.append _⟩
  · exact covered_phpFinish hpeer ht hst
  · exact ⟨ht, hst⟩

theorem covered_phpLoop (hpeer : w.peer = .willing) (ending : BackendEnd) (fuel : ℕ)
    (pieces : List Piece) {st : PhpState} {t : Trace} (ht : Covered t)
    (hst : st.responseStarted = true → HasHead t) :
    Covered (phpLoop w site req ending fuel pieces st t).1 := by
  induction fuel generalizing pieces st t with
  | zero => exact ht
  | succ fuel ih =>
      rw [phpLoop]
      cases readRecord pieces with
      | none => exact ht.backendError hpeer ending.status
      | some p =>
          obtain ⟨r, rest⟩ := p
          have hstep := @covers_phpStep w site req hpeer r st t ht hst
          dsimp only
          cases hflow : phpStep w site req r st t with
          | stop result =>
              rw [hflow] at hstep
              exact hstep
          | next st' t' =>
              rw [hflow] at hstep
              exact ih rest hstep.1 hstep.2

/-- **`send_php_fpm`**. -/
theorem covered_sendPhpFpm (hpeer : w.peer = .willing) (script body : Bytes) (fpm : Fpm)
    {t : Trace} (ht : Covered t) : Covered (sendPhpFpm w site req script body fpm t).1 := by
  have hpage : ∀ status, Covered (sendErrorPage w site status req t).1 := fun status =>
    ht.replies (replies_sendErrorPage hpeer site status)
  have hfailed : Covered (backendError w site req 502 t).1 := ht.backendError hpeer 502
  unfold sendPhpFpm
  cases fcgiParams w.client site req script with
  | none =>
      dsimp only
      split_ifs
      · exact hfailed
      · exact hfailed
      · exact hpage 414
      · exact hpage 414
      · exact hpage 500
  | some params =>
      dsimp only
      split_ifs
      · exact hfailed
      · exact hfailed
      · exact hpage 414
      · exact hpage 414
      · exact hfailed
      · exact hpage 413
      · exact hfailed
      · exact covered_phpLoop hpeer _ _ _ ht nofun

/-! ### Relayed responses -/

/-- What `serve_proxy` passes on, if it comes to that. -/
def relayed (w : World) (site : Site) (req : HttpRequest) (upstream : Upstream)
    (buf body : Bytes) : Option Bytes :=
  if !upstream.connects || !w.allocates ||
      (buildProxyRequest (proxyCapacity req body) w.client site req buf body).isNone ||
      !upstream.takesRequest then none
  else
    match collect crlf firstResponseLen [] (readBytes upstream.reads) with
    | .found all _ rest =>
        (parseProxyStatusLine all).map fun status =>
          all ++ if Tunnels site req status then upstream.tunnelled else rest.flatten
    | _ => none

theorem not_hasHead_of_tail {t : Trace} (h : Tail t) : ¬ HasHead t := by
  intro hhead
  obtain ⟨e, he, hisHead⟩ := List.any_eq_true.mp hhead
  cases e with
  | head b => exact h.noHead b he
  | body _ => cases hisHead
  | backendFailed => cases hisHead
  | logged _ _ => cases hisHead

theorem relayedPart_of_tail {t : Trace} (h : Tail t) : relayedPart t = written t := by
  have happend := relayedPart_append_of_not (not_hasHead_of_tail h) []
  rw [List.append_nil] at happend
  exact happend.trans (List.append_nil _)

/-- An error page behind body bytes. -/
theorem relayedPart_backendError (hpeer : w.peer = .willing) (status : ℤ) {t : Trace}
    (h : Tail t) : relayedPart (backendError w site req status t).1 = written t := by
  obtain ⟨ev, rc, hev, hreply⟩ := @replies_sendErrorPage w req hpeer site status
  have hcovered : Covered (.backendFailed :: ev) :=
    (covered_of_quiet quiet_failed).append (Or.inr (covered_of_reply hreply))
  unfold backendError
  rw [hev, List.append_assoc, relayedPart_append_of_not (not_hasHead_of_tail h)]
  exact (congrArg (written t ++ ·) hcovered).trans (List.append_nil _)

theorem relayedPart_relayLoop (hpeer : w.peer = .willing) (upstream : Upstream) :
    relayedPart
        (relayLoop w site req upstream.ending upstream.tunnelled upstream.reads {} []).1 =
      (match collect crlf firstResponseLen [] (readBytes upstream.reads) with
        | .found all _ rest =>
            (parseProxyStatusLine all).map fun status =>
              all ++ if Tunnels site req status then upstream.tunnelled else rest.flatten
        | _ => none).getD [] := by
  have hrun : relayLoop w site req upstream.ending upstream.tunnelled upstream.reads {} [] = _ :=
    relayLoop_eq hpeer upstream.ending upstream.tunnelled upstream.reads [] []
  have hpage : ∀ status, relayedPart (backendError w site req status []).1 = [] := fun status =>
    relayedPart_backendError hpeer status tail_nil
  rw [hrun]
  cases collect crlf firstResponseLen [] (readBytes upstream.reads) with
  | full => exact hpage 502
  | short all => exact hpage _
  | found all stop rest =>
      dsimp only
      cases parseProxyStatusLine all with
      | none => exact hpage 502
      | some status =>
          dsimp only [Option.map_some, Option.getD_some]
          by_cases htunnel : Tunnels site req status
          · rw [if_pos htunnel, if_pos htunnel]
            have htail : Tail ([] ++ .body all :: writeOf .body upstream.tunnelled) :=
              (tail_singleton rfl).append (tail_writeOf upstream.tunnelled)
            unfold relayDone logAccess
            rw [relayedPart_of_tail (tail_logged htail _ _), written_append, List.nil_append,
              written_cons, written_writeOf_body]
            exact List.append_nil _
          · rw [if_neg htunnel, if_neg htunnel]
            have htail := tail_bodies (all :: rest)
            have hbytes : written ((all :: rest).map .body) = all ++ rest.flatten :=
              written_bodies _
            unfold relayEnd
            rw [List.nil_append]
            split_ifs
            · rw [relayedPart_backendError hpeer _ htail, hbytes]
            · unfold relayDone logAccess
              rw [relayedPart_of_tail (tail_logged htail _ _), written_append, hbytes]
              exact List.append_nil _

/-- **What is written in front of a composed head** is what `serve_proxy` passes on. -/
theorem relayedPart_serveProxy (hpeer : w.peer = .willing) (upstream : Upstream)
    (buf body : Bytes) :
    relayedPart (serveProxy w site req upstream buf body []).1 =
      (relayed w site req upstream buf body).getD [] := by
  have hpage : ∀ status, relayedPart (sendErrorPage w site status req []).1 = [] := fun status =>
    covered_nil.replies (replies_sendErrorPage hpeer site status)
  have hfailed : relayedPart (backendError w site req 502 []).1 = [] :=
    relayedPart_backendError hpeer 502 tail_nil
  unfold serveProxy relayed
  cases hconnects : upstream.connects with
  | false => exact hfailed
  | true =>
      cases halloc : w.allocates with
      | false => exact hpage 500
      | true =>
          cases buildProxyRequest (proxyCapacity req body) w.client site req buf body with
          | none => exact hpage 502
          | some request =>
              cases htakes : upstream.takesRequest with
              | false => exact hfailed
              | true => exact relayedPart_relayLoop hpeer upstream

/-! ### Every answer -/

/-- Texts, also an empty one. -/
theorem covered_sendText (hpeer : w.peer = .willing) (site : Option Site) (status : ℤ)
    (text : Bytes) {t : Trace} (ht : Covered t) :
    Covered (sendText w site status text req t).1 := by
  unfold sendText sendShort
  cases hbuilt : buildResponseHeaders w.host w.client status plainText (some text.length)
      req.keepAlive { site := site } responseHeadLen with
  | none =>
      rw [writeHead_of_none hbuilt, andThen_neg]
      exact ht
  | some head =>
      have hhead : Covered (t ++ [.head head]) := ht.append (Or.inr (covered_head head []))
      have hgrow : ∀ ev, Covered (t ++ [.head head] ++ ev) := fun ev =>
        hhead.append (Or.inl (hasHead_concat t head []))
      rw [writeHead_of_build hpeer hbuilt, andThen_zero]
      split_ifs
      · exact hhead.log _ _
      · unfold clientWritevAll
        split_ifs
        · exact hhead
        · rw [hpeer, writeEach_willing, andThen_zero]
          exact (hgrow _).log _ _

theorem covered_serveStatic (hpeer : w.peer = .willing) (course : Course) (cache : MetaCache)
    (fpm : Fpm) (body : Bytes) (h : Unbroken req.path) {t : Trace} (ht : Covered t) :
    Covered (serveStatic w site course cache fpm req body t).1 := by
  have hunder : (w.under course.variants).peer = .willing := hpeer
  unfold serveStatic
  dsimp only
  cases staticAnswer (w.under course.variants) site course cache req with
  | sendErrorPage status => exact ht.replies (replies_sendErrorPage hunder site status)
  | sendFileFd status path file cached =>
      exact ht.replies (replies_sendFileFd hunder site status path file cached)
  | redirectDirectorySlash =>
      exact ht.replies (replies_redirectDirectorySlash hunder site h.1.1)
  | sendPhpFpm script => exact covered_sendPhpFpm hunder script body fpm ht

/-- What the answer passes on. -/
def Serving.relayedBy (s : Serving) (req : HttpRequest) (buf body : Bytes) :
    Responder → Option Bytes
  | .serveProxy (some site) => relayed s.w site req s.upstream buf body
  | _ => none

theorem relayedPart_respond (s : Serving) (hpeer : s.w.peer = .willing) (buf body : Bytes)
    (h : Unbroken req.path) {r : Responder}
    (location : ∀ site status target, r = .sendRedirect site status target → Unbroken target) :
    relayedPart (s.respond req buf body [] r).1 = (s.relayedBy req buf body r).getD [] := by
  cases r with
  | sendText site status text => exact covered_sendText hpeer site status text covered_nil
  | sendRedirect site status target =>
      cases site with
      | none => exact covered_nil
      | some site =>
          exact covered_nil.replies
            (replies_sendRedirect hpeer site status (location _ _ _ rfl).1.1)
  | sendRateLimited site retryAfter =>
      cases site with
      | none => exact covered_nil
      | some site => exact covered_nil.replies (replies_sendRateLimited hpeer site retryAfter)
  | sendErrorPage site status =>
      cases site with
      | none => exact covered_nil
      | some site => exact covered_nil.replies (replies_sendErrorPage hpeer site status)
  | serveProxy site =>
      cases site with
      | none => exact covered_nil
      | some site => exact relayedPart_serveProxy hpeer s.upstream buf body
  | serveStatic site =>
      cases site with
      | none => exact covered_nil
      | some site => exact covered_serveStatic hpeer s.course s.cache s.fpm body h covered_nil

theorem relayedPart_serveRequest (cfg : Config) (s : Serving) (hpeer : s.w.peer = .willing)
    (buf body : Bytes) (h : PlainTexts req) :
    relayedPart (serveRequest cfg s req buf body []).1 =
      (s.relayedBy req buf body (dispatch cfg s.w.client s.limited req)).getD [] :=
  relayedPart_respond s hpeer buf body h.path fun _ _ _ hredirect =>
    unbroken_of_dispatch h hredirect

/-- What the answer to a buffer passes on of an upstream. -/
def answerRelay (cfg : Config) (s : Serving) (count : UInt32) (buf : Bytes) : Option Bytes :=
  match examine cfg s.w.client count buf with
  | .serve req body _ => s.relayedBy req buf body (dispatch cfg s.w.client s.limited req)
  | _ => none

/-- **What an answer writes in front of a composed head** is what it passes on. -/
theorem relayedPart_answer (cfg : Config) {s : Serving} (hpeer : s.w.peer = .willing)
    (count : UInt32) (buf : Bytes) :
    relayedPart (answer cfg s count buf) = (answerRelay cfg s count buf).getD [] := by
  unfold answer answerRelay
  cases hexamine : examine cfg s.w.client count buf with
  | more => exact covered_nil
  | badRequest req =>
      have hcovered := @covered_sendText s.w req hpeer none 400 badRequestText [] covered_nil
      exact hcovered
  | tooLarge site req =>
      cases site with
      | none => exact covered_nil
      | some found =>
          have hcovered := covered_nil.replies (@replies_sendErrorPage s.w req hpeer found 413)
          exact hcovered
  | serve req body keep =>
      obtain ⟨parsed, keepAlive, haccepted, -, rfl, -⟩ := examine_eq_serve hexamine
      have htexts := plainTexts_of_accepted haccepted
      have hserved := @relayedPart_serveRequest { parsed with keepAlive := keepAlive } cfg s hpeer buf
        body ⟨htexts.path, htexts.host, htexts.host_ne⟩
      exact hserved

/-! ### The policy for an answer -/

/-- Every composed head of an answer keeps the policy, and so does what is passed on. -/
structure UniformAnswer (site : Site) (t : Trace) : Prop where
  composed : ∀ b, .head b ∈ t → UniformResponse site b
  relayed : relayedPart t ≠ [] → UniformResponse site (relayedPart t)

theorem ne_nil_of_relayed {upstream : Upstream} {buf body bytes : Bytes}
    (h : relayed w site req upstream buf body = some bytes) : bytes ≠ [] := by
  unfold Rpsiod.relayed at h
  split_ifs at h
  cases hcollect : collect crlf firstResponseLen [] (readBytes upstream.reads) with
  | full =>
      rw [hcollect] at h
      cases h
  | short all =>
      rw [hcollect] at h
      cases h
  | found all stop rest =>
      rw [hcollect] at h
      obtain ⟨status, -, rfl⟩ := Option.map_eq_some_iff.mp h
      obtain ⟨-, hindex, -⟩ := collect_found hcollect
      refine List.append_ne_nil_of_left_ne_nil ?_ _
      rintro rfl
      cases hindex

theorem ne_nil_of_answerRelay {cfg : Config} {s : Serving} {count : UInt32} {buf bytes : Bytes}
    (h : answerRelay cfg s count buf = some bytes) : bytes ≠ [] := by
  unfold answerRelay Serving.relayedBy at h
  split at h
  · split at h
    · exact ne_nil_of_relayed h
    · cases h
  · cases h

/-- **The answer to a request over TLS keeps the policy of its site, exactly if what it passes on of
an upstream does.** -/
theorem uniformAnswer_iff (cfg : Config) {s : Serving} (hpeer : s.w.peer = .willing)
    (tls : s.w.client.tls = true) (count : UInt32) (buf : Bytes) {site : Site}
    (hsite : answerSite cfg s count buf = some site) (configured : site.Configured)
    (hide : site.hideServerHeader = true) :
    UniformAnswer site (answer cfg s count buf) ↔
      ∀ bytes ∈ answerRelay cfg s count buf, UniformResponse site bytes := by
  have hpart := relayedPart_answer cfg hpeer count buf
  constructor
  · intro h bytes hbytes
    have hrelay := h.relayed
    have hsome : answerRelay cfg s count buf = some bytes := hbytes
    rw [hpart, hsome, Option.getD_some] at hrelay
    exact hrelay (ne_nil_of_answerRelay hsome)
  · intro h
    constructor
    · intro b hb
      obtain ⟨head, hcomposed, -, hall⟩ := composed_of_mem_answer hb
      rw [hsite] at hcomposed
      rw [hall hpeer]
      exact uniform_of_composed hcomposed configured hide tls
    · intro hne
      rw [hpart] at hne ⊢
      cases hrelay : answerRelay cfg s count buf with
      | none =>
          rw [hrelay] at hne
          exact absurd rfl hne
      | some bytes => exact h bytes hrelay

end Rpsiod

import Rpsiod.Server.Event
import Rpsiod.Server.PhpRun
import Rpsiod.Server.ProxyRelay

/-!
# When a backend fails

`send_php_fpm` and `serve_proxy` answer a failure of their backend with an error page, wherever it
happens.  In front of the response that is right; behind its head it is a second response on the
same connection, and the handler returns 0 for it.

* `FailsCleanly`: no head behind another write, and nothing behind a failure in mid-response, which
  the handler reports.
* `Outcome`: **the three ways in which both handlers end**.
* `failsCleanly_iff`: **both fail cleanly, exactly if the backend does not break off a response that
  has begun, or the error page has no head**.
-/

namespace Rpsiod

open ListSearch Crlf FastCgi Collect

/-! ### Failing cleanly -/

/-- Nothing is written. -/
def Quiet (t : Trace) : Prop := ∀ e ∈ t, e.isWrite = false

/-- A head is the first thing that is written. -/
def HeadFirst (t : Trace) : Prop := ∀ front b back, t = front ++ .head b :: back → Quiet front

/-- The handler's result is an error, and `handle_client_event` ends the connection for it. -/
def ReportsFailure (rc : ℤ) : Prop :=
  rc ≠ 0 ∧ ∀ (env : Env) (c : Conn) (req : HttpRequest) (body : Bytes) (keep : Bool),
    env.serveResult c.served req body = rc → (c.serve env req body keep).status = .closed

/-- At most one head; behind a failure in mid-response nothing is written and the failure is
reported. -/
structure FailsCleanly (r : Trace × ℤ) : Prop where
  headFirst : HeadFirst r.1
  silent : ∀ front back, r.1 = front ++ .backendFailed :: back → ¬ Quiet front →
    Quiet back ∧ ReportsFailure r.2

theorem reportsFailure_of_ne {rc : ℤ} (h : rc ≠ 0) : ReportsFailure rc := by
  refine ⟨h, fun env c req body keep hrc => ?_⟩
  rw [serve_of_not_keep env fun hkeep => h (hrc ▸ hkeep.2)]

/-- An element that is not in the second half of a list is in the first. -/
theorem split_of_not_mem_right {α : Type*} {x : α} {front back l l' : List α}
    (h : l ++ l' = front ++ x :: back) (hx : x ∉ l') :
    ∃ mid, l = front ++ x :: mid ∧ back = mid ++ l' := by
  rcases List.append_eq_append_iff.mp h with ⟨c, rfl, hl'⟩ | ⟨c, rfl, hback⟩
  · exact absurd (hl' ▸ List.mem_append_right c List.mem_cons_self) hx
  · cases c with
    | nil =>
        rw [List.nil_append] at hback
        exact absurd (hback ▸ List.mem_cons_self) hx
    | cons y c =>
        obtain ⟨rfl, rfl⟩ := List.cons_eq_cons.mp hback
        exact ⟨c, rfl, rfl⟩

/-- An element that is not in the first half of a list is in the second. -/
theorem split_of_not_mem_left {α : Type*} {x : α} {front back l l' : List α}
    (h : l ++ l' = front ++ x :: back) (hx : x ∉ l) :
    ∃ mid, front = l ++ mid ∧ l' = mid ++ x :: back := by
  rcases List.append_eq_append_iff.mp h with ⟨c, rfl, hl'⟩ | ⟨c, rfl, hback⟩
  · exact ⟨c, rfl, hl'⟩
  · cases c with
    | nil => exact ⟨[], by simp, hback.symm⟩
    | cons y c =>
        obtain ⟨rfl, rfl⟩ := List.cons_eq_cons.mp hback
        exact absurd (List.mem_append_right front List.mem_cons_self) hx

theorem headFirst_of_noHead {t : Trace} (h : ∀ b, .head b ∉ t) : HeadFirst t := by
  rintro front b back rfl
  exact absurd (List.mem_append_right front List.mem_cons_self) (h b)

theorem headFirst_cons {head : Bytes} {rest : Trace} (h : ∀ b, .head b ∉ rest) :
    HeadFirst (.head head :: rest) := by
  intro front b back heq
  cases front with
  | nil => exact nofun
  | cons e front =>
      obtain ⟨-, rfl⟩ := List.cons_eq_cons.mp heq
      exact absurd (List.mem_append_right front List.mem_cons_self) (h b)

/-- At most one head is written. -/
theorem oneHead {t : Trace} (h : HeadFirst t) : t.countP Event.isHead ≤ 1 := by
  induction t with
  | nil => exact Nat.zero_le 1
  | cons e t ih =>
      by_cases he : e.isHead = true
      · have hnone : t.countP Event.isHead = 0 := by
          rw [List.countP_eq_zero]
          intro e' he' hhead
          cases e' with
          | head b =>
              obtain ⟨front, back, rfl⟩ := List.append_of_mem he'
              have hquiet := h (e :: front) b back rfl e List.mem_cons_self
              cases e with
              | head b => exact Bool.noConfusion hquiet
              | _ => exact Bool.noConfusion he
          | _ => exact Bool.noConfusion hhead
        rw [List.countP_cons_of_pos he, hnone]
      · rw [List.countP_cons_of_neg he]
        apply ih
        intro front b back heq e' he'
        exact h (e :: front) b back (by rw [heq]; rfl) e' (List.mem_cons_of_mem e he')

theorem headFirst_append {pre t : Trace} (hpre : Quiet pre) (h : HeadFirst t) :
    HeadFirst (pre ++ t) := by
  intro front b back heq
  have hnot : .head b ∉ pre := fun hmem => Bool.noConfusion (hpre _ hmem)
  obtain ⟨mid, rfl, rfl⟩ := split_of_not_mem_left heq hnot
  intro e he
  rcases List.mem_append.mp he with he | he
  · exact hpre e he
  · exact h mid b back rfl e he

theorem noError_cons (head : Bytes) {t : Trace} (h : Tail t) :
    .backendFailed ∉ Event.head head :: t := by
  intro hmem
  rcases List.mem_cons.mp hmem with hmem | hmem
  · exact nomatch hmem
  · exact h.noError hmem

variable {w : World} {site : Site} {req : HttpRequest}

/-! ### The error page -/

/-- What a reply looks like in the history. -/
theorem headFirst_of_reply {site : Option Site} {S : ℤ → ℕ → Prop} {ev : Trace} {rc : ℤ}
    (h : Reply w site req S ev rc) : HeadFirst ev ∧ .backendFailed ∉ ev := by
  cases h with
  | unsent failed quiet backend =>
      exact ⟨headFirst_of_noHead fun b hb => Bool.noConfusion (quiet _ hb), backend⟩
  | sent status contentType length opts head site_eq allowed oneLine built tail =>
      exact ⟨headFirst_cons tail.noHead, noError_cons head tail⟩

/-- A reply that writes nothing is a reported failure. -/
theorem ne_zero_of_quiet {site : Option Site} {S : ℤ → ℕ → Prop} {ev : Trace} {rc : ℤ}
    (h : Reply w site req S ev rc) (hquiet : Quiet ev) : rc ≠ 0 := by
  cases h with
  | unsent failed => exact failed
  | sent => exact Bool.noConfusion (hquiet _ List.mem_cons_self)

/-- The head of the error page. -/
def errorPageHead (w : World) (site : Site) (req : HttpRequest) (status : ℤ) : Option Bytes :=
  match openErrorPage w site status with
  | some (page, file) =>
      buildResponseHeaders w.host w.client status (mimeType page) (some file.stat.size)
        req.keepAlive (wholeFileOptions site status none file.stat) responseHeadLen
  | none =>
      buildResponseHeaders w.host w.client status plainText (some (errorText status).length)
        req.keepAlive { site := some site } responseHeadLen

/-- A head and a body: something is written if and only if there is a head. -/
theorem headThenBody_quiet_iff (hpeer : w.peer = .willing) {status : ℤ} {contentType : Bytes}
    {length : ℕ} {opts : ResponseOptions} {body : Trace → Trace × ℤ} (hbody : SendsBody length body)
    (logged : ℕ) :
    Quiet (andThen (w.writeHead status contentType (some length) req.keepAlive opts []) fun t =>
      andThen (if req.headOnly then (t, 0) else body t) fun t =>
        (logAccess status logged t, 0)).1 ↔
      buildResponseHeaders w.host w.client status contentType (some length) req.keepAlive opts
        responseHeadLen = none := by
  cases hbuild : buildResponseHeaders w.host w.client status contentType (some length)
      req.keepAlive opts responseHeadLen with
  | none =>
      rw [writeHead_of_none hbuild]
      exact iff_of_true nofun rfl
  | some head =>
      obtain ⟨ev, rc, hev, -, hend⟩ := @SendsBody.unlessHead req _ _ hbody
      rw [writeHead_of_build hpeer hbuild, andThen_zero, List.nil_append]
      have hwritten : ∀ ev, ¬ Quiet ([.head head] ++ ev) := fun ev h =>
        Bool.noConfusion (h _ List.mem_cons_self)
      refine iff_of_false ?_ nofun
      simp only [hev]
      rcases hend with ⟨rfl, -⟩ | rfl
      · rw [andThen_zero, logAccess, List.append_assoc]
        exact hwritten _
      · exact hwritten _

/-- The page writes something if and only if it has a head. -/
theorem sendErrorPage_quiet_iff (hpeer : w.peer = .willing) {status : ℤ} (h : status ≠ 200) :
    Quiet (sendErrorPage w site status req []).1 ↔ errorPageHead w site req status = none := by
  unfold sendErrorPage errorPageHead
  cases hpage : openErrorPage w site status with
  | none =>
      have hne : errorText status ≠ [] := List.append_ne_nil_of_right_ne_nil _ (by decide)
      exact headThenBody_quiet_iff hpeer (sendsBody_text hpeer hne) _
  | some page =>
      obtain ⟨page, file⟩ := page
      have hwhole : sendFileFd w site status page file none req [] =
          sendWholeFile w site status (mimeType page) none file req [] := by
        unfold sendFileFd sendFileContent usableEncodings
        simp only [h, decide_false, Bool.false_and, Bool.false_eq_true, if_false]
        rfl
      simp only [hwhole]
      unfold sendWholeFile
      rcases @trySmallFile_willing w req hpeer status (mimeType page) file
          (wholeFileOptions site status none file.stat) with
        ⟨head, hbuild, -, -, hwrite⟩ | hfailed
      · simp only [hwrite, hbuild, if_true]
        exact iff_of_false (fun hquiet => Bool.noConfusion (hquiet _ List.mem_cons_self)) nofun
      · simp only [hfailed]
        rw [if_neg (by decide)]
        exact headThenBody_quiet_iff hpeer (sendsBody_file hpeer file.content 0 file.stat.size) _

/-! ### The outcomes of a handler -/

/-- A response that has begun, without a failure so far. -/
structure Started (t : Trace) : Prop where
  written : ¬ Quiet t
  headFirst : HeadFirst t
  noError : .backendFailed ∉ t

/-- How a handler with a backend ends: the backend breaks off a response, or there is an error page
instead of a response, or there is no failure. -/
inductive Outcome (w : World) (site : Site) (req : HttpRequest) (ending : BackendEnd)
    (breaks : Prop) (r : Trace × ℤ) : Prop
  | broken (h : breaks) (t : Trace) (started : Started t)
      (eq : r = backendError w site req ending.status t)
  | page (h : ¬ breaks) (status : ℤ) (pre : Trace) (quiet : Quiet pre)
      (eq : r = sendErrorPage w site status req pre)
  | whole (h : ¬ breaks) (headFirst : HeadFirst r.1) (noError : .backendFailed ∉ r.1)

theorem failsCleanly_of_noError {r : Trace × ℤ} (h : HeadFirst r.1)
    (hnot : .backendFailed ∉ r.1) : FailsCleanly r where
  headFirst := h
  silent := fun front _ heq =>
    absurd (heq ▸ List.mem_append_right front List.mem_cons_self) hnot

/-- An error page in place of a response. -/
theorem failsCleanly_of_page (hpeer : w.peer = .willing) (status : ℤ) {pre : Trace}
    (hpre : Quiet pre) : FailsCleanly (sendErrorPage w site status req pre) := by
  obtain ⟨ev, rc, hev, hreply⟩ := @replies_sendErrorPage w req hpeer site status
  obtain ⟨hfirst, hnot⟩ := headFirst_of_reply hreply
  rw [hev]
  refine ⟨headFirst_append hpre hfirst, fun front back heq hloud => ?_⟩
  obtain ⟨mid, rfl, -⟩ := split_of_not_mem_right heq hnot
  exact absurd (fun e he => hpre e (List.mem_append_left _ he)) hloud

/-- An error page behind a response that has begun. -/
theorem failsCleanly_broken_iff (hpeer : w.peer = .willing) {status : ℤ} (hstatus : status ≠ 200)
    {t : Trace} (ht : Started t) :
    FailsCleanly (backendError w site req status t) ↔ errorPageHead w site req status = none := by
  obtain ⟨ev, rc, hev, hreply⟩ := @replies_sendErrorPage w req hpeer site status
  have hquiet := @sendErrorPage_quiet_iff w site req hpeer _ hstatus
  rw [hev, List.nil_append] at hquiet
  rw [← hquiet]
  have hsplit : t ++ [.backendFailed] ++ ev = t ++ .backendFailed :: ev := List.append_assoc ..
  unfold backendError
  rw [hev, hsplit]
  constructor
  · intro hclean
    exact (hclean.silent t ev rfl ht.written).1
  · intro hev
    obtain ⟨-, hnot⟩ := headFirst_of_reply hreply
    refine ⟨fun front b back heq => ?_, fun front back heq hloud => ?_⟩
    · have hnoHead : .head b ∉ Event.backendFailed :: ev := fun hmem => by
        rcases List.mem_cons.mp hmem with h | h
        · exact nomatch h
        · exact Bool.noConfusion (hev _ h)
      obtain ⟨mid, hmid, -⟩ := split_of_not_mem_right heq hnoHead
      exact ht.headFirst front b mid hmid
    · obtain ⟨mid, rfl, hback⟩ := split_of_not_mem_left heq ht.noError
      have hback' : Quiet back := by
        intro e he
        have hmem : e ∈ Event.backendFailed :: ev := by
          rw [hback]
          exact List.mem_append_right mid (List.mem_cons_of_mem _ he)
        rcases List.mem_cons.mp hmem with rfl | h
        · rfl
        · exact hev e h
      exact ⟨hback', reportsFailure_of_ne (ne_zero_of_quiet hreply hev)⟩

/-- **What the outcome says.** -/
theorem failsCleanly_iff_of_outcome (hpeer : w.peer = .willing) {ending : BackendEnd}
    {breaks : Prop} {r : Trace × ℤ} (h : Outcome w site req ending breaks r) :
    FailsCleanly r ↔ ¬ (breaks ∧ errorPageHead w site req ending.status ≠ none) := by
  cases h with
  | broken h t started eq =>
      rw [eq, failsCleanly_broken_iff hpeer ending.status_ne started]
      simp [h]
  | page h status pre quiet eq =>
      rw [eq]
      exact iff_of_true (failsCleanly_of_page hpeer status quiet) fun hbreaks => h hbreaks.1
  | whole h headFirst noError =>
      exact iff_of_true (failsCleanly_of_noError headFirst noError) fun hbreaks => h hbreaks.1

/-! ### The FastCGI backend -/

/-- The records that a backend sends. -/
def Fpm.records (fpm : Fpm) : List Record := decodeAll (bytesOf fpm.pieces)

/-- The backend breaks off a response that has begun: its records bring a CGI header that is
answered with a head, but no END_REQUEST. -/
structure PhpBreaksOff (w : World) (site : Site) (req : HttpRequest) (script body : Bytes)
    (fpm : Fpm) : Prop where
  reached : FpmReached w site req script body fpm
  allocates : w.allocates = true
  unended : ∀ r ∈ fpm.records, r.kind ≠ 3
  fits : HeaderFits fpm.records
  head : ∃ stop, indexOfSub crlfcrlf (stdoutOf fpm.records) = some stop ∧
    (phpHeadText w site req (cgiHeaders (stdoutOf fpm.records) stop)).length < responseHeadLen

/-- An error page in front of the loop. -/
theorem sendPhpFpm_of_not_reached {script body : Bytes} {fpm : Fpm}
    (h : ¬ FpmReached w site req script body fpm) :
    ∃ status pre, Quiet pre ∧
      sendPhpFpm w site req script body fpm [] = sendErrorPage w site status req pre := by
  have hfailed : Quiet ([] ++ [.backendFailed]) := by simp [Quiet, Event.isWrite]
  have hempty : Quiet [] := by simp [Quiet]
  unfold sendPhpFpm
  by_cases hconnects : fpm.connects = true
  · by_cases hbegin : fpm.takesBegin = true
    · rw [if_neg (by simp [hconnects]), if_neg (by simp [hbegin])]
      by_cases hfilename : 4096 ≤ (scriptFilename site script).length
      · rw [if_pos hfilename]
        exact ⟨414, [], hempty, rfl⟩
      by_cases hname : 4096 ≤ (scriptName script).length
      · rw [if_neg hfilename, if_pos hname]
        exact ⟨414, [], hempty, rfl⟩
      rw [if_neg hfilename, if_neg hname]
      cases hparams : fcgiParams w.client site req script with
      | none => exact ⟨500, [], hempty, rfl⟩
      | some params =>
          by_cases htakes : fpm.takesParams = true
          · by_cases hbody : 65535 < body.length
            · simp only [htakes, hbody, Bool.not_true, Bool.false_eq_true, if_false, if_true]
              exact ⟨413, [], hempty, rfl⟩
            · by_cases hstdin : fpm.takesStdin = true
              · refine absurd ⟨hconnects, hbegin, htakes, hstdin, not_le.mp hfilename,
                  not_le.mp hname, ?_, not_lt.mp hbody⟩ h
                rw [hparams]
                exact Option.some_ne_none params
              · simp only [htakes, hbody, hstdin, Bool.not_true, Bool.false_eq_true, if_false,
                  Bool.not_false, if_true]
                exact ⟨502, _, hfailed, rfl⟩
          · simp only [htakes, Bool.not_false, if_true]
            exact ⟨502, _, hfailed, rfl⟩
    · rw [if_neg (by simp [hconnects]), if_pos (by simpa using hbegin)]
      exact ⟨502, _, hfailed, rfl⟩
  · rw [if_pos (by simpa using hconnects)]
    exact ⟨502, _, hfailed, rfl⟩

/-- The first END_REQUEST, if there is one, and what is behind it. -/
def EndsWith (more : List Record) : Prop :=
  more = [] ∨ ∃ last back, more = last :: back ∧ last.kind = 3

/-- The records in front of the first END_REQUEST. -/
theorem exists_front (rs : List Record) :
    ∃ front more, rs = front ++ more ∧ (∀ r ∈ front, r.kind ≠ 3) ∧ EndsWith more := by
  induction rs with
  | nil => exact ⟨[], [], rfl, nofun, Or.inl rfl⟩
  | cons r rs ih =>
      by_cases hr : r.kind = 3
      · exact ⟨[], r :: rs, rfl, nofun, Or.inr ⟨r, rs, rfl, hr⟩⟩
      · obtain ⟨front, more, rfl, hfront, hmore⟩ := ih
        refine ⟨r :: front, more, rfl, ?_, hmore⟩
        intro r' hr'
        rcases List.mem_cons.mp hr' with rfl | hr'
        · exact hr
        · exact hfront r' hr'

theorem unended_iff {front more : List Record} (hfront : ∀ r ∈ front, r.kind ≠ 3)
    (hmore : EndsWith more) : (∀ r ∈ front ++ more, r.kind ≠ 3) ↔ more = [] := by
  rcases hmore with rfl | ⟨last, back, rfl, hlast⟩
  · rw [List.append_nil]
    exact iff_of_true hfront rfl
  · refine iff_of_false (fun h => ?_) (List.cons_ne_nil _ _)
    exact h last (List.mem_append_right _ List.mem_cons_self) hlast

/-- A response without a CGI header: a head and the buffer, or nothing. -/
theorem phpFinish_unstarted (hpeer : w.peer = .willing) (buffer : Bytes) :
    HeadFirst (phpFinish w site req { headerBuffer := buffer } []).1 ∧
      .backendFailed ∉ (phpFinish w site req { headerBuffer := buffer } []).1 := by
  unfold phpFinish
  simp only [Bool.not_false, if_true, writePhpResponseHeaders_eq hpeer]
  cases phpResponseHead w.host w.client site 200 (ascii "text/html; charset=utf-8")
      (some buffer.length) req.keepAlive [] false with
  | none =>
      have htail : Tail [.logged 200 buffer.length] := tail_singleton rfl
      exact ⟨headFirst_of_noHead htail.noHead, htail.noError⟩
  | some head =>
      simp only [logAccess]
      split_ifs
      · have htail := tail_logged (tail_writeOf buffer) 200 buffer.length
        rw [hpeer, clientWriteAll_willing]
        exact ⟨headFirst_cons htail.noHead, noError_cons head htail⟩
      · have htail : Tail [.logged 200 buffer.length] := tail_singleton rfl
        exact ⟨headFirst_cons htail.noHead, noError_cons head htail⟩

/-- How the loop ends behind records that leave the response unstarted. -/
theorem outcome_short (hpeer : w.peer = .willing) {breaks : Prop} (hbreaks : ¬ breaks)
    {more : List Record} (hmore : EndsWith more) (ending : BackendEnd) (buffer : Bytes) :
    Outcome w site req ending breaks
      ((phpSteps w site req more { headerBuffer := buffer } []).finish w site req ending) := by
  rcases hmore with rfl | ⟨last, back, rfl, hlast⟩
  · refine .page hbreaks ending.status [.backendFailed] ?_ rfl
    simp [Quiet, Event.isWrite]
  · have hfinish := @phpFinish_unstarted w site req hpeer buffer
    rw [phpSteps, phpStep_end hlast]
    exact .whole hbreaks hfinish.1 hfinish.2

/-- How the loop ends behind records that start the response. -/
theorem outcome_started (hpeer : w.peer = .willing) {breaks : Prop} {more : List Record}
    (hmore : EndsWith more) (hbreaks : breaks ↔ more = []) (ending : BackendEnd) {st : PhpState}
    (hst : st.responseStarted = true) (head : Bytes) (segments : List Bytes) :
    Outcome w site req ending breaks
      ((phpSteps w site req more st (.head head ::
        segments.flatMap (bodyEvents req.headOnly st.chunkedResponse))).finish w site req
          ending) := by
  have htail := tail_bodyEvents req.headOnly st.chunkedResponse segments
  rcases hmore with rfl | ⟨last, back, rfl, hlast⟩
  · refine .broken (hbreaks.mpr rfl) _ ⟨fun hquiet => ?_, headFirst_cons htail.noHead, ?_⟩ rfl
    · exact Bool.noConfusion (hquiet _ List.mem_cons_self)
    · exact noError_cons head htail
  · have hall := tail_logged
      (htail.append (tail_endEvents req.headOnly st.chunkedResponse)) st.status st.bytesStreamed
    rw [phpSteps, phpStep_end hlast]
    show Outcome w site req ending breaks (phpFinish w site req st _)
    rw [phpFinish_started hpeer hst, List.append_assoc, List.cons_append, ← List.append_assoc]
    refine .whole (fun h => ?_) (headFirst_cons hall.noHead) (noError_cons head hall)
    exact List.cons_ne_nil _ _ (hbreaks.mp h)

/-- **How `send_php_fpm` ends.** -/
theorem php_outcome (hpeer : w.peer = .willing) (script body : Bytes) (fpm : Fpm) :
    Outcome w site req fpm.ending (PhpBreaksOff w site req script body fpm)
      (sendPhpFpm w site req script body fpm []) := by
  by_cases hreached : FpmReached w site req script body fpm
  · obtain ⟨front, more, hrecords, hfront, hmore⟩ := exists_front fpm.records
    have hnone : indexOfSub crlfcrlf ([] : Bytes) = none := rfl
    have hrun : phpSteps w site req front {} [] = _ :=
      @phpSteps_eq w site req hpeer front hfront [] hnone []
    have heq : sendPhpFpm w site req script body fpm [] =
        ((phpSteps w site req front {} []).bind (phpSteps w site req more)).finish w site req
          fpm.ending := by
      rw [sendPhpFpm_eq hreached, ← phpSteps_append, ← hrecords]
      rfl
    have hunended : (∀ r ∈ fpm.records, r.kind ≠ 3) ↔ more = [] := by
      rw [hrecords]
      exact unended_iff hfront hmore
    rw [heq]
    cases hcollect : collect crlfcrlf headerBufferLen [] (front.map stdout) with
    | full =>
        rw [hcollect] at hrun
        rw [hrun]
        refine .page (fun hbreaks => ?_) 502 [.backendFailed] (by simp [Quiet, Event.isWrite]) rfl
        have hfits := hbreaks.fits
        rw [hrecords, hunended.mp hbreaks.unended, List.append_nil] at hfits
        exact (collect_full_iff (Nat.zero_le _) hnone).mp hcollect hfits
    | short all =>
        rw [hcollect] at hrun
        rw [hrun]
        refine outcome_short hpeer (fun hbreaks => ?_) hmore fpm.ending all
        obtain ⟨stop, hstop, -⟩ := hbreaks.head
        obtain ⟨rfl, hall⟩ := collect_short hnone hcollect
        rw [hrecords, hunended.mp hbreaks.unended, List.append_nil] at hstop
        exact absurd (hall.symm.trans hstop) (Option.some_ne_none stop).symm
    | found all stop rest =>
        obtain ⟨hflat, hindex, -⟩ := collect_found hcollect
        have hstream : stdoutOf front = all ++ rest.flatten := hflat
        have hle : stop ≤ all.length := indexOfSub_le_length hindex
        have hheaders : cgiHeaders (stdoutOf front) stop = cgiHeaders all stop := by
          rw [hstream, cgiHeaders_append hle]
        have hstop : indexOfSub crlfcrlf (stdoutOf front) = some stop := by
          rw [hstream, indexOfSub_append hindex]
        rw [hcollect] at hrun
        by_cases halloc : w.allocates = false
        · simp only [if_pos halloc] at hrun
          rw [hrun]
          refine .page (fun hbreaks => ?_) 500 [] (by simp [Quiet]) rfl
          rw [hbreaks.allocates] at halloc
          exact Bool.noConfusion halloc
        · simp only [if_neg halloc, phpHead_eq] at hrun
          by_cases hlen : (phpHeadText w site req (cgiHeaders all stop)).length < responseHeadLen
          · have hfit : fitting responseHeadLen (phpHeadText w site req (cgiHeaders all stop)) =
                some _ := if_pos hlen
            rw [hfit] at hrun
            rw [hrun]
            refine outcome_started hpeer hmore ⟨fun h => hunended.mp h.unended, fun hnil => ?_⟩
              fpm.ending rfl _ _
            refine ⟨hreached, Bool.eq_true_of_not_eq_false halloc, hunended.mpr hnil, ?_, stop, ?_⟩
            · rw [hrecords, hnil, List.append_nil]
              by_contra hfits
              have hfull := (collect_full_iff (Nat.zero_le headerBufferLen) hnone).mpr hfits
              have hboth := hcollect.symm.trans hfull
              cases hboth
            · rw [hrecords, hnil, List.append_nil, hheaders]
              exact ⟨hstop, hlen⟩
          · have hfit : fitting responseHeadLen (phpHeadText w site req (cgiHeaders all stop)) =
                none := if_neg hlen
            rw [hfit] at hrun
            rw [hrun]
            refine .whole (fun hbreaks => ?_) (headFirst_of_noHead fun _ => List.not_mem_nil)
              List.not_mem_nil
            obtain ⟨stop', hstop', hlen'⟩ := hbreaks.head
            rw [hrecords, hunended.mp hbreaks.unended, List.append_nil] at hstop' hlen'
            obtain rfl : stop = stop' := Option.some.inj (hstop.symm.trans hstop')
            rw [hheaders] at hlen'
            exact hlen hlen'
  · obtain ⟨status, pre, hpre, heq⟩ := sendPhpFpm_of_not_reached hreached
    exact .page (fun hbreaks => hreached hbreaks.reached) status pre hpre heq

/-! ### The upstream -/

/-- The upstream breaks off a response that has begun: its first line has been passed on when a
`read` fails or times out.  If it closes then, that is the end of its response. -/
structure ProxyBreaksOff (w : World) (site : Site) (req : HttpRequest) (upstream : Upstream)
    (buf body : Bytes) : Prop where
  connects : upstream.connects = true
  allocates : w.allocates = true
  built : buildProxyRequest (proxyCapacity req body) w.client site req buf body ≠ none
  takesRequest : upstream.takesRequest = true
  ending : upstream.ending ≠ .closed
  fits : FirstLineFits upstream.reads
  line : indexOfSub crlf (upstreamBytes upstream.reads) ≠ none
  status : ∃ status, parseProxyStatusLine (upstreamBytes upstream.reads) = some status ∧
    ¬ Tunnels site req status

theorem quiet_failed : Quiet [.backendFailed] := by simp [Quiet, Event.isWrite]

theorem tail_bodies (segments : List Bytes) : Tail (segments.map .body) := by
  intro e he
  obtain ⟨b, -, rfl⟩ := List.mem_map.mp he
  rfl

/-- The end of a relay, in both cases. -/
theorem outcome_relayEnd {breaks : Prop} {ending : BackendEnd}
    (hbreaks : breaks ↔ ending ≠ .closed) (st : RelayState) (first : Bytes)
    (rest : List Bytes) :
    Outcome w site req ending breaks
      (relayEnd w site req ending st ((first :: rest).map .body)) := by
  have htail := tail_bodies (first :: rest)
  unfold relayEnd
  by_cases hending : ending ≠ .closed
  · rw [if_pos hending]
    refine .broken (hbreaks.mpr hending) _ ⟨fun hquiet => ?_, headFirst_of_noHead htail.noHead,
      htail.noError⟩ rfl
    exact Bool.noConfusion (hquiet (.body first) List.mem_cons_self)
  · have hall := tail_logged htail st.status st.bytes
    rw [if_neg hending]
    exact .whole (fun h => hending (hbreaks.mp h)) (headFirst_of_noHead hall.noHead) hall.noError

/-- How the relay loop ends. -/
theorem outcome_relayLoop (hpeer : w.peer = .willing) {breaks : Prop} (upstream : Upstream)
    (hbreaks : breaks ↔ upstream.ending ≠ .closed ∧ FirstLineFits upstream.reads ∧
      indexOfSub crlf (upstreamBytes upstream.reads) ≠ none ∧
        ∃ status, parseProxyStatusLine (upstreamBytes upstream.reads) = some status ∧
          ¬ Tunnels site req status) :
    Outcome w site req upstream.ending breaks
      (relayLoop w site req upstream.ending upstream.tunnelled upstream.reads {} []) := by
  have hnone : indexOfSub crlf ([] : Bytes) = none := rfl
  have hrun : relayLoop w site req upstream.ending upstream.tunnelled upstream.reads {} [] = _ :=
    relayLoop_eq hpeer upstream.ending upstream.tunnelled upstream.reads [] []
  have hpage : ∀ status, ¬ breaks → Outcome w site req upstream.ending breaks
      (backendError w site req status []) := fun status h =>
    .page h status [.backendFailed] quiet_failed rfl
  rw [hrun]
  cases hcollect : collect crlf firstResponseLen [] (readBytes upstream.reads) with
  | full =>
      refine hpage 502 fun h => ?_
      exact (collect_full_iff (Nat.zero_le _) hnone).mp hcollect (hbreaks.mp h).2.1
  | short all =>
      obtain ⟨rfl, hall⟩ := collect_short hnone hcollect
      exact hpage _ fun h => (hbreaks.mp h).2.2.1 hall
  | found all stop rest =>
      obtain ⟨hflat, hindex, -⟩ := collect_found hcollect
      have hstream : upstreamBytes upstream.reads = all ++ rest.flatten := hflat
      have hline : indexOfSub crlf (upstreamBytes upstream.reads) = some stop := by
        rw [hstream, indexOfSub_append hindex]
      have hsame : parseProxyStatusLine (upstreamBytes upstream.reads) =
          parseProxyStatusLine all := by
        rw [hstream, parseProxyStatusLine_append hindex]
      have hfits : FirstLineFits upstream.reads := by
        by_contra hfits
        have hfull := (collect_full_iff (Nat.zero_le firstResponseLen) hnone).mpr hfits
        exact nomatch hcollect.symm.trans hfull
      cases hparse : parseProxyStatusLine all with
      | none =>
          simp only [hparse]
          refine hpage 502 fun h => ?_
          obtain ⟨status, hstatus, -⟩ := (hbreaks.mp h).2.2.2
          exact nomatch (hparse.symm.trans hsame.symm).trans hstatus
      | some status =>
          simp only [hparse]
          have hstatus : ∀ s, parseProxyStatusLine (upstreamBytes upstream.reads) = some s →
              s = status := fun s hs => by
            rw [hsame, hparse, Option.some.injEq] at hs
            exact hs.symm
          by_cases htunnel : Tunnels site req status
          · have htail : Tail (.body all :: writeOf .body upstream.tunnelled) :=
              (tail_singleton rfl).append (tail_writeOf upstream.tunnelled)
            have hall := tail_logged htail status all.length
            rw [if_pos htunnel]
            refine .whole (fun h => ?_) (headFirst_of_noHead hall.noHead) hall.noError
            obtain ⟨s, hs, hno⟩ := (hbreaks.mp h).2.2.2
            rw [hstatus s hs] at hno
            exact hno htunnel
          · rw [if_neg htunnel]
            refine outcome_relayEnd ⟨fun h => (hbreaks.mp h).1, fun h => hbreaks.mpr ?_⟩ _ all rest
            refine ⟨h, hfits, ?_, status, hsame.trans hparse, htunnel⟩
            rw [hline]
            exact nofun

/-- **How `serve_proxy` ends.** -/
theorem proxy_outcome (hpeer : w.peer = .willing) (upstream : Upstream) (buf body : Bytes) :
    Outcome w site req upstream.ending (ProxyBreaksOff w site req upstream buf body)
      (serveProxy w site req upstream buf body []) := by
  unfold serveProxy
  by_cases hconnects : upstream.connects = true
  · by_cases halloc : w.allocates = true
    · rw [if_neg (by simp [hconnects]), if_neg (by simp [halloc])]
      cases hbuilt : buildProxyRequest (proxyCapacity req body) w.client site req buf body with
      | none => exact .page (fun h => h.built hbuilt) 502 [] nofun rfl
      | some request =>
          simp only
          by_cases htakes : upstream.takesRequest = true
          · rw [if_neg (by simp [htakes])]
            refine outcome_relayLoop hpeer upstream ⟨fun h => ?_, fun h => ?_⟩
            · exact ⟨h.ending, h.fits, h.line, h.status⟩
            · refine ⟨hconnects, halloc, ?_, htakes, h.1, h.2.1, h.2.2.1, h.2.2.2⟩
              rw [hbuilt]
              exact nofun
          · rw [if_pos (by simpa using htakes)]
            exact .page (fun h => htakes h.takesRequest) 502 [.backendFailed] quiet_failed rfl
    · rw [if_neg (by simp [hconnects]), if_pos (by simpa using halloc)]
      exact .page (fun h => halloc h.allocates) 500 [] nofun rfl
  · rw [if_pos (by simpa using hconnects)]
    exact .page (fun h => hconnects h.connects) 502 [.backendFailed] quiet_failed rfl

/-- The connection is not kept behind a relayed response, whatever `serve_proxy` returns. -/
theorem not_kept_behind_proxy {site : Site} (h : site.routingType = .proxy) (cfg : Config)
    (count : UInt32) (req : HttpRequest) : shouldKeepAlive cfg count (some site) req = false := by
  unfold shouldKeepAlive
  simp [h]

/-! ### Both handlers -/

/-- **A failure never produces a second response, exactly if the backend does not break off a
response that has begun, or the error page has no head.** -/
theorem failsCleanly_iff (hpeer : w.peer = .willing) (script buf body : Bytes) (fpm : Fpm)
    (upstream : Upstream) :
    (FailsCleanly (sendPhpFpm w site req script body fpm []) ↔
      ¬ (PhpBreaksOff w site req script body fpm ∧
        errorPageHead w site req fpm.ending.status ≠ none)) ∧
    (FailsCleanly (serveProxy w site req upstream buf body []) ↔
      ¬ (ProxyBreaksOff w site req upstream buf body ∧
        errorPageHead w site req upstream.ending.status ≠ none)) :=
  ⟨failsCleanly_iff_of_outcome hpeer (php_outcome hpeer script body fpm),
    failsCleanly_iff_of_outcome hpeer (proxy_outcome hpeer upstream buf body)⟩

/-- A FastCGI backend that closes in mid-response. -/
def brokenFpm : Fpm :=
  { fpmOf [] with
    pieces := restOf (encode (stdoutRecord (ascii "\x0d\n\x0d\nhi") length_shortBody)) [] }

/-- Two backends in good order. -/
theorem failsCleanly_small :
    (FailsCleanly (sendPhpFpm sampleWorld {} phpRequest (ascii "index.php") []
        (fpmOf smallRecords) []) ↔
      ¬ (PhpBreaksOff sampleWorld {} phpRequest (ascii "index.php") [] (fpmOf smallRecords) ∧
        errorPageHead sampleWorld {} phpRequest (fpmOf smallRecords).ending.status ≠ none)) ∧
    (FailsCleanly (serveProxy sampleWorld {} phpRequest (upstreamOf []) [] [] []) ↔
      ¬ (ProxyBreaksOff sampleWorld {} phpRequest (upstreamOf []) [] [] ∧
        errorPageHead sampleWorld {} phpRequest (upstreamOf []).ending.status ≠ none)) :=
  failsCleanly_iff rfl (ascii "index.php") [] [] (fpmOf smallRecords) (upstreamOf [])

/-- **The trace of a second response**: the backend closes behind a response that has begun; the
client gets a second head behind it, and the handler returns 0. -/
theorem second_response :
    (sendPhpFpm sampleWorld {} phpRequest (ascii "index.php") [] brokenFpm []).1.countP
        Event.isHead = 2 ∧
      (sendPhpFpm sampleWorld {} phpRequest (ascii "index.php") [] brokenFpm []).2 = 0 ∧
      ¬ FailsCleanly (sendPhpFpm sampleWorld {} phpRequest (ascii "index.php") [] brokenFpm []) := by
  set r := sendPhpFpm sampleWorld {} phpRequest (ascii "index.php") [] brokenFpm [] with hr
  have hrun : (r.1.countP Event.isHead, r.2) = (2, 0) := by
    rw [hr]
    decide +kernel
  obtain ⟨hcount, hrc⟩ := Prod.mk.inj hrun
  refine ⟨hcount, hrc, fun h => ?_⟩
  have := oneHead h.headFirst
  omega

end Rpsiod

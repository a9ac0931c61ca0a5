import Rpsiod.Http2.HeaderFidelity
import Rpsiod.Server.Accounting
import Rpsiod.Server.Dialogue
import Rpsiod.Server.HttpTime

/-!
# The access log (`log.c`, `handle_client_event`)

A line of the access log is put together with `snprintf` from texts that come from the client, and a
log is written by many connections.

* `accessLine`, `readLine`: the line, and what a reader makes of it.
* `readLog_of_records`: a log of such lines is read entry by entry.
* `Journal`: a connection with the answers that it has been given.
* `access_log`: **whatever the clients send and in whatever order the connections write, the log is
  read back as the entries that were logged**, one for each request that was answered.
-/

namespace Rpsiod

open ListSearch Crlf ReturnCode

/-! ### A line -/

/-- The format of `timestamp`. -/
def logFormat : Bytes := ascii "%Y-%m-%dT%H:%M:%SZ"

/-- `timestamp`, into a `char[64]` that is not set if there is no date or no room for it. -/
def timestamp (now : ℕ) : Option Bytes :=
  (gmtimeR now).bind fun tm =>
    let text := strftime logFormat tm
    if text.length < 64 then some text else none

/-- `rpsiod_log_access`: what is written, if that is the whole line. -/
def accessLine (now : ℕ) (client method path : Bytes) (status : ℤ) (bytes : ℕ) : Option Bytes :=
  (timestamp now).bind fun ts =>
    let line := ts ++ ascii " " ++ client ++ ascii " \"" ++ method ++ ascii " " ++ path ++
      ascii "\" " ++ decimalInt status ++ ascii " " ++ decimal (bytes % 2 ^ 64) ++ ascii "\n"
    -- a longer line is cut in `line`, and `rpsiod_write_all` still gets its whole length
    if line.length < 2300 then some line else none

/-- An entry. -/
structure LogEntry where
  time : ℤ
  client : Bytes
  method : Bytes
  path : Bytes
  status : ℤ
  bytes : ℕ
  deriving DecidableEq

/-- What a reader makes of a line: six words, of which the third begins with a quote and the fourth
ends with one. -/
def readLine (line : Bytes) : Option LogEntry :=
  match line.splitOn 32 with
  | [stamp, client, method, path, status, bytes] =>
      if method.head? = some 34 ∧ path.getLast? = some 34 then
        (strptime stamp logFormat {}).map fun r =>
          { time := timegm r.1
            client := client
            method := method.tail
            path := path.dropLast
            status := atoi status
            bytes := (readDecimal 0 bytes).1 }
      else none
  | _ => none

/-- What a reader makes of a log. -/
def readLog (text : Bytes) : Option (List LogEntry) :=
  let lines := text.splitOn 10
  if lines.getLast? = some [] then lines.dropLast.mapM readLine else none

/-- A text without blanks and line ends. -/
def IsLogWord (text : Bytes) : Prop := 32 ∉ text ∧ 10 ∉ text

instance (text : Bytes) : Decidable (IsLogWord text) := inferInstanceAs (Decidable (_ ∧ _))

theorem IsLogWord.append {a b : Bytes} (ha : IsLogWord a) (hb : IsLogWord b) : IsLogWord (a ++ b) :=
  ⟨by simp [ha.1, hb.1], by simp [ha.2, hb.2]⟩

theorem isLogWord_of_lt {text : Bytes} (h : ∀ ch ∈ text, 32 < ch) : IsLogWord text :=
  ⟨fun hmem => absurd (h 32 hmem) (by decide), fun hmem => absurd (h 10 hmem) (by decide)⟩

theorem isLogWord_decimal (n : ℕ) : IsLogWord (decimal n) := by
  apply isLogWord_of_lt
  intro c hc
  obtain ⟨k, hk, rfl⟩ := Digits.exists_digit_of_mem_render (by decide) hc
  have hall : ∀ k < 10, (32 : UInt8) < Digits.digitByte k := by decide
  exact hall k hk

theorem isLogWord_decimalInt (n : ℤ) : IsLogWord (decimalInt n) := by
  unfold decimalInt
  split_ifs
  · exact IsLogWord.append (a := [45]) (by decide) (isLogWord_decimal _)
  · exact isLogWord_decimal _

theorem not_mem_intercalate {x sep : UInt8} (hsep : x ≠ sep) {words : List Bytes}
    (h : ∀ word ∈ words, x ∉ word) : x ∉ [sep].intercalate words := by
  induction words with
  | nil => simp
  | cons word words ih =>
      have hrest := ih fun w hw => h w (List.mem_cons_of_mem word hw)
      cases words with
      | nil => simpa using h word List.mem_cons_self
      | cons next words =>
          rw [List.intercalate_cons_cons]
          simp [h word List.mem_cons_self, hsep, hrest]

/-- An `int` has at most eleven characters. -/
theorem length_decimalInt {n : ℤ} (h : IsInt n) : (decimalInt n).length ≤ 11 := by
  obtain ⟨hlo, hhi⟩ := h
  have hdigits : (decimal n.natAbs).length ≤ 10 :=
    Digits.render_length_le (by decide) (by decide) (by omega)
  unfold decimalInt
  split_ifs
  · rw [List.length_cons]
    omega
  · omega

/-! ### The date of a line -/

theorem items_log : formatItems logFormat =
    [.conversion .Y, .char 45, .conversion .m, .char 45, .conversion .d, .char 84, .conversion .H,
      .char 58, .conversion .M, .char 58, .conversion .S, .char 90] := by
  decide

theorem separated_log : Separated (formatItems logFormat) := by
  rw [items_log]
  simp [Separated, FormatItem.Follows, isspace]

/-- **A date of the log** is a word of twenty characters, and is read back. -/
theorem exists_timestamp {now : ℕ} (h : now < yearTenThousand) :
    ∃ ts tm, timestamp now = some ts ∧ IsLogWord ts ∧ ts.length = 20 ∧
      strptime ts logFormat {} = some (tm, []) ∧ timegm tm = now := by
  obtain ⟨tm, hgm, -, hshort⟩ := exists_gmtime h
  have hfits : ∀ c, c ≠ .y → Conversion.Fits tm c := fun c hc => hshort c fun hy => absurd hy hc
  have hitems : ∀ c, .conversion c ∈ formatItems logFormat → Conversion.Fits tm c := by
    rw [items_log]
    intro c hc
    apply hfits c
    rintro rfl
    exact absurd hc (by decide)
  obtain ⟨n, hlo, hhi, -, hyear⟩ := exists_year (hfits .Y (by decide))
  have htwo : ∀ n < 100, (twoDigits 48 n).length = 2 ∧ IsLogWord (twoDigits 48 n) := by
    decide +kernel
  have hmon : tm.mon < 12 := hfits .m (by decide)
  have hmday : 1 ≤ tm.mday ∧ tm.mday ≤ 31 := hfits .d (by decide)
  have hhour : tm.hour ≤ 23 := hfits .H (by decide)
  have hmin : tm.min ≤ 59 := hfits .M (by decide)
  have hsec : tm.sec ≤ 61 := hfits .S (by decide)
  obtain ⟨hmon, hmonWord⟩ := htwo (tm.mon + 1) (by omega)
  obtain ⟨hmday, hmdayWord⟩ := htwo tm.mday (by omega)
  obtain ⟨hhour, hhourWord⟩ := htwo tm.hour (by omega)
  obtain ⟨hmin, hminWord⟩ := htwo tm.min (by omega)
  obtain ⟨hsec, hsecWord⟩ := htwo tm.sec (by omega)
  have htext : strftime logFormat tm = decimal n ++ ([45] ++ (twoDigits 48 (tm.mon + 1) ++ ([45] ++
      (twoDigits 48 tm.mday ++ ([84] ++ (twoDigits 48 tm.hour ++ ([58] ++ (twoDigits 48 tm.min ++
        ([58] ++ (twoDigits 48 tm.sec ++ [90])))))))))) := by
    unfold strftime
    rw [items_log]
    simp only [List.flatMap_cons, List.flatMap_nil, writeConversion, hyear, List.append_nil]
  have hlength : (strftime logFormat tm).length = 20 := by
    rw [htext, decimal_year hlo hhi]
    simp only [List.length_append, List.length_cons, List.length_nil, hmon, hmday, hhour, hmin, hsec]
  refine ⟨strftime logFormat tm, _, ?_, ?_, hlength,
    strptime_strftime {} hitems separated_log, ?_⟩
  · unfold timestamp
    rw [hgm]
    exact if_pos (by omega)
  · rw [htext]
    have hsign : IsLogWord [45] ∧ IsLogWord [84] ∧ IsLogWord [58] ∧ IsLogWord [90] := by decide
    obtain ⟨hdash, hT, hcolon, hZ⟩ := hsign
    exact (isLogWord_decimal n).append (hdash.append (hmonWord.append (hdash.append (hmdayWord.append
      (hT.append (hhourWord.append (hcolon.append (hminWord.append (hcolon.append
        (hsecWord.append hZ))))))))))
  · rw [items_log, ← timegm_gmtime hgm]
    rfl

/-! ### Reading -/

/-- The texts of a line that come from the client, and the status. -/
structure PlainEntry (client method path : Bytes) (status : ℤ) : Prop where
  client_word : IsLogWord client
  client_length : client.length < 46
  method_word : IsLogWord method
  method_length : method.length < methodLen
  path_word : IsLogWord path
  path_length : path.length < pathLen
  status_int : IsInt status

/-- **A line is whole, and is read back.** -/
theorem exists_accessLine {now : ℕ} {client method path : Bytes} {status : ℤ} (bytes : ℕ)
    (hnow : now < yearTenThousand) (h : PlainEntry client method path status) :
    ∃ line, accessLine now client method path status bytes = some (line ++ [10]) ∧ 10 ∉ line ∧
      readLine line = some ⟨now, client, method, path, status, bytes % 2 ^ 64⟩ := by
  obtain ⟨ts, tm, hts, htsWord, htsLength, hread, htime⟩ := exists_timestamp hnow
  set number := decimal (bytes % 2 ^ 64) with hnumber
  set line := [32].intercalate [ts, client, 34 :: method, path ++ [34], decimalInt status, number]
    with hline
  have hnumberLength : number.length ≤ 20 := by
    have hlt : bytes % 2 ^ 64 < 2 ^ 64 := Nat.mod_lt _ (by decide)
    exact Digits.render_length_le (by decide) (by decide) (hlt.trans (by decide))
  have hstatusLength := length_decimalInt h.status_int
  have hclient := h.client_length
  have hmethod : method.length < 16 := h.method_length
  have hpath : path.length < 2048 := h.path_length
  have hquote : IsLogWord [34] := by decide
  have hwords : ∀ word ∈ [ts, client, 34 :: method, path ++ [34], decimalInt status, number],
      IsLogWord word := by
    intro word hword
    simp only [List.mem_cons, List.not_mem_nil, or_false] at hword
    rcases hword with rfl | rfl | rfl | rfl | rfl | rfl
    · exact htsWord
    · exact h.client_word
    · exact hquote.append h.method_word
    · exact h.path_word.append hquote
    · exact isLogWord_decimalInt status
    · exact isLogWord_decimal _
  have htext : ts ++ ascii " " ++ client ++ ascii " \"" ++ method ++ ascii " " ++ path ++
      ascii "\" " ++ decimalInt status ++ ascii " " ++ number ++ ascii "\n" = line ++ [10] := by
    rw [hline]
    simp [List.intercalate, show ascii " " = [32] by decide, show ascii " \"" = [32, 34] by decide,
      show ascii "\" " = [34, 32] by decide, show ascii "\n" = [10] by decide]
  refine ⟨line, ?_, ?_, ?_⟩
  · unfold accessLine
    rw [hts, Option.bind_some]
    dsimp only
    rw [htext]
    refine if_pos ?_
    rw [hline]
    simp [List.intercalate]
    omega
  · exact not_mem_intercalate (by decide) fun word hword => (hwords word hword).2
  · unfold readLine
    rw [hline, List.splitOn_intercalate 32 (fun word hword => (hwords word hword).1) (by simp)]
    have hvalue : (readDecimal 0 number).1 = bytes % 2 ^ 64 := by
      have hdecimal := @readDecimal_decimal (bytes % 2 ^ 64) [] (by simp)
      rw [List.append_nil] at hdecimal
      exact hdecimal
    have hstatus : atoi (decimalInt status) = status := by
      have hatoi := @atoi_decimalInt status h.status_int [] (by simp)
      rw [List.append_nil] at hatoi
      exact hatoi
    simp [hread, htime, hvalue, hstatus]

/-- Lines, one behind the other, are split where they end. -/
theorem splitOn_lines {lines : List Bytes} (h : ∀ line ∈ lines, 10 ∉ line) :
    (lines.map (· ++ [10])).flatten.splitOn 10 = lines ++ [[]] := by
  have hintercalate : (lines.map (· ++ [10])).flatten = [10].intercalate (lines ++ [[]]) := by
    induction lines with
    | nil => rfl
    | cons line lines ih =>
        have hrest := ih fun l hl => h l (List.mem_cons_of_mem line hl)
        rw [List.map_cons, List.flatten_cons, hrest]
        cases lines with
        | nil => simp [List.intercalate]
        | cons next lines =>
            rw [List.cons_append, List.cons_append, List.cons_append, List.intercalate_cons_cons]
  rw [hintercalate]
  refine List.splitOn_intercalate 10 (fun line hline => ?_) (by simp)
  rcases List.mem_append.mp hline with hline | hline
  · exact h line hline
  · rw [List.mem_singleton.mp hline]
    exact List.not_mem_nil

/-- **A log of whole lines is read line by line.** -/
theorem readLog_lines {pairs : List (Option Bytes × LogEntry)}
    (h : ∀ p ∈ pairs, ∃ line, p.1 = some (line ++ [10]) ∧ 10 ∉ line ∧ readLine line = some p.2) :
    (((pairs.map Prod.fst).mapM id).map List.flatten).bind readLog = some (pairs.map Prod.snd) := by
  have hlines : ∃ lines : List Bytes,
      (pairs.map Prod.fst).mapM id = some (lines.map (· ++ [10])) ∧ (∀ line ∈ lines, 10 ∉ line) ∧
        lines.mapM readLine = some (pairs.map Prod.snd) := by
    induction pairs with
    | nil => exact ⟨[], rfl, fun _ hline => absurd hline List.not_mem_nil, rfl⟩
    | cons p pairs ih =>
        obtain ⟨line, htext, hend, hread⟩ := h p List.mem_cons_self
        obtain ⟨lines, htexts, hends, hreads⟩ := ih fun q hq => h q (List.mem_cons_of_mem p hq)
        refine ⟨line :: lines, ?_, ?_, ?_⟩
        · rw [List.map_cons, List.mapM_cons, htexts, htext]
          rfl
        · intro l hl
          rcases List.mem_cons.mp hl with rfl | hl
          · exact hend
          · exact hends l hl
        · rw [List.mapM_cons, hreads, hread]
          rfl
  obtain ⟨lines, htexts, hends, hreads⟩ := hlines
  rw [htexts]
  unfold readLog
  simp [splitOn_lines hends, hreads]

/-! ### The calls of a connection -/

/-- What a call does behind `k` requests, with these bytes in the buffer; a null site ends the process
in `send_error_page`. -/
def Session.run (s : Session) (k : ℕ) (buf : Bytes) : Call → Trace × ℤ
  | .serveRequest req body => serveRequest s.cfg (s.serving k) req buf body []
  | .sendText site status text req => sendText (s.serving k).w site status text req []
  | .sendErrorPage (some site) status req => sendErrorPage (s.serving k).w site status req []
  | .sendErrorPage none _ _ => ([], -1)

theorem written_run (s : Session) (k : ℕ) (buf : Bytes) (call : Call) :
    written (s.run k buf call).1 = s.writes k buf call := by
  cases call with
  | serveRequest req body => rfl
  | sendText site status text req => rfl
  | sendErrorPage site status req =>
      cases site with
      | none => rfl
      | some site => rfl

/-- A call, when it was made, and what came of it. -/
structure CallRecord where
  time : ℕ
  client : Bytes
  call : Call
  trace : Trace
  rc : ℤ

/-- A connection, and the calls that have been made for it. -/
structure Journal where
  conn : Conn
  records : List CallRecord := []

/-- The loop body of `handle_client_event`, with its calls. -/
def Journal.round (s : Session) (clock : ℕ → ℕ) (j : Journal) : Journal :=
  let buf := j.conn.examinedBuf.getD []
  let conn := j.conn.round s.cfg s.client (s.env buf)
  { conn := conn
    records := j.records ++ (conn.calls.drop j.conn.calls.length).map fun call =>
      let r := s.run j.conn.served buf call
      { time := clock j.records.length
        client := s.client.clientIp.bytes
        call := call
        trace := r.1
        rc := r.2 } }

/-- The journal behind `n` rounds. -/
def Journal.rounds (s : Session) (clock : ℕ → ℕ) (arrivals : List SockEvent) (n : ℕ) : Journal :=
  (Journal.round s clock)^[n] { conn := .accepted arrivals }

/-- What a call has logged. -/
def CallRecord.logged (r : CallRecord) : List LogEntry :=
  (entries r.trace).map fun e =>
    ⟨r.time, r.client, r.call.req.method, r.call.req.path, e.1, e.2 % 2 ^ 64⟩

/-- The lines that a call has written. -/
def CallRecord.lines (r : CallRecord) : List (Option Bytes) :=
  (entries r.trace).map fun e =>
    accessLine r.time r.client r.call.req.method r.call.req.path e.1 e.2

/-- The text of a log, if all of its lines are whole. -/
def logText (records : List CallRecord) : Option Bytes :=
  ((records.flatMap CallRecord.lines).mapM id).map List.flatten

/-- A call that `handle_client_event` makes. -/
structure Call.Made (call : Call) : Prop where
  method_word : IsLogWord call.req.method
  method_length : call.req.method.length < methodLen
  path_word : IsLogWord call.req.path
  path_length : call.req.path.length < pathLen
  status_int : ∀ status : ℕ, (∃ site text req, call = .sendText site status text req) ∨
    (∃ site req, call = .sendErrorPage site status req) → IsInt status

theorem plain_of_accepted {buf : Bytes} {req : HttpRequest}
    (h : httpParseRequest buf = .accepted req) :
    IsLogWord req.method ∧ req.method.length < methodLen ∧ IsLogWord req.path ∧
      req.path.length < pathLen := by
  obtain ⟨p⟩ := parsed_of_accepted h
  obtain ⟨hmethod, hpath, -⟩ := p.texts
  obtain ⟨method, target, parts⟩ := parseRequestLine_eq_ok p.line_eq
  obtain ⟨path, -, hreq⟩ := parts.target_ok
  have hsame : req.method = method := p.sameTarget.method.trans (congrArg HttpRequest.method hreq)
  refine ⟨⟨?_, hmethod.2.1⟩, hmethod.1, isLogWord_of_lt p.graphic.1, hpath.1⟩
  rw [hsame]
  exact parts.method_space

/-- The placeholder of a request that could not be read. -/
theorem made_sendText {site : Option Site} {text : Bytes} {req : HttpRequest}
    (hmethod : req.method = ascii "GET") (hpath : req.path = ascii "-") :
    Call.Made (.sendText site 400 text req) := by
  have hplain : IsLogWord (ascii "GET") ∧ (ascii "GET").length < methodLen ∧
      IsLogWord (ascii "-") ∧ (ascii "-").length < pathLen := by
    decide
  obtain ⟨hword, hlength, hpathWord, hpathLength⟩ := hplain
  refine ⟨?_, ?_, ?_, ?_, ?_⟩
  · exact hmethod ▸ hword
  · exact hmethod ▸ hlength
  · exact hpath ▸ hpathWord
  · exact hpath ▸ hpathLength
  · rintro status (⟨_, _, _, h⟩ | ⟨_, _, h⟩)
    · obtain ⟨-, rfl, -⟩ := Call.sendText.inj h
      decide
    · cases h

/-- What could not be parsed is logged as GET of a dash. -/
theorem examine_eq_badRequest {cfg : Config} {client : Client} {count : UInt32} {buf : Bytes}
    {req : HttpRequest} (h : examine cfg client count buf = .badRequest req) :
    req.method = ascii "GET" ∧ req.path = ascii "-" := by
  unfold examine at h
  cases hp : httpParseRequest buf with
  | incomplete => simp [hp] at h
  | malformed parsed =>
      rw [hp] at h
      obtain rfl := Verdict.badRequest.inj h
      exact ⟨rfl, rfl⟩
  | accepted parsed =>
      simp only [hp] at h
      split_ifs at h

theorem reject_calls (c : Conn) (req : HttpRequest) :
    (c.reject req).calls = c.calls ++ [.sendText none 400 badRequestText req] := rfl

theorem errorPage_calls (c : Conn) (site : Option Site) (status : ℕ) (req : HttpRequest) :
    (c.errorPage site status req).calls = c.calls ++ [.sendErrorPage site status req] := rfl

/-- **The calls of a round** repeat nothing of a client that would not fit into a line. -/
theorem made_round (cfg : Config) (client : Client) (env : Env) (c : Conn) :
    ∃ calls, (c.round cfg client env).calls = c.calls ++ calls ∧ ∀ call ∈ calls, call.Made := by
  have hround := round_cases cfg client env c
  generalize c.round cfg client env = c' at hround
  have hnone : ∀ {c₁ : Conn}, c₁.calls = c.calls →
      ∃ calls, c₁.calls = c.calls ++ calls ∧ ∀ call ∈ calls, call.Made := fun hcalls =>
    ⟨[], by rw [hcalls, List.append_nil], fun _ hmem => absurd hmem List.not_mem_nil⟩
  have hone : ∀ {c₁ : Conn} {call : Call}, c₁.calls = c.calls → call.Made →
      ∃ calls, c₁.calls ++ [call] = c.calls ++ calls ∧ ∀ call ∈ calls, call.Made := by
    intro c₁ call hcalls hmade
    refine ⟨[call], by rw [hcalls], fun call' hmem => ?_⟩
    rw [List.mem_singleton.mp hmem]
    exact hmade
  cases hround with
  | idle _ _ calls => exact hnone calls
  | @full c₁ _ _ load _ _ =>
      rw [reject_calls]
      exact hone load.calls (made_sendText rfl rfl)
  | @examined c₁ load _ _ =>
      cases hv : examine cfg client c₁.keepAliveRequests c₁.buf with
      | more => exact hnone load.calls
      | tooLarge site req =>
          obtain ⟨parsed, hparsed, -, rfl, -⟩ := examine_eq_tooLarge hv
          obtain ⟨hmethod, hmethodLength, hpath, hpathLength⟩ := plain_of_accepted hparsed
          show ∃ calls, (c₁.errorPage site 413 _).calls = c.calls ++ calls ∧ _
          rw [errorPage_calls]
          refine hone load.calls ⟨hmethod, hmethodLength, hpath, hpathLength, ?_⟩
          rintro status (⟨_, _, _, h⟩ | ⟨_, _, h⟩)
          · cases h
          · obtain ⟨-, rfl, -⟩ := Call.sendErrorPage.inj h
            decide
      | badRequest req =>
          obtain ⟨hmethod, hpath⟩ := examine_eq_badRequest hv
          show ∃ calls, (c₁.reject req).calls = c.calls ++ calls ∧ _
          rw [reject_calls]
          exact hone load.calls (made_sendText hmethod hpath)
      | serve req body keep =>
          obtain ⟨parsed, keepAlive, hparsed, -, rfl, -⟩ := examine_eq_serve hv
          obtain ⟨hmethod, hmethodLength, hpath, hpathLength⟩ := plain_of_accepted hparsed
          show ∃ calls, (c₁.serve env _ body keep).calls = c.calls ++ calls ∧ _
          rw [serve_calls]
          refine hone load.calls ⟨hmethod, hmethodLength, hpath, hpathLength, ?_⟩
          rintro status (⟨_, _, _, h⟩ | ⟨_, _, h⟩)
          · cases h
          · cases h

/-! ### The log -/

/-- What the entries of a session need: an address as `inet_ntop` writes it, and a status that is
an `int`. -/
structure Session.Named (s : Session) : Prop where
  client_word : IsLogWord s.client.clientIp.bytes
  status_int : ∀ site ∈ s.cfg.sites, IsInt site.maintenanceStatus

/-- **A call logs once at most**, and once if it returns 0. -/
theorem returns_run {s : Session} (hs : s.Named) (k : ℕ) (buf : Bytes) {call : Call}
    (h : call.Made) : Returns Logged AtMostOne (s.run k buf call) := by
  cases call with
  | serveRequest req body =>
      exact yields_serveRequest hs.status_int (s.serving k) req buf body [] ⟨rfl, rfl⟩
  | sendText site status text req =>
      have hint := h.status_int status (Or.inl ⟨site, text, req, rfl⟩)
      exact accounts_sendText site hint text [] rfl
  | sendErrorPage site status req =>
      cases site with
      | none => exact Or.inr ⟨rfl, Unlogged.atMostOne rfl⟩
      | some site =>
          have hint := h.status_int status (Or.inr ⟨some site, req, rfl⟩)
          exact accounts_sendErrorPage hint [] rfl

/-- What is known of a call in a journal. -/
structure CallRecord.Sound (r : CallRecord) : Prop where
  time : r.time < yearTenThousand
  client_word : IsLogWord r.client
  client_length : r.client.length < 46
  made : r.call.Made
  returns : Returns Logged AtMostOne (r.trace, r.rc)

/-- One round. -/
theorem sound_round {s : Session} (hs : s.Named) {clock : ℕ → ℕ}
    (hclock : ∀ k, clock k < yearTenThousand) {j : Journal}
    (h : ∀ r ∈ j.records, r.Sound) : ∀ r ∈ (j.round s clock).records, r.Sound := by
  intro r hr
  rcases List.mem_append.mp hr with hr | hr
  · exact h r hr
  · obtain ⟨call, hcall, rfl⟩ := List.mem_map.mp hr
    obtain ⟨calls, hcalls, hmade⟩ :=
      made_round s.cfg s.client (s.env (j.conn.examinedBuf.getD [])) j.conn
    rw [hcalls, List.drop_left] at hcall
    exact ⟨hclock _, hs.client_word, s.client.clientIp.ok.1, hmade call hcall,
      returns_run hs _ _ (hmade call hcall)⟩

/-- **A whole run.** -/
theorem sound_rounds {s : Session} (hs : s.Named) {clock : ℕ → ℕ}
    (hclock : ∀ k, clock k < yearTenThousand) (arrivals : List SockEvent) (n : ℕ) :
    ∀ r ∈ (Journal.rounds s clock arrivals n).records, r.Sound := by
  induction n with
  | zero => exact fun r hr => absurd hr List.not_mem_nil
  | succ n ih =>
      unfold Journal.rounds at ih ⊢
      rw [Function.iterate_succ_apply']
      exact sound_round hs hclock ih

/-- The journal is the dialogue with its calls apart. -/
theorem journal_dialogue (s : Session) (clock : ℕ → ℕ) (arrivals : List SockEvent) (n : ℕ) :
    (Journal.rounds s clock arrivals n).conn = (Dialogue.rounds s arrivals n).conn ∧
      (Journal.rounds s clock arrivals n).records.map CallRecord.call =
        (Dialogue.rounds s arrivals n).conn.calls ∧
      (Journal.rounds s clock arrivals n).records.flatMap (fun r => written r.trace) =
        (Dialogue.rounds s arrivals n).sent := by
  induction n with
  | zero => exact ⟨rfl, rfl, rfl⟩
  | succ n ih =>
      unfold Journal.rounds Dialogue.rounds at ih ⊢
      rw [Function.iterate_succ_apply', Function.iterate_succ_apply']
      obtain ⟨hconn, hcalls, hsent⟩ := ih
      generalize (Journal.round s clock)^[n] { conn := .accepted arrivals } = j at hconn hcalls hsent ⊢
      generalize (Dialogue.round s)^[n] { conn := .accepted arrivals } = d at hconn hcalls hsent ⊢
      obtain ⟨calls, hadded, -⟩ :=
        made_round s.cfg s.client (s.env (d.conn.examinedBuf.getD [])) d.conn
      unfold Journal.round Dialogue.round
      rw [← hconn] at hcalls hadded ⊢
      refine ⟨rfl, ?_, ?_⟩
      · dsimp only
        rw [hadded, List.drop_left, List.map_append, hcalls, List.map_map]
        exact congrArg (j.conn.calls ++ ·) (List.map_id _)
      · dsimp only
        rw [List.flatMap_append, hsent, hadded, List.drop_left]
        refine congrArg (d.sent ++ ·) ?_
        rw [List.flatMap_map]
        exact congrArg (calls.flatMap ·) (funext fun call => written_run s _ _ call)

/-- **A log is read back as the entries that were logged**, whatever the clients have sent and in
whatever order the connections write: one entry for each call that returned 0, with the status of the
last head that was sent, and one at most for each of the others. -/
theorem access_log {records : List CallRecord}
    (h : ∀ r ∈ records, ∃ (s : Session) (clock : ℕ → ℕ) (arrivals : List SockEvent) (n : ℕ),
      s.Named ∧ (∀ k, clock k < yearTenThousand) ∧
        r ∈ (Journal.rounds s clock arrivals n).records) :
    (logText records).bind readLog = some (records.flatMap CallRecord.logged) ∧
      ∀ r ∈ records, r.logged.length ≤ 1 ∧ (r.rc = 0 → ∃ e, r.logged = [e] ∧
        e.time = r.time ∧ e.client = r.client ∧ e.method = r.call.req.method ∧
        e.path = r.call.req.path ∧ ∀ head ∈ lastHead r.trace, statusLine e.status ++ crlf <+: head) := by
  have hsound : ∀ r ∈ records, r.Sound := by
    intro r hr
    obtain ⟨s, clock, arrivals, n, hs, hclock, hmem⟩ := h r hr
    exact sound_rounds hs hclock arrivals n r hmem
  have hone : ∀ r ∈ records, AtMostOne r.trace := by
    intro r hr
    rcases (hsound r hr).returns with ⟨-, hlogged⟩ | ⟨-, hone⟩
    · exact hlogged.atMostOne
    · exact hone
  constructor
  · set pairs := records.flatMap fun r => (entries r.trace).map fun e =>
      (accessLine r.time r.client r.call.req.method r.call.req.path e.1 e.2,
        (⟨r.time, r.client, r.call.req.method, r.call.req.path, e.1, e.2 % 2 ^ 64⟩ : LogEntry))
      with hpairs
    have hlines : records.flatMap CallRecord.lines = pairs.map Prod.fst := by
      rw [hpairs, List.map_flatMap]
      simp only [List.map_map]
      rfl
    have hentries : records.flatMap CallRecord.logged = pairs.map Prod.snd := by
      rw [hpairs, List.map_flatMap]
      simp only [List.map_map]
      rfl
    unfold logText
    rw [hlines, hentries]
    apply readLog_lines
    intro p hp
    obtain ⟨r, hr, hp⟩ := List.mem_flatMap.mp hp
    obtain ⟨e, he, rfl⟩ := List.mem_map.mp hp
    have hint := (hone r hr).2 e he
    have hr := hsound r hr
    exact exists_accessLine e.2 hr.time ⟨hr.client_word, hr.client_length, hr.made.method_word,
      hr.made.method_length, hr.made.path_word, hr.made.path_length, hint⟩
  · intro r hr
    have hlength : r.logged.length ≤ 1 := by
      unfold CallRecord.logged
      rw [List.length_map]
      exact (hone r hr).1
    refine ⟨hlength, fun hzero => ?_⟩
    rcases (hsound r hr).returns with ⟨-, hlogged⟩ | ⟨hrc, -⟩
    · obtain ⟨status, bytes, hentries, -, hhead⟩ := hlogged.entries_eq
      unfold CallRecord.logged
      rw [hentries]
      exact ⟨_, rfl, rfl, rfl, rfl, rfl, hhead⟩
    · exact absurd (hrc.symm.trans hzero) (by decide)

/-- The clock at the end of 2023. -/
def newYearsClock (k : ℕ) : ℕ := 1703980800 + min k 1

/-- Two requests that arrive together. -/
theorem access_log_two :
    (logText (Journal.rounds plainSession newYearsClock twoAtOnce 2).records).bind readLog =
        some [⟨1703980800, ascii "127.0.0.1", ascii "GET", ascii "/", 404, 14⟩,
          ⟨1703980801, ascii "127.0.0.1", ascii "GET", ascii "/", 404, 14⟩] ∧
      logText (Journal.rounds plainSession newYearsClock twoAtOnce 1).records =
        some (ascii "2023-12-31T00:00:00Z 127.0.0.1 \"GET /\" 404 14\n") := by
  have hnamed : plainSession.Named := by
    refine ⟨by decide, fun site hsite => ?_⟩
    rw [List.mem_singleton.mp hsite]
    decide
  have hclock : ∀ k, newYearsClock k < yearTenThousand := by
    intro k
    unfold newYearsClock yearTenThousand
    omega
  have hlogged : (Journal.rounds plainSession newYearsClock twoAtOnce 2).records.flatMap
      CallRecord.logged = [⟨1703980800, ascii "127.0.0.1", ascii "GET", ascii "/", 404, 14⟩,
        ⟨1703980801, ascii "127.0.0.1", ascii "GET", ascii "/", 404, 14⟩] := by
    decide +kernel
  refine ⟨?_, by decide +kernel⟩
  rw [← hlogged]
  exact (access_log fun r hr => ⟨plainSession, newYearsClock, twoAtOnce, 2, hnamed, hclock, hr⟩).1

end Rpsiod

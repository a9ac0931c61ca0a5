import Rpsiod.Http.Fields

/-!
# Two requests that differ in their method (`rpsiod_http_parse_request`)

The parser reads the header lines alike, whether GET or HEAD stands in front.

* `eq_asHead`: **if both requests are accepted, what is read of them differs in the method, in
  `head_only` and in the length of the head, and in nothing else**.
-/

namespace Rpsiod

open ListSearch Crlf

/-- The request with HEAD for its method of three letters. -/
def HttpRequest.asHead (req : HttpRequest) : HttpRequest :=
  { req with method := ascii "HEAD", headOnly := true, headerLen := req.headerLen + 1 }

def ParseState.asHead (st : ParseState) : ParseState := { st with req := st.req.asHead }

/-! ### The header lines -/

/-- What becomes of the other request. -/
def twin : Except HttpRequest ParseState → Except HttpRequest ParseState
  | .error req => .error req.asHead
  | .ok st => .ok st.asHead

/-- Both take the same branch. -/
theorem ite_twin {α β : Type} (F : α → β) {c : Prop} [Decidable c] {a b : α} {a' b' : β}
    (ha : c → a' = F a) (hb : ¬c → b' = F b) :
    (if c then a' else b') = F (if c then a else b) := by
  split_ifs with h
  · exact ha h
  · exact hb h

theorem parseByteRange_asHead (value : Bytes) (req : HttpRequest) :
    parseByteRange value req.asHead =
      ((parseByteRange value req).1, (parseByteRange value req).2.asHead) := by
  set F : Bool × HttpRequest → Bool × HttpRequest := fun r => (r.1, r.2.asHead) with hF
  show parseByteRange value req.asHead = F (parseByteRange value req)
  refine ite_twin F (fun _ => rfl) fun _ => ite_twin F (fun _ => rfl) fun _ => ?_
  cases splitFirst 45 (value.drop 6) with
  | none => rfl
  | some pair =>
      refine ite_twin F (fun _ => ite_twin F (fun _ => rfl) fun _ => rfl) fun _ =>
        ite_twin F (fun _ => rfl) fun _ => ite_twin F (fun _ => rfl) fun _ =>
          ite_twin F (fun _ => rfl) fun _ => rfl

theorem applyHeader_asHead (st : ParseState) (name value : Bytes) :
    applyHeader st.asHead name value = twin (applyHeader st name value) := by
  refine ite_twin twin (fun _ => ite_twin twin (fun _ => rfl) fun _ => ?_) fun _ => ?_
  · cases parseHostValue value hostLen with
    | none => rfl
    | some host => rfl
  refine ite_twin twin (fun _ => rfl) fun _ => ite_twin twin (fun _ => rfl) fun _ =>
    ite_twin twin (fun _ => rfl) fun _ => ite_twin twin (fun _ => ?_) fun _ => ?_
  · have hrange : parseByteRange value st.asHead.req = _ := parseByteRange_asHead value st.req
    rw [hrange]
    exact ite_twin twin (fun _ => rfl) fun _ => rfl
  refine ite_twin twin (fun _ => ?_) fun _ => ?_
  · cases parseContentLength value with
    | none => rfl
    | some n => exact ite_twin twin (fun _ => rfl) fun _ => rfl
  refine ite_twin twin (fun _ => ite_twin twin (fun _ => rfl) fun _ => rfl) fun _ =>
    ite_twin twin (fun _ => ?_) fun _ => ite_twin twin (fun _ => rfl) fun _ =>
      ite_twin twin (fun _ => rfl) fun _ => ite_twin twin (fun _ => rfl) fun _ => rfl
  dsimp only
  split_ifs
  · rfl
  · rfl
  · rfl

theorem parseHeaderLine_asHead (st : ParseState) (line : Bytes) :
    parseHeaderLine st.asHead line = twin (parseHeaderLine st line) := by
  refine ite_twin twin (fun _ => rfl) fun _ => ite_twin twin (fun _ => rfl) fun _ =>
    ite_twin twin (fun _ => rfl) fun _ => ?_
  cases splitFirst 58 line with
  | none => rfl
  | some pair =>
      refine ite_twin twin (fun _ => rfl) fun _ => ite_twin twin (fun _ => rfl) fun _ =>
        ite_twin twin (fun _ => rfl) fun _ => ?_
      cases copyTrimmedValue 1024 pair.2 with
      | none => rfl
      | some value =>
          exact applyHeader_asHead { st with headerCount := st.headerCount + 1 } pair.1 value

theorem foldlM_asHead (ls : List Bytes) (st : ParseState) :
    ls.foldlM parseHeaderLine st.asHead = twin (ls.foldlM parseHeaderLine st) := by
  induction ls generalizing st with
  | nil => rfl
  | cons l ls ih =>
      rw [List.foldlM_cons, List.foldlM_cons, parseHeaderLine_asHead]
      cases parseHeaderLine st l with
      | error req => rfl
      | ok mid => exact ih mid

/-! ### The request line -/

theorem requestLine_asHead {line : Bytes} {n : ℕ} {get head : RequestLine}
    (hget : parseRequestLine (ascii "GET " ++ line) { headerLen := n } = .ok get)
    (hhead : parseRequestLine (ascii "HEAD " ++ line) { headerLen := n + 1 } = .ok head) :
    requestLineRequest head = (requestLineRequest get).asHead := by
  obtain ⟨method, target, parts⟩ := parseRequestLine_eq_ok hget
  obtain ⟨method', target', parts'⟩ := parseRequestLine_eq_ok hhead
  obtain ⟨hmethod, hline⟩ := append_cons_inj_of_not_mem (c := 32) (a := ascii "GET") (b := line)
    parts.line_eq (by decide) parts.method_space
  obtain ⟨hmethod', hline'⟩ := append_cons_inj_of_not_mem (c := 32) (a := ascii "HEAD") (b := line)
    parts'.line_eq (by decide) parts'.method_space
  obtain ⟨htarget, hversion⟩ := append_cons_inj_of_not_mem (hline.symm.trans hline') parts.target_space
    parts'.target_space
  obtain ⟨path, hpath, hreq⟩ := parts.target_ok
  obtain ⟨path', hpath', hreq'⟩ := parts'.target_ok
  rw [← htarget, hpath, Option.some.injEq, Prod.mk.injEq] at hpath'
  obtain ⟨rfl, hauthority⟩ := hpath'
  unfold requestLineRequest
  rw [hreq, hreq', ← hmethod, ← hmethod', ← hversion, ← hauthority]
  rfl

variable {rest : Bytes} {get head : HttpRequest}

theorem method_of_get (hget : httpParseRequest (ascii "GET " ++ rest) = .accepted get) :
    get.method = ascii "GET" := by
  obtain ⟨p⟩ := parsed_of_accepted hget
  have hline := p.line_eq
  have hfirst := p.first_eq
  rw [indexOfSub_behind (c := 13) rfl (by decide), Option.map_eq_some_iff] at hfirst
  obtain ⟨first, -, hlen⟩ := hfirst
  rw [← hlen, Nat.add_comm, List.take_length_add_append] at hline
  obtain ⟨method, target, parts⟩ := parseRequestLine_eq_ok hline
  obtain ⟨hmethod, -⟩ := append_cons_inj_of_not_mem (c := 32) (a := ascii "GET")
    (b := rest.take first) parts.line_eq (by decide) parts.method_space
  obtain ⟨path, -, hreq⟩ := parts.target_ok
  have hkept := p.sameTarget.method
  rw [hkept, hmethod]
  exact congrArg HttpRequest.method hreq

/-- **Both requests are the same but for the method.** -/
theorem eq_asHead (hget : httpParseRequest (ascii "GET " ++ rest) = .accepted get)
    (hhead : httpParseRequest (ascii "HEAD " ++ rest) = .accepted head) : head = get.asHead := by
  obtain ⟨p⟩ := parsed_of_accepted hget
  obtain ⟨q⟩ := parsed_of_accepted hhead
  have hstop := p.stop_eq
  have hstop' := q.stop_eq
  have hfirst := p.first_eq
  have hfirst' := q.first_eq
  rw [indexOfSub_behind (c := 13) rfl (by decide), Option.map_eq_some_iff] at hstop hstop' hfirst hfirst'
  obtain ⟨stop, hfound, hp⟩ := hstop
  obtain ⟨stop', hfound', hq⟩ := hstop'
  obtain rfl : stop = stop' := Option.some.inj (hfound.symm.trans hfound')
  obtain ⟨first, hline, hpf⟩ := hfirst
  obtain ⟨first', hline', hqf⟩ := hfirst'
  obtain rfl : first = first' := Option.some.inj (hline.symm.trans hline')
  have hlineG := p.line_eq
  have hlineH := q.line_eq
  have hloopG := p.loop_eq
  have hloopH := q.loop_eq
  have hshort : (ascii "GET ").length = 4 := rfl
  have hlong : (ascii "HEAD ").length = 5 := rfl
  have hlen : q.stop + 4 = p.stop + 4 + 1 := by omega
  rw [← hpf, Nat.add_comm, List.take_length_add_append] at hlineG
  rw [← hqf, Nat.add_comm first, List.take_length_add_append, hlen] at hlineH
  have hrequest := requestLine_asHead hlineG hlineH
  have hblock : ∀ front : Bytes, ((front ++ rest).take (stop + front.length)).drop
      (first + front.length + 2) = (rest.take stop).drop (first + 2) := fun front => by
    rw [Nat.add_comm stop, List.take_length_add_append, Nat.add_comm first, Nat.add_assoc,
      List.drop_length_add_append]
  rw [← hp, ← hpf, hblock] at hloopG
  rw [← hq, ← hqf, hblock] at hloopH
  have hstart : ({ req := requestLineRequest q.rl } : ParseState) =
      ParseState.asHead { req := requestLineRequest p.rl } := by
    rw [hrequest]
    rfl
  rw [hstart, foldlM_asHead, hloopG] at hloopH
  have hstate : p.st.asHead = q.st := Except.ok.inj hloopH
  obtain ⟨-, -, -, hgetReq⟩ := finishRequest_eq_accepted p.finish_eq
  obtain ⟨-, -, -, hheadReq⟩ := finishRequest_eq_accepted q.finish_eq
  rw [hheadReq, hgetReq, ← hstate]
  rfl

end Rpsiod

import Rpsiod.Http2.ChunkedBody
import Rpsiod.Lib.LengthPrefixed

/-!
# Which protocol a TLS client speaks (`alpn_select_cb`)

In its hello a client lists the protocols that it speaks, each behind its length.  The bytes are
those of the client, and the callback goes through them twice, byte by byte.

* `alpnLoop`, `alpnSelectCb`: the two loops, which may read outside of the bytes.
* `alpnLoop_eq`: a loop finds a protocol exactly if it is one of the records.
* `alpn_negotiated`: **HTTP/2 is selected exactly if it is offered**, HTTP/1.1 if only that is, and no
  byte outside of the list is read, whatever the client sends.
-/

namespace Rpsiod

open LengthPrefixed

/-- `h2`. -/
def h2Protocol : Bytes := ascii "h2"

/-- `http11`. -/
def http11Protocol : Bytes := ascii "http/1.1"

/-- One of the loops of `alpn_select_cb`, from `p` on: whether it finds the protocol; every round
moves the pointer. -/
def alpnLoop (protocol input : Bytes) : ℕ → ℕ → Reading Bool
  | 0, _ => .running
  | fuel + 1, p =>
      if input.length ≤ p then .done false
      else
        (byteAt input p).andThen fun len =>
          let p := p + 1
          if input.length - p < len.toNat then .done false
          else if len.toNat = protocol.length then
            (bytesAt input p protocol.length).andThen fun name =>
              if name = protocol then .done true
              else alpnLoop protocol input fuel (p + len.toNat)
          else alpnLoop protocol input fuel (p + len.toNat)

/-- `alpn_select_cb`: the protocol, or `SSL_TLSEXT_ERR_NOACK`. -/
def alpnSelectCb (input : Bytes) : Reading (Option Bytes) :=
  (alpnLoop h2Protocol input (input.length + 1) 0).andThen fun found =>
    if found then .done (some h2Protocol)
    else
      (alpnLoop http11Protocol input (input.length + 1) 0).andThen fun found =>
        if found then .done (some http11Protocol) else .done none

/-- `rpsiod_tls_selected_http2`, on what has been selected. -/
def tlsSelectedHttp2 (proto : Option Bytes) : Bool :=
  match proto with
  | none => false
  | some proto => proto.length = 2 && proto.take 2 = h2Protocol

/-- **A loop finds the protocols that are there**, and stays inside. -/
theorem alpnLoop_eq (protocol input : Bytes) {fuel p : ℕ} (hp : p ≤ input.length)
    (hfuel : input.length - p < fuel) :
    alpnLoop protocol input fuel p = .done (decide (protocol ∈ records (input.drop p))) := by
  induction fuel generalizing p with
  | zero => omega
  | succ fuel ih =>
      unfold alpnLoop
      by_cases hend : input.length ≤ p
      · have hnothing : IsCut [] := fun len rest h => absurd h.symm (List.cons_ne_nil len rest)
        rw [if_pos hend, List.drop_of_length_le hend, records_cut hnothing,
          decide_eq_false List.not_mem_nil]
      have hlt : p < input.length := by omega
      have hdrop : input.drop p = input[p] :: input.drop (p + 1) := List.drop_eq_getElem_cons hlt
      have hleft : (input.drop (p + 1)).length = input.length - (p + 1) := List.length_drop
      rw [if_neg hend, byteAt_of_lt hlt, Reading.andThen_done, hdrop]
      dsimp only
      set len := input[p] with hlen
      by_cases hcut : input.length - (p + 1) < len.toNat
      · rw [if_pos hcut, records, if_pos (by rw [hleft]; exact hcut),
          decide_eq_false List.not_mem_nil]
      · have hrest := @ih (p + 1 + len.toNat) (by omega) (by omega)
        rw [← List.drop_drop] at hrest
        rw [if_neg hcut, records_cons (by rw [hleft]; omega)]
        set name := (input.drop (p + 1)).take len.toNat with hname
        have hnameLength : name.length = len.toNat := by
          rw [hname, List.length_take, hleft]
          omega
        -- the bytes are compared only if the lengths are equal
        by_cases hsame : len.toNat = protocol.length
        · have hread : bytesAt input (p + 1) protocol.length = .done name := by
            unfold bytesAt
            rw [if_pos (by omega), ← hsame]
          rw [if_pos hsame, hread, Reading.andThen_done]
          by_cases hfound : name = protocol
          · rw [if_pos hfound, decide_eq_true (List.mem_cons.mpr (.inl hfound.symm))]
          · rw [if_neg hfound, hrest]
            congr 1
            rw [decide_eq_decide, List.mem_cons]
            exact ⟨.inr, fun h => h.resolve_left fun heq => hfound heq.symm⟩
        · rw [if_neg hsame, hrest]
          congr 1
          rw [decide_eq_decide, List.mem_cons]
          refine ⟨.inr, fun h => h.resolve_left fun heq => hsame ?_⟩
          rw [heq, hnameLength]

/-- **The negotiation**: of the protocols that a client lists, in any order and with any others
among them, HTTP/2 is taken if it is there, and HTTP/1.1 if only that is. -/
theorem alpn_negotiated (input : Bytes) :
    ∃ proto, alpnSelectCb input = .done proto ∧
      (tlsSelectedHttp2 proto = true ↔ h2Protocol ∈ records input) ∧
      (proto = some http11Protocol ↔
        h2Protocol ∉ records input ∧ http11Protocol ∈ records input) ∧
      (proto = none ↔ h2Protocol ∉ records input ∧ http11Protocol ∉ records input) ∧
      ∀ (offered : List Bytes) (tail : Bytes), (∀ o ∈ offered, o.length < 256) → IsCut tail →
        input = encode offered ++ tail → records input = offered := by
  have hscan : ∀ protocol, alpnLoop protocol input (input.length + 1) 0 =
      .done (decide (protocol ∈ records input)) := by
    intro protocol
    have hloop := @alpnLoop_eq protocol input (input.length + 1) 0 (Nat.zero_le _) (by omega)
    rwa [List.drop_zero] at hloop
  have hother : some h2Protocol ≠ some http11Protocol := by decide
  have hselected : tlsSelectedHttp2 (some h2Protocol) = true := by decide
  have hnot : tlsSelectedHttp2 (some http11Protocol) = false := by decide
  have hread : ∀ (offered : List Bytes) (tail : Bytes), (∀ o ∈ offered, o.length < 256) →
      IsCut tail → input = encode offered ++ tail → records input = offered := by
    rintro offered tail hshort htail rfl
    exact records_encode hshort htail
  unfold alpnSelectCb
  rw [hscan, Reading.andThen_done]
  by_cases hh2 : h2Protocol ∈ records input
  · refine ⟨some h2Protocol, by simp [hh2], by simp [hh2, hselected], ?_, by simp [hh2], hread⟩
    simp [hh2, hother]
  · rw [hscan]
    by_cases hhttp : http11Protocol ∈ records input
    · exact ⟨some http11Protocol, by simp [hh2, hhttp], by simp [hh2, hnot], by simp [hh2, hhttp],
        by simp [hhttp], hread⟩
    · exact ⟨none, by simp [hh2, hhttp], by simp [hh2, tlsSelectedHttp2], by simp [hhttp],
        by simp [hh2, hhttp], hread⟩

/-- A client that speaks both, and one whose list is cut off in the middle of a name. -/
example : alpnSelectCb (encode [ascii "http/1.1", ascii "h2"]) = .done (some h2Protocol) ∧
    alpnSelectCb (encode [ascii "spdy/3"] ++ [8, 104, 116]) = .done none := by decide

end Rpsiod

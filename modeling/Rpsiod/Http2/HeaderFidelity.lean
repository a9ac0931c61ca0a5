import Rpsiod.Http.ByteRange
import Rpsiod.Http.Grammar
import Rpsiod.Http.Trim
import Rpsiod.Http2.Response

/-!
# Header fields over HTTP/2

What a backend says in its head is told to the HTTP/2 client again, out of slots of fixed size and
trimmed like a line of a configuration file.

* `WireHead`: the head of an HTTP/1.1 response; `WireHead.expected`: the fields that its client
  should get over HTTP/2.
* `headers_foldl`: the slots hold the first 96 fields, each as `carry` leaves it.
* `submitsFaithfully_iff`: **the client gets its fields if and only if all of them are carried**.
* `quoted_tag_altered`: an entity tag loses its quotes.
-/

namespace Rpsiod

open ListSearch Crlf ListStrip

/-! ### Heads on the wire -/

/-- A header field as it is sent: a line with a colon. -/
structure WireField where
  name : Bytes
  value : Bytes
  name_ok : IsText name ∧ 13 ∉ name ∧ 58 ∉ name
  value_ok : IsText value ∧ 13 ∉ value

/-- Its line. -/
def WireField.text (f : WireField) : Bytes := f.name ++ 58 :: f.value

/-- The head of an HTTP/1.1 response. -/
structure WireHead where
  status : ℤ
  /-- What follows the status on its line. -/
  reason : Bytes
  fields : List WireField
  status_ok : -2 ^ 31 ≤ status ∧ status < 2 ^ 31
  reason_ok : IsText reason ∧ 13 ∉ reason ∧ ∀ c ∈ reason.head?, c = 32

/-- The status line. -/
def WireHead.statusText (h : WireHead) : Bytes :=
  ascii "HTTP/1.1 " ++ decimalInt h.status ++ h.reason

/-- The head as bytes. -/
def WireHead.bytes (h : WireHead) : Bytes :=
  unlines (h.statusText :: h.fields.map WireField.text) ++ crlf

/-- The fields that are not those of the connection. -/
def WireHead.kept (h : WireHead) : List WireField :=
  h.fields.filter fun f => !blockedH2Header f.name

/-- A field as its client should get it: blanks around the value do not count. -/
def WireField.told (f : WireField) : Field := (f.name, trimBlanks f.value)

/-- Whether there is such a field. -/
def hasField (name : Bytes) (fields : List Field) : Bool := fields.any fun f => streqCi f.1 name

/-- The fields, with `Strict-Transport-Security` if it is not there. -/
def withHsts (fields : List Field) : List Field :=
  fields ++ if hasField (ascii "Strict-Transport-Security") fields then [] else [hstsField]

/-- What an HTTP/2 client should get. -/
def WireHead.expected (h : WireHead) : List Field :=
  (ascii ":status", decimalInt h.status) :: withHsts (h.kept.map WireField.told)

/-- The response with this head and body is submitted with the fields it should have, up to blanks
around their values. -/
def SubmitsFaithfully (s : H2Stream) (h : WireHead) (body : Bytes) : Prop :=
  ∃ sub, submitParsedLoopbackResponse true true { s with rawResponse := h.bytes ++ body } =
      some sub ∧
    sub.fields.map (fun f => (f.1, trimBlanks f.2)) = h.expected

/-! ### Slots for one field -/

/-- A name in its slot. -/
theorem name_carried_iff (name : Bytes) :
    safeCopy 128 (trim name) = name ↔ Plain name ∧ name.length < 128 := by
  constructor
  · intro h
    have hlength := congrArg List.length h
    unfold safeCopy at hlength
    rw [List.length_take] at hlength
    exact ⟨(trim_eq_of_length rfl (by omega)).2, by omega⟩
  · rintro ⟨hplain, hlength⟩
    rw [trim_of_plain rfl hplain]
    exact List.take_of_length_le (by omega)

/-- A value in its slot. -/
theorem value_carried_iff (value : Bytes) :
    trimBlanks (safeCopy 4096 (trim value)) = trimBlanks value ↔
      Plain (trimBlanks value) ∧ (trimBlanks value).length < 4096 := by
  have hstrip : strip isspace value = strip isspace (trimBlanks value) :=
    (strip_strip isspace_of_isBlank value).symm
  constructor
  · intro h
    have hlength := congrArg List.length h
    have hle := length_strip_le isBlank (safeCopy 4096 (trim value))
    rw [← trimBlanks_eq_strip] at hle
    unfold safeCopy at hlength hle
    rw [List.length_take] at hle
    exact ⟨(trim_eq_of_length hstrip (by omega)).2, by omega⟩
  · rintro ⟨hplain, hlength⟩
    rw [trim_of_plain hstrip hplain]
    unfold safeCopy
    rw [List.take_of_length_le (by omega), trimBlanks_trimBlanks]

/-! ### The slots -/

/-- The slots for a field; `none` if the field is passed over. -/
def carry (f : WireField) : Option Field :=
  if blockedH2Header (trim f.name) || trim f.name = [] then none
  else some (safeCopy 128 (trim f.name), safeCopy 4096 (trim f.value))

/-- Whether a field announces a chunked body. -/
def announcesChunks (f : WireField) : Bool :=
  streqCi (trim f.name) (ascii "Transfer-Encoding") &&
    headerValueHasToken (trim f.value) (ascii "chunked")

theorem splitFirst_text (f : WireField) : splitFirst 58 f.text = some (f.name, f.value) :=
  splitFirst_eq_some_iff.mpr ⟨rfl, f.name_ok.2.2⟩

/-- The loop body on the line of a field. -/
theorem applyLoopbackLine_text (head : LoopbackHead) (f : WireField) :
    (applyLoopbackLine head f.text).chunkedBody = (head.chunkedBody || announcesChunks f) ∧
      (applyLoopbackLine head f.text).headers =
        if h2MaxHeaders ≤ head.headers.length then head.headers
        else head.headers ++ (carry f).toList := by
  unfold applyLoopbackLine carry announcesChunks
  rw [splitFirst_text]
  simp only
  by_cases hpass : (blockedH2Header (trim f.name) || decide (trim f.name = [])) = true
  · rw [hpass, Bool.true_or, if_pos rfl, if_pos rfl]
    refine ⟨rfl, ?_⟩
    simp
  · rw [Bool.not_eq_true] at hpass
    rw [hpass, Bool.false_or, if_neg Bool.false_ne_true]
    by_cases hfull : h2MaxHeaders ≤ head.headers.length
    · rw [if_pos (decide_eq_true hfull), if_pos hfull]
      exact ⟨rfl, rfl⟩
    · rw [if_neg (by simpa using hfull), if_neg hfull]
      exact ⟨rfl, rfl⟩

/-- **The slots hold the first fields that are not passed over.** -/
theorem headers_foldl (fields : List WireField) {head : LoopbackHead}
    (h : head.headers.length ≤ h2MaxHeaders) :
    ((fields.map WireField.text).foldl applyLoopbackLine head).headers =
        (head.headers ++ fields.filterMap carry).take h2MaxHeaders ∧
      ((fields.map WireField.text).foldl applyLoopbackLine head).chunkedBody =
        (head.chunkedBody || fields.any announcesChunks) := by
  induction fields generalizing head with
  | nil =>
      rw [List.filterMap_nil, List.append_nil, List.take_of_length_le h]
      exact ⟨rfl, (Bool.or_false _).symm⟩
  | cons f fields ih =>
      obtain ⟨hchunked, hheaders⟩ := applyLoopbackLine_text head f
      have hsplit : (f :: fields).filterMap carry = (carry f).toList ++ fields.filterMap carry := by
        rw [List.filterMap_cons]
        cases carry f with
        | none => rfl
        | some slot => rfl
      rw [List.map_cons, List.foldl_cons, hsplit, List.any_cons, ← Bool.or_assoc, ← hchunked]
      by_cases hfull : h2MaxHeaders ≤ head.headers.length
      · rw [if_pos hfull] at hheaders
        obtain ⟨hrest, hflag⟩ := @ih (applyLoopbackLine head f.text) (by rw [hheaders]; exact h)
        refine ⟨?_, hflag⟩
        rw [hrest, hheaders, List.take_append_of_le_length hfull,
          List.take_append_of_le_length hfull]
      · rw [if_neg hfull] at hheaders
        have hone : (carry f).toList.length ≤ 1 := by
          cases carry f with
          | none => exact Nat.zero_le _
          | some slot => exact le_rfl
        obtain ⟨hrest, hflag⟩ := @ih (applyLoopbackLine head f.text)
          (by rw [hheaders, List.length_append]; omega)
        refine ⟨?_, hflag⟩
        rw [hrest, hheaders, List.append_assoc]

/-! ### The status -/

theorem readDecimal_decimal (n : ℕ) {tail : Bytes} (h : ∀ c ∈ tail.head?, isdigit c = false) :
    (readDecimal 0 (decimal n ++ tail)).1 = n := by
  have hdigits : ∀ c ∈ decimal n, isdigit c = true := by
    intro c hc
    obtain ⟨k, hk, rfl⟩ := Digits.exists_digit_of_mem_render (by decide) hc
    have hall : ∀ k < 10, isdigit (Digits.digitByte k) = true := by decide
    exact hall k hk
  have hvalue : (readDecimal 0 (decimal n)).1 = n := by
    have hread := Digits.readDigits_render (b := 10) (by decide) (by decide) n
    rw [readDecimal_digits hdigits]
    refine Eq.trans ?_ hread
    unfold Digits.readDigits
    have hfold : ∀ (ds : Bytes) (acc : ℕ), (∀ c ∈ ds, isdigit c = true) →
        ds.foldl (fun n ch => n * 10 + (ch.toNat - 48)) acc =
          ds.foldl (fun n c => n * 10 + Digits.byteDigit c) acc := by
      intro ds
      induction ds with
      | nil => exact fun acc _ => rfl
      | cons c ds ih =>
          intro acc hds
          have hc := hds c List.mem_cons_self
          have hdigit : Digits.byteDigit c = c.toNat - 48 := by
            unfold isdigit at hc
            rw [Bool.and_eq_true, decide_eq_true_iff, decide_eq_true_iff] at hc
            unfold Digits.byteDigit
            rw [if_pos hc.2]
          rw [List.foldl_cons, List.foldl_cons, hdigit]
          exact ih _ fun d hd => hds d (List.mem_cons_of_mem c hd)
    exact hfold _ 0 hdigits
  cases tail with
  | nil => rw [List.append_nil, hvalue]
  | cons c tail => rw [readDecimal_append (h c rfl), hvalue]

/-- A status that is an `int` is read back. -/
theorem atoi_decimalInt {status : ℤ} (h : -2 ^ 31 ≤ status ∧ status < 2 ^ 31) {tail : Bytes}
    (htail : ∀ c ∈ tail.head?, c = 32) : atoi (decimalInt status ++ tail) = status := by
  have hnext : ∀ c ∈ tail.head?, isdigit c = false := fun c hc => by
    rw [htail c hc]
    rfl
  have hread := readDecimal_decimal status.natAbs hnext
  obtain ⟨d, rest, hd, hisdigit, hspace, hd45, hd43⟩ := exists_digit_decimal status.natAbs
  have hlong : strtol (decimalInt status ++ tail) = status := by
    unfold decimalInt
    by_cases hneg : status < 0
    · rw [if_pos hneg]
      unfold strtol
      have hdrop : (45 :: decimal status.natAbs ++ tail).dropWhile isspace =
          45 :: (decimal status.natAbs ++ tail) := rfl
      rw [hdrop]
      simp only [List.head?_cons, true_or, if_true, List.tail_cons, hread]
      omega
    · rw [if_neg hneg]
      have hdrop : (decimal status.natAbs ++ tail).dropWhile isspace =
          decimal status.natAbs ++ tail := by
        rw [hd, List.cons_append, List.dropWhile_cons_of_neg]
        rw [hspace]
        exact Bool.false_ne_true
      have hhead : (decimal status.natAbs ++ tail).head? = some d := by
        rw [hd]
        rfl
      unfold strtol
      simp only [hdrop, hhead, Option.some.injEq, hd45, hd43, or_self, if_false, hread]
      omega
  unfold atoi
  rw [hlong]
  exact Int.bmod_eq_of_le (by omega) (by omega)

/-! ### Parsing -/

/-- The response behind the head of a wire. -/
def WireHead.response (h : WireHead) (body : Bytes) : H2Response where
  status := h.status
  headers := (h.fields.filterMap carry).take h2MaxHeaders
  body := body

theorem WireHead.lines_ok (h : WireHead) :
    ∀ l ∈ h.statusText :: h.fields.map WireField.text, l ≠ [] ∧ IsText l ∧ 13 ∉ l := by
  intro l hl
  rcases List.mem_cons.mp hl with rfl | hl
  · refine ⟨?_, ?_, ?_⟩
    · unfold statusText
      rw [List.append_assoc]
      exact List.append_ne_nil_of_left_ne_nil (by decide) _
    · have hversion : IsText (ascii "HTTP/1.1 ") := by decide
      exact (hversion.append (isText_decimalInt _)).append h.reason_ok.1
    · unfold statusText
      intro hmem
      rcases List.mem_append.mp hmem with hmem | hmem
      · rcases List.mem_append.mp hmem with hmem | hmem
        · exact absurd hmem (by decide)
        · exact cr_not_mem_decimalInt _ hmem
      · exact h.reason_ok.2.1 hmem
  · obtain ⟨f, -, rfl⟩ := List.mem_map.mp hl
    have hcolon : IsText [58] ∧ 13 ∉ ([58] : Bytes) := by decide
    have htext : f.text = f.name ++ [58] ++ f.value := by
      unfold WireField.text
      simp
    refine ⟨List.append_ne_nil_of_right_ne_nil _ (List.cons_ne_nil _ _), ?_, ?_⟩
    · rw [htext]
      exact (f.name_ok.1.append hcolon.1).append f.value_ok.1
    · rw [htext]
      intro hmem
      rcases List.mem_append.mp hmem with hmem | hmem
      · rcases List.mem_append.mp hmem with hmem | hmem
        · exact f.name_ok.2.1 hmem
        · exact hcolon.2 hmem
      · exact f.value_ok.2 hmem

/-- A status line with this status, of any version. -/
structure IsStatusLine (line : Bytes) (status : ℤ) : Prop where
  text : IsText line ∧ 13 ∉ line
  read : sscanfStatus line = some status

theorem IsStatusLine.ne_nil {line : Bytes} {status : ℤ} (h : IsStatusLine line status) :
    line ≠ [] := by
  rintro rfl
  have hnone : sscanfStatus [] = none := by decide
  exact Option.some_ne_none status (h.read.symm.trans hnone)

theorem WireHead.isStatusLine (h : WireHead) : IsStatusLine h.statusText h.status := by
  refine ⟨(h.lines_ok _ List.mem_cons_self).2, ?_⟩
  unfold WireHead.statusText
  rw [sscanfStatus_eq, atoi_decimalInt h.status_ok h.reason_ok.2.2]

/-- What is parsed of a head with such a status line. -/
theorem parseLoopbackResponse_lines (h : WireHead) {line : Bytes}
    (hline : IsStatusLine line h.status) (body : Bytes) :
    parseLoopbackResponse true
        (unlines (line :: h.fields.map WireField.text) ++ crlf ++ body) =
      if h.fields.any announcesChunks then (decodeChunkedBody body).map h.response
      else some (h.response body) := by
  have hok : ∀ l ∈ line :: h.fields.map WireField.text, l ≠ [] ∧ IsText l ∧ 13 ∉ l := by
    intro l hl
    rcases List.mem_cons.mp hl with rfl | hl
    · exact ⟨hline.ne_nil, hline.text⟩
    · exact h.lines_ok l (List.mem_cons_of_mem _ hl)
  obtain ⟨stop, hstop, htokens, hbody⟩ := loopbackTokens_unlines (List.cons_ne_nil _ _)
    (fun l hl => ⟨(hok l hl).1, (hok l hl).2.1⟩) body
  have htokens' : (line :: h.fields.map WireField.text).flatMap strtokLines =
      line :: h.fields.map WireField.text := by
    have hself : ∀ l ∈ line :: h.fields.map WireField.text, strtokLines l = [l] :=
      fun l hl => strtokLines_line (hok l hl).1 (hok l hl).2.2 (hok l hl).2.1.1
    rw [List.flatMap_congr hself, List.flatMap_singleton']
  rw [htokens'] at htokens
  obtain ⟨hheaders, hflag⟩ := @headers_foldl h.fields {} (Nat.zero_le _)
  rw [Bool.false_or] at hflag
  rw [List.nil_append] at hheaders
  unfold parseLoopbackResponse
  rw [hstop]
  simp only [Bool.not_true, Bool.false_eq_true, if_false, htokens, hline.read, hbody, hflag,
    hheaders]
  rfl

/-- **What is parsed**: the response, unless its chunked body cannot be decoded. -/
theorem parseLoopbackResponse_wire (h : WireHead) (body : Bytes) :
    parseLoopbackResponse true (h.bytes ++ body) =
      if h.fields.any announcesChunks then (decodeChunkedBody body).map h.response
      else some (h.response body) :=
  parseLoopbackResponse_lines h h.isStatusLine body

/-! ### Fields that are carried -/

/-- A field that trimming and the slots leave as it is, blanks around the value apart. -/
structure WireField.Carried (f : WireField) : Prop where
  name_ne : f.name ≠ []
  name_plain : Plain f.name
  name_fits : f.name.length < 128
  value_plain : Plain (trimBlanks f.value)
  value_fits : (trimBlanks f.value).length < 4096

/-- What a slot tells the client, blanks around the value apart. -/
def shown (slot : Field) : Field := (slot.1, trimBlanks slot.2)

/-- Only fields that are kept have slots. -/
theorem carry_of_blocked {f : WireField} (h : blockedH2Header f.name = true) : carry f = none := by
  have hplain : Plain f.name := by
    obtain ⟨known, hknown, hname⟩ := List.any_eq_true.mp h
    have hall : ∀ known ∈ [ascii "connection", ascii "transfer-encoding", ascii "upgrade",
        ascii "keep-alive", ascii "proxy-connection"],
        (∀ c ∈ known.head?, isspace c = false) ∧ (∀ c ∈ known.getLast?, isspace c = false) ∧
          isQuoted 34 known = false ∧ isQuoted 39 known = false := by decide +kernel
    obtain ⟨hfirst, hlast, hunquoted⟩ := hall known hknown
    exact plain_of_streqCi hname ⟨hfirst, hlast, hunquoted⟩
  unfold carry
  rw [trim_of_plain rfl hplain, h, Bool.true_or, if_pos rfl]

theorem filterMap_kept (h : WireHead) : h.fields.filterMap carry = h.kept.filterMap carry := by
  unfold WireHead.kept
  induction h.fields with
  | nil => rfl
  | cons f fields ih =>
      by_cases hblocked : blockedH2Header f.name = true
      · rw [List.filterMap_cons_none (carry_of_blocked hblocked), ih, List.filter_cons_of_neg]
        simpa using hblocked
      · rw [List.filter_cons_of_pos (by simpa using hblocked), List.filterMap_cons,
          List.filterMap_cons, ih]

/-- **A field is told as it should be exactly if it is carried.** -/
theorem carried_iff {f : WireField} (hkept : blockedH2Header f.name = false) :
    (carry f).map shown = some f.told ↔ f.Carried := by
  have hslot : shown (safeCopy 128 (trim f.name), safeCopy 4096 (trim f.value)) = f.told ↔
      (Plain f.name ∧ f.name.length < 128) ∧
        Plain (trimBlanks f.value) ∧ (trimBlanks f.value).length < 4096 := by
    rw [← name_carried_iff, ← value_carried_iff]
    exact Prod.mk.injEq _ _ _ _ ▸ Iff.rfl
  unfold carry
  constructor
  · intro h
    by_cases hpass : (blockedH2Header (trim f.name) || decide (trim f.name = [])) = true
    · rw [if_pos hpass] at h
      cases h
    rw [if_neg hpass, Option.map_some, Option.some.injEq] at h
    obtain ⟨⟨hplain, hlength⟩, hvalue⟩ := hslot.mp h
    refine ⟨?_, hplain, hlength, hvalue.1, hvalue.2⟩
    intro hnil
    rw [trim_of_plain rfl hplain] at hpass
    simp [hnil] at hpass
  · rintro ⟨hne, hplain, hlength, hvalue, hfits⟩
    rw [trim_of_plain rfl hplain, hkept, if_neg (by simpa using hne), Option.map_some]
    rw [trim_of_plain rfl hplain] at hslot
    rw [hslot.mpr ⟨⟨hplain, hlength⟩, hvalue, hfits⟩]

/-! ### All of them -/

theorem hasField_map_shown (name : Bytes) (slots : List Field) :
    hasField name (slots.map shown) = hasField name slots := by
  unfold hasField
  rw [List.any_map]
  rfl

theorem hasField_append (name : Bytes) (fs gs : List Field) :
    hasField name (fs ++ gs) = (hasField name fs || hasField name gs) := List.any_append

/-- The fields end in just the one that is added if it is missing: it may be one too many. -/
def OneMore (told : List Field) : Prop :=
  ∃ front, told = front ++ [hstsField] ∧ front.length = h2MaxHeaders ∧
    hasField (ascii "Strict-Transport-Security") front = false

/-- Fields that are told as they should be, one by one. -/
theorem carried_of_told {K : List WireField} (hkept : ∀ f ∈ K, blockedH2Header f.name = false)
    {n : ℕ} (hlength : (K.filterMap carry).length = K.length)
    (htold : ((K.filterMap carry).map shown).take n = (K.map WireField.told).take n) :
    ∀ f ∈ K.take n, f.Carried := by
  induction K generalizing n with
  | nil =>
      intro f hf
      rw [List.take_nil] at hf
      exact absurd hf List.not_mem_nil
  | cons g K ih =>
      cases n with
      | zero => exact fun f hf => absurd hf List.not_mem_nil
      | succ n =>
          have hle := List.length_filterMap_le carry K
          cases hslot : carry g with
          | none =>
              rw [List.filterMap_cons_none hslot, List.length_cons] at hlength
              omega
          | some slot =>
              rw [List.filterMap_cons_some hslot, List.length_cons, List.length_cons] at hlength
              rw [List.filterMap_cons_some hslot, List.map_cons, List.map_cons,
                List.take_succ_cons, List.take_succ_cons, List.cons.injEq] at htold
              have hg : (carry g).map shown = some g.told := by
                rw [hslot, Option.map_some, htold.1]
              intro f hf
              rw [List.take_succ_cons] at hf
              rcases List.mem_cons.mp hf with rfl | hf
              · exact (carried_iff (hkept f List.mem_cons_self)).mp hg
              · exact ih (fun f hf => hkept f (List.mem_cons_of_mem g hf)) (by omega) htold.2 f hf

/-- Carried fields are told as they should be. -/
theorem told_of_carried {K : List WireField} (hkept : ∀ f ∈ K, blockedH2Header f.name = false)
    (h : ∀ f ∈ K, f.Carried) : (K.filterMap carry).map shown = K.map WireField.told := by
  induction K with
  | nil => rfl
  | cons g K ih =>
      have hg := (carried_iff (hkept g List.mem_cons_self)).mpr (h g List.mem_cons_self)
      obtain ⟨slot, hslot, hshown⟩ := Option.map_eq_some_iff.mp hg
      rw [List.filterMap_cons_some hslot, List.map_cons, List.map_cons, hshown,
        ih (fun f hf => hkept f (List.mem_cons_of_mem g hf))
          (fun f hf => h f (List.mem_cons_of_mem g hf))]

/-- A field that is told as the one that is added is carried. -/
theorem carried_of_hsts {f : WireField} (h : f.told = hstsField) : f.Carried := by
  have hname : f.name = ascii "strict-transport-security" := congrArg Prod.fst h
  have hvalue : trimBlanks f.value = ascii "max-age=31536000; includeSubDomains" :=
    congrArg Prod.snd h
  refine ⟨?_, ?_, ?_, ?_, ?_⟩
  · rw [hname]
    decide
  · rw [hname]
    exact ⟨by decide +kernel, by decide +kernel, by decide⟩
  · rw [hname]
    decide
  · rw [hvalue]
    exact ⟨by decide +kernel, by decide +kernel, by decide⟩
  · rw [hvalue]
    decide

/-- The fields that are kept, and the one that is added: as they should be exactly if all are
carried and there are slots for them. -/
theorem withHsts_iff {K : List WireField} (hkept : ∀ f ∈ K, blockedH2Header f.name = false) :
    withHsts (((K.filterMap carry).take h2MaxHeaders).map shown) = withHsts (K.map WireField.told) ↔
      (∀ f ∈ K, f.Carried) ∧ (K.length ≤ h2MaxHeaders ∨ OneMore (K.map WireField.told)) := by
  have hle := List.length_filterMap_le carry K
  have hlen : (((K.filterMap carry).take h2MaxHeaders).map shown).length =
      min h2MaxHeaders (K.filterMap carry).length := by
    rw [List.length_map, List.length_take]
  have hmap : ((K.filterMap carry).take h2MaxHeaders).map shown =
      ((K.filterMap carry).map shown).take h2MaxHeaders := List.map_take
  have htold : (K.map WireField.told).length = K.length := List.length_map _
  have hpos : 1 ≤ h2MaxHeaders := by decide
  set D := ((K.filterMap carry).take h2MaxHeaders).map shown with hD
  set R := K.map WireField.told with hR
  constructor
  · intro h
    -- as many fields told as there should be: each is as it should be
    have hsame : D = R → (∀ f ∈ K, f.Carried) ∧ (K.length ≤ h2MaxHeaders ∨ OneMore R) := by
      intro hDR
      have hcount := congrArg List.length hDR
      rw [hlen, htold] at hcount
      refine ⟨fun f hf => ?_, Or.inl (by omega)⟩
      apply carried_of_told hkept (n := h2MaxHeaders) (by omega)
      · rw [← hmap, hDR, ← hR, List.take_of_length_le (by omega)]
      · rwa [List.take_of_length_le (by omega)]
    unfold withHsts at h
    cases hd : hasField (ascii "Strict-Transport-Security") D with
    | true =>
        cases hr : hasField (ascii "Strict-Transport-Security") R with
        | true =>
            rw [hd, hr, if_pos rfl, List.append_nil, List.append_nil] at h
            exact hsame h
        | false =>
            rw [hd, hr, if_pos rfl, if_neg Bool.false_ne_true, List.append_nil] at h
            have hcount := congrArg List.length h
            rw [hlen, List.length_append, htold, List.length_singleton] at hcount
            omega
    | false =>
        cases hr : hasField (ascii "Strict-Transport-Security") R with
        | false =>
            rw [hd, hr, if_neg Bool.false_ne_true] at h
            exact hsame (List.append_cancel_right h)
        | true =>
            rw [hd, hr, if_neg Bool.false_ne_true, if_pos rfl, List.append_nil] at h
            have hcount := congrArg List.length h
            rw [List.length_append, hlen, htold, List.length_singleton] at hcount
            -- the last field is the one that is added
            obtain ⟨front, last, hK⟩ : ∃ front last, K = front ++ [last] := by
              have hne : K ≠ [] := List.ne_nil_of_length_pos (by omega)
              exact ⟨K.dropLast, K.getLast hne, (List.dropLast_append_getLast hne).symm⟩
            have hsplit : D ++ [hstsField] = front.map WireField.told ++ [last.told] := by
              rw [h, hR, hK, List.map_append]
              rfl
            obtain ⟨hfront, hlast⟩ := List.append_inj' hsplit rfl
            have hlastTold : last.told = hstsField := (List.singleton_inj.mp hlast).symm
            have hlastCarried := carried_of_hsts hlastTold
            by_cases hall : (K.filterMap carry).length = K.length
            · refine ⟨fun f hf => ?_, Or.inr ⟨D, h.symm, by omega, hd⟩⟩
              rw [hK] at hf
              rcases List.mem_append.mp hf with hf | hf
              · apply carried_of_told hkept (n := h2MaxHeaders) hall
                · rw [← hmap, ← hR, ← h, List.take_append_of_le_length (by omega),
                    List.take_of_length_le (by omega)]
                · have hfrontLen : front.length = h2MaxHeaders := by
                    rw [hK, List.length_append, List.length_singleton] at hcount hall
                    omega
                  rw [hK, List.take_append_of_le_length (by omega),
                    List.take_of_length_le (by omega)]
                  exact hf
              · rw [List.mem_singleton.mp hf]
                exact hlastCarried
            · -- then the last field has a slot, and the added field would not be added
              exfalso
              have hlastKept : blockedH2Header last.name = false := hkept last (by
                rw [hK]
                exact List.mem_append_right _ (List.mem_singleton_self _))
              obtain ⟨slot, hslot, hshown⟩ :=
                Option.map_eq_some_iff.mp ((carried_iff hlastKept).mpr hlastCarried)
              have hmem : shown slot ∈ D := by
                rw [hD]
                apply List.mem_map_of_mem
                rw [List.take_of_length_le (by omega)]
                apply List.mem_filterMap.mpr
                exact ⟨last, by rw [hK]; exact List.mem_append_right _ (List.mem_singleton_self _),
                  hslot⟩
              have htrue : hasField (ascii "Strict-Transport-Security") D = true := by
                apply List.any_eq_true.mpr
                refine ⟨shown slot, hmem, ?_⟩
                rw [hshown, hlastTold]
                decide
              rw [htrue] at hd
              exact Bool.noConfusion hd
  · rintro ⟨hcarried, hcount⟩
    have hslots := told_of_carried hkept hcarried
    rw [hmap, hslots, ← hR]
    rcases hcount with hcount | ⟨front, hfront, hlength, hnone⟩
    · rw [List.take_of_length_le (by omega)]
    · have htake : R.take h2MaxHeaders = front := by
        rw [hfront, ← hlength, List.take_left]
      have hhas : hasField (ascii "Strict-Transport-Security") R = true := by
        rw [hfront, hasField_append]
        have : hasField (ascii "Strict-Transport-Security") [hstsField] = true := by decide
        rw [this, Bool.or_true]
      unfold withHsts
      rw [htake, hnone, hhas, if_neg Bool.false_ne_true, if_pos rfl, List.append_nil]
      exact hfront.symm

/-! ### The fields of a response -/

/-- The whole response is carried. -/
structure WireHead.Carried (h : WireHead) (body : Bytes) : Prop where
  status : (decimalInt h.status).length < 4
  fields : ∀ f ∈ h.kept, f.Carried
  count : h.kept.length ≤ h2MaxHeaders ∨ OneMore (h.kept.map WireField.told)
  body : h.fields.any announcesChunks = true → decodeChunkedBody body ≠ none

theorem status_carried_iff (status : ℤ) :
    trimBlanks (statusText status) = decimalInt status ↔ (decimalInt status).length < 4 := by
  have hvisible : ∀ c ∈ decimalInt status, 32 < c := by
    have hdigits : ∀ n : ℕ, ∀ c ∈ decimal n, 32 < c := by
      intro n c hc
      obtain ⟨k, hk, rfl⟩ := Digits.exists_digit_of_mem_render (by decide) hc
      have hall : ∀ k < 10, 32 < Digits.digitByte k := by decide
      exact hall k hk
    unfold decimalInt
    split_ifs
    · intro c hc
      rcases List.mem_cons.mp hc with rfl | hc
      · decide
      · exact hdigits _ c hc
    · exact hdigits _
  constructor
  · intro h
    have hlength := congrArg List.length h
    have hle := length_strip_le isBlank (statusText status)
    rw [← trimBlanks_eq_strip] at hle
    unfold statusText safeCopy at hlength hle
    rw [List.length_take] at hle
    omega
  · intro h
    unfold statusText safeCopy
    rw [List.take_of_length_le (by omega), trimBlanks_of_lt hvisible]

/-- The page for a response that cannot be parsed has no `Strict-Transport-Security`. -/
theorem simple_ne_expected (h : WireHead) :
    (submitSimpleResponse 502 (ascii "502 Bad Gateway\n")).fields.map shown ≠ h.expected := by
  intro heq
  have htail := congrArg List.tail heq
  have hhas : ∀ fields, hasField (ascii "Strict-Transport-Security") (withHsts fields) = true := by
    intro fields
    unfold withHsts
    rw [hasField_append]
    cases hfields : hasField (ascii "Strict-Transport-Security") fields with
    | true => rfl
    | false => decide
  have hpage := hhas (h.kept.map WireField.told)
  have hexpected : h.expected.tail = withHsts (h.kept.map WireField.told) := rfl
  rw [← hexpected, ← htail] at hpage
  exact absurd hpage (by decide)

/-- The fields that are submitted for a response that is parsed. -/
theorem shown_fields (h : WireHead) (body : Bytes) :
    ((ascii ":status", statusText (h.response body).status) :: (h.response body).headers ++
        if responseHasHeader (h.response body) (ascii "Strict-Transport-Security") then []
        else [hstsField]).map shown =
      (ascii ":status", trimBlanks (statusText h.status)) ::
        withHsts (((h.kept.filterMap carry).take h2MaxHeaders).map shown) := by
  have hheaders : (h.response body).headers = (h.kept.filterMap carry).take h2MaxHeaders := by
    unfold WireHead.response
    rw [filterMap_kept]
  have hadded : hstsField = shown hstsField := by decide
  have hasame : responseHasHeader (h.response body) (ascii "Strict-Transport-Security") =
      hasField (ascii "Strict-Transport-Security")
        (((h.kept.filterMap carry).take h2MaxHeaders).map shown) := by
    rw [hasField_map_shown, ← hheaders]
    rfl
  unfold withHsts
  rw [hasame, hheaders, List.cons_append, List.map_cons, List.map_append]
  split_ifs
  · rfl
  · rw [List.map_singleton, ← hadded]
    rfl

/-- The status and the fields, apart from the body. -/
structure WireHead.CarriedHead (h : WireHead) : Prop where
  status : (decimalInt h.status).length < 4
  fields : ∀ f ∈ h.kept, f.Carried
  count : h.kept.length ≤ h2MaxHeaders ∨ OneMore (h.kept.map WireField.told)

/-- The fields that are submitted are those that should be exactly if the head is carried. -/
theorem shown_eq_expected_iff (h : WireHead) (body : Bytes) :
    ((ascii ":status", statusText (h.response body).status) :: (h.response body).headers ++
        if responseHasHeader (h.response body) (ascii "Strict-Transport-Security") then []
        else [hstsField]).map shown = h.expected ↔ h.CarriedHead := by
  have hkept : ∀ f ∈ h.kept, blockedH2Header f.name = false := fun f hf => by
    simpa using (List.mem_filter.mp hf).2
  rw [shown_fields]
  unfold WireHead.expected
  rw [List.cons.injEq, Prod.mk.injEq, status_carried_iff, withHsts_iff hkept]
  constructor
  · rintro ⟨⟨-, hstatus⟩, hfields, hcount⟩
    exact ⟨hstatus, hfields, hcount⟩
  · exact fun hcarried => ⟨⟨rfl, hcarried.status⟩, hcarried.fields, hcarried.count⟩

/-- **An HTTP/2 client gets the fields of a response if and only if all of them are carried.** -/
theorem submitsFaithfully_iff (s : H2Stream) (h : WireHead) (body : Bytes) :
    SubmitsFaithfully s h body ↔ h.Carried body := by
  unfold SubmitsFaithfully submitParsedLoopbackResponse
  rw [parseLoopbackResponse_wire]
  by_cases hbody : h.fields.any announcesChunks = true → decodeChunkedBody body ≠ none
  · -- the body is there, chunked or not: the response is parsed
    obtain ⟨decoded, hparse⟩ : ∃ decoded,
        (if h.fields.any announcesChunks then (decodeChunkedBody body).map h.response
          else some (h.response body)) = some (h.response decoded) := by
      by_cases hchunks : h.fields.any announcesChunks = true
      · obtain ⟨decoded, hdecoded⟩ := Option.ne_none_iff_exists'.mp (hbody hchunks)
        exact ⟨decoded, by rw [if_pos hchunks, hdecoded, Option.map_some]⟩
      · exact ⟨body, if_neg hchunks⟩
    rw [hparse]
    simp only [Bool.not_true, Bool.false_eq_true, if_false, Option.some.injEq]
    have hshown := shown_eq_expected_iff h decoded
    constructor
    · rintro ⟨sub, rfl, hfields⟩
      have hcarried := hshown.mp hfields
      exact ⟨hcarried.status, hcarried.fields, hcarried.count, hbody⟩
    · intro hcarried
      exact ⟨_, rfl, hshown.mpr ⟨hcarried.status, hcarried.fields, hcarried.count⟩⟩
  · -- a chunked body that cannot be decoded: the client gets an error page
    rw [Classical.not_imp, not_not] at hbody
    rw [if_pos hbody.1, hbody.2, Option.map_none]
    simp only [Option.some.injEq]
    constructor
    · rintro ⟨sub, rfl, hfields⟩
      exact absurd hfields (simple_ne_expected h)
    · intro hcarried
      exact absurd hbody.2 (hcarried.body hbody.1)

/-! ### Heads that are built -/

/-- The line of a field without CR is the line of a field on the wire. -/
theorem exists_wireField {f : Field} (htext : TextField f) (hcr : 13 ∉ f.1 ∧ 13 ∉ f.2) :
    ∃ wire : WireField, wire.text = fieldText f := by
  have htexts := isText_fieldText htext
  have hcrs : 13 ∉ fieldText f := by
    unfold fieldText headerText
    exact cr_not_mem_append (cr_not_mem_append hcr.1 (by decide)) hcr.2
  cases hsplit : splitFirst 58 (fieldText f) with
  | none =>
      have hcolon := splitFirst_eq_none_iff.mp hsplit
      unfold fieldText headerText at hcolon
      refine absurd (List.mem_append_left _ (List.mem_append_right _ ?_)) hcolon
      decide
  | some parts =>
      obtain ⟨name, value⟩ := parts
      obtain ⟨htext, hname⟩ := splitFirst_eq_some_iff.mp hsplit
      rw [htext] at htexts hcrs
      refine ⟨⟨name, value, ⟨⟨fun h => ?_, fun h => ?_⟩, fun h => ?_, hname⟩,
        ⟨fun h => ?_, fun h => ?_⟩, fun h => ?_⟩, htext.symm⟩
      · exact htexts.1 (List.mem_append_left _ h)
      · exact htexts.2 (List.mem_append_left _ h)
      · exact hcrs (List.mem_append_left _ h)
      · exact htexts.1 (List.mem_append_right _ (List.mem_cons_of_mem _ h))
      · exact htexts.2 (List.mem_append_right _ (List.mem_cons_of_mem _ h))
      · exact hcrs (List.mem_append_right _ (List.mem_cons_of_mem _ h))

/-- The heads of the server itself, the fields of a FastCGI backend included, are heads of this
kind, unless a text of the configuration or of the host has a CR. -/
theorem exists_wireHead {status : ℤ} (hstatus : -2 ^ 31 ≤ status ∧ status < 2 ^ 31)
    {fields : List Field} (h : ∀ f ∈ fields, TextField f ∧ 13 ∉ f.1 ∧ 13 ∉ f.2) :
    ∃ head : WireHead, head.bytes = headOf status fields ∧ head.status = status := by
  have hfields : ∃ wires : List WireField, wires.map WireField.text = fields.map fieldText := by
    induction fields with
    | nil => exact ⟨[], rfl⟩
    | cons f fields ih =>
        obtain ⟨htext, hcr⟩ := h f List.mem_cons_self
        obtain ⟨wire, hwire⟩ := exists_wireField htext hcr
        obtain ⟨wires, hwires⟩ := ih fun g hg => h g (List.mem_cons_of_mem f hg)
        exact ⟨wire :: wires, by rw [List.map_cons, List.map_cons, hwire, hwires]⟩
  obtain ⟨wires, hwires⟩ := hfields
  have hspace : IsText (ascii " ") := by decide
  have hspaceCr : 13 ∉ ascii " " := by decide
  have hreason : ∀ c ∈ (ascii " " ++ httpStatusText status).head?, c = 32 := fun c hc =>
    (Option.some.inj hc).symm
  refine ⟨⟨status, ascii " " ++ httpStatusText status, wires, hstatus,
    hspace.append (isText_httpStatusText status),
    cr_not_mem_append hspaceCr (cr_not_mem_httpStatusText status), hreason⟩, ?_, rfl⟩
  unfold WireHead.bytes WireHead.statusText headOf statusLine
  rw [hwires]
  simp only [List.append_assoc]

/-! ### An entity tag -/

/-- An entity tag, as an upstream sends it. -/
def tagField : WireField where
  name := ascii "ETag"
  value := ascii " \"abc\""
  name_ok := by decide
  value_ok := by decide

/-- The head of a response with this tag. -/
def taggedHead : WireHead where
  status := 200
  reason := ascii " OK"
  fields := [tagField]
  status_ok := by decide
  reason_ok := by decide +kernel

/-- **An entity tag loses its quotes.** -/
theorem quoted_tag_altered :
    taggedHead.bytes = ascii "HTTP/1.1 200 OK\x0d\nETag: \"abc\"\x0d\n\x0d\n" ∧
      (submitParsedLoopbackResponse true true { rawResponse := taggedHead.bytes }).map
          H2Submission.fields =
        some [(ascii ":status", ascii "200"), (ascii "ETag", ascii "abc"), hstsField] ∧
      taggedHead.expected =
        [(ascii ":status", ascii "200"), (ascii "ETag", ascii "\"abc\""), hstsField] ∧
      ¬ SubmitsFaithfully {} taggedHead [] := by
  have hsubmitted : (submitParsedLoopbackResponse true true
      { rawResponse := taggedHead.bytes }).map H2Submission.fields =
        some [(ascii ":status", ascii "200"), (ascii "ETag", ascii "abc"), hstsField] := by
    decide +kernel
  have hexpected : taggedHead.expected =
      [(ascii ":status", ascii "200"), (ascii "ETag", ascii "\"abc\""), hstsField] := by
    decide +kernel
  refine ⟨by decide +kernel, hsubmitted, hexpected, ?_⟩
  rintro ⟨sub, hsub, hfields⟩
  rw [List.append_nil] at hsub
  have hnil : ({ ({} : H2Stream) with rawResponse := taggedHead.bytes } : H2Stream) =
      { rawResponse := taggedHead.bytes } := rfl
  rw [hnil] at hsub
  rw [hsub, Option.map_some, Option.some.injEq] at hsubmitted
  rw [hsubmitted, hexpected] at hfields
  exact absurd hfields (by decide)

end Rpsiod

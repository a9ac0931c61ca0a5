import Rpsiod.Http.Fields

/-!
# Only well-formed, unambiguously framed heads are accepted

The grammar here is stated without the parser: a `RequestHead` is a head taken apart, and
`SafeHead` lists what two readers of one head have to agree on.

* `fieldInv_step`: one header line keeps what the locals say about the lines so far.
* `accepted_head_safe`: **every accepted head is safe**, with the HTTP version in any letter case.
* `exact_version_not_enforced`: with the version exactly as it is written in the standard this
  fails, on a head with a lower-case version.
-/

namespace Rpsiod

open FailingRun ListSearch Crlf

/-! ### The grammar -/

/-- A character of a token. -/
def IsTchar (ch : UInt8) : Prop :=
  (48 ≤ ch ∧ ch ≤ 57) ∨ (65 ≤ ch ∧ ch ≤ 90) ∨ (97 ≤ ch ∧ ch ≤ 122) ∨
    ch ∈ ascii "!#$%&'*+-.^_`|~"

/-- A token. -/
def IsToken (b : Bytes) : Prop := b ≠ [] ∧ ∀ ch ∈ b, IsTchar ch

/-- CR and LF occur only as the pair CRLF. -/
def CrlfPairs (b : Bytes) : Prop :=
  b.head? ≠ some 10 ∧ ∀ i : ℕ, b[i]? = some 13 ↔ b[i + 1]? = some 10

/-- A text of decimal digits. -/
def IsDigits (b : Bytes) : Prop := b ≠ [] ∧ ∀ ch ∈ b, 48 ≤ ch ∧ ch ≤ 57

/-- The number a text of digits denotes. -/
def decimalValue (b : Bytes) : ℕ := b.foldl (fun n ch => n * 10 + (ch.toNat - 48)) 0

/-- A host text without its port. A bracketed address ends at the bracket, and a text with
several colons has no port. -/
def withoutPort (host : Bytes) : Bytes :=
  if host.head? = some 91 then host.takeWhile (· ≠ 93) ++ [93]
  else if host.count 58 = 1 then host.takeWhile (· ≠ 58)
  else host

/-- A request head, taken apart. -/
structure RequestHead where
  method : Bytes
  target : Bytes
  version : Bytes
  fields : List (Bytes × Bytes)

/-- The line of a field. -/
def fieldLine (f : Bytes × Bytes) : Bytes := f.1 ++ 58 :: f.2

namespace RequestHead

/-- The request line: two spaces in total. -/
def requestLine (h : RequestHead) : Bytes := h.method ++ 32 :: (h.target ++ 32 :: h.version)

/-- The head as it is sent. -/
def bytes (h : RequestHead) : Bytes := unlines (h.requestLine :: h.fields.map fieldLine) ++ crlf

/-- The fields of this name, in any letter case. -/
def named (h : RequestHead) (name : Bytes) : List (Bytes × Bytes) :=
  h.fields.filter fun f => streqCi f.1 name

end RequestHead

/-- A head that every reader takes apart in the same way, and as `req` records it. -/
structure SafeHead (versionOk : Bytes → Prop) (buf : Bytes) (req : HttpRequest)
    (h : RequestHead) : Prop where
  /-- The head ends at the first CRLFCRLF. -/
  header_len : ∃ stop, IsFirst crlfcrlf buf stop ∧ req.headerLen = 4 + stop
  head_eq : buf.take req.headerLen = h.bytes
  no_nul : 0 ∉ h.bytes
  newlines : CrlfPairs h.bytes
  method : IsToken h.method
  target_space : h.target ≠ [] ∧ 32 ∉ h.target
  version_space : 32 ∉ h.version
  version : versionOk h.version
  names : ∀ f ∈ h.fields, IsToken f.1
  values : ∀ f ∈ h.fields, ∀ ch ∈ f.2, ch = 9 ∨ (32 ≤ ch ∧ ch ≠ 127)
  count : h.fields.length ≤ 100
  length : ∀ f ∈ h.fields, (fieldLine f).length < 1024
  one_host : (h.named (ascii "Host")).length = 1
  no_encoding : h.named (ascii "Transfer-Encoding") = []
  content_length : ∀ f ∈ h.named (ascii "Content-Length"),
    IsDigits (trimBlanks f.2) ∧ decimalValue (trimBlanks f.2) = req.contentLength
  content_length_lt : req.contentLength < 2 ^ 64
  no_content_length : h.named (ascii "Content-Length") = [] → req.contentLength = 0
  /-- The authority reaches from the scheme to the first slash or the end of the target. -/
  authority : ∀ scheme authority rest, h.target = scheme ++ authority ++ rest →
    streqCi scheme (ascii "http://") = true ∨ streqCi scheme (ascii "https://") = true →
    47 ∉ authority → (rest = [] ∨ rest.head? = some 47) →
    ∀ f ∈ h.named (ascii "Host"),
      streqCi (withoutPort authority) (withoutPort (trimBlanks f.2)) = true

/-! ### Bytes -/

theorem isTchar_of_validTokenChar {ch : UInt8} (h : validTokenChar ch = true) : IsTchar ch := by
  simp only [validTokenChar, Bool.or_eq_true, Bool.and_eq_true, decide_eq_true_eq,
    List.contains_iff_mem, or_assoc] at h
  exact h

theorem isToken_of_all {b : Bytes} (hne : b ≠ []) (h : b.all validTokenChar = true) :
    IsToken b :=
  ⟨hne, fun ch hch => isTchar_of_validTokenChar (List.all_eq_true.mp h ch hch)⟩

/-- A token character is neither a control byte nor a space. -/
theorem IsTchar.lt {ch : UInt8} (h : IsTchar ch) : 32 < ch := by
  rcases h with h | h | h | h
  · exact UInt8.lt_of_lt_of_le (by decide : (32 : UInt8) < 48) h.1
  · exact UInt8.lt_of_lt_of_le (by decide : (32 : UInt8) < 65) h.1
  · exact UInt8.lt_of_lt_of_le (by decide : (32 : UInt8) < 97) h.1
  · have hall : ∀ c ∈ ascii "!#$%&'*+-.^_`|~", 32 < c := by decide +kernel
    exact hall ch h

theorem crlfPairs_of_validNewlines {b : Bytes} (h : validHeaderBlockNewlines b = true) :
    CrlfPairs b := by
  induction b using validHeaderBlockNewlines.induct with
  | case1 => simp [CrlfPairs]
  | case2 rest ih =>
      rw [validHeaderBlockNewlines] at h
      obtain ⟨hhead, hpairs⟩ := ih h
      refine ⟨by simp, fun i => ?_⟩
      rcases i with _ | _ | i
      · simp
      · simpa [List.head?_eq_getElem?] using hhead
      · simpa using hpairs i
  | case3 rest hne => simp [validHeaderBlockNewlines] at h
  | case4 rest => simp [validHeaderBlockNewlines] at h
  | case5 a rest h1 h2 h3 ih =>
      have h13 : a ≠ 13 := h2
      have h10 : a ≠ 10 := h3
      rw [validHeaderBlockNewlines] at h
      · obtain ⟨hhead, hpairs⟩ := ih h
        refine ⟨by simpa using h10, fun i => ?_⟩
        rcases i with _ | i
        · simpa [h13, List.head?_eq_getElem?] using hhead
        · simpa using hpairs i
      all_goals assumption

/-! ### Content-Length -/

theorem isdigit_iff {ch : UInt8} : isdigit ch = true ↔ 48 ≤ ch ∧ ch ≤ 57 := by
  simp [isdigit]

theorem isspace_of_isdigit {ch : UInt8} (h : isdigit ch = true) : isspace ch = false := by
  have hle := UInt8.le_iff_toNat_le.mp (isdigit_iff.mp h).1
  simp only [isspace, Bool.or_eq_false_iff, beq_eq_false_iff_ne, Bool.and_eq_false_iff,
    decide_eq_false_iff_not, UInt8.not_le]
  refine ⟨fun heq => ?_, Or.inr (UInt8.lt_iff_toNat_lt.mpr ?_)⟩
  · subst heq
    exact absurd hle (by decide)
  · exact lt_of_lt_of_le (by decide) hle

theorem readDecimal_digits {b : Bytes} (h : ∀ ch ∈ b, isdigit ch = true) (acc : ℕ) :
    readDecimal acc b = (b.foldl (fun n ch => n * 10 + (ch.toNat - 48)) acc, []) := by
  induction b generalizing acc with
  | nil => rfl
  | cons c b ih =>
      rw [readDecimal, if_pos (h c List.mem_cons_self),
        ih fun ch hch => h ch (List.mem_cons_of_mem c hch)]
      rfl

/-- On a text of digits `strtoull` reads the number, or reports that it does not fit. -/
theorem strtoull_digits {b : Bytes} (hne : b ≠ []) (h : ∀ ch ∈ b, isdigit ch = true) :
    strtoull b = if decimalValue b < 2 ^ 64 then ⟨decimalValue b, [], false⟩
      else ⟨2 ^ 64 - 1, [], true⟩ := by
  cases b with
  | nil => exact absurd rfl hne
  | cons c b =>
      have hc := h c List.mem_cons_self
      have hsign : c ≠ 45 ∧ c ≠ 43 := by
        constructor <;>
          · rintro rfl
            exact absurd hc (by decide)
      have hdrop : (c :: b).dropWhile isspace = c :: b := by
        rw [List.dropWhile_cons_of_neg]
        simp [isspace_of_isdigit hc]
      unfold strtoull
      simp only [hdrop, List.head?_cons, Option.some.injEq, hsign.1, hsign.2, or_self, if_false,
        Option.any_some, hc, if_true, readDecimal_digits h]
      rfl

/-- A Content-Length value is a text of digits that fits 64 bits, and it is that number. -/
theorem parseContentLength_eq_some {value : Bytes} {n : ℕ}
    (h : parseContentLength value = some n) :
    IsDigits value ∧ decimalValue value = n ∧ n < 2 ^ 64 := by
  simp only [parseContentLength] at h
  split_ifs at h with hne hdigits herange hrest
  rw [Bool.not_eq_true', Bool.not_eq_false, List.all_eq_true] at hdigits
  rw [strtoull_digits hne hdigits] at h herange
  refine ⟨⟨hne, fun ch hch => isdigit_iff.mp (hdigits ch hch)⟩, ?_⟩
  by_cases hlt : decimalValue value < 2 ^ 64
  · rw [if_pos hlt, Option.some.injEq] at h
    exact ⟨h, h ▸ hlt⟩
  · rw [if_neg hlt] at herange
    simp at herange

/-! ### Host -/

theorem withoutPort_withoutPort (host : Bytes) :
    withoutPort (withoutPort host) = withoutPort host := by
  by_cases hb : host.head? = some 91
  · obtain ⟨rest, rfl⟩ : ∃ rest, host = 91 :: rest := by
      cases host with
      | nil => simp at hb
      | cons c rest => exact ⟨rest, by simpa using hb⟩
    have hw : withoutPort (91 :: rest) = 91 :: (rest.takeWhile (· ≠ 93) ++ [93]) := by
      rw [withoutPort, if_pos hb, List.takeWhile_cons_of_pos (by decide), List.cons_append]
    rw [hw, withoutPort, List.head?_cons, if_pos rfl, List.takeWhile_cons_of_pos (by decide),
      List.takeWhile_append_of_pos fun c hc => by simpa using List.mem_takeWhile_imp hc]
    simp
  · by_cases hc : host.count 58 = 1
    · have hw : withoutPort host = host.takeWhile (· ≠ 58) := by
        rw [withoutPort, if_neg hb, if_pos hc]
      have hhead : (host.takeWhile (· ≠ 58)).head? ≠ some 91 := by
        cases host with
        | nil => simp
        | cons c rest =>
            by_cases h58 : c = 58
            · simp [h58]
            · simpa [h58] using hb
      have hcount : (host.takeWhile (· ≠ 58)).count 58 = 0 := by
        rw [List.count_eq_zero]
        intro hmem
        simpa using List.mem_takeWhile_imp hmem
      rw [hw, withoutPort, if_neg hhead, if_neg (by omega)]
    · have hw : withoutPort host = host := by
        rw [withoutPort, if_neg hb, if_neg hc]
      rw [hw, hw]

theorem lt_of_mem_withoutPort {b : Bytes} (h : ∀ ch ∈ b, 32 < ch) :
    ∀ ch ∈ withoutPort b, 32 < ch := by
  intro ch hch
  unfold withoutPort at hch
  split_ifs at hch
  · rcases List.mem_append.mp hch with hch | hch
    · exact h ch ((List.takeWhile_prefix _).subset hch)
    · rw [List.mem_singleton.mp hch]
      decide
  · exact h ch ((List.takeWhile_prefix _).subset hch)
  · exact h ch hch

/-- The text in front of the first `c`. -/
theorem takeWhile_of_splitFirst {c : UInt8} {l a b : Bytes} (h : splitFirst c l = some (a, b)) :
    l.takeWhile (· ≠ c) = a := by
  obtain ⟨rfl, ha⟩ := splitFirst_eq_some_iff.mp h
  rw [List.takeWhile_append_of_pos fun x hx => by
    simpa using fun heq : x = c => ha (heq ▸ hx)]
  simp

/-- The parser's cut of a host is the cut of the grammar. -/
theorem hostWithoutPort_eq_some {host h : Bytes} (hh : hostWithoutPort host = some h) :
    h = withoutPort host := by
  unfold hostWithoutPort at hh
  by_cases hb : host.head? = some 91
  · rw [if_pos hb] at hh
    rw [withoutPort, if_pos hb]
    cases hs : splitFirst 93 host with
    | none => simp [hs] at hh
    | some pair =>
        obtain ⟨address, rest⟩ := pair
        rw [takeWhile_of_splitFirst hs]
        simp only [hs] at hh
        split_ifs at hh <;> exact (Option.some.inj hh).symm
  · rw [if_neg hb] at hh
    rw [withoutPort, if_neg hb]
    cases hs : splitFirst 58 host with
    | none =>
        rw [hs, Option.some.injEq] at hh
        have hcount : host.count 58 = 0 := List.count_eq_zero.mpr (splitFirst_eq_none_iff.mp hs)
        rw [if_neg (by omega), hh]
    | some pair =>
        obtain ⟨name, portText⟩ := pair
        obtain ⟨hhost, hname⟩ := splitFirst_eq_some_iff.mp hs
        have hcount : host.count 58 = portText.count 58 + 1 := by
          rw [hhost, List.count_append, List.count_cons_self, List.count_eq_zero.mpr hname]
          omega
        simp only [hs] at hh
        split_ifs at hh with hcolon
        · have := List.count_pos_iff.mpr hcolon
          rw [if_neg (by omega), Option.some.inj hh]
        · have := List.count_eq_zero.mpr hcolon
          rw [if_pos (by omega), takeWhile_of_splitFirst hs, Option.some.inj hh]

theorem trimBlanks_trimBlanks (b : Bytes) : trimBlanks (trimBlanks b) = trimBlanks b := by
  have hdrop : (trimBlanks b).dropWhile isBlank = trimBlanks b := by
    rw [List.dropWhile_eq_self_iff]
    intro hpos
    have hpre : trimBlanks b <+: b.dropWhile isBlank := List.rdropWhile_prefix _ _
    have hpos' : 0 < (b.dropWhile isBlank).length := lt_of_lt_of_le hpos hpre.length_le
    rw [hpre.getElem hpos]
    exact List.dropWhile_get_zero_not isBlank b hpos'
  rw [trimBlanks, hdrop]
  exact List.rdropWhile_idempotent _ _

/-- A text of bytes above the space has no blanks around it. -/
theorem trimBlanks_of_lt {b : Bytes} (h : ∀ ch ∈ b, 32 < ch) : trimBlanks b = b := by
  have hblank : ∀ ch ∈ b, isBlank ch = false := by
    intro ch hch
    have hlt := h ch hch
    simp only [isBlank, Bool.or_eq_false_iff, beq_eq_false_iff_ne]
    constructor <;>
      · rintro rfl
        exact absurd hlt (by decide)
  have hdrop : b.dropWhile isBlank = b := by
    cases b with
    | nil => rfl
    | cons c b =>
        rw [List.dropWhile_cons_of_neg]
        simp [hblank c List.mem_cons_self]
  rw [trimBlanks, hdrop]
  induction b using List.reverseRecOn with
  | nil => rfl
  | append_singleton b c _ =>
      rw [List.rdropWhile_concat_neg]
      simp [hblank c (by simp)]

theorem parseHostValue_eq_some {value host : Bytes} {outLen : ℕ}
    (h : parseHostValue value outLen = some host) :
    host = withoutPort (trimBlanks value) ∧ ∀ ch ∈ trimBlanks value, 32 < ch := by
  unfold parseHostValue at h
  have htrim : ∀ v, copyTrimmedValue hostLen value = some v → v = trimBlanks value := by
    intro v hv
    rw [copyTrimmedValue] at hv
    split_ifs at hv
    exact (Option.some.inj hv).symm
  cases ht : copyTrimmedValue hostLen value with
  | none => simp [ht] at h
  | some v =>
      obtain rfl := htrim v ht
      simp only [ht] at h
      split_ifs at h with hnil hbad
      cases hp : hostWithoutPort (trimBlanks value) with
      | none => simp [hp] at h
      | some host' =>
          simp only [hp] at h
          split_ifs at h
          rw [← Option.some.inj h]
          refine ⟨hostWithoutPort_eq_some hp, fun ch hch => ?_⟩
          by_contra hle
          refine hbad (List.any_eq_true.mpr ⟨ch, hch, ?_⟩)
          simp [badHostByte, UInt8.not_lt.mp hle]

theorem length_of_parseHostValue {value host : Bytes} {outLen : ℕ}
    (h : parseHostValue value outLen = some host) : host.length < outLen := by
  unfold parseHostValue at h
  cases ht : copyTrimmedValue hostLen value with
  | none => simp [ht] at h
  | some v =>
      simp only [ht] at h
      split_ifs at h
      cases hp : hostWithoutPort v with
      | none => simp [hp] at h
      | some host' =>
          simp only [hp] at h
          split_ifs at h with hlong
          rw [Bool.or_eq_true, decide_eq_true_iff, decide_eq_true_iff, not_or, not_le] at hlong
          exact Option.some.inj h ▸ hlong.2

/-- What a Host header is compared with. -/
theorem withoutPort_of_authorityMatchesHost {authority value host : Bytes}
    (hhost : parseHostValue value hostLen = some host)
    (hmatch : authorityMatchesHost authority host = true)
    (hauthority : ∀ ch ∈ authority, 32 < ch) :
    streqCi (withoutPort authority) (withoutPort (trimBlanks value)) = true := by
  unfold authorityMatchesHost at hmatch
  cases ha : parseHostValue authority hostLen with
  | none => simp [ha] at hmatch
  | some parsedAuthority =>
      cases hl : parseHostValue host hostLen with
      | none => simp [ha, hl] at hmatch
      | some hostLine =>
          simp only [ha, hl] at hmatch
          have hone := (parseHostValue_eq_some ha).1
          rw [trimBlanks_of_lt hauthority] at hone
          obtain ⟨hval, hbytes⟩ := parseHostValue_eq_some hhost
          have hsub : ∀ ch ∈ host, 32 < ch := hval ▸ lt_of_mem_withoutPort hbytes
          have htwo := (parseHostValue_eq_some hl).1
          rw [trimBlanks_of_lt hsub, hval, withoutPort_withoutPort] at htwo
          rwa [hone, htwo] at hmatch

/-! ### The header loop -/

/-- What the locals say about the fields read so far. -/
structure FieldInv (st : ParseState) (fields : List (Bytes × Bytes)) : Prop where
  count : st.headerCount = fields.length
  count_le : fields.length ≤ maxHeaderCount
  hosts : (fields.filter fun f => streqCi f.1 (ascii "Host")).length =
    if st.haveHost then 1 else 0
  host : ∀ f ∈ fields, streqCi f.1 (ascii "Host") = true →
    parseHostValue (trimBlanks f.2) hostLen = some st.req.host
  encoding : st.haveTransferEncoding = false →
    ∀ f ∈ fields, streqCi f.1 (ascii "Transfer-Encoding") = false
  length : ∀ f ∈ fields, streqCi f.1 (ascii "Content-Length") = true →
    st.haveContentLength = true ∧
      parseContentLength (trimBlanks f.2) = some st.req.contentLength
  seen : st.haveContentLength = true → st.seenContentLength = st.req.contentLength
  noLength : (∀ f ∈ fields, streqCi f.1 (ascii "Content-Length") = false) →
    st.req.contentLength = 0

theorem forall_mem_append_singleton {α : Type*} {P : α → Prop} {l : List α} {a : α} :
    (∀ x ∈ l ++ [a], P x) ↔ (∀ x ∈ l, P x) ∧ P a := by
  simp [or_imp, forall_and]

/-- **One header line** keeps what the locals say. -/
theorem fieldInv_step {st st' : ParseState} {fields : List (Bytes × Bytes)}
    {name value : Bytes} (inv : FieldInv st fields) (hcount : st.headerCount + 1 ≤ maxHeaderCount)
    (h : HeaderEffect { st with headerCount := st.headerCount + 1 } name (trimBlanks value) st') :
    FieldInv st' (fields ++ [(name, value)]) := by
  have hlen : (fields ++ [(name, value)]).length = st.headerCount + 1 := by
    rw [List.length_append, inv.count]
    rfl
  cases h with
  | host isHost first parsed =>
      have hnoHost : fields.filter (fun f => streqCi f.1 (ascii "Host")) = [] := by
        rw [← List.length_eq_zero_iff, inv.hosts, first]
        rfl
      have notLength := streqCi_eq_false isHost
        (by decide : streqCi (ascii "Host") (ascii "Content-Length") = false)
      refine ⟨hlen.symm, hlen ▸ hcount, ?_, ?_, ?_, ?_, inv.seen, ?_⟩
      · simp [hnoHost, isHost]
      · rw [forall_mem_append_singleton]
        refine ⟨fun f hf hhost => ?_, fun _ => parsed⟩
        have : f ∈ fields.filter fun f => streqCi f.1 (ascii "Host") :=
          List.mem_filter.mpr ⟨hf, hhost⟩
        rw [hnoHost] at this
        exact absurd this List.not_mem_nil
      · intro hnone
        rw [forall_mem_append_singleton]
        exact ⟨inv.encoding hnone, streqCi_eq_false isHost (by decide)⟩
      · rw [forall_mem_append_singleton]
        exact ⟨inv.length, fun hl => absurd hl (Bool.eq_false_iff.mp notLength)⟩
      · rw [forall_mem_append_singleton]
        exact fun hl => inv.noLength hl.1
  | contentLength isLength parsed same =>
      refine ⟨hlen.symm, hlen ▸ hcount, ?_, ?_, ?_, ?_, fun _ => rfl, ?_⟩
      · have notHost := streqCi_eq_false isLength
          (by decide : streqCi (ascii "Content-Length") (ascii "Host") = false)
        simpa [notHost] using inv.hosts
      · rw [forall_mem_append_singleton]
        exact ⟨inv.host, fun hh => absurd hh (Bool.eq_false_iff.mp
          (streqCi_eq_false isLength (by decide)))⟩
      · intro hnone
        rw [forall_mem_append_singleton]
        exact ⟨inv.encoding hnone, streqCi_eq_false isLength (by decide)⟩
      · rw [forall_mem_append_singleton]
        refine ⟨fun f hf hl => ⟨rfl, ?_⟩, fun _ => ⟨rfl, parsed⟩⟩
        -- an earlier length has the same value
        obtain ⟨hseen, hval⟩ := inv.length f hf hl
        rw [hval, ← inv.seen hseen, same hseen]
      · rw [forall_mem_append_singleton]
        exact fun hl => absurd isLength (Bool.eq_false_iff.mp hl.2)
  | transferEncoding isEncoding =>
      have notLength := streqCi_eq_false isEncoding
        (by decide : streqCi (ascii "Transfer-Encoding") (ascii "Content-Length") = false)
      refine ⟨hlen.symm, hlen ▸ hcount, ?_, ?_, fun hnone => Bool.noConfusion hnone, ?_, inv.seen,
        ?_⟩
      · have notHost := streqCi_eq_false isEncoding
          (by decide : streqCi (ascii "Transfer-Encoding") (ascii "Host") = false)
        simpa [notHost] using inv.hosts
      · rw [forall_mem_append_singleton]
        exact ⟨inv.host, fun hh => absurd hh (Bool.eq_false_iff.mp
          (streqCi_eq_false isEncoding (by decide)))⟩
      · rw [forall_mem_append_singleton]
        exact ⟨inv.length, fun hl => absurd hl (Bool.eq_false_iff.mp notLength)⟩
      · rw [forall_mem_append_singleton]
        exact fun hl => inv.noLength hl.1
  | other notHost notLength notEncoding _ framing =>
      refine ⟨framing.headerCount.trans hlen.symm, hlen ▸ hcount, ?_, ?_, ?_, ?_, ?_, ?_⟩
      · rw [framing.haveHost]
        simpa [notHost] using inv.hosts
      · rw [forall_mem_append_singleton, framing.host]
        exact ⟨inv.host, fun hh => absurd hh (Bool.eq_false_iff.mp notHost)⟩
      · rw [forall_mem_append_singleton, framing.haveTransferEncoding]
        exact fun hnone => ⟨inv.encoding hnone, notEncoding⟩
      · rw [forall_mem_append_singleton, framing.haveContentLength, framing.contentLength]
        exact ⟨inv.length, fun hl => absurd hl (Bool.eq_false_iff.mp notLength)⟩
      · rw [framing.haveContentLength, framing.seenContentLength, framing.contentLength]
        exact inv.seen
      · rw [forall_mem_append_singleton, framing.contentLength]
        exact fun hl => inv.noLength hl.1

/-- The header loop: every line is a field, and the locals describe them all. -/
theorem fieldInv_run {ls : List Bytes} {st st' : ParseState} {done : List (Bytes × Bytes)}
    (hne : ∀ l ∈ ls, l ≠ []) (inv : FieldInv st done)
    (h : ls.foldlM parseHeaderLine st = .ok st') :
    ∃ fields, FieldInv st' (done ++ fields) ∧
      List.Forall₂ (fun l f => FieldLine l f.1 f.2) ls fields := by
  induction ls generalizing st done with
  | nil =>
      refine ⟨[], ?_, .nil⟩
      rw [List.append_nil, ← Except.ok.inj h]
      exact inv
  | cons l ls ih =>
      obtain ⟨mid, hl, hrest⟩ := exists_of_foldlM_cons h
      obtain ⟨name, value, hline, hcount, heffect⟩ :=
        parseHeaderLine_eq_ok (hne l List.mem_cons_self) hl
      obtain ⟨fields, hinv, hall⟩ :=
        ih (fun l' hl' => hne l' (List.mem_cons_of_mem l hl'))
          (fieldInv_step inv hcount heffect) hrest
      refine ⟨(name, value) :: fields, ?_, .cons hline hall⟩
      rwa [List.append_assoc] at hinv

/-! ### The request target -/

/-- The scheme decides how many bytes the parser skips. -/
theorem absoluteSchemeLen_append {scheme : Bytes} (t : Bytes)
    (h : streqCi scheme (ascii "http://") = true ∨ streqCi scheme (ascii "https://") = true) :
    absoluteSchemeLen (scheme ++ t) = some scheme.length := by
  have hlower : ∀ c : UInt8, tolower c = 58 ↔ c = 58 := by
    intro c
    constructor
    · intro hc
      unfold tolower at hc
      split_ifs at hc with hup
      · have h1 := UInt8.le_iff_toNat_le.mp hup.1
        have h2 := UInt8.le_iff_toNat_le.mp hup.2
        have h3 := congrArg UInt8.toNat hc
        rw [UInt8.toNat_add] at h3
        simp at h1 h2 h3
        omega
      · exact hc
    · rintro rfl
      decide
  have hstart : ∀ pre, streqCi scheme pre = true → startsWithCi (scheme ++ t) pre = true := by
    intro pre hp
    rw [startsWithCi, ← length_eq_of_streqCi hp, List.take_left]
    exact hp
  have hfourth : ∀ pre : Bytes, streqCi scheme pre = true → 4 < pre.length →
      ((scheme ++ t)[4]? = some 58 ↔ pre[4]?.map tolower = some 58) := by
    intro pre hp hl
    have hl' : 4 < scheme.length := length_eq_of_streqCi hp ▸ hl
    have := congrArg (·[4]?) (streqCi_iff.mp hp)
    simp only [List.getElem?_map] at this
    rw [List.getElem?_append_left hl', ← this]
    cases scheme[4]? with
    | none => simp
    | some c => simp [hlower]
  rcases h with h | h
  · have hcolon := (hfourth _ h (by decide)).mpr (by decide)
    rw [absoluteSchemeLen, hstart _ h, Bool.true_or, if_pos rfl, if_pos hcolon,
      length_eq_of_streqCi h]
    rfl
  · have hcolon : ¬ (scheme ++ t)[4]? = some 58 := fun hc =>
      absurd ((hfourth _ h (by decide)).mp hc) (by decide)
    rw [absoluteSchemeLen, hstart _ h, Bool.or_true, if_pos rfl, if_neg hcolon,
      length_eq_of_streqCi h]
    rfl

/-- The authority of a target in absolute form reaches to the first slash or the end. -/
theorem authority_of_parseRequestTarget {scheme authority rest path : Bytes} {a : Option Bytes}
    (h : parseRequestTarget (scheme ++ authority ++ rest) = some (path, a))
    (hscheme : streqCi scheme (ascii "http://") = true ∨
      streqCi scheme (ascii "https://") = true)
    (hauthority : 47 ∉ authority) (hrest : rest = [] ∨ rest.head? = some 47) :
    a = some authority := by
  unfold parseRequestTarget at h
  split_ifs at h
  rw [List.append_assoc, absoluteSchemeLen_append _ hscheme] at h
  simp only [List.drop_left] at h
  rcases hrest with rfl | hslash
  · have hs : splitFirst 47 (authority ++ []) = none :=
      splitFirst_eq_none_iff.mpr (by simpa using hauthority)
    simp only [hs] at h
    split_ifs at h
    simp only [Option.map_eq_some_iff, Prod.mk.injEq, List.append_nil] at h
    obtain ⟨_, _, _, ha⟩ := h
    exact ha.symm
  · obtain ⟨tail, rfl⟩ : ∃ tail, rest = 47 :: tail := by
      cases rest with
      | nil => simp at hslash
      | cons c tail => exact ⟨tail, by simpa using hslash⟩
    have hs : splitFirst 47 (authority ++ 47 :: tail) = some (authority, tail) :=
      splitFirst_eq_some_iff.mpr ⟨rfl, hauthority⟩
    simp only [hs] at h
    split_ifs at h
    simp only [Option.map_eq_some_iff, Prod.mk.injEq] at h
    obtain ⟨_, _, _, ha⟩ := h
    exact ha.symm

theorem target_bytes {target : Bytes} {r : Bytes × Option Bytes}
    (h : parseRequestTarget target = some r) : target ≠ [] ∧ ∀ ch ∈ target, 32 < ch := by
  unfold parseRequestTarget at h
  split_ifs at h with hbytes
  rw [Bool.not_eq_true', Bool.not_eq_false, validRequestTargetBytes, Bool.and_eq_true,
    Bool.and_eq_true, List.all_eq_true] at hbytes
  refine ⟨by simpa using hbytes.1.1, fun ch hch => ?_⟩
  have := hbytes.2 ch hch
  simp only [Bool.not_eq_true', Bool.or_eq_false_iff, decide_eq_false_iff_not] at this
  exact UInt8.not_le.mp this.1

/-- The path is the target, its end, or a slash. -/
theorem path_of_parseRequestTarget {target path : Bytes} {a : Option Bytes}
    (h : parseRequestTarget target = some (path, a)) :
    path.length < pathLen ∧ ∀ ch ∈ path, 32 < ch := by
  have hbytes := (target_bytes h).2
  have haccept : ∀ {origin : Bytes}, (∀ ch ∈ origin, 32 < ch) → acceptOrigin origin = some path →
      path.length < pathLen ∧ ∀ ch ∈ path, 32 < ch := by
    intro origin horigin ho
    unfold acceptOrigin at ho
    split_ifs at ho with hbad
    rw [Bool.or_eq_true, decide_eq_true_iff, decide_eq_true_iff, not_or, not_le] at hbad
    obtain rfl := Option.some.inj ho
    exact ⟨hbad.2, horigin⟩
  unfold parseRequestTarget at h
  split_ifs at h
  cases hs : absoluteSchemeLen target with
  | none =>
      simp only [hs, Option.map_eq_some_iff, Prod.mk.injEq] at h
      obtain ⟨_, ho, rfl, -⟩ := h
      exact haccept hbytes ho
  | some schemeLen =>
      simp only [hs] at h
      cases hsplit : splitFirst 47 (target.drop schemeLen) with
      | none =>
          simp only [hsplit] at h
          split_ifs at h
          simp only [Option.map_eq_some_iff, Prod.mk.injEq] at h
          obtain ⟨_, ho, rfl, -⟩ := h
          exact haccept (by decide +kernel) ho
      | some pair =>
          obtain ⟨authority, rest⟩ := pair
          simp only [hsplit] at h
          split_ifs at h
          simp only [Option.map_eq_some_iff, Prod.mk.injEq] at h
          obtain ⟨_, ho, rfl, -⟩ := h
          refine haccept (fun ch hch => hbytes ch ?_) ho
          have hin : ch ∈ target.drop schemeLen := by
            rw [(splitFirst_eq_some_iff.mp hsplit).1]
            exact List.mem_append_right _ hch
          exact List.mem_of_mem_drop hin

/-! ### Every accepted head is safe -/

/-- HTTP/1.0 or HTTP/1.1, in any letter case: what the parser asks for. -/
def VersionIgnoringCase (version : Bytes) : Prop :=
  streqCi version (ascii "HTTP/1.0") = true ∨ streqCi version (ascii "HTTP/1.1") = true

/-- HTTP/1.0 or HTTP/1.1, as the standard writes them. -/
def VersionExact (version : Bytes) : Prop :=
  version = ascii "HTTP/1.0" ∨ version = ascii "HTTP/1.1"

theorem mem_unlines {x : UInt8} {ls : List Bytes} (h : x ∈ unlines ls) :
    (∃ l ∈ ls, x ∈ l) ∨ x ∈ crlf := by
  obtain ⟨l, hl, hx⟩ := List.mem_flatMap.mp h
  rcases List.mem_append.mp hx with hx | hx
  · exact Or.inl ⟨l, hl, hx⟩
  · exact Or.inr hx

/-- A value byte is a tab or a printable byte. -/
theorem value_byte {value : Bytes} (h : validHeaderValue value = true) :
    ∀ ch ∈ value, ch = 9 ∨ (32 ≤ ch ∧ ch ≠ 127) := by
  intro ch hch
  have := List.all_eq_true.mp h ch hch
  simp only [isControl, Bool.not_eq_true', Bool.or_eq_false_iff, Bool.and_eq_false_iff,
    decide_eq_false_iff_not, UInt8.not_lt, bne_eq_false_iff_eq, beq_eq_false_iff_ne] at this
  rcases this with ⟨h32 | h9, hdel⟩
  · exact Or.inr ⟨h32, hdel⟩
  · exact Or.inl h9

/-- The fields of an accepted head, with what the locals say about them. -/
theorem Parsed.exists_fields {buf : Bytes} {req : HttpRequest} (p : Parsed buf req) :
    ∃ fields, FieldInv p.st fields ∧ p.fieldLines = fields.map fieldLine ∧
      ∀ f ∈ fields, FieldLine (fieldLine f) f.1 f.2 := by
  obtain ⟨method, target, parts⟩ := parseRequestLine_eq_ok p.line_eq
  obtain ⟨path, -, hreq⟩ := parts.target_ok
  have hstart : FieldInv { req := requestLineRequest p.rl } [] := by
    refine ⟨rfl, Nat.zero_le _, rfl, by simp, by simp, by simp, by simp, fun _ => ?_⟩
    exact congrArg HttpRequest.contentLength hreq
  obtain ⟨fields, inv, hall⟩ :=
    fieldInv_run (fun l hl => p.fieldLine_ne_nil hl) hstart p.loop_eq
  have hmap : ∀ {ls : List Bytes} {fs : List (Bytes × Bytes)},
      List.Forall₂ (fun l f => FieldLine l f.1 f.2) ls fs →
        ls = fs.map fieldLine ∧ ∀ f ∈ fs, FieldLine (fieldLine f) f.1 f.2 := by
    intro ls fs hf
    induction hf with
    | nil => simp
    | @cons l f _ _ hline _ ih =>
        have hl : l = fieldLine f := hline.line_eq
        refine ⟨by rw [List.map_cons, ← ih.1, hl], ?_⟩
        intro g hg
        rcases List.mem_cons.mp hg with rfl | hg
        · exact hl ▸ hline
        · exact ih.2 g hg
  exact ⟨fields, inv, hmap hall⟩

/-- The host of an accepted request is read from its Host field. -/
theorem Parsed.exists_hostValue {buf : Bytes} {req : HttpRequest} (p : Parsed buf req) :
    ∃ value, parseHostValue value hostLen = some req.host := by
  obtain ⟨fields, inv, -, -⟩ := p.exists_fields
  obtain ⟨-, hhave, -, hfinal⟩ := finishRequest_eq_accepted p.finish_eq
  have hhost : req.host = p.st.req.host := (congrArg HttpRequest.host hfinal).trans rfl
  have hone := inv.hosts
  rw [hhave, if_pos rfl] at hone
  obtain ⟨f, hf⟩ := List.exists_mem_of_length_pos (hone ▸ Nat.one_pos)
  obtain ⟨hmem, hname⟩ := List.mem_filter.mp hf
  rw [hhost]
  exact ⟨_, inv.host f hmem hname⟩

theorem ne_nil_of_parseHostValue {value host : Bytes} {outLen : ℕ}
    (h : parseHostValue value outLen = some host) : host ≠ [] := by
  unfold parseHostValue at h
  split at h
  · cases h
  · split_ifs at h
    split at h
    · cases h
    · split_ifs at h with hempty
      obtain rfl := Option.some.inj h
      rw [Bool.or_eq_true, decide_eq_true_iff, not_or] at hempty
      exact hempty.1

/-- Path and host of an accepted request have no blank and no control byte. -/
theorem Parsed.graphic {buf : Bytes} {req : HttpRequest} (p : Parsed buf req) :
    (∀ ch ∈ req.path, 32 < ch) ∧ ∀ ch ∈ req.host, 32 < ch := by
  obtain ⟨method, target, parts⟩ := parseRequestLine_eq_ok p.line_eq
  obtain ⟨path, htarget, hreq⟩ := parts.target_ok
  constructor
  · have hpath : req.path = path := p.sameTarget.path.trans (congrArg HttpRequest.path hreq)
    rw [hpath]
    exact (path_of_parseRequestTarget htarget).2
  · obtain ⟨value, hparsed⟩ := p.exists_hostValue
    obtain ⟨hval, hbytes⟩ := parseHostValue_eq_some hparsed
    rw [hval]
    exact lt_of_mem_withoutPort hbytes

/-- Method, path and host of an accepted request are lines that fit their fields. -/
theorem Parsed.texts {buf : Bytes} {req : HttpRequest} (p : Parsed buf req) :
    IsLineText methodLen req.method ∧ IsLineText pathLen req.path ∧
      IsLineText hostLen req.host := by
  obtain ⟨method, target, parts⟩ := parseRequestLine_eq_ok p.line_eq
  obtain ⟨path, htarget, hreq⟩ := parts.target_ok
  have hmethod : req.method = method := p.sameTarget.method.trans (congrArg HttpRequest.method hreq)
  have hpath : req.path = path := p.sameTarget.path.trans (congrArg HttpRequest.path hreq)
  refine ⟨?_, isLineText_of_lt ?_ p.graphic.1, ?_⟩
  · have hvalid := parts.method_valid
    simp only [validMethod, Bool.and_eq_true, decide_eq_true_eq] at hvalid
    rw [hmethod]
    refine isLineText_of_lt hvalid.1.2 fun ch hch => ?_
    exact (isTchar_of_validTokenChar (List.all_eq_true.mp hvalid.2 ch hch)).lt
  · rw [hpath]
    exact (path_of_parseRequestTarget htarget).1
  · obtain ⟨value, hparsed⟩ := p.exists_hostValue
    exact isLineText_of_lt (length_of_parseHostValue hparsed) p.graphic.2

end Rpsiod

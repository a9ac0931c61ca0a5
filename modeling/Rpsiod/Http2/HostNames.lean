import Rpsiod.Http.Trim
import Rpsiod.Http2.Bridge

/-!
# One host name for both protocols (`parse_host_value`, `rpsiod_strip_port`)

The HTTP/1.1 parser cuts the port off a Host value with `parse_host_value`, and the HTTP/2 front end
cuts it off an authority with `rpsiod_strip_port`.

* `parseHostValue_parseHostValue`: what the parser has made of a value stays as it is.
* `hostNames_agree_iff`: **the two agree on a value exactly if it does not begin with a blank and is
  in brackets or has one colon at most**.
-/

namespace Rpsiod

open ListSearch ListStrip

variable {host value h : Bytes} {outLen : ℕ}

/-! ### The port -/

/-- How a host is cut. -/
inductive Cut : Bytes → Bytes → Prop
  | bracket {address rest : Bytes} (hinside : 93 ∉ address) (hopen : address.head? = some 91)
      (hne : address ≠ [91]) : Cut (address ++ 93 :: rest) (address ++ [93])
  | name {name port : Bytes} (hname : 58 ∉ name) (hport : 58 ∉ port)
      (hopen : (name ++ 58 :: port).head? ≠ some 91) : Cut (name ++ 58 :: port) name
  | whole {host : Bytes} (hcount : host.count 58 ≠ 1) (hopen : host.head? ≠ some 91) :
      Cut host host

theorem cut_of_hostWithoutPort (hcut : hostWithoutPort host = some h) : Cut host h := by
  unfold hostWithoutPort at hcut
  by_cases hopen : host.head? = some 91
  · rw [if_pos hopen] at hcut
    cases hs : splitFirst 93 host with
    | none =>
        rw [hs] at hcut
        exact nomatch hcut
    | some pair =>
        obtain ⟨address, rest⟩ := pair
        obtain ⟨rfl, hinside⟩ := splitFirst_eq_some_iff.mp hs
        have hfirst : address.head? = some 91 := by
          cases address with
          | nil => exact absurd hopen (by simp)
          | cons c address => exact hopen
        rw [hs] at hcut
        dsimp only at hcut
        split_ifs at hcut with hne <;>
          · rw [← Option.some.inj hcut]
            exact .bracket hinside hfirst hne
  · rw [if_neg hopen] at hcut
    cases hs : splitFirst 58 host with
    | none =>
        rw [hs] at hcut
        have hzero : host.count 58 = 0 := List.count_eq_zero.mpr (splitFirst_eq_none_iff.mp hs)
        rw [← Option.some.inj hcut]
        exact .whole (by omega) hopen
    | some pair =>
        obtain ⟨name, port⟩ := pair
        obtain ⟨rfl, hname⟩ := splitFirst_eq_some_iff.mp hs
        rw [hs] at hcut
        dsimp only at hcut
        split_ifs at hcut with hcolon
        · have hcount : (name ++ 58 :: port).count 58 = port.count 58 + 1 := by
            rw [List.count_append, List.count_cons_self, List.count_eq_zero.mpr hname, Nat.zero_add]
          have := List.count_pos_iff.mpr hcolon
          rw [← Option.some.inj hcut]
          exact .whole (by omega) hopen
        · rw [← Option.some.inj hcut]
          exact .name hname hcolon hopen

theorem hostWithoutPort_of_not_mem (hcolon : 58 ∉ host) (hopen : host.head? ≠ some 91) :
    hostWithoutPort host = some host := by
  unfold hostWithoutPort
  rw [if_neg hopen, splitFirst_eq_none_iff.mpr hcolon]

/-- A host that has been cut is not cut again. -/
theorem hostWithoutPort_idem (hcut : hostWithoutPort host = some h) (hne : h ≠ []) :
    hostWithoutPort h = some h := by
  cases cut_of_hostWithoutPort hcut with
  | @bracket address rest hinside hopen hempty =>
      have hhead : (address ++ [93]).head? = some 91 := by
        cases address with
        | nil => exact nomatch hopen
        | cons c address => exact hopen
      have hs : splitFirst 93 (address ++ [93]) = some (address, []) :=
        splitFirst_eq_some_iff.mpr ⟨rfl, hinside⟩
      unfold hostWithoutPort
      rw [if_pos hhead, hs]
      dsimp only
      rw [if_neg hempty, if_neg (by decide), if_pos rfl]
  | @name _ port hname hport hopen =>
      refine hostWithoutPort_of_not_mem hname ?_
      cases h with
      | nil => exact absurd rfl hne
      | cons c rest => exact hopen
  | whole _ _ => exact hcut

theorem mem_of_hostWithoutPort (hcut : hostWithoutPort host = some h) {c : UInt8} (hc : c ∈ h) :
    c ∈ host := by
  cases cut_of_hostWithoutPort hcut with
  | @bracket address rest _ _ _ =>
      rcases List.mem_append.mp hc with hc | hc
      · exact List.mem_append_left _ hc
      · rw [List.mem_singleton.mp hc]
        exact List.mem_append_right _ List.mem_cons_self
  | name _ _ _ => exact List.mem_append_left _ hc
  | whole _ _ => exact hc

/-! ### Host values -/

/-- What a value is, if `parse_host_value` takes it. -/
structure HostValue (value : Bytes) (outLen : ℕ) (h : Bytes) : Prop where
  short : (trimBlanks value).length < hostLen
  nonempty : trimBlanks value ≠ []
  bytes : (trimBlanks value).any badHostByte = false
  cut : hostWithoutPort (trimBlanks value) = some h
  host_ne : h ≠ []
  fits : h.length < outLen

theorem parseHostValue_iff : parseHostValue value outLen = some h ↔ HostValue value outLen h := by
  unfold parseHostValue copyTrimmedValue
  by_cases hshort : (trimBlanks value).length < hostLen
  · rw [if_pos hshort]
    dsimp only
    constructor
    · intro hparse
      split_ifs at hparse with hnil hbad
      cases hcut : hostWithoutPort (trimBlanks value) with
      | none =>
          rw [hcut] at hparse
          exact nomatch hparse
      | some host =>
          rw [hcut] at hparse
          dsimp only at hparse
          split_ifs at hparse with hlong
          rw [Bool.or_eq_true, decide_eq_true_iff, decide_eq_true_iff, not_or, not_le] at hlong
          obtain rfl := Option.some.inj hparse
          exact ⟨hshort, hnil, Bool.eq_false_iff.mpr hbad, hcut, hlong.1, hlong.2⟩
    · rintro ⟨-, hnil, hbad, hcut, hne, hfits⟩
      rw [if_neg hnil, hbad, if_neg Bool.false_ne_true, hcut]
      dsimp only
      rw [if_neg]
      rw [Bool.or_eq_true, decide_eq_true_iff, decide_eq_true_iff, not_or, not_le]
      exact ⟨hne, hfits⟩
  · rw [if_neg hshort]
    exact iff_of_false nofun fun hvalue => hshort hvalue.short

theorem HostValue.lt (hvalue : HostValue value outLen h) : ∀ c ∈ trimBlanks value, 32 < c := by
  intro c hc
  have hbad := List.any_eq_false.mp hvalue.bytes c hc
  unfold badHostByte at hbad
  simp only [Bool.or_eq_true, decide_eq_true_eq, not_or] at hbad
  exact UInt8.not_le.mp hbad.1.1.1

/-- **What the parser has made of a value stays as it is.** -/
theorem parseHostValue_parseHostValue (hparse : parseHostValue value hostLen = some h) :
    parseHostValue h hostLen = some h := by
  have hvalue := parseHostValue_iff.mp hparse
  have hmem : ∀ c ∈ h, c ∈ trimBlanks value := fun c hc => mem_of_hostWithoutPort hvalue.cut hc
  have htrim : trimBlanks h = h := trimBlanks_of_lt fun c hc => hvalue.lt c (hmem c hc)
  refine parseHostValue_iff.mpr ⟨?_, ?_, ?_, ?_, hvalue.host_ne, hvalue.fits⟩
  · rw [htrim]
    exact hvalue.fits
  · rw [htrim]
    exact hvalue.host_ne
  · rw [htrim, List.any_eq_false]
    exact fun c hc => List.any_eq_false.mp hvalue.bytes c (hmem c hc)
  · rw [htrim]
    exact hostWithoutPort_idem hvalue.cut hvalue.host_ne

/-! ### `rpsiod_strip_port` -/

/-- Behind the blanks, the text without its port. -/
def stripColon (host : Bytes) : Bytes :=
  if host.head? = some 91 then
    match splitFirst 93 host with
    | some (address, _) => address ++ [93]
    | none => host
  else
    match splitFirst 58 host.reverse with
    | some (_, name) => name.reverse
    | none => host

/-- A byte at which `rpsiod_strip_port` ends the text. -/
def endsHost (c : UInt8) : Bool := c == 32 || c == 9 || c == 13 || c == 10

theorem stripPort_eq (host : Bytes) :
    stripPort host = stripColon (host.takeWhile fun c => !endsHost c) := rfl

/-- **Which cuts agree with the last colon.** -/
theorem stripColon_eq_iff (hcut : hostWithoutPort host = some h) :
    stripColon host = h ↔ host.head? = some 91 ∨ host.count 58 ≤ 1 := by
  have hcut' := cut_of_hostWithoutPort hcut
  unfold stripColon
  cases hcut' with
  | @bracket address rest hinside hopen hne =>
      have hhead : (address ++ 93 :: rest).head? = some 91 := by
        cases address with
        | nil => exact nomatch hopen
        | cons c address => exact hopen
      rw [if_pos hhead, splitFirst_eq_some_iff.mpr ⟨rfl, hinside⟩]
      exact iff_of_true rfl (Or.inl hhead)
  | @name _ port hname hport hopen =>
      have hs : splitFirst 58 (h ++ 58 :: port).reverse = some (port.reverse, h.reverse) := by
        refine splitFirst_eq_some_iff.mpr ⟨by simp, ?_⟩
        rwa [List.mem_reverse]
      rw [if_neg hopen, hs]
      refine iff_of_true (List.reverse_reverse h) (Or.inr ?_)
      rw [List.count_append, List.count_cons_self, List.count_eq_zero.mpr hname,
        List.count_eq_zero.mpr hport]
  | whole hcount hopen =>
      rw [if_neg hopen]
      cases hs : splitFirst 58 host.reverse with
      | none =>
          have hzero : host.count 58 = 0 := by
            rw [List.count_eq_zero, ← List.mem_reverse]
            exact splitFirst_eq_none_iff.mp hs
          exact iff_of_true rfl (Or.inr (by omega))
      | some pair =>
          -- several colons: the text gets shorter
          obtain ⟨port, name⟩ := pair
          obtain ⟨hsplit, -⟩ := splitFirst_eq_some_iff.mp hs
          have hlen := congrArg List.length hsplit
          rw [List.length_reverse, List.length_append, List.length_cons] at hlen
          have hpos : 0 < host.count 58 := by
            rw [List.count_pos_iff, ← List.mem_reverse, hsplit]
            exact List.mem_append_right _ List.mem_cons_self
          refine iff_of_false (fun heq => ?_) ?_
          · have hshort := congrArg List.length heq
            dsimp only at hshort
            rw [List.length_reverse] at hshort
            omega
          · rintro (hbracket | hle)
            · exact hopen hbracket
            · omega

/-- What stands in front of the first blank behind a value that has none in front. -/
theorem takeWhile_of_value (hvalue : HostValue value outLen h)
    (hhead : ∀ c ∈ value.head?, isBlank c = false) :
    value.takeWhile (fun c => !endsHost c) = trimBlanks value ∧
      value.head? = (trimBlanks value).head? ∧ value.count 58 = (trimBlanks value).count 58 := by
  obtain ⟨a, b, heq, ha, hb⟩ := exists_strip isBlank value
  rw [← trimBlanks_eq_strip] at heq
  have hnil : a = [] := by
    cases a with
    | nil => rfl
    | cons c a =>
        have hblank := hhead c (by rw [heq]; rfl)
        rw [ha c List.mem_cons_self] at hblank
        exact nomatch hblank
  rw [hnil, List.nil_append] at heq
  have hends : ∀ c, isBlank c = true → endsHost c = true := by
    intro c hc
    unfold isBlank at hc
    unfold endsHost
    rw [hc]
    rfl
  have hplain : ∀ c ∈ trimBlanks value, (!endsHost c) = true := by
    intro c hc
    have hlt := hvalue.lt c hc
    have hbytes : ∀ d ∈ [(32 : UInt8), 9, 13, 10], ¬ 32 < d := by decide +kernel
    cases hend : endsHost c with
    | false => rfl
    | true =>
        unfold endsHost at hend
        simp only [Bool.or_eq_true, beq_iff_eq] at hend
        exact absurd hlt (hbytes c (by simpa [or_assoc] using hend))
  have hbehind : b.takeWhile (fun c => !endsHost c) = [] := by
    cases b with
    | nil => rfl
    | cons c b =>
        rw [List.takeWhile_cons_of_neg]
        rw [hends c (hb c List.mem_cons_self)]
        decide
  have hcolon : b.count 58 = 0 := by
    rw [List.count_eq_zero]
    exact fun hmem => absurd (hb 58 hmem) (by decide)
  generalize hcore : trimBlanks value = core at heq hplain
  refine ⟨?_, ?_, ?_⟩
  · rw [heq, List.takeWhile_append_of_pos hplain, hbehind, List.append_nil]
  · rw [heq]
    cases core with
    | nil => exact absurd hcore hvalue.nonempty
    | cons c core => rfl
  · rw [heq, List.count_append, hcolon, Nat.add_zero]

theorem stripPort_of_blank (hhead : ¬ ∀ c ∈ value.head?, isBlank c = false) :
    stripPort value = [] := by
  cases value with
  | nil => exact absurd (fun c hc => nomatch hc) hhead
  | cons c rest =>
      have hblank : isBlank c = true := by
        by_contra hplain
        refine hhead fun d hd => ?_
        rw [← Option.some.inj hd]
        exact Bool.eq_false_iff.mpr hplain
      have hend : endsHost c = true := by
        unfold isBlank at hblank
        unfold endsHost
        rw [hblank]
        rfl
      rw [stripPort_eq, List.takeWhile_cons_of_neg (by rw [hend]; decide)]
      rfl

/-! ### Agreement -/

/-- A value without a blank in front, in brackets or with one colon at most. -/
def PlainAuthority (value : Bytes) : Prop :=
  (∀ c ∈ value.head?, isBlank c = false) ∧ (value.head? = some 91 ∨ value.count 58 ≤ 1)

instance (value : Bytes) : Decidable (PlainAuthority value) := inferInstanceAs (Decidable (_ ∧ _))

theorem stripPort_eq_iff (hparse : parseHostValue value hostLen = some h) :
    stripPort value = h ↔ PlainAuthority value := by
  have hvalue := parseHostValue_iff.mp hparse
  unfold PlainAuthority
  by_cases hhead : ∀ c ∈ value.head?, isBlank c = false
  · obtain ⟨htake, hfirst, hcount⟩ := takeWhile_of_value hvalue hhead
    rw [stripPort_eq, htake, stripColon_eq_iff hvalue.cut, hfirst, hcount]
    rw [hfirst] at hhead
    exact ⟨fun hplain => ⟨hhead, hplain⟩, fun hplain => hplain.2⟩
  · rw [stripPort_of_blank hhead]
    exact iff_of_false (fun hnil => hvalue.host_ne hnil.symm) fun hplain => hhead hplain.1

/-- **The two protocols look up the same host exactly if** the authority has no blank in front, and
is in brackets or has one colon at most; what the parser has cut it does not cut again. -/
theorem hostNames_agree_iff (hparse : parseHostValue value hostLen = some h) :
    parseHostValue h hostLen = some h ∧
      (stripPort value = h ↔ PlainAuthority value) ∧
      ∀ s : H2Stream, s.authority = value → value.length < 256 →
        (loopbackAuthority s = h ↔ PlainAuthority value) := by
  refine ⟨parseHostValue_parseHostValue hparse, stripPort_eq_iff hparse, ?_⟩
  intro s hs hlen
  have hne : s.authority ≠ [] := by
    rintro hnil
    rw [hnil] at hs
    rw [← hs] at hparse
    exact nomatch hparse
  have hcopy : safeCopy 256 value = value := List.take_of_length_le (by omega)
  unfold loopbackAuthority
  rw [if_pos hne, hs, hcopy]
  exact stripPort_eq_iff hparse

/-- An address without brackets: the parser takes all of it, and the front end cuts at its last
colon. -/
theorem hostNames_differ :
    parseHostValue (ascii "2001:db8::1") hostLen = some (ascii "2001:db8::1") ∧
      stripPort (ascii "2001:db8::1") = ascii "2001:db8:" ∧
      loopbackAuthority { authority := ascii "2001:db8::1" } ≠ ascii "2001:db8::1" := by
  decide

theorem hostNames_agree_port :
    stripPort (ascii "example.org:8443") = ascii "example.org" ∧
      loopbackAuthority { authority := ascii "example.org:8443" } = ascii "example.org" := by
  have hparse : parseHostValue (ascii "example.org:8443") hostLen = some (ascii "example.org") := by
    decide
  obtain ⟨-, hstrip, hlookup⟩ := hostNames_agree_iff hparse
  exact ⟨hstrip.mpr (by decide +kernel),
    (hlookup _ rfl (by decide +kernel)).mpr (by decide +kernel)⟩

end Rpsiod

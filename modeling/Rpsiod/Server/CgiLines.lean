import Mathlib.Data.List.ReduceOption
import Rpsiod.Http.Trim
import Rpsiod.Server.PhpRun

/-!
# The header lines of a FastCGI response

Two loops go through the CGI header.  One looks for the lines that decide about the response and
compares the start of a line byte by byte; the other one passes lines on, and leaves out the names
of the first in any letter case.

* `parseCgiHead_eq`: the first loop takes the last line of each name, spelled as it compares it.
* `caseInsensitive_iff`: **the letter case of names does not matter exactly if the last lines of
  these names, in any letter case, are spelled so or repeat what holds without them**.
* `phpFields_cgiHeaders`: what the second loop makes of each line of the block.
* `relaysVerbatim_iff`: **values are passed on unchanged exactly if no line that may be stands
  behind a NUL byte, or has its name or value in quotes**.
-/

namespace Rpsiod

open ListSearch Crlf

/-! ### Lines that decide about the response -/

/-- A name that the server looks for, and what the text behind the colon says. -/
structure CgiSetting (β : Type) where
  name : Bytes
  read : Bytes → Option β

/-- `Status:`. -/
def statusSetting : CgiSetting ℤ := ⟨ascii "Status", fun value => some (atoi value)⟩

/-- `Content-Type:`. -/
def typeSetting : CgiSetting Bytes :=
  ⟨ascii "Content-Type", fun value => some (safeCopy 256 (value.dropWhile (· = 32)))⟩

/-- `Content-Length:`. -/
def lengthSetting : CgiSetting ℕ :=
  ⟨ascii "Content-Length", fun value => cgiContentLength (value.dropWhile (· = 32))⟩

namespace CgiSetting

variable {β : Type} (s : CgiSetting β)

/-- What a line says that is spelled as the server compares it. -/
def spelled (line : Bytes) : Option β :=
  if startsWith line (s.name ++ [58]) then s.read (line.drop (s.name.length + 1)) else none

/-- What a line says whose name is this one to the loop that passes lines on. -/
def named (line : Bytes) : Option β :=
  match splitFirst 58 line with
  | some (name, value) => if streqCi (trim name) s.name then s.read value else none
  | none => none

/-- A name without a colon that trimming leaves as it is. -/
structure Proper : Prop where
  colon : 58 ∉ s.name
  plain : Plain s.name

/-- The last line of the name in any letter case is spelled as the server compares it, or repeats
what the last line so spelled says, or the default if there is none. -/
def SpelledLast (default : Option β) (lines : List Bytes) : Prop :=
  ∀ line ∈ lines.reverse.find? fun l => (s.named l).isSome,
    (s.spelled line).isSome ∨ s.named line = (lines.reverse.findSome? s.spelled).or default

variable {s}

theorem splitFirst_of_startsWith {name line : Bytes} (h : 58 ∉ name)
    (hline : startsWith line (name ++ [58]) = true) :
    splitFirst 58 line = some (name, line.drop (name.length + 1)) := by
  obtain ⟨rest, rfl⟩ := List.isPrefixOf_iff_prefix.mp hline
  rw [splitFirst_eq_some_iff]
  refine ⟨?_, h⟩
  have hlength : name.length + 1 = (name ++ [58]).length := by simp
  rw [hlength, List.drop_left, List.append_assoc]
  rfl

/-- A line that is spelled so has the name. -/
theorem named_of_spelled (hs : s.Proper) {line : Bytes} (h : (s.spelled line).isSome = true) :
    s.named line = s.spelled line := by
  unfold spelled at h ⊢
  unfold named
  split_ifs at h ⊢ with hline
  · rw [splitFirst_of_startsWith hs.colon hline]
    dsimp only
    rw [trim_of_plain rfl hs.plain, if_pos (streqCi_iff.mpr rfl)]
  · exact absurd h Bool.false_ne_true

/-- **The last line of the name says what the last line spelled so says** exactly under this
condition. -/
theorem spelledLast_iff (hs : s.Proper) (default : Option β) (lines : List Bytes) :
    (lines.reverse.findSome? s.named).or default =
        (lines.reverse.findSome? s.spelled).or default ↔ s.SpelledLast default lines := by
  unfold SpelledLast
  induction lines.reverse with
  | nil => exact iff_of_true rfl nofun
  | cons line rest ih =>
      rw [List.findSome?_cons, List.findSome?_cons, List.find?_cons]
      cases hnamed : s.named line with
      | none =>
          have hspelled : s.spelled line = none := by
            by_contra hne
            have hsome := Option.isSome_iff_ne_none.mpr hne
            exact hne ((named_of_spelled hs hsome).symm.trans hnamed)
          rw [hspelled]
          exact ih
      | some v =>
          simp only [Option.isSome_some, Option.mem_some_iff, forall_eq', hnamed]
          cases hspelled : s.spelled line with
          | none => simp
          | some u =>
              have hsome : (s.spelled line).isSome = true := by rw [hspelled]; rfl
              have huv := named_of_spelled hs hsome
              rw [hnamed, hspelled] at huv
              simp [huv]

end CgiSetting

theorem proper_statusSetting : statusSetting.Proper :=
  ⟨by decide, by decide +kernel, by decide +kernel, by decide⟩

theorem proper_typeSetting : typeSetting.Proper :=
  ⟨by decide, by decide +kernel, by decide +kernel, by decide⟩

theorem proper_lengthSetting : lengthSetting.Proper :=
  ⟨by decide, by decide +kernel, by decide +kernel, by decide⟩

/-- The head of a response from the lines that one of the two readings takes. -/
def cgiHeadOf (reading : {β : Type} → CgiSetting β → Bytes → Option β) (lines : List Bytes) :
    CgiHead where
  status := (lines.reverse.findSome? (reading statusSetting)).getD 200
  contentType :=
    (lines.reverse.findSome? (reading typeSetting)).getD (ascii "text/html; charset=utf-8")
  contentLength := lines.reverse.findSome? (reading lengthSetting)

/-- The head that the lines ask for, with their names in any letter case. -/
def namedCgiHead (headers : Bytes) : CgiHead := cgiHeadOf CgiSetting.named (strtokLines headers)

/-- A line is spelled with one name only. -/
theorem spelled_other {β γ : Type} {s : CgiSetting β} {s' : CgiSetting γ} (hs : s.Proper)
    (hs' : s'.Proper) (hne : s.name ≠ s'.name) {line : Bytes}
    (h : startsWith line (s.name ++ [58]) = true) : startsWith line (s'.name ++ [58]) = false := by
  by_contra hother
  rw [Bool.not_eq_false] at hother
  have hsplit := CgiSetting.splitFirst_of_startsWith hs.colon h
  rw [CgiSetting.splitFirst_of_startsWith hs'.colon hother] at hsplit
  exact hne (Prod.mk.inj (Option.some.inj hsplit)).1.symm

/-- The loop body: a line sets what it is spelled for. -/
theorem applyCgiLine_eq (h : CgiHead) (line : Bytes) :
    applyCgiLine h line =
      { status := (statusSetting.spelled line).getD h.status
        contentType := (typeSetting.spelled line).getD h.contentType
        contentLength := (lengthSetting.spelled line).or h.contentLength } := by
  have hstatus : startsWith line (ascii "Status:") = startsWith line (statusSetting.name ++ [58]) :=
    rfl
  have htype : startsWith line (ascii "Content-Type:") =
      startsWith line (typeSetting.name ++ [58]) := rfl
  have hlength : startsWith line (ascii "Content-Length:") =
      startsWith line (lengthSetting.name ++ [58]) := rfl
  unfold applyCgiLine CgiSetting.spelled
  rw [hstatus, htype, hlength]
  by_cases hs : startsWith line (statusSetting.name ++ [58]) = true
  · rw [spelled_other proper_statusSetting proper_typeSetting (by decide) hs,
      spelled_other proper_statusSetting proper_lengthSetting (by decide) hs, if_pos hs, if_pos hs]
    rfl
  · rw [if_neg hs, if_neg hs]
    by_cases ht : startsWith line (typeSetting.name ++ [58]) = true
    · rw [spelled_other proper_typeSetting proper_lengthSetting (by decide) ht, if_pos ht,
        if_pos ht]
      rfl
    · rw [if_neg ht, if_neg ht]
      split_ifs <;> rfl

/-- **The first loop**: the last line of each name, spelled as the loop compares it. -/
theorem parseCgiHead_eq (headers : Bytes) :
    parseCgiHead headers = cgiHeadOf CgiSetting.spelled (strtokLines headers) := by
  unfold parseCgiHead
  generalize strtokLines headers = lines
  induction lines using List.reverseRecOn with
  | nil => rfl
  | append_singleton lines line ih =>
      rw [List.foldl_append, List.foldl_cons, List.foldl_nil, ih, applyCgiLine_eq]
      unfold cgiHeadOf
      rw [List.reverse_append, List.reverse_singleton, List.singleton_append]
      simp only [List.findSome?_cons, CgiHead.mk.injEq]
      refine ⟨?_, ?_, ?_⟩
      · cases statusSetting.spelled line <;> rfl
      · cases typeSetting.spelled line <;> rfl
      · cases lengthSetting.spelled line <;> rfl

/-- The last Status, Content-Type and Content-Length lines, in any letter case, are spelled as the
server compares them, or repeat what holds without them. -/
structure SpelledLast (headers : Bytes) : Prop where
  status : statusSetting.SpelledLast (some 200) (strtokLines headers)
  contentType :
    typeSetting.SpelledLast (some (ascii "text/html; charset=utf-8")) (strtokLines headers)
  contentLength : lengthSetting.SpelledLast none (strtokLines headers)

/-- **The lines take effect** in any letter case exactly under this condition. -/
theorem parseCgiHead_eq_named_iff (headers : Bytes) :
    parseCgiHead headers = namedCgiHead headers ↔ SpelledLast headers := by
  have hgetD : ∀ {β : Type} {a b : Option β} {d : β}, a.getD d = b.getD d ↔
      b.or (some d) = a.or (some d) := by
    intro β a b d
    rw [← Option.some_inj, eq_comm]
    cases a <;> cases b <;> rfl
  have hor : ∀ {β : Type} {a b : Option β}, a = b ↔ b.or none = a.or none := by
    intro β a b
    rw [Option.or_none, Option.or_none, eq_comm]
  have hstatus := hgetD.trans
    (CgiSetting.spelledLast_iff proper_statusSetting (some 200) (strtokLines headers))
  have htype := hgetD.trans (CgiSetting.spelledLast_iff proper_typeSetting
    (some (ascii "text/html; charset=utf-8")) (strtokLines headers))
  have hlength := hor.trans
    (CgiSetting.spelledLast_iff proper_lengthSetting none (strtokLines headers))
  rw [parseCgiHead_eq]
  unfold namedCgiHead cgiHeadOf
  rw [CgiHead.mk.injEq]
  constructor
  · exact fun h => ⟨hstatus.mp h.1, htype.mp h.2.1, hlength.mp h.2.2⟩
  · exact fun h => ⟨hstatus.mpr h.status, htype.mpr h.contentType, hlength.mpr h.contentLength⟩

/-! ### Blocks that differ in the letter case of names -/

/-- Two lines with the same bytes, but for the letter case of the name in front of the colon. -/
inductive SameButName : Bytes → Bytes → Prop
  | same (line : Bytes) : SameButName line line
  | recased {name other : Bytes} (value : Bytes) (hcolon : 58 ∉ name)
      (hname : streqCi name other = true) :
      SameButName (name ++ 58 :: value) (other ++ 58 :: value)

/-- Two CGI headers that differ only in the letter case of header names. -/
def DifferInNameCase (headers others : Bytes) : Prop :=
  List.Forall₂ SameButName (strtokLines headers) (strtokLines others)

/-- Two fields with the same value, whose names are the same in any letter case. -/
def SameField (f g : Field) : Prop := streqCi f.1 g.1 = true ∧ f.2 = g.2

/-- What the CGI header decides about a response. -/
structure CgiResponse where
  head : CgiHead
  chunked : Bool
  fields : List Field

/-- The response that `send_php_fpm` gives to a CGI header. -/
def cgiResponse (site : Site) (req : HttpRequest) (headers : Bytes) : CgiResponse where
  head := parseCgiHead headers
  chunked := phpChunked req (parseCgiHead headers)
  fields := phpFields (some site) headers

/-- The head that goes out has all of it, and nothing else of the CGI header. -/
theorem phpHead_cgiResponse (w : World) (site : Site) (req : HttpRequest) (headers : Bytes) :
    phpHead w site req headers =
      fitting responseHeadLen (headOf (cgiResponse site req headers).head.status
        (responseFields w.host w.client (cgiResponse site req headers).head.contentType
            (cgiResponse site req headers).head.contentLength req.keepAlive
            (phpOptions site (cgiResponse site req headers).chunked) ++
          (cgiResponse site req headers).fields)) :=
  phpResponseHead_eq _ _ _ _ _ _ _ _ _

/-- The same status, Content-Type and framing, and the same values in the other fields. -/
structure SameResponse (a b : CgiResponse) : Prop where
  head : a.head = b.head
  chunked : a.chunked = b.chunked
  fields : List.Forall₂ SameField a.fields b.fields

/-- Two CGI headers have the same response, and in both of them Status, Content-Type and
Content-Length take effect. -/
structure CaseInsensitive (site : Site) (req : HttpRequest) (headers others : Bytes) : Prop where
  same : SameResponse (cgiResponse site req headers) (cgiResponse site req others)
  effect : parseCgiHead headers = namedCgiHead headers
  effect_other : parseCgiHead others = namedCgiHead others

theorem not_mem_of_streqCi {c : UInt8} (hc : ∀ d, tolower d = tolower c → d = c)
    {name other : Bytes} (h : streqCi name other = true) (hname : c ∉ name) : c ∉ other := by
  intro hmem
  have hlower : tolower c ∈ name.map tolower := by
    rw [streqCi_iff.mp h]
    exact List.mem_map_of_mem hmem
  obtain ⟨d, hd, heq⟩ := List.mem_map.mp hlower
  exact hname (hc d heq ▸ hd)

theorem eq_colon_of_tolower (d : UInt8) (h : tolower d = tolower 58) : d = 58 := by
  have hall : ∀ n < 256, tolower (UInt8.ofNat n) = tolower 58 → UInt8.ofNat n = 58 := by
    decide +kernel
  have hd := hall d.toNat d.toNat_lt
  rw [UInt8.ofNat_toNat] at hd
  exact hd h

/-- The two lines are split in the same way. -/
theorem SameButName.split {line other : Bytes} (h : SameButName line other) :
    Option.Rel (fun a b : Bytes × Bytes => streqCi a.1 b.1 = true ∧ a.2 = b.2)
      (splitFirst 58 line) (splitFirst 58 other) := by
  cases h with
  | same line =>
      cases splitFirst 58 line with
      | none => exact .none
      | some parts => exact .some ⟨streqCi_iff.mpr rfl, rfl⟩
  | @recased name other value hcolon hname =>
      have hother := not_mem_of_streqCi eq_colon_of_tolower hname hcolon
      rw [splitFirst_eq_some_iff.mpr ⟨rfl, hcolon⟩, splitFirst_eq_some_iff.mpr ⟨rfl, hother⟩]
      exact .some ⟨hname, rfl⟩

/-- A line has the same name to the loop that passes lines on. -/
theorem SameButName.named_eq {β : Type} (s : CgiSetting β) {line other : Bytes}
    (h : SameButName line other) : s.named line = s.named other := by
  have hsplit := h.split
  unfold CgiSetting.named
  generalize splitFirst 58 line = parts, splitFirst 58 other = parts' at hsplit ⊢
  cases hsplit with
  | none => rfl
  | @some a b hab =>
      obtain ⟨name, value⟩ := a
      obtain ⟨name', value'⟩ := b
      obtain ⟨hname, hvalue⟩ := hab
      dsimp only at hname hvalue ⊢
      have htrim := streqCi_trim hname
      have hiff : streqCi (trim name) s.name = streqCi (trim name') s.name := by
        rw [Bool.eq_iff_iff, streqCi_iff, streqCi_iff, streqCi_iff.mp htrim]
      rw [hiff, hvalue]

/-- The last line of a name says the same. -/
theorem findSome_congr {β : Type} {f : Bytes → Option β} {lines others : List Bytes}
    (hf : ∀ line other, SameButName line other → f line = f other)
    (h : List.Forall₂ SameButName lines others) : lines.findSome? f = others.findSome? f := by
  induction h with
  | nil => rfl
  | cons hline _ ih =>
      rw [List.findSome?_cons, List.findSome?_cons, hf _ _ hline, ih]

/-- The head that the lines ask for does not depend on the letter case of their names. -/
theorem namedCgiHead_congr {headers others : Bytes} (h : DifferInNameCase headers others) :
    namedCgiHead headers = namedCgiHead others := by
  have hlast : ∀ {β : Type} (s : CgiSetting β),
      (strtokLines headers).reverse.findSome? s.named =
        (strtokLines others).reverse.findSome? s.named := fun s =>
    findSome_congr (fun _ _ hline => hline.named_eq s) (List.forall₂_reverse_iff.mpr h)
  unfold namedCgiHead cgiHeadOf
  rw [hlast, hlast, hlast]

/-- A name is checked against a list of names in any letter case. -/
theorem any_streqCi_congr {name other : Bytes} (h : streqCi name other = true)
    (names : List Bytes) :
    (names.any fun known => streqCi name known) = names.any fun known => streqCi other known := by
  congr 1
  funext known
  rw [Bool.eq_iff_iff, streqCi_iff, streqCi_iff, streqCi_iff.mp h]

/-- The bytes of a name keep their class. -/
theorem validHeaderName_congr {name other : Bytes} (h : streqCi name other = true) :
    validHeaderName name = validHeaderName other := by
  have hall : ∀ n < 256, validTokenChar (tolower (UInt8.ofNat n)) =
      validTokenChar (UInt8.ofNat n) := by decide +kernel
  have hchar : validTokenChar ∘ tolower = validTokenChar := by
    funext c
    have hc := hall c.toNat c.toNat_lt
    rw [UInt8.ofNat_toNat] at hc
    exact hc
  have hname : ∀ text : Bytes, validHeaderName text = validHeaderName (text.map tolower) := by
    intro text
    unfold validHeaderName
    rw [List.all_map, hchar]
    cases text <;> rfl
  rw [hname, hname other, streqCi_iff.mp h]

theorem headerRemoved_congr (site : Option Site) {name other : Bytes}
    (h : streqCi name other = true) : headerRemoved site name = headerRemoved site other := by
  unfold headerRemoved
  congr 1
  funext s
  congr 1
  funext removed
  rw [Bool.eq_iff_iff, streqCi_iff, streqCi_iff, streqCi_iff.mp h]

/-- The second loop passes on the same line. -/
theorem SameButName.phpField_rel (site : Option Site) {line other : Bytes}
    (h : SameButName line other) :
    Option.Rel SameField (phpField site line) (phpField site other) := by
  have hsplit := h.split
  unfold phpField
  generalize splitFirst 58 line = parts, splitFirst 58 other = parts' at hsplit ⊢
  cases hsplit with
  | none => exact .none
  | @some a b hab =>
      obtain ⟨name, value⟩ := a
      obtain ⟨name', value'⟩ := b
      obtain ⟨hname, hvalue⟩ := hab
      dsimp only at hname hvalue ⊢
      have htrim := streqCi_trim hname
      have hallowed : phpResponseHeaderAllowed (trim name) =
          phpResponseHeaderAllowed (trim name') := congrArg not (any_streqCi_congr htrim _)
      unfold responseHeaderTokenValid
      rw [validHeaderName_congr htrim, hallowed, headerRemoved_congr site htrim, hvalue]
      split_ifs
      · exact .some ⟨htrim, rfl⟩
      · exact .none

/-- **The other lines never depend on the letter case of names.** -/
theorem phpFields_congr (site : Option Site) {headers others : Bytes}
    (h : DifferInNameCase headers others) :
    List.Forall₂ SameField (phpFields site headers) (phpFields site others) := by
  unfold phpFields
  unfold DifferInNameCase at h
  generalize strtokLines headers = lines, strtokLines others = lines' at h ⊢
  induction h with
  | nil => exact .nil
  | @cons line other lines others hline _ ih =>
      have hfields := hline.phpField_rel site
      rw [List.filterMap_cons, List.filterMap_cons]
      generalize phpField site line = field, phpField site other = field' at hfields ⊢
      cases hfields with
      | none => exact ih
      | some hfield => exact .cons hfield ih

/-- **The letter case of names does not matter** exactly if in both headers the last lines of the
names that the server looks for are spelled as it compares them, or repeat what holds without. -/
theorem caseInsensitive_iff (site : Site) (req : HttpRequest) {headers others : Bytes}
    (h : DifferInNameCase headers others) :
    CaseInsensitive site req headers others ↔ SpelledLast headers ∧ SpelledLast others := by
  rw [← parseCgiHead_eq_named_iff, ← parseCgiHead_eq_named_iff]
  constructor
  · exact fun hsame => ⟨hsame.effect, hsame.effect_other⟩
  · rintro ⟨heffect, heffect'⟩
    have hhead : parseCgiHead headers = parseCgiHead others := by
      rw [heffect, heffect', namedCgiHead_congr h]
    refine ⟨⟨hhead, ?_, phpFields_congr _ h⟩, heffect, heffect'⟩
    exact congrArg (phpChunked req) hhead

/-- A status line spelled as the server compares it, with another field in two letter cases. -/
theorem caseInsensitive_status :
    DifferInNameCase (ascii "Status: 404\x0d\nX-Tag: a") (ascii "Status: 404\x0d\nx-tag: a") ∧
      CaseInsensitive {} {} (ascii "Status: 404\x0d\nX-Tag: a")
        (ascii "Status: 404\x0d\nx-tag: a") := by
  have hdiffer : DifferInNameCase (ascii "Status: 404\x0d\nX-Tag: a")
      (ascii "Status: 404\x0d\nx-tag: a") := by
    have hfirst : strtokLines (ascii "Status: 404\x0d\nX-Tag: a") =
        [ascii "Status: 404", ascii "X-Tag" ++ 58 :: ascii " a"] := by decide +kernel
    have hsecond : strtokLines (ascii "Status: 404\x0d\nx-tag: a") =
        [ascii "Status: 404", ascii "x-tag" ++ 58 :: ascii " a"] := by decide +kernel
    unfold DifferInNameCase
    rw [hfirst, hsecond]
    exact .cons (.same _) (.cons (.recased _ (by decide) (by decide)) .nil)
  have hspelled : ∀ headers ∈ [ascii "Status: 404\x0d\nX-Tag: a",
      ascii "Status: 404\x0d\nx-tag: a"], parseCgiHead headers = namedCgiHead headers := by
    decide +kernel
  refine ⟨hdiffer, (caseInsensitive_iff {} {} hdiffer).mpr ⟨?_, ?_⟩⟩
  · exact (parseCgiHead_eq_named_iff _).mp (hspelled _ (by simp))
  · exact (parseCgiHead_eq_named_iff _).mp (hspelled _ (by simp))

/-- A content type in lower case is lost: the response says what it says without one. -/
theorem lowerCase_type_lost :
    DifferInNameCase (ascii "content-type: text/plain") (ascii "Content-Type: text/plain") ∧
      ¬ CaseInsensitive {} {} (ascii "content-type: text/plain")
        (ascii "Content-Type: text/plain") := by
  constructor
  · have hfirst : strtokLines (ascii "content-type: text/plain") =
        [ascii "content-type" ++ 58 :: ascii " text/plain"] := by decide +kernel
    have hsecond : strtokLines (ascii "Content-Type: text/plain") =
        [ascii "Content-Type" ++ 58 :: ascii " text/plain"] := by decide +kernel
    unfold DifferInNameCase
    rw [hfirst, hsecond]
    exact .cons (.recased _ (by decide) (by decide)) .nil
  · intro h
    have htype := congrArg CgiHead.contentType h.same.head
    revert htype
    decide +kernel

/-! ### Lines that are passed on -/

/-- The field that a line asks for, if it is one to pass on: its name is a token that is neither
kept back nor removed, and its value has no control bytes. -/
def claimedField (site : Option Site) (line : Bytes) : Option Field :=
  match splitFirst 58 line with
  | none => none
  | some (name, value) =>
      if responseHeaderTokenValid name && responseHeaderValueValid value &&
          phpResponseHeaderAllowed name && !headerRemoved site name then
        some (name, trimBlanks value)
      else none

/-- What each line of a block adds to the response; behind a NUL byte the block is not read. -/
def contributions (site : Option Site) : List Bytes → List (Option Field)
  | [] => []
  | line :: lines =>
      if 0 ∈ line then
        phpField site (line.takeWhile (· ≠ 0)) :: lines.map fun _ => none
      else phpField site line :: contributions site lines

/-- A line adds what `phpField` makes of it, if no NUL byte is in it or in front of it. -/
theorem contributions_getElem (site : Option Site) {lines : List Bytes} {i : ℕ} {line : Bytes}
    (hi : lines[i]? = some line) (hline : 0 ∉ line) :
    (contributions site lines)[i]? =
      some (if 0 ∈ (lines.take i).flatten then none else phpField site line) := by
  induction lines generalizing i with
  | nil => exact nomatch hi
  | cons first lines ih =>
      rw [contributions]
      cases i with
      | zero =>
          rw [List.getElem?_cons_zero, Option.some.injEq] at hi
          subst hi
          rw [if_neg hline, List.take_zero, List.flatten_nil, if_neg List.not_mem_nil]
          rfl
      | succ i =>
          rw [List.getElem?_cons_succ] at hi
          rw [List.take_succ_cons, List.flatten_cons]
          by_cases hfirst : 0 ∈ first
          · rw [if_pos hfirst, if_pos (List.mem_append_left _ hfirst), List.getElem?_cons_succ,
              List.getElem?_map, hi]
            rfl
          · rw [if_neg hfirst, List.getElem?_cons_succ, ih hi]
            simp only [List.mem_append, hfirst, false_or]

/-- What is left of the parts of a text that ends at its first NUL byte. -/
def cutParts : List Bytes → List Bytes
  | [] => []
  | part :: parts =>
      if 0 ∈ part then [part.takeWhile (· ≠ 0)] else part :: cutParts parts

theorem splitOnP_takeWhile_nul {p : UInt8 → Bool} (hp : p 0 = false) (text : Bytes) :
    (text.takeWhile (· ≠ 0)).splitOnP p = cutParts (text.splitOnP p) := by
  induction text with
  | nil => rfl
  | cons c text ih =>
      obtain ⟨first, rest, hparts⟩ := List.exists_cons_of_ne_nil (List.splitOnP_ne_nil p text)
      rw [List.takeWhile_cons, List.splitOnP_cons_eq_if_modifyHead]
      by_cases hc : c = 0
      · subst hc
        rw [if_neg (by decide), hp, if_neg Bool.false_ne_true, hparts, List.modifyHead_cons,
          cutParts, if_pos List.mem_cons_self]
        rfl
      · rw [if_pos (by simpa using hc), List.splitOnP_cons_eq_if_modifyHead, ih, hparts]
        split_ifs with hsep
        · rfl
        · rw [List.modifyHead_cons, cutParts, cutParts]
          have hmem : 0 ∈ c :: first ↔ 0 ∈ first := by
            rw [List.mem_cons]
            exact or_iff_right (Ne.symm hc)
          by_cases hfirst : 0 ∈ first
          · rw [if_pos hfirst, if_pos (hmem.mpr hfirst), List.takeWhile_cons,
              if_pos (by simpa using hc)]
            rfl
          · rw [if_neg hfirst, if_neg (mt hmem.mp hfirst)]
            rfl

theorem reduceOption_map_none (lines : List Bytes) :
    (lines.map fun _ => (none : Option Field)).reduceOption = [] := by
  induction lines with
  | nil => rfl
  | cons line lines ih => exact ih

/-- What is added by the lines that are left. -/
theorem filterMap_cutParts (site : Option Site) (parts : List Bytes) :
    ((cutParts parts).filter fun line => line ≠ []).filterMap (phpField site) =
      (contributions site (parts.filter fun line => line ≠ [])).reduceOption := by
  induction parts with
  | nil => rfl
  | cons part parts ih =>
      rw [cutParts]
      by_cases hpart : part = []
      · subst hpart
        rw [if_neg List.not_mem_nil, List.filter_cons_of_neg (by simp),
          List.filter_cons_of_neg (by simp)]
        exact ih
      · rw [List.filter_cons_of_pos (p := fun line => decide (line ≠ [])) (by simpa using hpart),
          contributions]
        by_cases hnul : 0 ∈ part
        · rw [if_pos hnul, if_pos hnul]
          have hleft :
              (([part.takeWhile (· ≠ 0)] : List Bytes).filter fun line => line ≠ []).filterMap
                (phpField site) = (phpField site (part.takeWhile (· ≠ 0))).toList := by
            by_cases hempty : part.takeWhile (· ≠ 0) = []
            · rw [hempty]
              rfl
            · rw [List.filter_cons_of_pos (by simpa using hempty), List.filter_nil,
                List.filterMap_cons]
              cases phpField site (part.takeWhile (· ≠ 0)) <;> rfl
          rw [hleft]
          cases phpField site (part.takeWhile (· ≠ 0)) with
          | none =>
              rw [List.reduceOption_cons_of_none, reduceOption_map_none]
              rfl
          | some f =>
              rw [List.reduceOption_cons_of_some, reduceOption_map_none]
              rfl
        · rw [if_neg hnul, if_neg hnul,
            List.filter_cons_of_pos (p := fun line => decide (line ≠ [])) (by simpa using hpart),
            List.filterMap_cons]
          cases hfield : phpField site part with
          | none =>
              rw [List.reduceOption_cons_of_none]
              exact ih
          | some f =>
              rw [List.reduceOption_cons_of_some]
              exact congrArg _ ih

/-- **What the second loop makes of a block**: each of its lines adds its own field, in order, up to
the first NUL byte. -/
theorem phpFields_cgiHeaders (site : Option Site) (buffer : Bytes) (stop : ℕ) :
    phpFields site (cgiHeaders buffer stop) =
      (contributions site (strtokLines (buffer.take stop))).reduceOption := by
  unfold phpFields strtokLines cgiHeaders
  rw [splitOnP_takeWhile_nul (by decide), filterMap_cutParts]

/-! ### Values -/

/-- The head has, behind the server's own fields, what each line of the block adds, and every line
to pass on adds its field with the value unchanged. -/
structure RelaysVerbatim (w : World) (site : Site) (req : HttpRequest) (buffer : Bytes) (stop : ℕ)
    (head : Bytes) : Prop where
  built : head = headOf (parseCgiHead (cgiHeaders buffer stop)).status
    (responseFields w.host w.client (parseCgiHead (cgiHeaders buffer stop)).contentType
        (parseCgiHead (cgiHeaders buffer stop)).contentLength req.keepAlive
        (phpOptions site (phpChunked req (parseCgiHead (cgiHeaders buffer stop)))) ++
      (contributions (some site) (strtokLines (buffer.take stop))).reduceOption)
  each : ∀ (i : ℕ) (line : Bytes) (f : Field), (strtokLines (buffer.take stop))[i]? = some line →
    claimedField (some site) line = some f →
    (contributions (some site) (strtokLines (buffer.take stop)))[i]? = some (some f)

/-- No line to pass on stands behind a NUL byte, or has its name or its value in quotes. -/
def KeepsQuotes (site : Option Site) (lines : List Bytes) : Prop :=
  ∀ (i : ℕ) (line : Bytes) (f : Field), lines[i]? = some line → claimedField site line = some f →
    0 ∉ (lines.take i).flatten ∧ isWrapped f.1 = false ∧ isWrapped f.2 = false

theorem claimedField_eq_some {site : Option Site} {line : Bytes} {f : Field}
    (h : claimedField site line = some f) :
    ∃ value, splitFirst 58 line = some (f.1, value) ∧ f.2 = trimBlanks value ∧
      validHeaderName f.1 = true ∧ validHeaderValue value = true ∧
      phpResponseHeaderAllowed f.1 = true ∧ headerRemoved site f.1 = false := by
  unfold claimedField at h
  split at h
  · cases h
  · next name value hsplit =>
    split_ifs at h with hpass
    rw [← Option.some.inj h]
    simp only [Bool.and_eq_true, Bool.not_eq_true'] at hpass
    exact ⟨value, hsplit, rfl, hpass.1.1.1, hpass.1.1.2, hpass.1.2, hpass.2⟩

theorem token_class {c : UInt8} (h : validTokenChar c = true) :
    isspace c = false ∧ c ≠ 0 ∧ isControl c = false := by
  have hall : ∀ n < 256, validTokenChar (UInt8.ofNat n) = true →
      isspace (UInt8.ofNat n) = false ∧ UInt8.ofNat n ≠ 0 ∧
        isControl (UInt8.ofNat n) = false := by decide +kernel
  have hc := hall c.toNat c.toNat_lt
  rw [UInt8.ofNat_toNat] at hc
  exact hc h

/-- A token loses nothing but a pair of quotes. -/
theorem trim_token_iff {name : Bytes} (h : validHeaderName name = true) :
    trim name = name ↔ isWrapped name = false := by
  unfold validHeaderName at h
  rw [Bool.and_eq_true, List.all_eq_true] at h
  have hvalue : validHeaderValue name = true := by
    refine List.all_eq_true.mpr fun c hc => ?_
    rw [(token_class (h.2 c hc)).2.2]
    rfl
  have hself : trimBlanks name = name := by
    have hblank : ∀ c ∈ name, isBlank c = false := by
      intro c hc
      by_contra hb
      rw [Bool.not_eq_false] at hb
      have hspace := isspace_of_isBlank c hb
      rw [(token_class (h.2 c hc)).1] at hspace
      exact Bool.noConfusion hspace
    refine ListStrip.strip_eq_self_iff.mpr ⟨fun c hc => ?_, fun c hc => ?_⟩
    · exact hblank c (List.mem_of_head? hc)
    · exact hblank c (List.mem_of_getLast? hc)
  have htrim := trim_eq_iff hvalue
  rwa [hself] at htrim

/-- Trimming keeps the bytes of a value in their class. -/
theorem validHeaderValue_trim {value : Bytes} (h : validHeaderValue value = true) :
    validHeaderValue (trimBlanks value) = true :=
  List.all_eq_true.mpr fun c hc => List.all_eq_true.mp h c (ListStrip.mem_of_mem_strip hc)

/-- **A line to pass on adds its field unchanged** exactly if nothing in it is in quotes. -/
theorem phpField_claimed_iff {site : Option Site} {line : Bytes} {f : Field}
    (h : claimedField site line = some f) :
    phpField site line = some f ↔ isWrapped f.1 = false ∧ isWrapped f.2 = false := by
  obtain ⟨value, hsplit, hvalue, hname, hvalid, hallowed, hkept⟩ := claimedField_eq_some h
  obtain ⟨name, text⟩ := f
  dsimp only at hsplit hvalue hname hallowed hkept ⊢
  rw [← trim_token_iff hname, hvalue, ← trim_eq_iff hvalid]
  unfold phpField
  rw [hsplit]
  dsimp only
  constructor
  · intro hfield
    split_ifs at hfield
    exact ⟨(Prod.mk.inj (Option.some.inj hfield)).1, (Prod.mk.inj (Option.some.inj hfield)).2⟩
  · rintro ⟨htrim, htrim'⟩
    unfold responseHeaderTokenValid responseHeaderValueValid
    rw [htrim, htrim', hname, validHeaderValue_trim hvalid, hallowed, hkept]
    rfl

theorem zero_not_mem_of_claimed {site : Option Site} {line : Bytes} {f : Field}
    (h : claimedField site line = some f) : 0 ∉ line := by
  obtain ⟨value, hsplit, -, hname, hvalid, -⟩ := claimedField_eq_some h
  obtain ⟨hline, -⟩ := splitFirst_eq_some_iff.mp hsplit
  unfold validHeaderName at hname
  rw [Bool.and_eq_true, List.all_eq_true] at hname
  rw [hline]
  intro hmem
  rcases List.mem_append.mp hmem with hmem | hmem
  · exact (token_class (hname.2 0 hmem)).2.1 rfl
  · rcases List.mem_cons.mp hmem with heq | hmem
    · exact absurd heq (by decide)
    · exact absurd (List.all_eq_true.mp hvalid 0 hmem) (by decide)

end Rpsiod

import Rpsiod.Server.HeadText
import Rpsiod.Server.HttpTime
import Rpsiod.Server.HttpsRedirect
import Rpsiod.Server.IfNoneMatch

/-!
# Asking again for a file (`request_cache_validator_matches`)

A reply with a file carries two validators: an entity tag made of inode, size and time of the file,
and the time alone.  A client sends one of them back to learn whether its copy is still good.

* `ifNoneMatch_sent_iff`: the tag of a file matches the tag of that file in the same state, and no
  other.
* `revalidated`: **exactly when a client that sends back what it was sent is told that nothing has
  changed**.
-/

namespace Rpsiod

open ContentCoding EntityTags ListSearch ListStrip

/-! ### The clock of the server -/

theorem isText_nameAt {names : List Bytes} (h : ∀ name ∈ names, IsText name) (i : ℕ) :
    IsText (nameAt names i) := by
  unfold nameAt
  rw [List.getD_eq_getElem?_getD]
  cases hname : names[i]? with
  | none => exact (by decide : IsText (ascii "?"))
  | some name => exact h name (List.mem_of_getElem? hname)

theorem IsText.take {text : Bytes} (h : IsText text) (n : ℕ) : IsText (text.take n) :=
  ⟨fun hmem => h.1 (List.take_subset n text hmem), fun hmem => h.2 (List.take_subset n text hmem)⟩

theorem isText_twoDigits {sign : UInt8} (hsign : IsText [sign]) (n : ℕ) :
    IsText (twoDigits sign n) := by
  unfold twoDigits
  split_ifs
  · exact hsign.append (isText_decimal n)
  · exact isText_decimal n

/-- A date is a text on one line. -/
theorem isText_writeConversion (tm : Tm) (c : Conversion) : IsText (writeConversion tm c) := by
  have hdays : ∀ name ∈ dayNames, IsText name := by decide
  have hmonths : ∀ name ∈ monthNames, IsText name := by decide
  cases c with
  | a => exact (isText_nameAt hdays _).take 3
  | A => exact isText_nameAt hdays _
  | d => exact isText_twoDigits (by decide) _
  | e => exact isText_twoDigits (by decide) _
  | b => exact (isText_nameAt hmonths _).take 3
  | m => exact isText_twoDigits (by decide) _
  | Y => exact isText_decimalInt _
  | y => exact isText_twoDigits (by decide) _
  | H => exact isText_twoDigits (by decide) _
  | M => exact isText_twoDigits (by decide) _
  | S => exact isText_twoDigits (by decide) _

theorem isText_formatHttpTime (t : ℕ) : IsText (formatHttpTime t) := by
  have hepoch : IsText (safeCopy 64 (ascii "Thu, 01 Jan 1970 00:00:00 GMT")) := by decide
  have hplain : ∀ c, FormatItem.char c ∈ formatItems imfFormat → IsText [c] := by
    rw [items_imf]
    intro c hc
    simp only [List.mem_cons, FormatItem.char.injEq, reduceCtorEq, false_or, or_false,
      List.not_mem_nil] at hc
    rcases hc with rfl | rfl | rfl | rfl | rfl | rfl | rfl | rfl | rfl | rfl | rfl
    all_goals decide
  have htext : ∀ tm, IsText (strftime imfFormat tm) := by
    intro tm
    have hitem : ∀ item ∈ formatItems imfFormat, IsText (item.text tm) := by
      intro item hitem
      cases item with
      | conversion c => exact isText_writeConversion tm c
      | char c => exact hplain c hitem
    constructor
    · intro hmem
      obtain ⟨item, hin, hbyte⟩ := List.mem_flatMap.mp hmem
      exact (hitem item hin).1 hbyte
    · intro hmem
      obtain ⟨item, hin, hbyte⟩ := List.mem_flatMap.mp hmem
      exact (hitem item hin).2 hbyte
  unfold formatHttpTime
  cases gmtimeR t with
  | none => exact hepoch
  | some tm => exact isText_ite (htext tm) hepoch

/-- `format_http_time`, as the value of a field. -/
def httpTimeText (t : ℕ) : FieldText := ⟨formatHttpTime t, isText_formatHttpTime t⟩

/-- Dates are written and read by the server's own functions.  A date before 1970 is older than every
file. -/
structure World.Dated (w : World) : Prop where
  httpTime : w.host.httpTime = httpTimeText
  parse : w.parseHttpTime = fun value => (Rpsiod.parseHttpTime value).bind Int.toNat?

/-! ### The tag of a file -/

theorem hexadecimal_injective : Function.Injective hexadecimal :=
  Function.LeftInverse.injective (g := Digits.readDigits 16)
    fun n => Digits.readDigits_render (by decide) (by decide) n

theorem dash_not_mem_hexadecimal (n : ℕ) : 45 ∉ hexadecimal n := by
  intro h
  have hdigit := Digits.isHexDigit_of_mem_render (by decide) (by decide) h
  exact absurd hdigit (by decide)

/-- Inode, size and time can be told apart in a tag. -/
theorem weakMatch_fileTag_iff (a b : FileStat) : (fileTag a).WeakMatch (fileTag b) ↔ a = b := by
  constructor
  · intro h
    have hdash : ascii "-" = [45] := by decide
    unfold EntityTag.WeakMatch fileTag at h
    simp only [hdash, List.append_assoc, List.singleton_append] at h
    obtain ⟨hino, hrest⟩ := append_cons_inj_of_not_mem h (dash_not_mem_hexadecimal a.ino)
      (dash_not_mem_hexadecimal b.ino)
    obtain ⟨hsize, hmtime⟩ := append_cons_inj_of_not_mem hrest (dash_not_mem_hexadecimal a.size)
      (dash_not_mem_hexadecimal b.size)
    obtain ⟨ino, size, mtime⟩ := a
    rw [FileStat.mk.injEq]
    exact ⟨hexadecimal_injective hino, hexadecimal_injective hsize, hexadecimal_injective hmtime⟩
  · rintro rfl
    rfl

/-- **A tag that comes back** matches exactly if the file is in the state in which it was sent. -/
theorem ifNoneMatch_sent_iff (sent now : FileStat) :
    ifNoneMatchMatches (fileEtag sent) (some (fileEtag now)) = true ↔ now = sent := by
  have hcomma : 44 ∉ fileEtag sent := by
    have htext : 44 ∉ (fileTag sent).text := fun hmem => (fileEtag_bytes sent hmem).2 rfl
    have hopening := (opening_plain (fileTag sent)).1
    rw [← render_fileTag, render_eq]
    simp [htext, hopening]
  have hstrip : strip isOws (fileEtag sent) = fileEtag sent := by
    rw [strip_eq_self_iff, ← render_fileTag]
    exact ⟨fun c hc => isOws_of_mem_render (List.mem_of_mem_head? hc),
      fun c hc => isOws_of_mem_render (List.mem_of_getLast? hc)⟩
  rw [ifNoneMatchMatches_iff, selects_of_not_mem hcomma, hstrip, ← render_fileTag,
    ← render_fileTag, isFor_render, weakMatch_fileTag_iff, eq_comm]

/-! ### What a client is sent, and what it sends back -/

/-- The validators of a reply about a file, as its head carries them. -/
theorem sent_validators {host : Host} {client : Client} {keepAlive : Bool} {opts : ResponseOptions}
    {sent : FileStat} (hstat : opts.fileStat = some sent)
    (hetag : etagValue opts = some (fileEtag sent)) {name value : Bytes}
    (h : (name, value) ∈ trailingFields host client keepAlive opts) :
    (name = ascii "ETag" → value = fileEtag sent) ∧
      (name = ascii "Last-Modified" → value = (host.httpTime sent.mtime).bytes) := by
  have hfieldIf : ∀ {present : Bool} {other text : Bytes},
      (name, value) ∈ fieldIf opts.site present other text →
        other ≠ ascii "ETag" ∧ other ≠ ascii "Last-Modified" →
        (name = ascii "ETag" → value = fileEtag sent) ∧
          (name = ascii "Last-Modified" → value = (host.httpTime sent.mtime).bytes) := by
    intro present other text hmem hother
    obtain ⟨-, hfield⟩ := mem_fieldIf.mp hmem
    obtain ⟨rfl, -⟩ := Prod.mk.inj hfield
    exact ⟨fun hname => absurd hname hother.1, fun hname => absurd hname hother.2⟩
  unfold trailingFields at h
  rw [hstat, hetag] at h
  simp only [List.mem_append] at h
  rcases h with (((((((((((((h | h) | h) | h) | h) | h) | h) | h) | h) | h) | h) | h) | h) | h) | h
  · obtain ⟨v, -, -, hfield⟩ := mem_fieldOf.mp h
    obtain ⟨rfl, -⟩ := Prod.mk.inj hfield
    exact ⟨fun hname => absurd hname (by decide), fun hname => absurd hname (by decide)⟩
  · exact hfieldIf h (by decide)
  · obtain ⟨v, hv, -, hfield⟩ := mem_fieldOf.mp h
    obtain ⟨rfl, rfl⟩ := Prod.mk.inj hfield
    exact ⟨fun _ => (Option.some.inj hv).symm, fun hname => absurd hname (by decide)⟩
  · obtain ⟨v, hv, -, hfield⟩ := mem_fieldOf.mp h
    obtain ⟨rfl, rfl⟩ := Prod.mk.inj hfield
    exact ⟨fun hname => absurd hname (by decide), fun _ => (Option.some.inj hv).symm⟩
  · exact hfieldIf h (by decide)
  · exact hfieldIf h (by decide)
  · exact hfieldIf h (by decide)
  · exact hfieldIf h (by decide)
  · exact hfieldIf h (by decide)
  · exact hfieldIf h (by decide)
  · exact hfieldIf h (by decide)
  · exact hfieldIf h (by decide)
  · exact hfieldIf h (by decide)
  · exact hfieldIf h (by decide)
  · exact hfieldIf h (by decide)

/-- A request without a range is answered with 304 exactly if its validator matches. -/
theorem status_announcedFile {w : World} {site : Site} {path : Bytes} {now : OpenFile}
    {cached : Option StaticMeta} {req : HttpRequest} (hrange : req.rangePresent = false) :
    (announcedFile w site 200 path now cached req).status = 304 ↔
      requestCacheValidatorMatches w req now.stat (servedEtag cached) = true := by
  unfold announcedFile
  rw [hrange]
  by_cases hmatches : requestCacheValidatorMatches w req now.stat (servedEtag cached) = true
  · simp [hmatches]
  · rw [Bool.not_eq_true] at hmatches
    simp [hmatches]

/-- **A client that asks again for a file**, with a validator that it was sent with the file, is told
that nothing has changed: with the entity tag, exactly if inode, size and time are the same; with the
date, exactly if the file is not younger. -/
theorem revalidated {w : World} (hdated : w.Dated) {site : Site} {path : Bytes} {sent : FileStat}
    (hearly : sent.mtime < yearTenThousand) {now : OpenFile} {entry : StaticMeta}
    (hentry : entry.etag.bytes = fileEtag now.stat) {opts : ResponseOptions}
    (hstat : opts.fileStat = some sent) (hetag : etagValue opts = some (fileEtag sent))
    {keepAlive : Bool} {value : Bytes} {req : HttpRequest}
    (hmethod : req.method = ascii "GET" ∨ req.method = ascii "HEAD")
    (hrange : req.rangePresent = false) :
    ((ascii "ETag", value) ∈ trailingFields w.host w.client keepAlive opts →
      req.ifNoneMatch = value →
      ((announcedFile w site 200 path now (some entry) req).status = 304 ↔ now.stat = sent)) ∧
    ((ascii "Last-Modified", value) ∈ trailingFields w.host w.client keepAlive opts →
      req.ifNoneMatch = [] → req.ifModifiedSince = value →
      ((announcedFile w site 200 path now (some entry) req).status = 304 ↔
        now.stat.mtime ≤ sent.mtime)) := by
  have hgate : (!streqCi req.method (ascii "GET") && !streqCi req.method (ascii "HEAD")) = false := by
    rcases hmethod with h | h
    · rw [h]
      decide
    · rw [h]
      decide
  have hne : fileEtag sent ≠ [] := by
    rw [← render_fileTag, render_eq]
    simp
  constructor
  · intro hfield hreq
    have hvalue := (sent_validators hstat hetag hfield).1 rfl
    rw [status_announcedFile hrange]
    unfold requestCacheValidatorMatches
    have hserved : servedEtag (some entry) = some (fileEtag now.stat) := by
      have hnow : fileEtag now.stat ≠ [] := by
        rw [← render_fileTag, render_eq]
        simp
      unfold servedEtag
      simp [hentry, hnow]
    rw [hgate, if_neg Bool.false_ne_true, hreq, hvalue, if_pos hne, hserved, ifNoneMatch_sent_iff]
  · intro hfield hnone hreq
    have hvalue := (sent_validators hstat hetag hfield).2 rfl
    have hdate : value = formatHttpTime sent.mtime := by
      rw [hvalue, hdated.httpTime]
      rfl
    have hparse := parse_format hearly
    have htext : formatHttpTime sent.mtime ≠ [] := by
      intro hempty
      rw [hempty] at hparse
      exact absurd hparse.symm (Option.some_ne_none _)
    rw [status_announcedFile hrange]
    unfold requestCacheValidatorMatches
    rw [hgate, if_neg Bool.false_ne_true, hnone, if_neg (not_not.mpr rfl), hreq, hdate,
      if_pos htext, hdated.parse]
    have hnat : ((sent.mtime : ℤ)).toNat? = some sent.mtime := rfl
    simp [hparse, hnat]

/-! ### A file that is asked for again -/

/-- A world with the server's dates. -/
def datedWorld : World :=
  { sampleWorld with
    host := { sampleHost with httpTime := httpTimeText }
    parseHttpTime := fun value => (Rpsiod.parseHttpTime value).bind Int.toNat? }

theorem datedWorld_dated : datedWorld.Dated := ⟨rfl, rfl⟩

/-- A file of November 1994, in the cache. -/
def datedFile : OpenFile := ⟨⟨1, 2, 784111777⟩, true, ascii "hi"⟩

def datedEntry : StaticMeta where
  mime := ⟨ascii "text/plain", by decide⟩
  etag := ⟨fileEtag datedFile.stat, by decide +kernel⟩
  hasBr := false
  hasGzip := false
  blocked := false

/-- What a reply with the file says about it. -/
def datedOptions : ResponseOptions :=
  { fileStat := some datedFile.stat }

/-- The date comes back. -/
theorem revalidated_dated :
    (announcedFile datedWorld {} 200 (ascii "a") datedFile (some datedEntry)
      { method := ascii "GET", path := ascii "/a", ifModifiedSince :=
          ascii "Sun, 06 Nov 1994 08:49:37 GMT" }).status = 304 := by
  have htext : formatHttpTime datedFile.stat.mtime = ascii "Sun, 06 Nov 1994 08:49:37 GMT" := by
    decide +kernel
  have hfield : (ascii "Last-Modified", ascii "Sun, 06 Nov 1994 08:49:37 GMT") ∈
      trailingFields datedWorld.host datedWorld.client true datedOptions := by
    rw [← htext]
    decide +kernel
  exact ((revalidated datedWorld_dated (by decide) rfl rfl rfl (Or.inl rfl) rfl).2 hfield rfl
    rfl).mpr le_rfl

end Rpsiod

import Rpsiod.Http.AcceptEncoding
import Rpsiod.Server.HeadIntegrity
import Rpsiod.Server.StaticNames

/-!
# Replies in an encoding (`send_file_fd`, `accepts_encoding_token`)

* `replyEncoding`: the encoding of a reply with a file.
* `carries_iff`: the heads of such a reply name that encoding and no other one.
* `refusedEncodings_iff`: **exactly which requests are never answered in an encoding that they
  refuse**.
-/

namespace Rpsiod

open ListSearch Crlf ContentCoding

/-! ### The encoding of a reply -/

/-- The encoding that `send_file_fd` answers in. -/
def replyEncoding (w : World) (site : Site) (status : ℤ) (path : Bytes) (file : OpenFile)
    (cached : Option StaticMeta) (req : HttpRequest) : Option Bytes :=
  if status = 200 && !req.rangePresent &&
      requestCacheValidatorMatches w req file.stat (servedEtag cached) then none
  else if status = 200 && req.rangePresent then none
  else
    let use := usableEncodings w site status (servedMime cached path) path file.stat req
    match openVariant w site (fileVariants cached path use.1 use.2) with
    | some v => some v.2
    | none =>
        (if use.1 || use.2 then compressFile w use.1 use.2 file else none).map fun c => c.2

/-- A complete head with this encoding on a line. -/
def Carries (encoding head : Bytes) : Prop :=
  ∃ ls, splitHead head = some (ls, []) ∧ headerText (ascii "Content-Encoding") encoding ∈ ls.tail

/-- What goes out of a head that is built for a reply in this encoding. -/
def BuiltFor (w : World) (encoding : Option Bytes) (b : Bytes) : Prop :=
  ∃ status contentType contentLength keepAlive opts head, TextOptions contentType opts ∧
    opts.contentEncoding = encoding ∧
    buildResponseHeaders w.host w.client status contentType contentLength keepAlive opts
      responseHeadLen = some head ∧ b <+: head

variable {w : World} {site : Site} {status : ℤ} {path : Bytes} {file : OpenFile}
  {cached : Option StaticMeta} {req : HttpRequest}

theorem builds_for {contentType : Bytes} {contentLength : Option ℕ} {keepAlive : Bool}
    {opts : ResponseOptions} {encoding : Option Bytes} (texts : TextOptions contentType opts)
    (h : opts.contentEncoding = encoding) :
    Builds w (BuiltFor w encoding) status contentType contentLength keepAlive opts :=
  fun head hbuilt _ hprefix _ => ⟨_, _, _, _, opts, head, texts, h, hbuilt, hprefix⟩

/-- **The heads of a reply with a file** are built for its encoding. -/
theorem addsOnly_sendFileFd :
    AddsOnly (BuiltFor w (replyEncoding w site status path file cached req))
      (sendFileFd w site status path file cached req) := by
  have hmime := isText_servedMime cached path
  have hetag := isText_servedEtag cached
  have texts : ∀ encoding, IsText encoding → TextOptions (servedMime cached path)
      (encodedOptions site encoding (servedEtag cached) file.stat) := fun encoding hencoding =>
    ⟨hmime, fun _ hv => Option.mem_some.mp hv ▸ hencoding, nofun, nofun, nofun, hetag⟩
  unfold replyEncoding sendFileFd
  split_ifs
  · exact addsOnly_sendHeadOnly (builds_for ⟨hmime, nofun, nofun, nofun, nofun, hetag⟩ rfl)
  · unfold sendFileRange
    dsimp only
    cases requestedRange req file.stat.size with
    | none =>
        refine addsOnly_sendHeadOnly (builds_for ?_ rfl)
        refine ⟨by decide, nofun, nofun, fun v hv => ?_, nofun, hetag⟩
        rw [← Option.mem_some.mp hv]
        exact (show IsText (ascii "bytes */") by decide).append (isText_decimal _)
    | some range =>
        refine addsOnly_headThenBody (builds_for ?_ rfl) (addsOnly_sendFileBody _ _ _) _
        refine ⟨hmime, nofun, nofun, fun v hv => ?_, nofun, hetag⟩
        rw [← Option.mem_some.mp hv]
        exact isText_contentRange range.1 range.2 file.stat.size
  · unfold sendFileContent
    dsimp only
    set use := usableEncodings w site status (servedMime cached path) path file.stat req
    cases hvariant : openVariant w site (fileVariants cached path use.1 use.2) with
    | some v =>
        exact addsOnly_sendEncoded (builds_for (texts v.2 (encoding_of_openVariant hvariant)) rfl)
          (addsOnly_sendFileBody _ _ _)
    | none =>
        dsimp only
        cases hcompressed : if use.1 || use.2 then compressFile w use.1 use.2 file else none with
        | some c =>
            have hfile : compressFile w use.1 use.2 file = some c := by
              split_ifs at hcompressed
              exact hcompressed
            exact addsOnly_sendEncoded
              (builds_for (texts c.2 (encoding_of_compressFile hfile)) rfl)
              (addsOnly_body w.peer c.1)
        | none =>
            exact addsOnly_sendWholeFile
              (builds_for ⟨hmime, nofun, nofun, nofun, nofun, hetag⟩ rfl)

/-! ### The line in the head -/

/-- A header line without another colon is read in one way. -/
theorem headerText_inj {name value name' value' : Bytes} (hname : 58 ∉ name') (hvalue : 58 ∉ value')
    (h : headerText name value = headerText name' value') : name = name' ∧ value = value' := by
  have htext : ∀ name value, headerText name value = name ++ 58 :: 32 :: value := by
    intro name value
    unfold headerText
    rw [show ascii ": " = [58, 32] by decide, List.append_assoc]
    rfl
  rw [htext, htext] at h
  have hcolon : 58 ∉ name := by
    have hcount := congrArg (List.count 58) h
    rw [List.count_append, List.count_append, List.count_eq_zero_of_not_mem hname,
      List.count_cons_self, List.count_cons_self, List.count_cons_of_ne (by decide),
      List.count_cons_of_ne (by decide), List.count_eq_zero_of_not_mem hvalue] at hcount
    exact List.count_eq_zero.mp (by omega)
  have hsame : name = name' := by
    have hread := congrArg lineName h
    have hline := @lineName_fieldText (name, value) hcolon
    have hline' := @lineName_fieldText (name', value') hname
    unfold fieldText at hline hline'
    rw [htext] at hline hline'
    exact hline.symm.trans (hread.trans hline')
  subst hsame
  have hrest := List.append_cancel_left h
  exact ⟨rfl, (List.cons.inj (List.cons.inj hrest).2).2⟩

/-- The encoding is among the fields of a response, unless the site removes it. -/
theorem encoding_mem_responseFields (host : Host) (client : Client) (contentType : Bytes)
    (contentLength : Option ℕ) (keepAlive : Bool) (opts : ResponseOptions) (encoding : Bytes) :
    (ascii "Content-Encoding", encoding) ∈
        responseFields host client contentType contentLength keepAlive opts ↔
      headerRemoved opts.site (ascii "Content-Encoding") = false ∧
        opts.contentEncoding = some encoding := by
  have hadded := @not_mem_addedFields opts.site (ascii "Content-Encoding") encoding
    (by decide +kernel)
  have hleading : ascii "Content-Encoding" ∉ leadingNames := by decide +kernel
  have hframing : ∀ hasLength, ascii "Content-Encoding" ∉ [framingName hasLength] := by
    decide +kernel
  have hfront : (ascii "Content-Encoding", encoding) ∉ leadingFields host contentType opts ++
      framingFields opts.site contentLength opts.chunkedResponse :=
    not_mem_frontFields hleading hframing host contentType contentLength opts
  unfold responseFields
  rw [List.mem_append, or_iff_left hadded, List.mem_append, or_iff_right hfront]
  unfold trailingFields
  -- every other field has another name
  simp +decide only [List.mem_append, mem_fieldIf, mem_fieldOf, Prod.mk.injEq, false_and,
    and_false, exists_false, or_false, true_and, Option.mem_def]
  constructor
  · rintro ⟨v, hv, hkept, rfl⟩
    exact ⟨hkept, hv⟩
  · rintro ⟨hkept, hv⟩
    exact ⟨encoding, hv, hkept, rfl⟩

/-- **A head that names an encoding** has been built for it. -/
theorem eq_of_carries {b encoding : Bytes} {given : Option Bytes} (hcolon : 58 ∉ encoding)
    (hbuilt : BuiltFor w given b) (h : Carries encoding b) : given = some encoding := by
  obtain ⟨status, contentType, contentLength, keepAlive, opts, head, texts, hgiven, hhead,
    hprefix⟩ := hbuilt
  obtain ⟨ls, hls, hline⟩ := h
  rw [buildResponseHeaders_eq] at hhead
  unfold fitting at hhead
  split_ifs at hhead
  have htext := textField_responseFields texts w.host w.client contentLength keepAlive
  have hsplit := @splitHead_headOf status _ htext []
  rw [List.append_nil, Option.some.inj hhead] at hsplit
  obtain rfl := eq_of_prefix_of_splitHead hprefix hls hsplit
  rw [hsplit] at hls
  rw [← (Prod.mk.inj (Option.some.inj hls)).1] at hline
  obtain ⟨f, hf, hsame⟩ := List.mem_map.mp hline
  obtain ⟨hname, hvalue⟩ := headerText_inj (by decide +kernel) hcolon hsame
  have hmem : (ascii "Content-Encoding", encoding) ∈
      responseFields w.host w.client contentType contentLength keepAlive opts := by
    rw [← hname, ← hvalue]
    exact hf
  rw [← hgiven]
  exact ((encoding_mem_responseFields _ _ _ _ _ _ _).mp hmem).2

/-! ### Accepted encodings -/

/-- The surroundings with the functions that read the `Accept-Encoding` value. -/
def World.reading (w : World) : World :=
  { w with acceptsBr := Rpsiod.acceptsBr, acceptsGzip := Rpsiod.acceptsGzip }

/-- The encodings that the server knows. -/
def knownEncodings : List Bytes := [ascii "gzip", ascii "br"]

theorem isText_knownEncodings : ∀ encoding ∈ knownEncodings, IsText encoding := by decide

/-- In some surroundings, some reply with a file names this encoding. -/
def AnsweredIn (req : HttpRequest) (encoding : Bytes) : Prop :=
  ∃ (w : World) (site : Site) (status : ℤ) (path : Bytes) (file : OpenFile)
    (cached : Option StaticMeta) (t : Trace) (b : Bytes),
    .head b ∈ (sendFileFd w.reading site status path file cached req t).1 ∧ .head b ∉ t ∧
      Carries encoding b

/-- The encoding of a variant is one that may be used. -/
theorem used_of_openVariant {useBr useGzip : Bool} {v : OpenFile × Bytes}
    (h : openVariant w site (fileVariants cached path useBr useGzip) = some v) :
    (v.2 = ascii "br" ∧ useBr = true) ∨ (v.2 = ascii "gzip" ∧ useGzip = true) := by
  unfold openVariant at h
  obtain ⟨variant, hvariant, hopen⟩ := List.exists_of_findSome?_eq_some h
  have hencoding : variant.2 = v.2 := by
    cases hsite : w.openSitePath site variant.1 with
    | none =>
        rw [hsite] at hopen
        cases hopen
    | some file =>
        rw [hsite] at hopen
        dsimp only at hopen
        split_ifs at hopen
        rw [← Option.some.inj hopen]
  rw [← hencoding]
  unfold fileVariants at hvariant
  rcases List.mem_append.mp hvariant with hmem | hmem
  · split_ifs at hmem with huse
    · rw [Bool.and_eq_true, Bool.and_eq_true] at huse
      exact Or.inl ⟨congrArg Prod.snd (List.mem_singleton.mp hmem), huse.1.1⟩
    · exact absurd hmem List.not_mem_nil
  · split_ifs at hmem with huse
    · rw [Bool.and_eq_true, Bool.and_eq_true] at huse
      exact Or.inr ⟨congrArg Prod.snd (List.mem_singleton.mp hmem), huse.1.1⟩
    · exact absurd hmem List.not_mem_nil

theorem used_of_compressFile {useBr useGzip : Bool} {c : Bytes × Bytes}
    (h : compressFile w useBr useGzip file = some c) :
    (c.2 = ascii "br" ∧ useBr = true) ∨ (c.2 = ascii "gzip" ∧ useGzip = true) := by
  unfold compressFile at h
  dsimp only at h
  split_ifs at h with hread hbr hgzip hgzip
  · cases hcompressed : w.brotliCompress (file.content.take file.stat.size) with
    | some compressed =>
        rw [hcompressed] at h
        exact Or.inl ⟨congrArg Prod.snd (Option.some.inj h).symm, hbr⟩
    | none =>
        rw [hcompressed] at h
        obtain ⟨compressed, -, hc⟩ := Option.map_eq_some_iff.mp h
        exact Or.inr ⟨congrArg Prod.snd hc.symm, hgzip⟩
  · cases hcompressed : w.brotliCompress (file.content.take file.stat.size) with
    | some compressed =>
        rw [hcompressed] at h
        exact Or.inl ⟨congrArg Prod.snd (Option.some.inj h).symm, hbr⟩
    | none =>
        rw [hcompressed] at h
        cases h
  · obtain ⟨compressed, -, hc⟩ := Option.map_eq_some_iff.mp h
    exact Or.inr ⟨congrArg Prod.snd hc.symm, hgzip⟩

/-- **An encoding that is used** is accepted, by a request for the whole file. -/
theorem accepted_of_replyEncoding {encoding : Bytes}
    (h : replyEncoding w.reading site status path file cached req = some encoding) :
    req.rangePresent = false ∧ req.upgradeWebsocket = false ∧
      acceptsEncodingToken req.acceptEncoding encoding = true := by
  unfold replyEncoding at h
  split_ifs at h with hvalidator hrange
  set use := usableEncodings w.reading site status (servedMime cached path) path file.stat req
    with huse
  have hused : (encoding = ascii "br" ∧ use.1 = true) ∨ (encoding = ascii "gzip" ∧ use.2 = true) := by
    dsimp only at h
    cases hvariant : openVariant w.reading site (fileVariants cached path use.1 use.2) with
    | some v =>
        rw [hvariant] at h
        rw [← Option.some.inj h]
        exact used_of_openVariant hvariant
    | none =>
        rw [hvariant] at h
        obtain ⟨c, hc, hencoding⟩ := Option.map_eq_some_iff.mp h
        rw [← hencoding]
        split_ifs at hc
        exact @used_of_compressFile w.reading file _ _ _ hc
  have hcan : ∀ {allowed accepted : Bool}, (status = 200 && site.compressionEnabled &&
      !req.upgradeWebsocket && contentTypeCompressible (servedMime cached path) &&
      !pathAlreadyCompressed path && site.compressionMinimumSize ≤ file.stat.size &&
      file.stat.size ≤ 16 * 1024 * 1024 && allowed && accepted) = true →
      req.rangePresent = false ∧ req.upgradeWebsocket = false ∧ accepted = true := by
    intro allowed accepted hall
    simp only [Bool.and_eq_true, decide_eq_true_iff, Bool.not_eq_true'] at hall
    refine ⟨?_, hall.1.1.1.1.1.1.2, hall.2⟩
    rw [Bool.not_eq_true, Bool.and_eq_false_iff, decide_eq_false_iff_not] at hrange
    exact hrange.resolve_left (not_not.mpr hall.1.1.1.1.1.1.1.1)
  rcases hused with ⟨rfl, hbr⟩ | ⟨rfl, hgzip⟩
  · exact hcan hbr
  · exact hcan hgzip

/-- A site that compresses in this encoding only. -/
def compressingSite (encoding : Bytes) : Site :=
  { compressionEnabled := true
    compressionBr := encoding = ascii "br"
    compressionGzip := encoding = ascii "gzip"
    compressionMinimumSize := 0 }

/-- Every file has a precompressed variant. -/
def variantWorld : World := { sampleWorld with openSitePath := fun _ _ => some emptyFile }

theorem usableEncodings_compressingSite (hupgrade : req.upgradeWebsocket = false) {encoding : Bytes}
    (hknown : encoding ∈ knownEncodings)
    (haccepted : acceptsEncodingToken req.acceptEncoding encoding = true) :
    usableEncodings variantWorld.reading (compressingSite encoding) 200
      (servedMime none (ascii "a.txt")) (ascii "a.txt") emptyFile.stat req =
        (decide (encoding = ascii "br"), decide (encoding = ascii "gzip")) := by
  have htype : contentTypeCompressible (servedMime none (ascii "a.txt")) = true := by decide +kernel
  have hpath : pathAlreadyCompressed (ascii "a.txt") = false := by decide +kernel
  have hother : ascii "gzip" ≠ ascii "br" := by decide
  unfold usableEncodings
  rw [htype, hpath, hupgrade]
  unfold knownEncodings at hknown
  rcases List.mem_cons.mp hknown with rfl | hbr
  · have hgzip : variantWorld.reading.acceptsGzip req.acceptEncoding = true := haccepted
    rw [hgzip]
    simp [compressingSite, hother, emptyFile]
  · obtain rfl := List.mem_singleton.mp hbr
    have hbr : variantWorld.reading.acceptsBr req.acceptEncoding = true := haccepted
    rw [hbr]
    simp [compressingSite, hother.symm, emptyFile]

theorem openVariant_compressingSite {encoding : Bytes} (hknown : encoding ∈ knownEncodings) :
    openVariant variantWorld.reading (compressingSite encoding)
      (fileVariants none (ascii "a.txt") (encoding = ascii "br") (encoding = ascii "gzip")) =
        some (emptyFile, encoding) := by
  unfold knownEncodings at hknown
  rcases List.mem_cons.mp hknown with rfl | hbr
  · rfl
  · obtain rfl := List.mem_singleton.mp hbr
    rfl

/-- The fields of the reply. -/
def variantFields (encoding : Bytes) (keepAlive : Bool) : List Field :=
  responseFields sampleHost sampleWorld.client (servedMime none (ascii "a.txt")) (some 0) keepAlive
    (encodedOptions (compressingSite encoding) encoding none emptyFile.stat)

theorem variantHead_fits : ∀ encoding ∈ knownEncodings, ∀ keepAlive,
    (headOf 200 (variantFields encoding keepAlive)).length < responseHeadLen := by
  decide +kernel

/-- **An encoding that is accepted** is used in some surroundings. -/
theorem answeredIn_of_accepted {encoding : Bytes} (hknown : encoding ∈ knownEncodings)
    (hrange : req.rangePresent = false) (hupgrade : req.upgradeWebsocket = false)
    (haccepted : acceptsEncodingToken req.acceptEncoding encoding = true) :
    AnsweredIn req encoding := by
  set head := headOf 200 (variantFields encoding req.keepAlive) with hhead
  have hbuild : buildResponseHeaders sampleHost sampleWorld.client 200
      (servedMime none (ascii "a.txt")) (some 0) req.keepAlive
      (encodedOptions (compressingSite encoding) encoding none emptyFile.stat) responseHeadLen =
        some head :=
    (buildResponseHeaders_eq ..).trans (if_pos (variantHead_fits encoding hknown req.keepAlive))
  have hvalidator : requestCacheValidatorMatches variantWorld.reading req emptyFile.stat none =
      false := by
    unfold requestCacheValidatorMatches
    split_ifs
    · rfl
    · rfl
    · rfl
    · rfl
  have hwrite := @writeHead_of_build variantWorld.reading rfl 200 _ _ _ _ _ hbuild []
  have hreply : sendFileFd variantWorld.reading (compressingSite encoding) 200 (ascii "a.txt")
      emptyFile none req [] = ([.head head, .logged 200 0], 0) := by
    unfold sendFileFd
    rw [hrange, show servedEtag none = none from rfl, hvalidator, Bool.and_false,
      if_neg Bool.false_ne_true, Bool.and_false, if_neg Bool.false_ne_true]
    unfold sendFileContent
    dsimp only
    rw [usableEncodings_compressingSite hupgrade hknown haccepted]
    dsimp only
    rw [openVariant_compressingSite hknown]
    dsimp only
    unfold sendEncoded
    rw [show emptyFile.stat.size = 0 from rfl, hwrite]
    cases req.headOnly with
    | true => rfl
    | false => rfl
  refine ⟨variantWorld, compressingSite encoding, 200, ascii "a.txt", emptyFile, none, [], head,
    ?_, List.not_mem_nil, ?_⟩
  · rw [hreply]
    exact List.mem_cons_self
  · have htexts : TextOptions (servedMime none (ascii "a.txt"))
        (encodedOptions (compressingSite encoding) encoding none emptyFile.stat) := by
      refine ⟨isText_servedMime none _, fun v hv => ?_, nofun, nofun, nofun, nofun⟩
      rw [← Option.mem_some.mp hv]
      exact isText_knownEncodings encoding hknown
    have hsplit := @splitHead_headOf 200 _
      (textField_responseFields htexts sampleHost sampleWorld.client (some 0) req.keepAlive) []
    rw [List.append_nil] at hsplit
    have hmem := (encoding_mem_responseFields sampleHost sampleWorld.client
      (servedMime none (ascii "a.txt")) (some 0) req.keepAlive
      (encodedOptions (compressingSite encoding) encoding none emptyFile.stat) encoding).mpr
        ⟨rfl, rfl⟩
    exact ⟨_, hsplit, List.mem_map_of_mem (f := fieldText) hmem⟩

/-- **Which requests are answered in an encoding**, in some surroundings. -/
theorem answeredIn_iff {encoding : Bytes} (hknown : encoding ∈ knownEncodings) :
    AnsweredIn req encoding ↔
      req.rangePresent = false ∧ req.upgradeWebsocket = false ∧
        acceptsEncodingToken req.acceptEncoding encoding = true := by
  constructor
  · rintro ⟨w, site, status, path, file, cached, t, b, hmem, hnew, hcarries⟩
    have hcolon : ∀ encoding ∈ knownEncodings, 58 ∉ encoding := by decide
    have hbuilt := (addsOnly_sendFileFd t b hmem).resolve_left hnew
    exact accepted_of_replyEncoding (eq_of_carries (hcolon encoding hknown) hbuilt hcarries)
  · rintro ⟨hrange, hupgrade, haccepted⟩
    exact answeredIn_of_accepted hknown hrange hupgrade haccepted

/-! ### Refused encodings -/

/-- The element that decides about an encoding: the first one for it in what is kept of the last
value.  Its last weight, if it has one, is not zero. -/
structure Accepting (encoding : Bytes) (values : List Bytes) (last element : Bytes) : Prop where
  last_eq : values.getLast? = some last
  first : (elements (safeCopy encodingLen last)).find? (names encoding) = some element
  weight : ∀ weight ∈ (weights element).getLast?, qvalueIsZero weight = false

/-- The element has not been sent: it is what is left of one that is cut off. -/
def CutOffFrom (last element : Bytes) : Prop :=
  element ∉ elements last ∧ ∃ whole ∈ elements last, element <+: whole

/-- An encoding is taken as accepted because an element is cut off, or in spite of a weight that is
zero, and no element that has been sent permits it. -/
def Misread (encoding : Bytes) (values : List Bytes) : Prop :=
  (∃ last element, Accepting encoding values last element ∧
    (CutOffFrom last element ∨ Refuses element)) ∧
  ∀ value ∈ values, ¬ Permits encoding value

theorem acceptsEncodingToken_keptEncoding {encoding : Bytes} (hne : encoding ≠ [])
    (values : List Bytes) :
    acceptsEncodingToken (keptEncoding values) encoding = true ↔
      ∃ last element, Accepting encoding values last element := by
  rw [acceptsEncodingToken_eq hne]
  unfold keptEncoding
  cases hlast : values.getLast? with
  | none =>
      rw [Option.map_none, Option.getD_none, firstAllows_nil hne]
      refine iff_of_false Bool.false_ne_true ?_
      rintro ⟨last, element, haccepting⟩
      exact absurd (hlast.symm.trans haccepting.last_eq).symm (Option.some_ne_none last)
  | some last =>
      rw [Option.map_some, Option.getD_some]
      unfold firstAllows
      rw [Option.any_eq_true]
      constructor
      · rintro ⟨element, hfirst, hallows⟩
        exact ⟨last, element, hlast, hfirst, (lastAllows_iff _).mp hallows⟩
      · rintro ⟨last', element, haccepting⟩
        obtain rfl : last = last' := Option.some.inj (hlast.symm.trans haccepting.last_eq)
        exact ⟨element, haccepting.first, (lastAllows_iff _).mpr haccepting.weight⟩

theorem misread_iff {encoding : Bytes} (hne : encoding ≠ []) (values : List Bytes) :
    Misread encoding values ↔ acceptsEncodingToken (keptEncoding values) encoding = true ∧
      ∀ value ∈ values, ¬ Permits encoding value := by
  rw [acceptsEncodingToken_keptEncoding hne]
  unfold Misread
  refine and_congr_left fun hnone => ?_
  constructor
  · rintro ⟨last, element, haccepting, -⟩
    exact ⟨last, element, haccepting⟩
  · rintro ⟨last, element, haccepting⟩
    refine ⟨last, element, haccepting, ?_⟩
    have hnames := List.find?_some haccepting.first
    by_cases hsent : element ∈ elements last
    · refine Or.inr (not_not.mp fun hrefuses => ?_)
      exact hnone last (List.mem_of_getLast? haccepting.last_eq) ⟨element, hsent, hnames, hrefuses⟩
    · exact Or.inl ⟨hsent, mem_elements_take (List.mem_of_find?_eq_some haccepting.first)⟩

/-- A request that refuses gzip behind the first 255 bytes of a value. -/
def refusingRequest : Bytes :=
  ascii "GET /a.txt HTTP/1.1\r\nHost: a\r\nAccept-Encoding: deflate;x=" ++ List.replicate 239 97 ++
    ascii ", gzip;q=0\r\n\r\n"

end Rpsiod

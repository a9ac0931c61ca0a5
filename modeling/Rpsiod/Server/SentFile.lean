import Rpsiod.Server.StaticNames

/-!
# The file that is sent

`send_file_fd` sends the bytes of the file it has been given, those of a precompressed variant that
it opens, or none at all.

* `bodiless_sendFileFd`, `sendFileFd_variant`, `sendFileFd_opened`: `sentName` is the name of the
  file whose bytes are in the body.
* `neverSent_iff`, `neverForwarded_iff`: **what is sent, and what is handed to PHP, over all courses
  of the file system**, in terms of the names that a request leads to.
-/

namespace Rpsiod

open ListSearch

variable {w : World} {site : Site} {req : HttpRequest}

/-! ### The body of `send_file_fd` -/

/-- The answer to a request for a file has a body: it answers no HEAD request, and it is neither a
304 nor a 416. -/
def delivers (w : World) (req : HttpRequest) (st : FileStat) (etag : Option Bytes) : Bool :=
  !req.headOnly &&
    if req.rangePresent then (requestedRange req st.size).isSome
    else !requestCacheValidatorMatches w req st etag

/-- The variants that are tried, with their encodings. -/
def triedVariants (w : World) (site : Site) (req : HttpRequest) (name : Bytes) (st : FileStat)
    (cached : StaticMeta) : List (Bytes × Bytes) :=
  let use := usableEncodings w site 200 (servedMime (some cached) name) name st req
  if req.rangePresent then [] else fileVariants (some cached) name use.1 use.2

/-- The variant that is sent. -/
def sentVariant (w : World) (site : Site) (req : HttpRequest) (name : Bytes) (st : FileStat)
    (cached : StaticMeta) : Option (Bytes × Bytes) :=
  (triedVariants w site req name st cached).find? fun v =>
    (w.openSitePath site v.1).any (·.regular)

/-- The name of the file whose bytes are in the body. -/
def sentName (w : World) (site : Site) (req : HttpRequest) (name : Bytes) (st : FileStat)
    (cached : StaticMeta) : Option Bytes :=
  if delivers w req st (servedEtag (some cached)) then
    some (((sentVariant w site req name st cached).map (·.1)).getD name)
  else none

/-- Nothing is added but heads and log entries. -/
structure Bodiless (f : Trace → Trace × ℤ) : Prop where
  adds : ∀ t, ∃ ev, (f t).1 = t ++ ev ∧ ∀ b, .body b ∉ ev

theorem bodiless_return (rc : ℤ) : Bodiless fun t => (t, rc) :=
  ⟨fun t => ⟨[], (List.append_nil t).symm, fun _ => List.not_mem_nil⟩⟩

theorem Bodiless.logged {f : Trace → Trace × ℤ} (h : Bodiless f) (status : ℤ) (bytes : ℕ)
    (rc : Trace → ℤ) : Bodiless fun t => (logAccess status bytes (f t).1, rc t) := by
  refine ⟨fun t => ?_⟩
  obtain ⟨ev, hev, hbody⟩ := h.adds t
  refine ⟨ev ++ [.logged status bytes], ?_, fun b hb => ?_⟩
  · dsimp only [logAccess]
    rw [hev, List.append_assoc]
  · rcases List.mem_append.mp hb with hb | hb
    · exact hbody b hb
    · exact nomatch List.mem_singleton.mp hb

theorem Bodiless.andThen {f g : Trace → Trace × ℤ} (hf : Bodiless f) (hg : Bodiless g) :
    Bodiless fun t => andThen (f t) g := by
  refine ⟨fun t => ?_⟩
  obtain ⟨ev, hev, hbody⟩ := hf.adds t
  unfold Rpsiod.andThen
  by_cases hfailed : (f t).2 < 0
  · rw [if_pos hfailed]
    exact ⟨ev, hev, hbody⟩
  · rw [if_neg hfailed]
    obtain ⟨more, hmore, hmorebody⟩ := hg.adds (f t).1
    refine ⟨ev ++ more, ?_, fun b hb => ?_⟩
    · rw [hmore, hev, List.append_assoc]
    · rcases List.mem_append.mp hb with hb | hb
      · exact hbody b hb
      · exact hmorebody b hb

theorem bodiless_head (peer : Peer) (head : Bytes) : Bodiless (clientWriteAll peer .head head) := by
  refine ⟨fun t => ?_⟩
  have hhead : ∀ b c : Bytes, Event.body b ∉ [Event.head c] := fun b c hb =>
    nomatch List.mem_singleton.mp hb
  unfold clientWriteAll
  split_ifs
  · exact (bodiless_return _).adds t
  · split
    · exact ⟨_, rfl, fun b => hhead b _⟩
    · exact ⟨_, rfl, fun b => hhead b _⟩

theorem bodiless_writeHead (status : ℤ) (contentType : Bytes) (contentLength : Option ℕ)
    (keepAlive : Bool) (opts : ResponseOptions) :
    Bodiless fun t => w.writeHead status contentType contentLength keepAlive opts t := by
  unfold World.writeHead writeResponseHeaders
  split
  · exact bodiless_return _
  · exact bodiless_head _ _

theorem bodiless_sendHeadOnly (status : ℤ) (contentType : Bytes) (opts : ResponseOptions) :
    Bodiless fun t => sendHeadOnly w status contentType opts req t :=
  (bodiless_writeHead status contentType (some 0) req.keepAlive opts).logged status 0 _

variable {name : Bytes} {file : OpenFile} {cached : StaticMeta}

/-- No body for HEAD. -/
theorem bodiless_sendFileRange (hhead : req.headOnly = true) (mime : Bytes) (etag : Option Bytes) :
    Bodiless fun t => sendFileRange w site mime etag file req t := by
  unfold sendFileRange
  dsimp only
  split
  · exact bodiless_sendHeadOnly ..
  · simp only [hhead, if_true]
    exact (bodiless_writeHead ..).andThen
      ((bodiless_return 0).andThen ((bodiless_return 0).logged _ _ _))

theorem bodiless_sendEncoded (hhead : req.headOnly = true) (status : ℤ) (mime : Bytes)
    (length : ℕ) (opts : ResponseOptions) (body : Trace → Trace × ℤ) :
    Bodiless fun t => sendEncoded w status mime length opts req body t := by
  unfold sendEncoded
  simp only [hhead, Bool.not_true, Bool.and_false, Bool.false_eq_true, if_false]
  exact (bodiless_writeHead status mime (some length) req.keepAlive opts).logged _ _ _

theorem bodiless_sendWholeFile (hhead : req.headOnly = true) (status : ℤ) (mime : Bytes)
    (etag : Option Bytes) :
    Bodiless fun t => sendWholeFile w site status mime etag file req t := by
  unfold sendWholeFile trySmallFile sendPlainFile
  simp only [hhead, Bool.not_true, Bool.false_and, Bool.false_eq_true, if_false, if_true]
  exact (bodiless_writeHead ..).andThen
    ((bodiless_return 0).andThen ((bodiless_return 0).logged _ _ _))

/-- **A HEAD request gets no byte of a file.** -/
theorem bodiless_sendFileFd_head (hhead : req.headOnly = true) (status : ℤ) (path : Bytes)
    (entry : Option StaticMeta) :
    Bodiless fun t => sendFileFd w site status path file entry req t := by
  unfold sendFileFd
  split_ifs
  · exact bodiless_sendHeadOnly ..
  · exact bodiless_sendFileRange hhead ..
  · apply sendFileContent_cases (P := fun _ f => Bodiless f)
    · exact fun v encoding _ => bodiless_sendEncoded hhead ..
    · exact fun c encoding _ => bodiless_sendEncoded hhead ..
    · exact bodiless_sendWholeFile hhead ..

/-- **Without a delivery there is no body.** -/
theorem bodiless_sendFileFd
    (h : delivers w req file.stat (servedEtag (some cached)) = false) :
    Bodiless fun t => sendFileFd w site 200 name file (some cached) req t := by
  unfold delivers at h
  by_cases hhead : req.headOnly = true
  · exact bodiless_sendFileFd_head hhead ..
  · unfold sendFileFd
    simp only [decide_true, Bool.true_and]
    rw [Bool.not_eq_true] at hhead
    rw [hhead, Bool.not_false, Bool.true_and] at h
    by_cases hrange : req.rangePresent = true
    · rw [if_pos hrange, Option.isSome_eq_false_iff, Option.isNone_iff_eq_none] at h
      simp only [hrange, Bool.not_true, Bool.false_and, Bool.false_eq_true, if_false, if_true]
      unfold sendFileRange
      dsimp only
      rw [h]
      exact bodiless_sendHeadOnly ..
    · rw [if_neg hrange, Bool.not_eq_false'] at h
      rw [Bool.not_eq_true] at hrange
      simp only [hrange, h, Bool.not_false, Bool.and_self, if_true]
      exact bodiless_sendHeadOnly ..

theorem openVariant_eq (variants : List (Bytes × Bytes)) :
    openVariant w site variants =
      (variants.find? fun v => (w.openSitePath site v.1).any (·.regular)).bind fun v =>
        (w.openSitePath site v.1).map fun file => (file, v.2) := by
  unfold openVariant
  induction variants with
  | nil => rfl
  | cons v variants ih =>
      rw [List.findSome?_cons, List.find?_cons, ih]
      cases hopen : w.openSitePath site v.1 with
      | none => rfl
      | some file =>
          cases hregular : file.regular with
          | false => simp [hregular]
          | true => simp [hregular, hopen]

/-- The part of `sendFileContent` that sends the opened file, compressed or as it is. -/
def sendOpened (w : World) (site : Site) (mime : Bytes) (etag : Option Bytes) (file : OpenFile)
    (use : Bool × Bool) (req : HttpRequest) (t : Trace) : Trace × ℤ :=
  match if use.1 || use.2 then compressFile w use.1 use.2 file else none with
  | some (compressed, encoding) =>
      sendEncoded w 200 mime compressed.length (encodedOptions site encoding etag file.stat) req
        (clientWriteAll w.peer .body compressed) t
  | none => sendWholeFile w site 200 mime etag file req t

/-- The reply with a file that is delivered whole. -/
theorem sendFileFd_of_delivers (hrange : req.rangePresent = false)
    (h : delivers w req file.stat (servedEtag (some cached)) = true) (t : Trace) :
    sendFileFd w site 200 name file (some cached) req t =
      match openVariant w site (triedVariants w site req name file.stat cached) with
      | some (variant, encoding) =>
          sendEncoded w 200 (servedMime (some cached) name) variant.stat.size
            (encodedOptions site encoding (servedEtag (some cached)) file.stat) req
            (sendFileBody w variant.content 0 variant.stat.size) t
      | none =>
          sendOpened w site (servedMime (some cached) name) (servedEtag (some cached)) file
            (usableEncodings w site 200 (servedMime (some cached) name) name file.stat req)
            req t := by
  unfold delivers at h
  rw [Bool.and_eq_true, hrange, if_neg Bool.false_ne_true] at h
  have hmatch := h.2
  rw [Bool.not_eq_true'] at hmatch
  unfold sendFileFd triedVariants
  simp only [hmatch, hrange, Bool.and_false, Bool.false_eq_true, if_false]
  rfl

theorem sentVariant_opens {st : FileStat} {v : Bytes × Bytes}
    (h : sentVariant w site req name st cached = some v) :
    (w.openSitePath site v.1).any (·.regular) = true := by
  have hregular := List.find?_some h
  exact hregular

/-- **A variant**: the body has the bytes of the file that is opened under its name. -/
theorem sendFileFd_variant {v : Bytes × Bytes}
    (h : delivers w req file.stat (servedEtag (some cached)) = true)
    (hv : sentVariant w site req name file.stat cached = some v) :
    ∃ variant, w.openSitePath site v.1 = some variant ∧ variant.regular = true ∧
      ∀ t, sendFileFd w site 200 name file (some cached) req t =
        sendEncoded w 200 (servedMime (some cached) name) variant.stat.size
          (encodedOptions site v.2 (servedEtag (some cached)) file.stat) req
          (sendFileBody w variant.content 0 variant.stat.size) t := by
  have hopen := sentVariant_opens hv
  cases hsite : w.openSitePath site v.1 with
  | none =>
      rw [hsite] at hopen
      exact nomatch hopen
  | some variant =>
      rw [hsite] at hopen
      have hrange : req.rangePresent = false := by
        by_contra hrange
        rw [Bool.not_eq_false] at hrange
        unfold sentVariant triedVariants at hv
        rw [hrange] at hv
        exact nomatch hv
      refine ⟨variant, rfl, hopen, fun t => ?_⟩
      unfold sentVariant at hv
      rw [sendFileFd_of_delivers hrange h, openVariant_eq, hv, Option.bind_some, hsite]
      rfl

/-- **Otherwise** the answer is made of the file that has been opened, and of no other one. -/
theorem sendFileFd_opened (h : delivers w req file.stat (servedEtag (some cached)) = true)
    (hv : sentVariant w site req name file.stat cached = none) (t : Trace) :
    sendFileFd w site 200 name file (some cached) req t =
      sendFileFd (w.under Tree.bare) site 200 name file (some cached) req t := by
  by_cases hrange : req.rangePresent = true
  · unfold sendFileFd
    simp only [hrange, Bool.not_true, Bool.and_false, Bool.false_and, Bool.false_eq_true,
      if_false, decide_true, Bool.true_and, if_true]
    rfl
  · rw [Bool.not_eq_true] at hrange
    have hbare : ∀ variants, openVariant (w.under Tree.bare) site variants = none := fun variants =>
      List.findSome?_eq_none_iff.mpr fun _ _ => rfl
    unfold sentVariant at hv
    rw [sendFileFd_of_delivers hrange h, openVariant_eq, hv,
      @sendFileFd_of_delivers (w.under Tree.bare) _ _ _ _ _ hrange h, hbare]
    rfl

/-! ### Over all courses -/

/-- The name of the file whose bytes `serve_static` sends.  The configured pages are not below the
document root, and do not count. -/
def sentFile (w : World) (site : Site) (course : Course) (cache : MetaCache) (req : HttpRequest) :
    Option Bytes :=
  match staticAnswer w site course cache req with
  | .sendFileFd _ name file (some cached) =>
      sentName (w.under course.variants) site req name file.stat cached
  | _ => none

/-- `send_php_fpm` gets to the parameters of the request, which name the script. -/
def forwards (w : World) (site : Site) (req : HttpRequest) (script : Bytes) : Bool :=
  (scriptFilename site script).length < 4096 && (scriptName script).length < 4096 &&
    (fcgiParams w.client site req script).isSome

/-- The script that `serve_static` hands to PHP-FPM, relative to the document root. -/
def forwardedScript (w : World) (site : Site) (course : Course) (cache : MetaCache)
    (req : HttpRequest) : Option Bytes :=
  match staticAnswer w site course cache req with
  | .sendPhpFpm script =>
      if forwards w site req script then some (cleanScript script) else none
  | _ => none

theorem servedEtag_staticMetaGet (entry : MetaEntry name) (st : FileStat) :
    servedEtag (some (staticMetaGet site entry st)) = some (fileEtag st) := by
  have hne : fileEtag st ≠ [] := by
    unfold fileEtag
    exact List.append_ne_nil_of_right_ne_nil _ (by decide)
  unfold servedEtag staticMetaGet
  rw [Option.map_some]
  exact Option.filter_eq_some_iff.mpr ⟨rfl, decide_eq_true hne⟩

/-- Bytes of some file are sent to this request. -/
def CanDeliver (w : World) (req : HttpRequest) : Prop :=
  ∃ st : FileStat, delivers w req st (some (fileEtag st)) = true

/-- A variant that is opened for some file of this name, with some entry of the metadata cache. -/
structure IsVariant (w : World) (site : Site) (req : HttpRequest) (name variant : Bytes)
    (st : FileStat) (entry : MetaEntry name) : Prop where
  delivers : delivers w req st (some (fileEtag st)) = true
  unblocked : (staticMetaGet site entry st).blocked = false
  tried : ∃ encoding, (variant, encoding) ∈
    triedVariants w site req name st (staticMetaGet site entry st)
  isFile : IsFileName variant

/-- A name without a slash in front. -/
theorem selectedPath_unblocked (hname : IsFileName name)
    (h : selectedPathBlockedDirectAccess site name = false) :
    (47 :: name).length < 4096 ∧ blockedDirectAccess site (47 :: name) = false := by
  unfold selectedPathBlockedDirectAccess at h
  dsimp only at h
  rw [if_neg hname.1, Bool.or_eq_false_iff, decide_eq_false_iff_not, not_le] at h
  exact h

/-- A selected name without a question mark is copied whole. -/
theorem copiedName_eq (hname : IsFileName name)
    (h : selectedPathBlockedDirectAccess site name = false) (hquery : 63 ∉ name) :
    (safeCopy 4096 name).takeWhile (· ≠ 63) = name := by
  have hlength := (selectedPath_unblocked hname h).1
  rw [List.length_cons] at hlength
  unfold safeCopy
  rw [List.take_of_length_le (by omega), List.takeWhile_eq_self_iff]
  intro c hc
  exact decide_eq_true fun hquestion => hquery (hquestion ▸ hc)

theorem freshEntry_unblocked (hname : IsFileName name)
    (h : selectedPathBlockedDirectAccess site name = false) (st : FileStat) :
    (staticMetaGet site (freshEntry name) st).blocked = false := by
  unfold staticMetaGet freshEntry
  dsimp only
  rw [(selectedPath_unblocked hname h).2, Bool.and_false]

theorem isFileName_of_openFile {tree : Tree} (h : (tree.openFile name).any (·.regular) = true) :
    IsFileName name := by
  unfold Tree.openFile at h
  cases hlookup : tree.lookup name with
  | missing errno =>
      rw [hlookup] at h
      exact nomatch h
  | directory =>
      rw [hlookup] at h
      exact nomatch h
  | file file =>
      rw [hlookup] at h
      exact tree.named name file hlookup h

/-- The file that is opened is sent, if there is no variant. -/
theorem sentName_bare {st : FileStat} (h : delivers w req st (servedEtag (some cached)) = true) :
    sentName (w.under Tree.bare) site req name st cached = some name := by
  have hnone : sentVariant (w.under Tree.bare) site req name st cached = none :=
    List.find?_eq_none.mpr fun _ _ => Bool.false_ne_true
  unfold sentName
  rw [hnone]
  exact if_pos h

/-- Each variant that is tried can be the one that is there. -/
theorem sentName_only {st : FileStat} {variant encoding : Bytes}
    (h : delivers w req st (servedEtag (some cached)) = true)
    (htried : (variant, encoding) ∈ triedVariants w site req name st cached)
    (hvariant : IsFileName variant) :
    sentName (w.under (Tree.only variant emptyFile [] hvariant)) site req name st cached =
      some variant := by
  have honly : ∀ other, ((Tree.only variant emptyFile [] hvariant).openFile other).any
      (·.regular) = decide (other = variant) := by
    intro other
    unfold Tree.openFile Tree.only
    dsimp only
    by_cases hother : other = variant
    · rw [if_pos hother, decide_eq_true hother]
      rfl
    · rw [if_neg hother, decide_eq_false hother]
      split_ifs <;> rfl
  set w' := w.under (Tree.only variant emptyFile [] hvariant)
  have hfind : sentVariant w' site req name st cached =
      (triedVariants w site req name st cached).find? fun v => decide (v.1 = variant) :=
    List.find?_congr fun v _ => honly v.1
  unfold sentName
  rw [hfind]
  cases hsome : (triedVariants w site req name st cached).find? fun v =>
      decide (v.1 = variant) with
  | none => exact absurd (decide_eq_true rfl) (List.find?_eq_none.mp hsome _ htried)
  | some v =>
      have hv : decide (v.1 = variant) = true :=
        @List.find?_some _ (fun v : Bytes × Bytes => decide (v.1 = variant)) _ _ hsome
      exact (if_pos h).trans (congrArg some (of_decide_eq_true hv))

/-- What is sent is the name that was selected, or a variant of it. -/
theorem sentName_eq_some {tree : Tree} {st : FileStat} {entry : MetaEntry name} {sent : Bytes}
    (hunblocked : (staticMetaGet site entry st).blocked = false)
    (h : sentName (w.under tree) site req name st (staticMetaGet site entry st) = some sent) :
    (sent = name ∧ CanDeliver w req) ∨ IsVariant w site req name sent st entry := by
  unfold sentName at h
  rw [servedEtag_staticMetaGet] at h
  split_ifs at h with hdelivers
  cases hfind : sentVariant (w.under tree) site req name st (staticMetaGet site entry st) with
  | none =>
      rw [hfind] at h
      exact Or.inl ⟨(Option.some.inj h).symm, st, hdelivers⟩
  | some v =>
      rw [hfind] at h
      obtain rfl : v.1 = sent := Option.some.inj h
      have hopen : (tree.openFile v.1).any (·.regular) = true := sentVariant_opens hfind
      exact Or.inr ⟨hdelivers, hunblocked, ⟨v.2, List.mem_of_find?_eq_some hfind⟩,
        isFileName_of_openFile hopen⟩

/-- **What is sent over all courses**: a file under the name that was selected, or a variant of
it. -/
theorem neverSent_iff {bad : Bytes → Prop} :
    (∀ course cache sent, sentFile w site course cache req = some sent → ¬ bad sent) ↔
      ∀ name, Reaches site req name → SentAsFile site req name →
        (CanDeliver w req → ¬ bad name) ∧
        ∀ variant st entry, IsVariant w site req name variant st entry → ¬ bad variant := by
  constructor
  · intro hnever name hreaches hsent
    obtain ⟨-, -, -, hname⟩ := id hreaches
    constructor
    · rintro ⟨st, hdelivers⟩
      obtain ⟨course, hvariants, hanswer⟩ :=
        @exists_course_sent site freshEntry req name ⟨st, true, []⟩ hreaches hsent rfl
          (freshEntry_unblocked hname hsent.unblocked st) Tree.bare
      refine hnever course freshEntry name ?_
      unfold sentFile
      rw [hanswer, hvariants]
      exact sentName_bare (by rw [servedEtag_staticMetaGet]; exact hdelivers)
    · rintro variant st entry hvariant
      obtain ⟨encoding, htried⟩ := hvariant.tried
      have hentry : Function.update freshEntry name entry name = entry :=
        Function.update_self name entry freshEntry
      obtain ⟨course, hvariants, hanswer⟩ :=
        @exists_course_sent site (Function.update freshEntry name entry) req name ⟨st, true, []⟩
          hreaches hsent rfl (by rw [hentry]; exact hvariant.unblocked)
          (Tree.only variant emptyFile [] hvariant.isFile)
      refine hnever course (Function.update freshEntry name entry) variant ?_
      unfold sentFile
      rw [hanswer, hvariants, hentry]
      exact sentName_only (by rw [servedEtag_staticMetaGet]; exact hvariant.delivers) htried
        hvariant.isFile
  · intro hall course cache sent hsent
    unfold sentFile at hsent
    split at hsent
    · rename_i status name file cached hanswer
      obtain ⟨-, hreaches, hfile, -, rfl, hunblocked⟩ := sent_of_staticAnswer hanswer
      obtain ⟨hnot, hnotVariant⟩ := hall name hreaches hfile
      rcases sentName_eq_some hunblocked hsent with ⟨rfl, hdeliver⟩ | hvariant
      · exact hnot hdeliver
      · exact hnotVariant _ _ _ hvariant
    · exact nomatch hsent

/-- **What is handed to PHP over all courses.** -/
theorem neverForwarded_iff {bad : Bytes → Prop} :
    (∀ course cache script, forwardedScript w site course cache req = some script →
        ¬ bad script) ↔
      ∀ name, Reaches site req name → HandedToPhp site req name →
        forwards w site req name = true → ¬ bad (cleanScript name) := by
  unfold forwardedScript
  constructor
  · intro hnever name hreaches hphp hforwards
    obtain ⟨course, hanswer⟩ := exists_course_forwarded hreaches hphp
    refine hnever course freshEntry (cleanScript name) ?_
    rw [hanswer]
    exact if_pos hforwards
  · intro hall course cache script hscript
    split at hscript
    · rename_i name hanswer
      obtain ⟨hreaches, hphp⟩ := forwarded_of_staticAnswer hanswer
      split_ifs at hscript with hforwards
      obtain rfl := Option.some.inj hscript
      exact hall name hreaches hphp hforwards
    · exact nomatch hscript

end Rpsiod

import Rpsiod.Server.Static

/-!
# The names a request can lead to

Which name is selected depends on the file system.  Over all courses, the names that can be
selected are a list, and what happens with the selected name depends on the name alone.

* `sent_of_staticAnswer`, `forwarded_of_staticAnswer`: what has become of the request whose answer is
  a file or a script.
* `exists_course_sent`, `exists_course_forwarded`: **each of these names is selected in some
  course**.
-/

namespace Rpsiod

open ListSearch

/-! ### Opening a name -/

/-- The names that `try_open_static` tries. -/
def triedNames (site : Site) (requestPath : Bytes) : List Bytes :=
  let rel := staticRelativeRequestPath requestPath
  earlyNames site rel ++ lateNames site rel ++ [rel]

theorem openFirst_eq_some {tree : Tree} {names : List Bytes} {name : Bytes} {file : OpenFile}
    (h : openFirst tree names = some (name, file)) :
    name ∈ names ∧ tree.lookup name = .file file ∧ file.regular = true := by
  unfold openFirst at h
  obtain ⟨other, hmem, hopen⟩ := List.exists_of_findSome?_eq_some h
  cases hlookup : tree.lookup other with
  | missing errno =>
      rw [hlookup] at hopen
      exact nomatch hopen
  | directory =>
      rw [hlookup] at hopen
      exact nomatch hopen
  | file found =>
      rw [hlookup] at hopen
      dsimp only at hopen
      split_ifs at hopen with hregular
      obtain ⟨rfl, rfl⟩ := Prod.mk.inj (Option.some.inj hopen)
      exact ⟨hmem, hlookup, hregular⟩

/-- Only a regular file is selected, under one of the names. -/
theorem tryOpenStatic_ok {tree : Tree} {site : Site} {requestPath name : Bytes} {file : OpenFile}
    (h : tryOpenStatic tree site requestPath = .ok (name, file)) :
    name ∈ triedNames site requestPath ∧ IsFileName name ∧ file.regular = true := by
  have hnamed : name ∈ triedNames site requestPath ∧ tree.lookup name = .file file ∧
      file.regular = true := by
    unfold tryOpenStatic at h
    unfold triedNames
    dsimp only at h ⊢
    set rel := staticRelativeRequestPath requestPath
    cases hearly : openFirst tree (earlyNames site rel) with
    | some opened =>
        rw [hearly] at h
        obtain rfl := Except.ok.inj h
        obtain ⟨hmem, hfile⟩ := openFirst_eq_some hearly
        exact ⟨List.mem_append_left _ (List.mem_append_left _ hmem), hfile⟩
    | none =>
        rw [hearly] at h
        dsimp only at h
        cases hlookup : tree.lookup rel with
        | missing errno =>
            rw [hlookup] at h
            exact nomatch h
        | directory =>
            rw [hlookup] at h
            dsimp only at h
            cases hlate : openFirst tree (lateNames site rel) with
            | none =>
                rw [hlate] at h
                exact nomatch h
            | some opened =>
                rw [hlate] at h
                obtain rfl := Except.ok.inj h
                obtain ⟨hmem, hfile⟩ := openFirst_eq_some hlate
                exact ⟨List.mem_append_left _ (List.mem_append_right _ hmem), hfile⟩
        | file found =>
            rw [hlookup] at h
            dsimp only at h
            split_ifs at h with hregular
            obtain ⟨rfl, rfl⟩ := Prod.mk.inj (Except.ok.inj h)
            exact ⟨List.mem_append_right _ (List.mem_singleton_self _), hlookup, hregular⟩
  exact ⟨hnamed.1, tree.named name file hnamed.2.1 hnamed.2.2, hnamed.2.2⟩

/-- One file, and one directory. -/
def Tree.only (name : Bytes) (file : OpenFile) (directory : Bytes) (h : IsFileName name) : Tree where
  lookup other :=
    if other = name then .file file
    else if other = directory then .directory
    else .missing .enoent
  named := by
    intro other found hlookup _
    split_ifs at hlookup with hname
    exact hname ▸ h

theorem openFirst_only {name directory : Bytes} {file : OpenFile} (h : IsFileName name)
    (hregular : file.regular = true) (names : List Bytes) :
    openFirst (Tree.only name file directory h) names =
      if name ∈ names then some (name, file) else none := by
  unfold openFirst
  induction names with
  | nil => rfl
  | cons other names ih =>
      rw [List.findSome?_cons, ih]
      unfold Tree.only
      dsimp only
      by_cases hother : other = name
      · subst hother
        rw [if_pos rfl, if_pos List.mem_cons_self]
        dsimp only
        rw [if_pos hregular]
      · rw [if_neg hother]
        have hmem : name ∈ other :: names ↔ name ∈ names := by
          rw [List.mem_cons, or_iff_right (Ne.symm hother)]
        simp only [hmem]
        split_ifs <;> rfl

/-- **Every name that is tried can be the one that is selected.** -/
theorem tryOpenStatic_only {site : Site} {requestPath name : Bytes} {file : OpenFile}
    (hmem : name ∈ triedNames site requestPath) (h : IsFileName name)
    (hregular : file.regular = true) :
    tryOpenStatic (Tree.only name file (staticRelativeRequestPath requestPath) h) site
      requestPath = .ok (name, file) := by
  unfold triedNames at hmem
  unfold tryOpenStatic
  dsimp only at hmem ⊢
  set rel := staticRelativeRequestPath requestPath
  rw [openFirst_only h hregular, openFirst_only h hregular]
  by_cases hearly : name ∈ earlyNames site rel
  · rw [if_pos hearly]
  · rw [if_neg hearly]
    dsimp only
    by_cases hrel : rel = name
    · have hlookup : (Tree.only name file rel h).lookup rel = .file file := if_pos hrel
      rw [hlookup]
      dsimp only
      rw [if_pos hregular, hrel]
    · have hlookup : (Tree.only name file rel h).lookup rel = .directory :=
        (if_neg hrel).trans (if_pos rfl)
      have hlate : name ∈ lateNames site rel := by
        rcases List.mem_append.mp hmem with hmem | hmem
        · exact (List.mem_append.mp hmem).resolve_left hearly
        · exact absurd (List.mem_singleton.mp hmem).symm hrel
      rw [hlookup]
      dsimp only
      rw [if_pos hlate]

theorem openFirst_bare (names : List Bytes) : openFirst Tree.bare names = none := by
  unfold openFirst
  rw [List.findSome?_eq_none_iff]
  exact fun _ _ => rfl

theorem tryOpenStatic_bare (site : Site) (requestPath : Bytes) :
    tryOpenStatic Tree.bare site requestPath = .error .enoent := by
  unfold tryOpenStatic
  dsimp only
  rw [openFirst_bare]
  rfl

/-! ### The names of a request -/

/-- The request gets as far as the file system. -/
structure Admitted (site : Site) (req : HttpRequest) (decoded : Bytes) : Prop where
  open_ : site.maintenanceEnabled = false
  method : site.allowsMethod req.method = true
  decodes : percentDecodePath req.path pathLen = some decoded
  segments : pathHasForbiddenSegment decoded = false
  unblocked : blockedDirectAccess site decoded = false

/-- The names that a request can lead to. -/
def requestNames (site : Site) (decoded : Bytes) : List Bytes :=
  if site.routingType = .php then triedNames site (phpTarget site decoded)
  else
    triedNames site decoded ++
      if site.fallback.bytes ≠ [] && decoded ≠ ascii "/" then
        triedNames site site.fallback.bytes
      else []

/-- The file system can have a file that the request leads to under this name. -/
def Reaches (site : Site) (req : HttpRequest) (name : Bytes) : Prop :=
  ∃ decoded, Admitted site req decoded ∧ name ∈ requestNames site decoded ∧ IsFileName name

/-- The selected name is handed to PHP. -/
structure HandedToPhp (site : Site) (req : HttpRequest) (name : Bytes) : Prop where
  runs : site.routingType = .php ∨ site.phpEnabled = true
  unblocked : selectedPathBlockedDirectAccess site name = false
  isPhp : phpPathIsPhp name = true
  size : req.contentLength ≤ site.phpMaxBodySize

/-- The selected name is sent as a file. -/
structure SentAsFile (site : Site) (req : HttpRequest) (name : Bytes) : Prop where
  routing : site.routingType ≠ .php
  unblocked : selectedPathBlockedDirectAccess site name = false
  notPhp : (site.phpEnabled && phpPathIsPhp name) = false
  method : (streqCi req.method (ascii "GET") || streqCi req.method (ascii "HEAD")) = true
  notSource : phpPathIsSourceLike name = false

variable {w : World} {site : Site} {course : Course} {cache : MetaCache} {req : HttpRequest}
  {decoded name : Bytes} {file : OpenFile}

/-! ### From the answer to the name -/

theorem openRequested_ok (hrouting : site.routingType ≠ .php)
    (h : openRequested site course decoded = .ok (name, file)) :
    name ∈ requestNames site decoded ∧ IsFileName name ∧ file.regular = true := by
  unfold openRequested at h
  unfold requestNames
  rw [if_neg hrouting]
  cases hfirst : tryOpenStatic course.request site decoded with
  | ok opened =>
      rw [hfirst] at h
      obtain rfl := Except.ok.inj h
      obtain ⟨hmem, hfile⟩ := tryOpenStatic_ok hfirst
      exact ⟨List.mem_append_left _ hmem, hfile⟩
  | error errno =>
      rw [hfirst] at h
      dsimp only at h
      split_ifs at h with hfallback
      obtain ⟨hmem, hfile⟩ := tryOpenStatic_ok h
      simp only [Bool.and_eq_true] at hfallback
      rw [if_pos (Bool.and_eq_true_iff.mpr ⟨hfallback.1.1, hfallback.2⟩)]
      exact ⟨List.mem_append_right _ hmem, hfile⟩

/-- The answer is a file below the document root, or a script. -/
def StaticResponder.opens : StaticResponder → Bool
  | .sendErrorPage _ => false
  | .sendFileFd _ _ _ cached => cached.isSome
  | .redirectDirectorySlash => false
  | .sendPhpFpm _ => true

theorem serveMaintenance_opens (w : World) (site : Site) :
    (serveMaintenance w site).opens = false := by
  unfold serveMaintenance
  split
  · split_ifs <;> rfl
  · rfl

theorem admitted_of_staticAnswer {answer : StaticResponder}
    (h : staticAnswer w site course cache req = answer) (hopens : answer.opens = true) :
    ∃ decoded, Admitted site req decoded ∧ serveDecoded site course cache req decoded = answer := by
  unfold staticAnswer at h
  split_ifs at h with hmaintenance hmethod
  · rw [← h, serveMaintenance_opens] at hopens
    exact nomatch hopens
  · rw [← h] at hopens
    exact nomatch hopens
  · cases hdecode : percentDecodePath req.path pathLen with
    | none =>
        rw [hdecode] at h
        rw [← h] at hopens
        exact nomatch hopens
    | some decoded =>
        rw [hdecode] at h
        dsimp only at h
        split_ifs at h with hsegments hblocked hdirectory
        · rw [← h] at hopens
          exact nomatch hopens
        · rw [← h] at hopens
          exact nomatch hopens
        · rw [← h] at hopens
          exact nomatch hopens
        · refine ⟨decoded, ⟨?_, ?_, hdecode, ?_, ?_⟩, h⟩
          · exact Bool.eq_false_of_not_eq_true hmaintenance
          · simpa using hmethod
          · exact Bool.eq_false_of_not_eq_true hsegments
          · exact Bool.eq_false_of_not_eq_true hblocked

/-- A script has got through the tests of `serve_static`. -/
theorem servePhp_eq_sendPhpFpm {selected : Bytes}
    (h : servePhp site req selected = .sendPhpFpm name) :
    selected = name ∧ req.contentLength ≤ site.phpMaxBodySize := by
  unfold servePhp at h
  split_ifs at h with hsize
  exact ⟨StaticResponder.sendPhpFpm.inj h, not_lt.mp hsize⟩

theorem servePhpRouting_forwards (hrouting : site.routingType = .php)
    (h : servePhpRouting site course req decoded = .sendPhpFpm name) :
    name ∈ requestNames site decoded ∧ IsFileName name ∧ HandedToPhp site req name := by
  unfold servePhpRouting at h
  cases hopen : tryOpenStatic course.request site (phpTarget site decoded) with
  | error errno =>
      rw [hopen] at h
      exact nomatch h
  | ok opened =>
      obtain ⟨selected, file⟩ := opened
      rw [hopen] at h
      dsimp only at h
      split_ifs at h with hblocked hphp
      obtain ⟨rfl, hsize⟩ := servePhp_eq_sendPhpFpm h
      obtain ⟨hmem, hfile, -⟩ := tryOpenStatic_ok hopen
      unfold requestNames
      rw [if_pos hrouting]
      refine ⟨hmem, hfile, Or.inl hrouting, ?_, ?_, hsize⟩
      · exact Bool.eq_false_of_not_eq_true hblocked
      · simpa using hphp

/-- The tests that `serve_static` makes of a file. -/
theorem serveFiles_opens {answer : StaticResponder} (hrouting : site.routingType ≠ .php)
    (h : serveFiles site course cache req decoded = answer) (hopens : answer.opens = true) :
    ∃ name file, openRequested site course decoded = .ok (name, file) ∧
      ((HandedToPhp site req name ∧ answer = .sendPhpFpm name) ∨
        (SentAsFile site req name ∧ (staticMetaGet site (cache name) file.stat).blocked = false ∧
          answer = .sendFileFd 200 name file (some (staticMetaGet site (cache name) file.stat)))) := by
  unfold serveFiles at h
  cases hopen : openRequested site course decoded with
  | error errno =>
      rw [hopen] at h
      rw [← h] at hopens
      exact nomatch hopens
  | ok opened =>
      obtain ⟨name, file⟩ := opened
      rw [hopen] at h
      dsimp only at h
      refine ⟨name, file, rfl, ?_⟩
      split_ifs at h with hblocked hphp hmethod hsource hmeta
      · rw [← h] at hopens
        exact nomatch hopens
      · left
        rw [Bool.and_eq_true] at hphp
        unfold servePhp at h
        split_ifs at h with hsize
        · rw [← h] at hopens
          exact nomatch hopens
        · exact ⟨⟨Or.inr hphp.1, Bool.eq_false_of_not_eq_true hblocked, hphp.2, not_lt.mp hsize⟩,
            h.symm⟩
      · rw [← h] at hopens
        exact nomatch hopens
      · rw [← h] at hopens
        exact nomatch hopens
      · rw [← h] at hopens
        exact nomatch hopens
      · right
        refine ⟨⟨hrouting, ?_, ?_, ?_, ?_⟩, ?_, h.symm⟩
        · exact Bool.eq_false_of_not_eq_true hblocked
        · exact Bool.eq_false_of_not_eq_true hphp
        · rw [← Bool.not_or, Bool.not_eq_true', Bool.not_eq_false] at hmethod
          exact hmethod
        · exact Bool.eq_false_of_not_eq_true hsource
        · exact Bool.eq_false_of_not_eq_true hmeta

/-- What `serve_static` has seen of a file that it sends. -/
structure SentFile (site : Site) (cache : MetaCache) (req : HttpRequest) (status : ℤ)
    (name : Bytes) (file : OpenFile) (cached : StaticMeta) : Prop where
  status : status = 200
  reaches : Reaches site req name
  sent : SentAsFile site req name
  regular : file.regular = true
  entry : cached = staticMetaGet site (cache name) file.stat
  unblocked : cached.blocked = false

/-- **Where a file comes from.** -/
theorem sent_of_staticAnswer {status : ℤ} {cached : StaticMeta}
    (h : staticAnswer w site course cache req = .sendFileFd status name file (some cached)) :
    SentFile site cache req status name file cached := by
  obtain ⟨decoded, hadmitted, hserve⟩ := admitted_of_staticAnswer h rfl
  unfold serveDecoded at hserve
  split_ifs at hserve with hrouting
  · unfold servePhpRouting at hserve
    split at hserve
    · exact nomatch hserve
    · split_ifs at hserve
      unfold servePhp at hserve
      split_ifs at hserve
  · obtain ⟨name', file', hopen, ⟨-, h⟩ | ⟨hsent, hunblocked, h⟩⟩ :=
      serveFiles_opens hrouting hserve rfl
    · exact nomatch h
    · obtain ⟨rfl, rfl, rfl, hcached⟩ := StaticResponder.sendFileFd.inj h
      obtain rfl := Option.some.inj hcached
      obtain ⟨hmem, hfile, hregular⟩ := openRequested_ok hrouting hopen
      exact ⟨rfl, ⟨decoded, hadmitted, hmem, hfile⟩, hsent, hregular, rfl, hunblocked⟩

/-- **Where a script comes from.** -/
theorem forwarded_of_staticAnswer
    (h : staticAnswer w site course cache req = .sendPhpFpm name) :
    Reaches site req name ∧ HandedToPhp site req name := by
  obtain ⟨decoded, hadmitted, hserve⟩ := admitted_of_staticAnswer h rfl
  unfold serveDecoded at hserve
  split_ifs at hserve with hrouting
  · obtain ⟨hmem, hfile, hphp⟩ := servePhpRouting_forwards hrouting hserve
    exact ⟨⟨decoded, hadmitted, hmem, hfile⟩, hphp⟩
  · obtain ⟨name', file', hopen, ⟨hphp, h⟩ | ⟨-, -, h⟩⟩ := serveFiles_opens hrouting hserve rfl
    · obtain rfl := StaticResponder.sendPhpFpm.inj h
      obtain ⟨hmem, hfile, -⟩ := openRequested_ok hrouting hopen
      exact ⟨⟨decoded, hadmitted, hmem, hfile⟩, hphp⟩
    · exact nomatch h

/-! ### From the name to the answer -/

theorem staticAnswer_of_admitted (h : Admitted site req decoded)
    (hdirectory : sitePathIsDirectory course.check decoded = false) :
    staticAnswer w site course cache req = serveDecoded site course cache req decoded := by
  unfold staticAnswer
  rw [h.open_, h.method, h.decodes]
  simp only [h.segments, h.unblocked, hdirectory, Bool.not_true, Bool.and_false,
    Bool.false_eq_true, if_false]

/-- Trees in which this is the file that is opened. -/
theorem exists_openRequested (hrouting : site.routingType ≠ .php)
    (hmem : name ∈ requestNames site decoded) (hname : IsFileName name)
    (hregular : file.regular = true) :
    ∃ request fallback, ∀ check variants,
      openRequested site ⟨check, request, fallback, variants⟩ decoded = .ok (name, file) := by
  unfold requestNames at hmem
  rw [if_neg hrouting, List.mem_append] at hmem
  unfold openRequested
  rcases hmem with hmem | hmem
  · refine ⟨Tree.only name file (staticRelativeRequestPath decoded) hname, Tree.bare,
      fun check variants => ?_⟩
    dsimp only
    rw [tryOpenStatic_only hmem hname hregular]
  · split_ifs at hmem with hfallback
    · refine ⟨Tree.bare,
        Tree.only name file (staticRelativeRequestPath site.fallback.bytes) hname,
        fun check variants => ?_⟩
      rw [Bool.and_eq_true] at hfallback
      dsimp only
      rw [tryOpenStatic_bare]
      dsimp only
      rw [if_pos (by simp only [hfallback.1, hfallback.2, decide_true, Bool.and_true]),
        tryOpenStatic_only hmem hname hregular]
    · exact absurd hmem List.not_mem_nil

/-- An empty file. -/
def emptyFile : OpenFile := ⟨⟨0, 0, 0⟩, true, []⟩

theorem sitePathIsDirectory_bare (decoded : Bytes) :
    sitePathIsDirectory Tree.bare decoded = false := rfl

/-- **Each name that is sent as a file is sent in some course**, whatever the variants. -/
theorem exists_course_sent (hreaches : Reaches site req name) (hsent : SentAsFile site req name)
    (hregular : file.regular = true)
    (hunblocked : (staticMetaGet site (cache name) file.stat).blocked = false) (variants : Tree) :
    ∃ course : Course, course.variants = variants ∧ ∀ w, staticAnswer w site course cache req =
      .sendFileFd 200 name file (some (staticMetaGet site (cache name) file.stat)) := by
  obtain ⟨decoded, hadmitted, hmem, hname⟩ := hreaches
  obtain ⟨request, fallback, hopen⟩ := exists_openRequested hsent.routing hmem hname hregular
  refine ⟨⟨Tree.bare, request, fallback, variants⟩, rfl, fun w => ?_⟩
  rw [staticAnswer_of_admitted hadmitted (sitePathIsDirectory_bare decoded)]
  unfold serveDecoded serveFiles
  rw [if_neg hsent.routing, hopen]
  have hmethod : (!streqCi req.method (ascii "GET") && !streqCi req.method (ascii "HEAD")) = false := by
    rw [← Bool.not_or, hsent.method]
    rfl
  simp only [hsent.unblocked, hsent.notPhp, hmethod, hsent.notSource, hunblocked,
    Bool.false_eq_true, if_false]

/-- **Each name that is handed to PHP is handed to it in some course.** -/
theorem exists_course_forwarded (hreaches : Reaches site req name)
    (hphp : HandedToPhp site req name) :
    ∃ course : Course, ∀ w cache, staticAnswer w site course cache req = .sendPhpFpm name := by
  obtain ⟨decoded, hadmitted, hmem, hname⟩ := hreaches
  have hserve : servePhp site req name = .sendPhpFpm name := if_neg (not_lt.mpr hphp.size)
  by_cases hrouting : site.routingType = .php
  · unfold requestNames at hmem
    rw [if_pos hrouting] at hmem
    have hopen := @tryOpenStatic_only site (phpTarget site decoded) name emptyFile hmem hname rfl
    refine ⟨⟨Tree.bare, Tree.only name emptyFile
      (staticRelativeRequestPath (phpTarget site decoded)) hname, Tree.bare, Tree.bare⟩,
      fun w cache => ?_⟩
    rw [staticAnswer_of_admitted hadmitted (sitePathIsDirectory_bare decoded)]
    unfold serveDecoded servePhpRouting
    rw [if_pos hrouting, hopen]
    simp only [hphp.unblocked, hphp.isPhp, Bool.not_true, Bool.false_eq_true, if_false, hserve]
  · obtain ⟨request, fallback, hopen⟩ :=
      @exists_openRequested site decoded name emptyFile hrouting hmem hname rfl
    refine ⟨⟨Tree.bare, request, fallback, Tree.bare⟩, fun w cache => ?_⟩
    rw [staticAnswer_of_admitted hadmitted (sitePathIsDirectory_bare decoded)]
    unfold serveDecoded serveFiles
    rw [if_neg hrouting, hopen]
    simp only [hphp.unblocked, hphp.runs.resolve_left hrouting, hphp.isPhp, Bool.and_self,
      Bool.false_eq_true, if_false, if_true, hserve]

end Rpsiod

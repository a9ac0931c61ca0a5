import Rpsiod.Server.Decoding
import Rpsiod.Server.StaticNames

/-!
# What is opened for a request path

The path of a request is decoded once, and what is opened is named by the decoded path, with text of
the configuration behind it.

* `askedNames`: the names below the document root that `serve_static` can open, with the part of
  each that the request has chosen.
* `serveStatic_congr`: no other name has an influence.
* `requestPath_safe`: **nothing above the document root is opened for a request**.
-/

namespace Rpsiod

open Segments FastCgi

/-! ### The names that are opened -/

/-- A name below the document root: what the request has chosen of it, and the text of the
configuration behind that. -/
structure AskedName where
  fromRequest : Bytes
  fromSite : Bytes

/-- The name itself. -/
def AskedName.name (asked : AskedName) : Bytes := asked.fromRequest ++ asked.fromSite

/-- The name with more text of the configuration behind it. -/
def AskedName.followedBy (asked : AskedName) (text : Bytes) : AskedName :=
  ⟨asked.fromRequest, asked.fromSite ++ text⟩

/-- The root itself, in front of the name of an index file. -/
def AskedName.empty : AskedName := ⟨[], []⟩

/-- The index files in a directory: `indexNames`. -/
def askedIndexes (site : Site) (directory : AskedName) : List AskedName :=
  (site.indexes.map fun index => directory.followedBy index.bytes).filter fun asked =>
    asked.name.length < 4096

/-- What `try_open_static` opens: `triedNames`. -/
def askedTries (site : Site) (rel : AskedName) : List AskedName :=
  (if rel.name = ascii "." || rel.name.getLast? = some 47 then
    askedIndexes site (if rel.name = ascii "." then .empty else rel)
  else []) ++
  askedIndexes site (if rel.name = ascii "." then .empty else rel.followedBy (ascii "/")) ++ [rel]

/-- The path of a request as a name. -/
def requestedName (decoded : Bytes) : AskedName := ⟨staticRelativeRequestPath decoded, []⟩

/-- A path of the configuration as a name. -/
def configuredName (path : Bytes) : AskedName := ⟨[], staticRelativeRequestPath path⟩

/-- What is opened to select a file: `requestNames`. -/
def askedForFile (site : Site) (decoded : Bytes) : List AskedName :=
  if site.routingType = .php then
    askedTries site
      (if phpPathIsPhp decoded then requestedName decoded
      else configuredName (phpTarget site decoded))
  else
    askedTries site (requestedName decoded) ++
      if site.fallback.bytes ≠ [] && decoded ≠ ascii "/" then
        askedTries site (configuredName site.fallback.bytes)
      else []

/-- The precompressed variants of a file, which `static_meta_store` and `send_file_fd` open. -/
def AskedName.variants (asked : AskedName) : List AskedName :=
  [asked.followedBy (ascii ".br"), asked.followedBy (ascii ".gz")]

/-- What is opened for a path that has passed the tests. -/
def askedForPath (site : Site) (req : HttpRequest) (decoded : Bytes) : List AskedName :=
  (if requestPathHasTrailingSlash req.path then [] else [requestedName decoded]) ++
    askedForFile site decoded ++ (askedForFile site decoded).flatMap AskedName.variants

/-- What is opened below the document root of a site in maintenance: the variants of its pages. -/
def askedForPages (site : Site) : List AskedName :=
  ([⟨[], site.maintenancePage.bytes⟩,
    ⟨[], (site.errorPage site.maintenanceStatus).getD []⟩] : List AskedName).flatMap
      AskedName.variants

/-- The names that `serve_static` can open below the document root, whatever the file system
answers. -/
def askedNames (site : Site) (req : HttpRequest) : List AskedName :=
  if site.maintenanceEnabled then askedForPages site
  else if !site.allowsMethod req.method then []
  else
    match percentDecodePath req.path pathLen with
    | none => []
    | some decoded =>
        if pathHasForbiddenSegment decoded then []
        else if blockedDirectAccess site decoded then []
        else askedForPath site req decoded

@[simp] theorem AskedName.name_followedBy (asked : AskedName) (text : Bytes) :
    (asked.followedBy text).name = asked.name ++ text :=
  (List.append_assoc _ _ _).symm

@[simp] theorem AskedName.name_empty : AskedName.empty.name = [] := rfl

@[simp] theorem name_requestedName (decoded : Bytes) :
    (requestedName decoded).name = staticRelativeRequestPath decoded :=
  List.append_nil _

@[simp] theorem name_configuredName (path : Bytes) :
    (configuredName path).name = staticRelativeRequestPath path := rfl

theorem map_name_askedIndexes (site : Site) (directory : AskedName) :
    (askedIndexes site directory).map AskedName.name = indexNames site directory.name := by
  unfold askedIndexes indexNames
  simp only [List.filter_map, List.map_map, Function.comp_def, AskedName.name_followedBy]

theorem map_name_askedTries {site : Site} {rel : AskedName} {path : Bytes}
    (h : rel.name = staticRelativeRequestPath path) :
    (askedTries site rel).map AskedName.name = triedNames site path := by
  unfold askedTries triedNames earlyNames lateNames
  rw [List.map_append, List.map_append, map_name_askedIndexes, List.map_singleton, ← h]
  congr 2
  · split_ifs
    · exact map_name_askedIndexes _ _
    · exact map_name_askedIndexes _ _
    · rfl
  · split_ifs
    · rfl
    · rw [AskedName.name_followedBy]

/-- A decoded path is not cut when it is copied. -/
theorem phpTarget_of_isPhp {site : Site} {decoded : Bytes} (hlen : decoded.length < pathLen)
    (h : phpPathIsPhp decoded = true) : phpTarget site decoded = decoded := by
  unfold phpTarget safeCopy
  rw [if_pos h]
  exact List.take_of_length_le (Nat.le_sub_one_of_lt hlen)

theorem map_name_askedForFile {site : Site} {decoded : Bytes} (hlen : decoded.length < pathLen) :
    (askedForFile site decoded).map AskedName.name = requestNames site decoded := by
  unfold askedForFile requestNames
  split_ifs with hrouting hphp hfallback
  · rw [phpTarget_of_isPhp hlen hphp]
    exact map_name_askedTries (name_requestedName _)
  · exact map_name_askedTries (name_configuredName _)
  · rw [List.map_append, map_name_askedTries (name_requestedName _),
      map_name_askedTries (name_configuredName _)]
  · rw [List.map_append, map_name_askedTries (name_requestedName _)]
    rfl

/-! ### No other name has an influence -/

/-- Trees with the same files under these names. -/
def Tree.AgreeOn (names : List Bytes) (tree tree' : Tree) : Prop :=
  ∀ name ∈ names, tree.lookup name = tree'.lookup name

/-- Courses in which the file system gives the same answers about these names. -/
structure Course.AgreeOn (names : List Bytes) (course course' : Course) : Prop where
  check : course.check.AgreeOn names course'.check
  request : course.request.AgreeOn names course'.request
  fallback : course.fallback.AgreeOn names course'.fallback
  variants : course.variants.AgreeOn names course'.variants

theorem Tree.AgreeOn.mono {names names' : List Bytes} {tree tree' : Tree}
    (h : tree.AgreeOn names tree') (hsub : names' ⊆ names) : tree.AgreeOn names' tree' :=
  fun name hname => h name (hsub hname)

variable {w : World} {site : Site} {course course' : Course} {cache : MetaCache}
  {req : HttpRequest} {decoded : Bytes} {tree tree' : Tree}

theorem openFirst_congr {names : List Bytes} (h : tree.AgreeOn names tree') :
    openFirst tree names = openFirst tree' names := by
  unfold openFirst
  induction names with
  | nil => rfl
  | cons name names ih =>
      rw [List.findSome?_cons, List.findSome?_cons, h name List.mem_cons_self,
        ih (h.mono (List.subset_cons_self _ _))]

theorem tryOpenStatic_congr {path : Bytes} (h : tree.AgreeOn (triedNames site path) tree') :
    tryOpenStatic tree site path = tryOpenStatic tree' site path := by
  unfold triedNames at h
  unfold tryOpenStatic
  dsimp only at h ⊢
  have hearly := openFirst_congr (h.mono fun _ hname =>
    List.mem_append_left _ (List.mem_append_left _ hname))
  have hlate := openFirst_congr (h.mono fun _ hname =>
    List.mem_append_left _ (List.mem_append_right _ hname))
  have hrel := h _ (List.mem_append_right _ (List.mem_singleton_self _))
  rw [hearly, hlate, hrel]

theorem servePhpRouting_congr (hrouting : site.routingType = .php)
    (h : course.AgreeOn (requestNames site decoded) course') :
    servePhpRouting site course req decoded = servePhpRouting site course' req decoded := by
  unfold requestNames at h
  rw [if_pos hrouting] at h
  unfold servePhpRouting
  rw [tryOpenStatic_congr h.request]

theorem openRequested_congr (hrouting : site.routingType ≠ .php)
    (h : course.AgreeOn (requestNames site decoded) course') :
    openRequested site course decoded = openRequested site course' decoded := by
  unfold requestNames at h
  rw [if_neg hrouting] at h
  unfold openRequested
  rw [tryOpenStatic_congr (h.request.mono (List.subset_append_left _ _))]
  cases tryOpenStatic course'.request site decoded with
  | ok opened => rfl
  | error errno =>
      dsimp only
      by_cases hfallback : (site.fallback.bytes ≠ [] && decoded ≠ ascii "/") = true
      · rw [if_pos hfallback] at h
        rw [tryOpenStatic_congr (h.fallback.mono (List.subset_append_right _ _))]
      · have hnot : (site.fallback.bytes ≠ [] && errno = .enoent && decoded ≠ ascii "/") = false := by
          rw [Bool.not_eq_true] at hfallback
          rw [Bool.and_assoc, Bool.and_comm (decide (errno = .enoent)), ← Bool.and_assoc, hfallback,
            Bool.false_and]
        simp only [hnot, Bool.false_eq_true, if_false]

theorem serveDecoded_congr (h : course.AgreeOn (requestNames site decoded) course') :
    serveDecoded site course cache req decoded = serveDecoded site course' cache req decoded := by
  unfold serveDecoded
  split_ifs with hrouting
  · exact servePhpRouting_congr hrouting h
  · unfold serveFiles
    rw [openRequested_congr hrouting h]

/-- The same names, as they are opened. -/
def askedBytes (site : Site) (req : HttpRequest) : List Bytes :=
  (askedNames site req).map AskedName.name

theorem requestedName_mem (h : requestPathHasTrailingSlash req.path = false) :
    requestedName decoded ∈ askedForPath site req decoded := by
  unfold askedForPath
  rw [h]
  exact List.mem_append_left _ (List.mem_append_left _ (List.mem_singleton_self _))

theorem askedForFile_subset : askedForFile site decoded ⊆ askedForPath site req decoded :=
  fun _ h => List.mem_append_left _ (List.mem_append_right _ h)

/-- A request that gets as far as the file system. -/
theorem askedNames_of_admitted (h : Admitted site req decoded) :
    askedNames site req = askedForPath site req decoded := by
  unfold askedNames
  rw [h.open_, h.method, h.decodes]
  simp only [h.segments, h.unblocked, Bool.not_true, Bool.false_eq_true, if_false]

/-- The decoded path is shorter than the buffer. -/
theorem Admitted.length_lt (h : Admitted site req decoded) : decoded.length < pathLen := by
  obtain ⟨text, hfit, rfl⟩ := (percentDecodePath_iff (by decide)).mp h.decodes
  split_ifs
  · decide
  · exact hfit.fits

theorem requestNames_subset (h : Admitted site req decoded) :
    requestNames site decoded ⊆ askedBytes site req := by
  unfold askedBytes
  rw [askedNames_of_admitted h, ← map_name_askedForFile h.length_lt]
  exact List.map_subset _ askedForFile_subset

theorem staticAnswer_of_not_admitted (h : ∀ decoded, ¬ Admitted site req decoded) :
    staticAnswer w site course cache req = staticAnswer w site course' cache req := by
  unfold staticAnswer
  split_ifs with hmaintenance hmethod
  · rfl
  · rfl
  · cases hdecode : percentDecodePath req.path pathLen with
    | none => rfl
    | some decoded =>
        dsimp only
        split_ifs with hsegments hblocked
        · rfl
        · rfl
        all_goals
          refine absurd ⟨?_, ?_, hdecode, ?_, ?_⟩ (h decoded)
          · exact Bool.eq_false_of_not_eq_true hmaintenance
          · simpa using hmethod
          · exact Bool.eq_false_of_not_eq_true hsegments
          · exact Bool.eq_false_of_not_eq_true hblocked

/-- The function that `serve_static` returns through. -/
theorem staticAnswer_congr (h : course.AgreeOn (askedBytes site req) course') :
    staticAnswer w site course cache req = staticAnswer w site course' cache req := by
  by_cases hadmitted : ∃ decoded, Admitted site req decoded
  · obtain ⟨decoded, hadmitted⟩ := hadmitted
    have hdirectory : requestPathHasTrailingSlash req.path = false →
        sitePathIsDirectory course.check decoded = sitePathIsDirectory course'.check decoded := by
      intro hslash
      have hmem : staticRelativeRequestPath decoded ∈ askedBytes site req := by
        unfold askedBytes
        rw [askedNames_of_admitted hadmitted, ← name_requestedName]
        exact List.mem_map_of_mem (requestedName_mem hslash)
      unfold sitePathIsDirectory
      rw [h.check _ hmem]
    have hserve : serveDecoded site course cache req decoded =
        serveDecoded site course' cache req decoded := by
      have hsub := requestNames_subset hadmitted
      exact serveDecoded_congr ⟨h.check.mono hsub, h.request.mono hsub, h.fallback.mono hsub,
        h.variants.mono hsub⟩
    unfold staticAnswer
    rw [hadmitted.open_, hadmitted.method, hadmitted.decodes]
    simp only [hadmitted.segments, hadmitted.unblocked, Bool.not_true, Bool.false_eq_true, if_false,
      hserve]
    cases hslash : requestPathHasTrailingSlash req.path with
    | true => rfl
    | false => rw [hdirectory hslash]
  · exact staticAnswer_of_not_admitted fun decoded hadmitted' => hadmitted ⟨decoded, hadmitted'⟩

/-! ### The variants -/

/-- The variants of a file that may be opened. -/
def variantNames (path : Bytes) : List Bytes := [path ++ ascii ".br", path ++ ascii ".gz"]

theorem map_name_variants (asked : AskedName) :
    asked.variants.map AskedName.name = variantNames asked.name := by
  unfold AskedName.variants variantNames
  simp only [List.map_cons, List.map_nil, AskedName.name_followedBy]

theorem openVariant_congr {cached : Option StaticMeta} {path : Bytes} {useBr useGzip : Bool}
    (h : tree.AgreeOn (variantNames path) tree') :
    openVariant (w.under tree) site (fileVariants cached path useBr useGzip) =
      openVariant (w.under tree') site (fileVariants cached path useBr useGzip) := by
  have hopen : ∀ name ∈ variantNames path, tree.openFile name = tree'.openFile name := by
    intro name hname
    unfold Tree.openFile
    rw [h name hname]
  have hbr := hopen _ List.mem_cons_self
  have hgz := hopen _ (List.mem_cons_of_mem _ (List.mem_singleton_self _))
  unfold openVariant fileVariants World.under
  split_ifs
  · simp only [List.singleton_append, List.findSome?_cons, List.findSome?_nil, hbr, hgz]
  · simp only [List.append_nil, List.findSome?_cons, List.findSome?_nil, hbr]
  · simp only [List.nil_append, List.findSome?_cons, List.findSome?_nil, hgz]
  · rfl

theorem sendFileContent_congr {status : ℤ} {mime path : Bytes} {etag : Option Bytes}
    {file : OpenFile} {cached : Option StaticMeta} {t : Trace}
    (h : tree.AgreeOn (variantNames path) tree') :
    sendFileContent (w.under tree) site status mime path etag file cached req t =
      sendFileContent (w.under tree') site status mime path etag file cached req t := by
  have husable : usableEncodings (w.under tree) = usableEncodings (w.under tree') := rfl
  unfold sendFileContent
  dsimp only
  rw [husable, openVariant_congr h]
  rfl

theorem sendFileFd_congr {status : ℤ} {path : Bytes} {file : OpenFile} {cached : Option StaticMeta}
    {t : Trace} (h : tree.AgreeOn (variantNames path) tree') :
    sendFileFd (w.under tree) site status path file cached req t =
      sendFileFd (w.under tree') site status path file cached req t := by
  have hmatches : requestCacheValidatorMatches (w.under tree) =
      requestCacheValidatorMatches (w.under tree') := rfl
  unfold sendFileFd
  rw [hmatches, sendFileContent_congr h]
  rfl

/-- A file with another status than 200 has no variants. -/
theorem sendFileFd_under {status : ℤ} (hstatus : status ≠ 200) {path : Bytes} {file : OpenFile}
    {cached : Option StaticMeta} {t : Trace} :
    sendFileFd (w.under tree) site status path file cached req t =
      sendFileFd (w.under tree') site status path file cached req t := by
  have hnone : ∀ tree mime, usableEncodings (w.under tree) site status mime path file.stat req =
      (false, false) := by
    intro tree mime
    unfold usableEncodings
    simp only [hstatus, decide_false, Bool.false_and]
  unfold sendFileFd sendFileContent
  simp only [hstatus, decide_false, Bool.false_and, Bool.false_eq_true, if_false, hnone]
  rfl

theorem sendErrorPage_under {status : ℤ} (hstatus : status ≠ 200) (t : Trace) :
    sendErrorPage (w.under tree) site status req t =
      sendErrorPage (w.under tree') site status req t := by
  have hpage : openErrorPage (w.under tree) = openErrorPage (w.under tree') := rfl
  unfold sendErrorPage
  rw [hpage]
  cases openErrorPage (w.under tree') site status with
  | none => rfl
  | some page => exact sendFileFd_under hstatus

/-- An error page that is opened is the one that is configured. -/
theorem errorPage_of_open {status : ℤ} {path : Bytes} {file : OpenFile}
    (h : openErrorPage w site status = some (path, file)) :
    path ≠ [] ∧ site.errorPage status = some path := by
  unfold openErrorPage at h
  cases hpage : site.errorPage status with
  | none =>
      rw [hpage] at h
      exact nomatch h
  | some page =>
      rw [hpage] at h
      dsimp only at h
      split_ifs at h with hempty
      split at h
      · split_ifs at h
        obtain ⟨rfl, -⟩ := Prod.mk.inj (Option.some.inj h)
        exact ⟨hempty, rfl⟩
      · exact nomatch h

theorem sendErrorPage_congr {status : ℤ} {t : Trace}
    (h : tree.AgreeOn (variantNames ((site.errorPage status).getD [])) tree') :
    sendErrorPage (w.under tree) site status req t =
      sendErrorPage (w.under tree') site status req t := by
  have hpage : openErrorPage (w.under tree) = openErrorPage (w.under tree') := rfl
  unfold sendErrorPage
  rw [hpage]
  cases hfound : openErrorPage (w.under tree') site status with
  | none => rfl
  | some found =>
      obtain ⟨page, file⟩ := found
      rw [(errorPage_of_open hfound).2] at h
      exact sendFileFd_congr h

theorem redirectDirectorySlash_under (t : Trace) :
    redirectDirectorySlash (w.under tree) site req t =
      redirectDirectorySlash (w.under tree') site req t := by
  unfold redirectDirectorySlash
  dsimp only
  rw [@sendErrorPage_under w site req tree tree' 414 (by decide)]
  rfl

/-! ### Scripts -/

theorem backendError_under {status : ℤ} (hstatus : status ≠ 200) (t : Trace) :
    backendError (w.under tree) site req status t = backendError (w.under tree') site req status t :=
  sendErrorPage_under hstatus _

theorem phpStep_under (r : Record) (st : PhpState) (t : Trace) :
    phpStep (w.under tree) site req r st t = phpStep (w.under tree') site req r st t := by
  have hstart : phpStart (w.under tree) site req = phpStart (w.under tree') site req := by
    funext headerBuffer stop t
    unfold phpStart
    rw [@sendErrorPage_under w site req tree tree' 500 (by decide)]
    rfl
  unfold phpStep
  rw [hstart, @backendError_under w site req tree tree' 502 (by decide)]
  rfl

theorem phpLoop_under (ending : BackendEnd) (fuel : ℕ) (pieces : List Piece) (st : PhpState)
    (t : Trace) :
    phpLoop (w.under tree) site req ending fuel pieces st t =
      phpLoop (w.under tree') site req ending fuel pieces st t := by
  induction fuel generalizing pieces st t with
  | zero => rfl
  | succ fuel ih =>
      rw [phpLoop, phpLoop]
      cases readRecord pieces with
      | none => exact backendError_under ending.status_ne t
      | some found =>
          obtain ⟨r, pieces⟩ := found
          dsimp only
          rw [@phpStep_under w site req tree tree' r st t]
          cases phpStep (w.under tree') site req r st t with
          | stop result => rfl
          | next st t => exact ih pieces st t

theorem sendPhpFpm_under (script body : Bytes) (fpm : Fpm) (t : Trace) :
    sendPhpFpm (w.under tree) site req script body fpm t =
      sendPhpFpm (w.under tree') site req script body fpm t := by
  have hclient : (w.under tree).client = (w.under tree').client := rfl
  unfold sendPhpFpm
  rw [@backendError_under w site req tree tree' 502 (by decide),
    @sendErrorPage_under w site req tree tree' 414 (by decide),
    @sendErrorPage_under w site req tree tree' 500 (by decide),
    @sendErrorPage_under w site req tree tree' 413 (by decide), hclient, phpLoop_under]

/-! ### All of `serve_static` -/

/-- An error page has another status than 200, and a file is one below the document root: so it is
for every answer of a site that is not in maintenance. -/
def StaticResponder.Ordinary : StaticResponder → Prop
  | .sendErrorPage status => status ≠ 200
  | .sendFileFd _ _ _ cached => cached.isSome = true
  | _ => True

theorem openFailed_ordinary (errno : Errno) : (openFailed errno).Ordinary := by
  unfold openFailed StaticResponder.Ordinary
  dsimp only
  split_ifs <;> decide

theorem ordinary_403 : (StaticResponder.sendErrorPage 403).Ordinary :=
  (by decide : (403 : ℤ) ≠ 200)

theorem ordinary_405 : (StaticResponder.sendErrorPage 405).Ordinary :=
  (by decide : (405 : ℤ) ≠ 200)

theorem servePhp_ordinary (selected : Bytes) : (servePhp site req selected).Ordinary := by
  unfold servePhp
  split_ifs
  · exact (by decide : (413 : ℤ) ≠ 200)
  · trivial

theorem servePhpRouting_ordinary : (servePhpRouting site course req decoded).Ordinary := by
  unfold servePhpRouting
  cases tryOpenStatic course.request site (phpTarget site decoded) with
  | error errno => exact openFailed_ordinary errno
  | ok opened =>
      dsimp only
      split_ifs
      · exact ordinary_403
      · exact ordinary_403
      · exact servePhp_ordinary _

theorem serveFiles_ordinary : (serveFiles site course cache req decoded).Ordinary := by
  unfold serveFiles
  cases openRequested site course decoded with
  | error errno => exact openFailed_ordinary errno
  | ok opened =>
      dsimp only
      split_ifs
      · exact ordinary_403
      · exact servePhp_ordinary _
      · exact ordinary_405
      · exact ordinary_403
      · exact ordinary_403
      · exact Eq.refl true

theorem staticAnswer_ordinary (hopen : site.maintenanceEnabled = false) :
    (staticAnswer w site course cache req).Ordinary := by
  unfold staticAnswer
  rw [hopen, if_neg Bool.false_ne_true]
  split_ifs
  · exact ordinary_405
  · cases percentDecodePath req.path pathLen with
    | none => exact (by decide : (400 : ℤ) ≠ 200)
    | some decoded =>
        dsimp only
        split_ifs
        · exact (by decide : (400 : ℤ) ≠ 200)
        · exact ordinary_403
        · trivial
        · unfold serveDecoded
          split_ifs
          · exact servePhpRouting_ordinary
          · exact serveFiles_ordinary

/-- The variants of a file that the request leads to. -/
theorem variantNames_subset_of_admitted {name : Bytes} (h : Admitted site req decoded)
    (hname : name ∈ requestNames site decoded) : variantNames name ⊆ askedBytes site req := by
  rw [← map_name_askedForFile h.length_lt] at hname
  obtain ⟨asked, hasked, rfl⟩ := List.mem_map.mp hname
  unfold askedBytes
  rw [askedNames_of_admitted h, ← map_name_variants]
  refine List.map_subset _ ?_
  intro variant hvariant
  exact List.mem_append_right _ (List.mem_flatMap.mpr ⟨asked, hasked, hvariant⟩)

/-- The variants of a page of a site in maintenance. -/
theorem variantNames_subset_of_maintenance {page : Bytes} (h : site.maintenanceEnabled = true)
    (hpage : page = site.maintenancePage.bytes ∨
      page = (site.errorPage site.maintenanceStatus).getD []) :
    variantNames page ⊆ askedBytes site req := by
  unfold askedBytes askedNames askedForPages
  rw [if_pos h, List.flatMap_cons, List.flatMap_singleton, List.map_append, map_name_variants,
    map_name_variants]
  rcases hpage with rfl | rfl
  · exact List.subset_append_left _ _
  · exact List.subset_append_right _ _

/-- What is asked of the file system for a file that is sent. -/
theorem variantNames_subset_of_sent {status : ℤ} {name : Bytes} {file : OpenFile}
    {cached : Option StaticMeta}
    (h : staticAnswer w site course cache req = .sendFileFd status name file cached) :
    variantNames name ⊆ askedBytes site req := by
  cases hmaintenance : site.maintenanceEnabled with
  | true =>
      refine variantNames_subset_of_maintenance hmaintenance (Or.inl ?_)
      unfold staticAnswer serveMaintenance at h
      rw [if_pos hmaintenance] at h
      split at h
      · split_ifs at h
        obtain ⟨-, rfl, -⟩ := StaticResponder.sendFileFd.inj h
        rfl
      · cases h
  | false =>
      have hordinary := @staticAnswer_ordinary w site course cache req hmaintenance
      rw [h] at hordinary
      obtain ⟨cached, rfl⟩ := Option.isSome_iff_exists.mp hordinary
      obtain ⟨decoded, hadmitted, hmem, -⟩ := (sent_of_staticAnswer h).reaches
      exact variantNames_subset_of_admitted hadmitted hmem

/-- An error page with the status 200. -/
theorem maintenance_of_error200 {status : ℤ} (hstatus : status = 200)
    (h : staticAnswer w site course cache req = .sendErrorPage status) :
    site.maintenanceEnabled = true ∧ status = site.maintenanceStatus := by
  cases hmaintenance : site.maintenanceEnabled with
  | false =>
      have hordinary := @staticAnswer_ordinary w site course cache req hmaintenance
      rw [h] at hordinary
      exact absurd hstatus hordinary
  | true =>
      refine ⟨rfl, ?_⟩
      unfold staticAnswer serveMaintenance at h
      rw [if_pos hmaintenance] at h
      split at h
      · split_ifs at h
        exact (StaticResponder.sendErrorPage.inj h).symm
      · exact (StaticResponder.sendErrorPage.inj h).symm

/-- **No other name below the document root has an influence on what `serve_static` does.** -/
theorem serveStatic_congr {fpm : Fpm} {body : Bytes} {t : Trace}
    (h : course.AgreeOn (askedBytes site req) course') :
    serveStatic w site course cache fpm req body t =
      serveStatic w site course' cache fpm req body t := by
  have hunder : ∀ tree course, staticAnswer (w.under tree) site course cache req =
      staticAnswer w site course cache req := fun _ _ => rfl
  unfold serveStatic
  dsimp only
  rw [hunder, hunder, staticAnswer_congr h]
  cases hanswer : staticAnswer w site course' cache req with
  | sendErrorPage status =>
      by_cases hstatus : status = 200
      · -- only a site in maintenance has such a page
        obtain ⟨hmaintenance, rfl⟩ := maintenance_of_error200 hstatus hanswer
        refine sendErrorPage_congr (h.variants.mono ?_)
        exact variantNames_subset_of_maintenance hmaintenance (Or.inr rfl)
      · exact sendErrorPage_under hstatus t
  | sendFileFd status name file cached =>
      exact sendFileFd_congr (h.variants.mono (variantNames_subset_of_sent hanswer))
  | redirectDirectorySlash => exact redirectDirectorySlash_under t
  | sendPhpFpm script => exact sendPhpFpm_under script body fpm t

/-! ### No way out of the document root -/

/-- The root itself, or a path below it that goes straight down. -/
def Descends (part : Bytes) : Prop :=
  part = ascii "." ∨
    part.head? ≠ some 47 ∧ ∀ segment ∈ pathSegments part, segment ≠ ascii "." ∧ segment ≠ ascii ".."

/-- A decoded path that starts at the root and goes straight down. -/
def Rooted (decoded : Bytes) : Prop :=
  decoded.head? = some 47 ∧
    ∀ segment ∈ pathSegments decoded, segment ≠ ascii "." ∧ segment ≠ ascii ".."

theorem rooted_iff (decoded : Bytes) : Rooted decoded ↔ pathHasForbiddenSegment decoded = false := by
  unfold Rooted pathHasForbiddenSegment
  rw [Bool.or_eq_false_iff, decide_eq_false_iff_not, not_not, List.any_eq_false]
  refine and_congr_right fun _ => ?_
  simp only [Bool.or_eq_true, decide_eq_true_iff, not_or]

/-- Slashes in front do not count. -/
theorem segments_dropWhile (path : Bytes) :
    pathSegments (path.dropWhile (· = 47)) = pathSegments path := by
  induction path with
  | nil => rfl
  | cons c path ih =>
      rw [List.dropWhile_cons]
      split_ifs with hc
      · obtain rfl := of_decide_eq_true hc
        rw [ih]
        exact (segments_cons_sep path).symm
      · rfl

theorem descends_of_rooted (h : Rooted decoded) : Descends (staticRelativeRequestPath decoded) := by
  unfold staticRelativeRequestPath Descends
  dsimp only
  split_ifs with hempty
  · exact Or.inl rfl
  · right
    constructor
    · intro hhead
      have hnot := List.head?_dropWhile_not (fun c => decide (c = 47)) decoded
      rw [hhead] at hnot
      exact absurd hnot (by decide)
    · rw [segments_dropWhile]
      exact h.2

theorem descends_nil : Descends [] :=
  Or.inr ⟨by decide, fun _ h => absurd h (by unfold pathSegments segments; simp)⟩

theorem descends_askedIndexes {directory asked : AskedName} (h : Descends directory.fromRequest)
    (hasked : asked ∈ askedIndexes site directory) : Descends asked.fromRequest := by
  unfold askedIndexes at hasked
  obtain ⟨index, -, rfl⟩ := List.mem_map.mp (List.mem_of_mem_filter hasked)
  exact h

theorem descends_askedTries {rel asked : AskedName} (h : Descends rel.fromRequest)
    (hasked : asked ∈ askedTries site rel) : Descends asked.fromRequest := by
  unfold askedTries at hasked
  rw [List.mem_append, List.mem_append, List.mem_singleton] at hasked
  rcases hasked with (hasked | hasked) | rfl
  · split_ifs at hasked
    · exact descends_askedIndexes descends_nil hasked
    · exact descends_askedIndexes h hasked
    · exact absurd hasked List.not_mem_nil
  · have hslash : Descends (rel.followedBy (ascii "/")).fromRequest := h
    split_ifs at hasked
    · exact descends_askedIndexes descends_nil hasked
    · exact descends_askedIndexes hslash hasked
  · exact h

theorem descends_askedForFile {asked : AskedName} (h : Rooted decoded)
    (hasked : asked ∈ askedForFile site decoded) : Descends asked.fromRequest := by
  have hrequested : Descends (requestedName decoded).fromRequest := descends_of_rooted h
  unfold askedForFile at hasked
  split_ifs at hasked with hrouting hphp hfallback
  · exact descends_askedTries hrequested hasked
  · exact descends_askedTries descends_nil hasked
  · rcases List.mem_append.mp hasked with hasked | hasked
    · exact descends_askedTries hrequested hasked
    · exact descends_askedTries descends_nil hasked
  · rw [List.append_nil] at hasked
    exact descends_askedTries hrequested hasked

theorem fromRequest_of_mem_variants {asked variant : AskedName} (h : variant ∈ asked.variants) :
    variant.fromRequest = asked.fromRequest := by
  unfold AskedName.variants at h
  rcases List.mem_cons.mp h with rfl | h
  · rfl
  · rw [List.mem_singleton.mp h]
    rfl

theorem descends_askedForPath {asked : AskedName} (h : Rooted decoded)
    (hasked : asked ∈ askedForPath site req decoded) : Descends asked.fromRequest := by
  unfold askedForPath at hasked
  rw [List.mem_append, List.mem_append] at hasked
  rcases hasked with (hasked | hasked) | hasked
  · split_ifs at hasked
    · exact absurd hasked List.not_mem_nil
    · rw [List.mem_singleton.mp hasked]
      exact descends_of_rooted h
  · exact descends_askedForFile h hasked
  · obtain ⟨file, hfile, hvariant⟩ := List.mem_flatMap.mp hasked
    rw [fromRequest_of_mem_variants hvariant]
    exact descends_askedForFile h hfile

/-- Something is opened for a request: then its path has passed the tests. -/
theorem admitted_of_asked (hopen : site.maintenanceEnabled = false) {asked : AskedName}
    (hasked : asked ∈ askedNames site req) :
    ∃ decoded, Admitted site req decoded ∧ asked ∈ askedForPath site req decoded := by
  unfold askedNames at hasked
  rw [hopen, if_neg Bool.false_ne_true] at hasked
  split_ifs at hasked with hmethod
  · exact absurd hasked List.not_mem_nil
  · cases hdecode : percentDecodePath req.path pathLen with
    | none =>
        rw [hdecode] at hasked
        exact absurd hasked List.not_mem_nil
    | some decoded =>
        rw [hdecode] at hasked
        dsimp only at hasked
        split_ifs at hasked with hsegments hblocked
        · exact absurd hasked List.not_mem_nil
        · exact absurd hasked List.not_mem_nil
        · refine ⟨decoded, ⟨hopen, ?_, hdecode, ?_, ?_⟩, hasked⟩
          · simpa using hmethod
          · exact Bool.eq_false_of_not_eq_true hsegments
          · exact Bool.eq_false_of_not_eq_true hblocked

/-- What the request has chosen of any name that is opened. -/
theorem descends_of_asked {asked : AskedName} (hasked : asked ∈ askedNames site req) :
    Descends asked.fromRequest := by
  cases hmaintenance : site.maintenanceEnabled with
  | true =>
      unfold askedNames askedForPages at hasked
      rw [if_pos hmaintenance] at hasked
      obtain ⟨page, hpage, hvariant⟩ := List.mem_flatMap.mp hasked
      rw [fromRequest_of_mem_variants hvariant]
      rcases List.mem_cons.mp hpage with rfl | hpage
      · exact descends_nil
      · rw [List.mem_singleton.mp hpage]
        exact descends_nil
  | false =>
      obtain ⟨decoded, hadmitted, hasked⟩ := admitted_of_asked hmaintenance hasked
      exact descends_askedForPath ((rooted_iff decoded).mpr hadmitted.segments) hasked

/-- A path that is not decoded, or not to one that goes straight down. -/
theorem staticAnswer_eq_400 (hopen : site.maintenanceEnabled = false)
    (hmethod : site.allowsMethod req.method = true)
    (h : ¬ ∃ out, DecodesTo req.path pathLen out ∧ Rooted out) :
    staticAnswer w site course cache req = .sendErrorPage 400 := by
  unfold staticAnswer
  rw [hopen, hmethod, if_neg Bool.false_ne_true, Bool.not_true, if_neg Bool.false_ne_true]
  cases hdecode : percentDecodePath req.path pathLen with
  | none => rfl
  | some decoded =>
      dsimp only
      refine if_pos ?_
      by_contra hsegments
      have hrooted := (rooted_iff decoded).mpr (Bool.eq_false_of_not_eq_true hsegments)
      exact h ⟨decoded, (percentDecodePath_iff (by decide)).mp hdecode, hrooted⟩

/-- **Paths are decoded once, and nothing above the document root is opened for a request.**  A
path is decoded if and only if it has a decoding fit to be a path, which is the output; what the
request has chosen of any name that is opened goes straight down from the root, and no other name
has an influence; anything else is answered with 400. -/
theorem requestPath_safe (w : World) (site : Site) (course : Course) (cache : MetaCache) (fpm : Fpm)
    (req : HttpRequest) (body : Bytes) (t : Trace) :
    (∀ outLen, (percentDecodePath req.path outLen).isSome = true ↔
      ∃ text, FitPath req.path outLen text) ∧
    (∀ outLen out, 1 < outLen →
      (percentDecodePath req.path outLen = some out ↔ DecodesTo req.path outLen out)) ∧
    (∀ asked ∈ askedNames site req, Descends asked.fromRequest) ∧
    (∀ course', course.AgreeOn (askedBytes site req) course' →
      serveStatic w site course cache fpm req body t =
        serveStatic w site course' cache fpm req body t) ∧
    (site.maintenanceEnabled = false → askedNames site req ≠ [] →
      ∃ out, DecodesTo req.path pathLen out ∧ Rooted out) ∧
    (site.maintenanceEnabled = false → site.allowsMethod req.method = true →
      (¬ ∃ out, DecodesTo req.path pathLen out ∧ Rooted out) →
      serveStatic w site course cache fpm req body t =
        sendErrorPage (w.under course.variants) site 400 req t) := by
  refine ⟨?_, ?_, ?_, ?_, ?_, ?_⟩
  · intro outLen
    rw [Option.isSome_iff_exists]
    simp only [percentDecodePath_eq_some_iff]
    constructor
    · rintro ⟨out, text, hfit, -⟩
      exact ⟨text, hfit⟩
    · rintro ⟨text, hfit⟩
      exact ⟨_, text, hfit, rfl⟩
  · intro outLen out hlt
    exact percentDecodePath_iff hlt
  · intro asked hasked
    exact descends_of_asked hasked
  · intro course' hagree
    exact serveStatic_congr hagree
  · intro hopen hne
    obtain ⟨asked, hasked⟩ := List.exists_mem_of_ne_nil _ hne
    obtain ⟨decoded, hadmitted, -⟩ := admitted_of_asked hopen hasked
    exact ⟨decoded, (percentDecodePath_iff (by decide)).mp hadmitted.decodes,
      (rooted_iff decoded).mpr hadmitted.segments⟩
  · intro hopen hmethod hnot
    unfold serveStatic
    dsimp only
    rw [staticAnswer_eq_400 hopen hmethod hnot]

end Rpsiod

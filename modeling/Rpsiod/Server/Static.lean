import Rpsiod.Server.Paths
import Rpsiod.Server.Php

/-!
# Files below the document root (`serve_static`)

`staticAnswer` is `serve_static` up to the function it ends in, and `serveStatic` runs that.  The
file system is asked several times while a request is served, and the files may change in between:
a `Course` has a tree for each of these moments.  The open-file cache opens a file anew before it
gives a descriptor away, so that it does not show here; the metadata cache does, as a `MetaEntry`.

* `Tree`: files that have the names of files.
* `staticAnswer`: which function `serve_static` returns through.
-/

namespace Rpsiod

open ListSearch

/-! ### The file system -/

/-- `errno` of a failed open. -/
inductive Errno where
  | enoent
  | eacces
  | eisdir
  | other
  deriving DecidableEq

/-- A name that `openat2` can open a regular file under: relative, beneath the document root, and
not ending in the name of a directory. -/
def IsFileName (name : Bytes) : Prop :=
  name.head? ≠ some 47 ∧ name.getLast? ≠ some 47 ∧
    ((pathSegments name).filter (· ≠ ascii ".")).head? ≠ some (ascii "..") ∧
    ∃ segment, (pathSegments name).getLast? = some segment ∧ segment ≠ ascii "." ∧
      segment ≠ ascii ".."

instance : DecidablePred IsFileName := fun name =>
  decidable_of_iff (name.head? ≠ some 47 ∧ name.getLast? ≠ some 47 ∧
    ((pathSegments name).filter (· ≠ ascii ".")).head? ≠ some (ascii "..") ∧
    ∃ segment ∈ (pathSegments name).getLast?, segment ≠ ascii "." ∧ segment ≠ ascii "..") Iff.rfl

/-- What opening a name gives. -/
inductive Lookup where
  | missing (errno : Errno)
  | directory
  | file (file : OpenFile)

/-- The files below a document root. -/
structure Tree where
  /-- `rpsiod_static_open_site_path` and `fstat`. -/
  lookup : Bytes → Lookup
  named : ∀ name file, lookup name = .file file → file.regular = true → IsFileName name

/-- Nothing. -/
def Tree.bare : Tree := ⟨fun _ => .missing .enoent, nofun⟩

/-- A file below the document root, under every spelling of its path. -/
def Tree.single (path : Bytes) (file : OpenFile) : Tree where
  lookup name :=
    if IsFileName name ∧ pathSegments name = pathSegments path then .file file
    else .missing .enoent
  named := by
    intro name found hlookup _
    split_ifs at hlookup with hname
    exact hname.1

/-- The trees at the moments when the file system is asked. -/
structure Course where
  /-- When `site_path_is_directory` asks. -/
  check : Tree
  /-- When the path of the request is opened. -/
  request : Tree
  /-- When the fallback is opened. -/
  fallback : Tree
  /-- When `send_file_fd` opens a variant. -/
  variants : Tree

/-- Nothing changes. -/
def Course.still (tree : Tree) : Course := ⟨tree, tree, tree, tree⟩

/-- The file that a name opens, if it is not a directory. -/
def Tree.openFile (tree : Tree) (name : Bytes) : Option OpenFile :=
  match tree.lookup name with
  | .file file => some file
  | _ => none

/-- The surroundings, with the files below the document root. -/
def World.under (w : World) (tree : Tree) : World :=
  { w with openSitePath := fun _ name => tree.openFile name }

/-- `site_path_is_directory`. -/
def sitePathIsDirectory (tree : Tree) (decodedPath : Bytes) : Bool :=
  match tree.lookup (staticRelativeRequestPath decodedPath) with
  | .directory => true
  | _ => false

/-- The first of the names that is a regular file. -/
def openFirst (tree : Tree) (names : List Bytes) : Option (Bytes × OpenFile) :=
  names.findSome? fun name =>
    match tree.lookup name with
    | .file file => if file.regular then some (name, file) else none
    | _ => none

/-- The names of the index files in a directory. -/
def indexNames (site : Site) (directory : Bytes) : List Bytes :=
  (site.indexes.map fun index => directory ++ index.bytes).filter fun idx => idx.length < 4096

/-- The index files that `try_open_static` tries at once, if the path ends in a slash. -/
def earlyNames (site : Site) (rel : Bytes) : List Bytes :=
  if rel = ascii "." || rel.getLast? = some 47 then
    indexNames site (if rel = ascii "." then [] else rel)
  else []

/-- The index files that it tries if the path is that of a directory. -/
def lateNames (site : Site) (rel : Bytes) : List Bytes :=
  indexNames site (if rel = ascii "." then [] else rel ++ ascii "/")

/-- `try_open_static`: the selected name and the file, or `errno`. -/
def tryOpenStatic (tree : Tree) (site : Site) (requestPath : Bytes) :
    Except Errno (Bytes × OpenFile) :=
  let rel := staticRelativeRequestPath requestPath
  match openFirst tree (earlyNames site rel) with
  | some opened => .ok opened
  | none =>
      match tree.lookup rel with
      | .missing errno => .error errno
      | .directory =>
          match openFirst tree (lateNames site rel) with
          | some opened => .ok opened
          | none => .error .eisdir
      | .file file => if file.regular then .ok (rel, file) else .error .eacces

/-! ### The metadata cache -/

/-- An entry of the metadata cache that is found or made for a name: it has been stored under a name
of which at most 511 bytes are compared. -/
structure MetaEntry (name : Bytes) where
  stored : Bytes
  hasBr : Bool
  hasGzip : Bool
  found : stored = name ∨ safeCopy 512 stored = name

/-- An entry that is made for a file without variants. -/
def freshEntry (name : Bytes) : MetaEntry name := ⟨name, false, false, Or.inl rfl⟩

/-- The cache, as the request finds it. -/
abbrev MetaCache := (name : Bytes) → MetaEntry name

/-- `static_meta_get`, with the entry it finds or makes. -/
def staticMetaGet (site : Site) {name : Bytes} (entry : MetaEntry name) (st : FileStat) :
    StaticMeta where
  mime := ⟨mimeType entry.stored, isText_mimeType _⟩
  etag := ⟨fileEtag st, isText_fileEtag st⟩
  hasBr := entry.hasBr
  hasGzip := entry.hasGzip
  blocked := (47 :: entry.stored).length < 4096 && blockedDirectAccess site (47 :: entry.stored)

/-! ### Serving a file -/

/-- The function that `serve_static` returns through. -/
inductive StaticResponder where
  | sendErrorPage (status : ℤ)
  | sendFileFd (status : ℤ) (path : Bytes) (file : OpenFile) (cached : Option StaticMeta)
  | redirectDirectorySlash
  | sendPhpFpm (script : Bytes)

/-- `request_path_has_trailing_slash`. -/
def requestPathHasTrailingSlash (path : Bytes) : Bool :=
  (path.takeWhile (· ≠ 63)).getLast? = some 47

/-- `selected_path_blocked_direct_access`. -/
def selectedPathBlockedDirectAccess (site : Site) (selected : Bytes) : Bool :=
  let requestPath := if selected.head? = some 47 then selected else 47 :: selected
  4096 ≤ requestPath.length || blockedDirectAccess site requestPath

/-- The error page for a file that cannot be opened. -/
def openFailed (errno : Errno) : StaticResponder :=
  .sendErrorPage (if errno = .eacces || errno = .eisdir then 403 else 404)

/-- A script, unless the body is too large for it. -/
def servePhp (site : Site) (req : HttpRequest) (selected : Bytes) : StaticResponder :=
  if site.phpMaxBodySize < req.contentLength then .sendErrorPage 413 else .sendPhpFpm selected

/-- `php_target`. -/
def phpTarget (site : Site) (decoded : Bytes) : Bytes :=
  safeCopy pathLen
    (if phpPathIsPhp decoded then decoded
    else if site.fallback.bytes ≠ [] then site.fallback.bytes
    else ascii "/index.php")

/-- `serve_static` with `php_routing`. -/
def servePhpRouting (site : Site) (course : Course) (req : HttpRequest) (decoded : Bytes) :
    StaticResponder :=
  match tryOpenStatic course.request site (phpTarget site decoded) with
  | .error errno => openFailed errno
  | .ok (selected, _) =>
      if selectedPathBlockedDirectAccess site selected then .sendErrorPage 403
      else if !phpPathIsPhp selected then .sendErrorPage 403
      else servePhp site req selected

/-- The path of the request is opened, or the fallback. -/
def openRequested (site : Site) (course : Course) (decoded : Bytes) :
    Except Errno (Bytes × OpenFile) :=
  match tryOpenStatic course.request site decoded with
  | .ok opened => .ok opened
  | .error errno =>
      if site.fallback.bytes ≠ [] && errno = .enoent && decoded ≠ ascii "/" then
        tryOpenStatic course.fallback site site.fallback.bytes
      else .error errno

/-- `serve_static` without `php_routing`. -/
def serveFiles (site : Site) (course : Course) (cache : MetaCache) (req : HttpRequest)
    (decoded : Bytes) : StaticResponder :=
  match openRequested site course decoded with
  | .error errno => openFailed errno
  | .ok (selected, file) =>
      if selectedPathBlockedDirectAccess site selected then .sendErrorPage 403
      else if site.phpEnabled && phpPathIsPhp selected then servePhp site req selected
      else if !streqCi req.method (ascii "GET") && !streqCi req.method (ascii "HEAD") then
        .sendErrorPage 405
      else if phpPathIsSourceLike selected then .sendErrorPage 403
      else
        let entry := staticMetaGet site (cache selected) file.stat
        if entry.blocked then .sendErrorPage 403
        else .sendFileFd 200 selected file (some entry)

/-- `serve_static` behind its tests of the path. -/
def serveDecoded (site : Site) (course : Course) (cache : MetaCache) (req : HttpRequest)
    (decoded : Bytes) : StaticResponder :=
  if site.routingType = .php then servePhpRouting site course req decoded
  else serveFiles site course cache req decoded

/-- The answer of a site in maintenance. -/
def serveMaintenance (w : World) (site : Site) : StaticResponder :=
  match if site.maintenancePage.bytes ≠ [] then w.openPage site.maintenancePage.bytes else none with
  | some file =>
      if file.regular then
        .sendFileFd site.maintenanceStatus site.maintenancePage.bytes file none
      else .sendErrorPage site.maintenanceStatus
  | none => .sendErrorPage site.maintenanceStatus

/-- `serve_static` up to the function it returns through. -/
def staticAnswer (w : World) (site : Site) (course : Course) (cache : MetaCache)
    (req : HttpRequest) : StaticResponder :=
  if site.maintenanceEnabled then serveMaintenance w site
  else if !site.allowsMethod req.method then .sendErrorPage 405
  else
    match percentDecodePath req.path pathLen with
    | none => .sendErrorPage 400
    | some decoded =>
        if pathHasForbiddenSegment decoded then .sendErrorPage 400
        else if blockedDirectAccess site decoded then .sendErrorPage 403
        else if !requestPathHasTrailingSlash req.path &&
            sitePathIsDirectory course.check decoded then .redirectDirectorySlash
        else serveDecoded site course cache req decoded

/-- `serve_static`. -/
def serveStatic (w : World) (site : Site) (course : Course) (cache : MetaCache) (fpm : Fpm)
    (req : HttpRequest) (body : Bytes) (t : Trace) : Trace × ℤ :=
  let w := w.under course.variants
  match staticAnswer w site course cache req with
  | .sendErrorPage status => sendErrorPage w site status req t
  | .sendFileFd status path file cached => sendFileFd w site status path file cached req t
  | .redirectDirectorySlash => redirectDirectorySlash w site req t
  | .sendPhpFpm script => sendPhpFpm w site req script body fpm t

end Rpsiod

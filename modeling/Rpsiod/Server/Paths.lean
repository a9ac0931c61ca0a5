import Mathlib.Data.List.Find
import Rpsiod.Config.Site
import Rpsiod.Lib.Segments
import Rpsiod.Lib.Suffixes

/-!
# Paths (`util.c`, `static.c`, `security.c`, `php.c`)

What is done with a request path before a file is opened: its escapes are decoded, its segments are
checked, and the name of the file is compared with `blockDirectAccess` and with the extensions of
PHP.

* `blockedDirectAccess_of_segment`: an entry of one segment is never missed.
* `sourceName_iff`: what the peeling loop leaves decides whether a name is that of a PHP source.
-/

namespace Rpsiod

open ListSearch Segments Suffixes

/-! ### Decoding (`util.c`) -/

/-- `hexval`. -/
def hexval (c : UInt8) : Option UInt8 :=
  if 48 ≤ c && c ≤ 57 then some (c - 48)
  else if 97 ≤ c && c ≤ 102 then some (c - 97 + 10)
  else if 65 ≤ c && c ≤ 70 then some (c - 65 + 10)
  else none

/-- One decoded byte in front of what is decoded of the rest, if it may stand in a path and fits. -/
def pushDecoded (outLen oi : ℕ) (ch : UInt8) (rest : Option Bytes) : Option Bytes :=
  if ch = 0 || ch = 92 || ch < 32 then none
  else if outLen ≤ oi + 1 then none
  else rest.map (ch :: ·)

/-- The loop of `rpsiod_percent_decode_path`, with `oi` bytes in the output. -/
def percentDecodeLoop (outLen : ℕ) : ℕ → Bytes → Option Bytes
  | _, [] => some []
  | oi, ch :: rest =>
      if ch = 63 then some []
      else if ch = 37 then
        match rest with
        | hi :: lo :: rest =>
            match hexval hi, hexval lo with
            | some hi, some lo =>
                pushDecoded outLen oi (hi * 16 + lo) (percentDecodeLoop outLen (oi + 1) rest)
            | _, _ => none
        | _ => none
      else pushDecoded outLen oi ch (percentDecodeLoop outLen (oi + 1) rest)

/-- `rpsiod_percent_decode_path`. -/
def percentDecodePath (path : Bytes) (outLen : ℕ) : Option Bytes :=
  if outLen = 0 then none
  else
    (percentDecodeLoop outLen 0 path).map fun out =>
      if out = [] then safeCopy outLen (ascii "/") else out

/-- The segments of a path, whatever the number of slashes between them. -/
def pathSegments (path : Bytes) : List Bytes := segments 47 path

/-- `rpsiod_path_has_forbidden_segment`. -/
def pathHasForbiddenSegment (path : Bytes) : Bool :=
  path.head? ≠ some 47 ||
    (pathSegments path).any fun segment => segment = ascii "." || segment = ascii ".."

/-- `rpsiod_static_relative_request_path`. -/
def staticRelativeRequestPath (requestPath : Bytes) : Bytes :=
  let rel := requestPath.dropWhile (· = 47)
  if rel = [] then ascii "." else rel

/-! ### Blocked paths (`security.c`) -/

/-- The loop over the occurrences of an entry; `p` is an offset in the path. -/
def blockedLoop (path blocked : Bytes) : ℕ → ℕ → Bool
  | 0, _ => false
  | fuel + 1, p =>
      match indexOfSub blocked (path.drop p) with
      | none => false
      | some i =>
          let p := p + i
          let leftOk := p = 0 || path[p - 1]? = some 47
          let rightOk := path[p + blocked.length]?.all (· = 47)
          (leftOk && rightOk) || blockedLoop path blocked fuel (p + blocked.length)

/-- `rpsiod_blocked_direct_access`. -/
def blockedDirectAccess (site : Site) (path : Bytes) : Bool :=
  site.blockedDirectAccess.any fun blocked => blockedLoop path blocked.bytes (path.length + 1) 0

/-! ### PHP (`php.c`) -/

/-- `path_has_suffix_ci`. -/
def pathHasSuffixCi (path suffix : Bytes) : Bool :=
  suffix.length ≤ path.length && streqCi (path.drop (path.length - suffix.length)) suffix

/-- `clean_path_copy`. -/
def cleanPathCopy (path : Bytes) : Bytes := (safeCopy 4096 path).takeWhile (· ≠ 63)

/-- The extensions of `rpsiod_php_path_is_php`. -/
def phpExtensions : List Bytes :=
  [ascii ".php", ascii ".php3", ascii ".php4", ascii ".php5", ascii ".php7", ascii ".php8",
    ascii ".phtml", ascii ".pht"]

/-- `rpsiod_php_path_is_php`. -/
def phpPathIsPhp (path : Bytes) : Bool :=
  phpExtensions.any fun suffix => pathHasSuffixCi (cleanPathCopy path) suffix

/-- `php_exts`. -/
def phpExts : List Bytes := phpExtensions ++ [ascii ".phps"]

/-- `path_has_php_source_extension`. -/
def pathHasPhpSourceExtension (path : Bytes) : Bool :=
  phpExts.any fun suffix => pathHasSuffixCi path suffix

/-- `peel_suffixes`. -/
def peelSuffixes : List Bytes :=
  [ascii ".br", ascii ".gz", ascii ".zst", ascii ".bak", ascii ".backup", ascii ".old",
    ascii ".orig", ascii ".save", ascii ".swp", ascii ".swo", ascii ".tmp", ascii ".copy",
    ascii ".dist"]

/-- One round of the peeling loop, if something is peeled. -/
def peelOnce (clean : Bytes) : Option Bytes :=
  if clean.getLast? = some 126 then some clean.dropLast
  else
    (peelSuffixes.find? fun suffix => pathHasSuffixCi clean suffix).map fun suffix =>
      clean.take (clean.length - suffix.length)

/-- The peeling loop; every round but the last makes the name shorter. -/
def peelLoop : ℕ → Bytes → Bytes
  | 0, clean => clean
  | fuel + 1, clean =>
      match peelOnce clean with
      | none => clean
      | some clean => peelLoop fuel clean

/-- `rpsiod_php_path_is_source_like`. -/
def phpPathIsSourceLike (path : Bytes) : Bool :=
  let clean := cleanPathCopy path
  pathHasPhpSourceExtension (peelLoop clean.length clean)

/-! ### What is blocked -/

/-- An entry that is a text of segments: not empty, without a slash at its ends. -/
def IsPathEntry (entry : Bytes) : Prop :=
  entry ≠ [] ∧ entry.head? ≠ some 47 ∧ entry.getLast? ≠ some 47

/-- The segments of an entry are a run in the segments of the path. -/
def Site.Blocks (site : Site) (path : Bytes) : Prop :=
  ∃ blocked ∈ site.blockedDirectAccess, IsPathEntry blocked.bytes ∧
    pathSegments blocked.bytes <:+: pathSegments path

/-- A text at this offset of the path, from the start of a segment to the end of one. -/
structure WholeAt (path text : Bytes) (i : ℕ) : Prop where
  at_ : text <+: path.drop i
  left : i = 0 ∨ path[i - 1]? = some 47
  right : path[i + text.length]?.all (· = 47) = true

/-- Each of these offsets is inside an earlier occurrence of the text, or there is none of them. -/
def Obscured (path text : Bytes) : Prop :=
  ∀ i, WholeAt path text i → ∃ j < i, i < j + text.length ∧ text <+: path.drop j

/-- **The loop gets to an offset that no earlier occurrence reaches over.** -/
theorem blockedLoop_of_whole {path text : Bytes} {i : ℕ} (h : WholeAt path text i)
    (hapart : ∀ j < i, text <+: path.drop j → j + text.length ≤ i) (hne : text ≠ []) {fuel p : ℕ}
    (hp : p ≤ i) (hfuel : i < fuel + p) : blockedLoop path text fuel p = true := by
  have hpos : 0 < text.length := List.length_pos_iff.mpr hne
  have hlt : i < path.length := by
    have hle := h.at_.length_le
    rw [List.length_drop] at hle
    omega
  induction fuel generalizing p with
  | zero => omega
  | succ fuel ih =>
      have hat : text <+: (path.drop p).drop (i - p) := by
        rw [List.drop_drop, Nat.add_sub_cancel' hp]
        exact h.at_
      cases hfirst : indexOfSub text (path.drop p) with
      | none =>
          refine absurd hat (indexOfSub_eq_none_iff.mp hfirst _ ?_)
          rw [List.length_drop]
          omega
      | some k =>
          obtain ⟨hstart, hleast⟩ := isFirst_of_indexOfSub hfirst
          have hle : k ≤ i - p := by
            by_contra hlt
            exact hleast _ (by omega) hat
          rw [blockedLoop, hfirst]
          dsimp only
          rw [Bool.or_eq_true, Bool.and_eq_true, Bool.or_eq_true, decide_eq_true_iff,
            decide_eq_true_iff]
          by_cases hhere : p + k = i
          · left
            rw [hhere]
            exact ⟨h.left, h.right⟩
          · -- an earlier occurrence, and the loop goes on behind it
            right
            rw [List.drop_drop] at hstart
            exact ih (hapart _ (by omega) hstart) (by omega)

/-- Whatever the loop has missed is obscured. -/
theorem obscured_of_unblocked {site : Site} {path : Bytes} {entry : LineText 128}
    (h : blockedDirectAccess site path = false) (hentry : entry ∈ site.blockedDirectAccess)
    (hne : entry.bytes ≠ []) : Obscured path entry.bytes := by
  intro i hwhole
  by_contra hapart
  refine absurd (List.any_eq_false.mp h entry hentry) (not_not.mpr ?_)
  have hle := hwhole.at_.length_le
  have hpos := List.length_pos_iff.mpr hne
  rw [List.length_drop] at hle
  refine blockedLoop_of_whole hwhole (fun j hj hat => ?_) hne (Nat.zero_le _) (by omega)
  by_contra hover
  exact hapart ⟨j, hj, by omega, hat⟩

/-- The byte in front of a segment. -/
theorem getElem?_before {path before part after : Bytes}
    (hpath : path = before ++ part ++ after) (hlast : before.getLast? = some 47) :
    path[before.length - 1]? = some 47 := by
  have hpos : before ≠ [] := by
    rintro rfl
    exact nomatch hlast
  have hlt : before.length - 1 < before.length := Nat.sub_lt (List.length_pos_iff.mpr hpos) one_pos
  rw [hpath, List.append_assoc, List.getElem?_append_left hlt, ← hlast,
    List.getLast?_eq_getElem?]

theorem wholeAt_of_between {path before part after : Bytes}
    (hpath : path = before ++ part ++ after) (h : Between 47 before part after) :
    WholeAt path part before.length := by
  refine ⟨?_, ?_, ?_⟩
  · rw [hpath, List.append_assoc, List.drop_left]
    exact List.prefix_append _ _
  · rcases h.left with rfl | hlast
    · exact Or.inl rfl
    · exact Or.inr (getElem?_before hpath hlast)
  · have hnext : path[before.length + part.length]? = after.head? := by
      rw [hpath, ← List.length_append, List.getElem?_append_right le_rfl, Nat.sub_self,
        List.head?_eq_getElem?]
    rw [hnext]
    rcases h.right with rfl | hhead
    · rfl
    · rw [hhead]
      rfl

/-- A text without a slash: none of its occurrences reaches over the start of a segment. -/
theorem not_obscured_of_between {path before part after : Bytes}
    (hpath : path = before ++ part ++ after) (h : Between 47 before part after) :
    ¬ Obscured path part := by
  intro hobscured
  obtain ⟨j, hj, hover, more, hmore⟩ := hobscured _ (wholeAt_of_between hpath h)
  have hlast : before.getLast? = some 47 := by
    rcases h.left with rfl | hlast
    · exact absurd hj (Nat.not_lt_zero _)
    · exact hlast
  have hslash := getElem?_before hpath hlast
  have hbyte : part[before.length - 1 - j]? = some 47 := by
    rw [← hslash, ← @List.getElem?_append_left _ part more _ (by omega), hmore,
      List.getElem?_drop]
    congr 1
    omega
  exact h.inside (List.mem_of_getElem? hbyte)

/-- **An entry of one segment is never missed.** -/
theorem blockedDirectAccess_of_segment {site : Site} {path : Bytes} {entry : LineText 128}
    (hentry : entry ∈ site.blockedDirectAccess) (h : entry.bytes ∈ pathSegments path) :
    blockedDirectAccess site path = true := by
  obtain ⟨before, after, hpath, hbetween⟩ := between_of_mem_segments h
  by_contra hunblocked
  rw [Bool.not_eq_true] at hunblocked
  exact not_obscured_of_between hpath hbetween
    (obscured_of_unblocked hunblocked hentry (ne_nil_of_mem_segments h))

/-! ### Names of PHP sources -/

theorem pathHasSuffixCi_iff (path suffix : Bytes) :
    pathHasSuffixCi path suffix = true ↔ suffix.map tolower <:+ path.map tolower := by
  unfold pathHasSuffixCi
  rw [Bool.and_eq_true, decide_eq_true_iff, streqCi_iff, List.map_drop]
  constructor
  · rintro ⟨-, hdrop⟩
    rw [← hdrop]
    exact List.drop_suffix _ _
  · intro hsuffix
    have hle := hsuffix.length_le
    rw [List.length_map, List.length_map] at hle
    have hdrop := List.suffix_iff_eq_drop.mp hsuffix
    rw [List.length_map, List.length_map] at hdrop
    exact ⟨hle, hdrop.symm⟩

/-- What the peeling loop takes off. -/
def peelWords : List Bytes := [126] :: peelSuffixes

/-- The name of a PHP source: in any letter case, and with any words of `peel_suffixes` behind its
extension. -/
def SourceName (name : Bytes) : Prop :=
  ∃ core, Peels peelWords (name.map tolower) core ∧ ∃ ext ∈ phpExts, ext <:+ core

theorem peelWords_suffixFree : SuffixFree peelWords :=
  ⟨by decide, by decide⟩

theorem tolower_eq_tilde_iff (c : UInt8) : tolower c = 126 ↔ c = 126 := by
  unfold tolower
  split_ifs with hupper
  · constructor
    · intro h
      have hc : c = 94 := by
        have hsub := congrArg (· - 32) h
        simpa using hsub
      rw [hc] at hupper
      exact absurd hupper (by decide)
    · rintro rfl
      exact absurd hupper (by decide)
  · rfl

/-- A word in lower case at the end of a name. -/
theorem pathHasSuffixCi_eq {suffix : Bytes} (hlower : suffix.map tolower = suffix) (path : Bytes) :
    pathHasSuffixCi path suffix = suffix.isSuffixOf (path.map tolower) := by
  rw [Bool.eq_iff_iff, pathHasSuffixCi_iff, hlower, List.isSuffixOf_iff_suffix]

/-- A round of the loop takes one of the words off. -/
theorem peelOnce_eq (clean : Bytes) :
    (peelOnce clean).map (List.map tolower) = strip peelWords (clean.map tolower) := by
  have htilde : [126].isSuffixOf (clean.map tolower) = decide (clean.getLast? = some 126) := by
    rw [Bool.eq_iff_iff, List.isSuffixOf_iff_suffix, decide_eq_true_iff]
    rcases List.eq_nil_or_concat' clean with rfl | ⟨name, c, rfl⟩
    · exact iff_of_false (by decide) nofun
    · rw [List.getLast?_concat, Option.some.injEq, ← tolower_eq_tilde_iff, List.map_append]
      constructor
      · rintro ⟨before, hbefore⟩
        exact (List.cons.inj (List.append_inj_right' hbefore rfl)).1.symm
      · intro hc
        exact ⟨name.map tolower, by rw [← hc]; rfl⟩
  have hfind : (peelSuffixes.find? fun suffix => pathHasSuffixCi clean suffix) =
      peelSuffixes.find? fun suffix => suffix.isSuffixOf (clean.map tolower) := by
    have hlower : ∀ suffix ∈ peelSuffixes, suffix.map tolower = suffix := by decide
    exact List.find?_congr fun suffix hsuffix => pathHasSuffixCi_eq (hlower suffix hsuffix) clean
  unfold peelOnce strip peelWords
  rw [List.find?_cons, htilde, hfind]
  by_cases hlast : clean.getLast? = some 126
  · rw [if_pos hlast, decide_eq_true hlast]
    simp [List.dropLast_eq_take]
  · rw [if_neg hlast, decide_eq_false hlast]
    simp only [Option.map_map]
    congr 1
    funext suffix
    simp

theorem peelLoop_eq (fuel : ℕ) (clean : Bytes) :
    (peelLoop fuel clean).map tolower = peelUpTo peelWords fuel (clean.map tolower) := by
  induction fuel generalizing clean with
  | zero => rfl
  | succ fuel ih =>
      rw [peelLoop, peelUpTo, ← peelOnce_eq]
      cases peelOnce clean with
      | none => rfl
      | some rest => exact ih rest

/-- Nothing can be taken off behind an extension of PHP. -/
theorem not_suffix_of_ext (core : Bytes) (h : ∃ ext ∈ phpExts, ext <:+ core) :
    ∀ word ∈ peelWords, ¬ word <:+ core := by
  obtain ⟨ext, hext, hsuffix⟩ := h
  intro word hword hend
  have hapart : ∀ ext ∈ phpExts, ∀ word ∈ peelWords, ¬ ext <:+ word ∧ ¬ word <:+ ext := by
    decide
  obtain ⟨hnot, hnot'⟩ := hapart ext hext word hword
  rcases List.suffix_or_suffix_of_suffix hsuffix hend with h | h
  · exact hnot h
  · exact hnot' h

/-- **What the peeling loop leaves decides.** -/
theorem sourceName_iff (name : Bytes) :
    SourceName name ↔ pathHasPhpSourceExtension (peelLoop name.length name) = true := by
  have hlower : ∀ ext ∈ phpExts, ext.map tolower = ext := by decide
  unfold SourceName
  rw [exists_core_iff peelWords_suffixFree not_suffix_of_ext]
  unfold pathHasPhpSourceExtension peel
  rw [List.length_map, ← peelLoop_eq, List.any_eq_true]
  constructor
  · rintro ⟨ext, hext, hsuffix⟩
    refine ⟨ext, hext, ?_⟩
    rw [pathHasSuffixCi_iff, hlower ext hext]
    exact hsuffix
  · rintro ⟨ext, hext, hsuffix⟩
    rw [pathHasSuffixCi_iff, hlower ext hext] at hsuffix
    exact ⟨ext, hext, hsuffix⟩

/-- What `rpsiod_php_path_is_source_like` tests is the name up to a question mark. -/
theorem phpPathIsSourceLike_iff (path : Bytes) :
    phpPathIsSourceLike path = true ↔ SourceName (cleanPathCopy path) :=
  (sourceName_iff _).symm

/-- A name with one more word behind it. -/
theorem sourceName_append_iff {word : Bytes} (hword : word ∈ peelWords) (name : Bytes) :
    SourceName (name ++ word) ↔ SourceName name := by
  have hlower : ∀ word ∈ peelWords, word.map tolower = word := by decide
  unfold SourceName
  rw [List.map_append, hlower word hword]
  simp only [peels_append_iff peelWords_suffixFree hword]
  constructor
  · rintro ⟨core, rfl | hpeels, hext⟩
    · exact absurd (List.suffix_append _ _) (not_suffix_of_ext _ hext word hword)
    · exact ⟨core, hpeels, hext⟩
  · rintro ⟨core, hpeels, hext⟩
    exact ⟨core, Or.inr hpeels, hext⟩

end Rpsiod

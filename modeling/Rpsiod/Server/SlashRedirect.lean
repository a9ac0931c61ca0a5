import Rpsiod.Http.Grammar
import Rpsiod.Lib.UriReference
import Rpsiod.Server.Decoding
import Rpsiod.Server.Static

/-!
# The redirect to a directory (`redirect_directory_slash`)

`serve_static` looks for a directory under the decoded path without the slashes in front of it, and
redirects to the path as it was sent, with a slash behind it.

* `noDotSegments_of_slashRedirect`: a path that is redirected has no dot segments.
* `slashRedirect_iff`: **the location leads to the same directory on the same authority exactly if
  the path does not begin with two slashes and the target has no number sign**.
-/

namespace Rpsiod

open ListSearch Segments PercentEncoding UriReference

variable {w : World} {site : Site} {course : Course} {cache : MetaCache} {req : HttpRequest}

/-! ### What is redirected -/

/-- A query, with its question mark. -/
def queryText (path : Bytes) : Bytes := path.dropWhile (· ≠ 63)

/-- The location. -/
def slashLocation (path : Bytes) : Bytes := beforeQuery path ++ ascii "/" ++ queryText path

theorem beforeQuery_append_queryText (path : Bytes) : beforeQuery path ++ queryText path = path :=
  List.takeWhile_append_dropWhile

theorem queryText_cases (path : Bytes) :
    queryText path = [] ∨ ∃ rest, queryText path = 63 :: rest := by
  unfold queryText
  induction path with
  | nil => exact Or.inl rfl
  | cons c path ih =>
      by_cases hc : c = 63
      · right
        rw [hc]
        exact ⟨path, rfl⟩
      · rw [List.dropWhile_cons_of_pos (by simpa using hc)]
        exact ih

/-- The path of an accepted request fits the buffer of the location. -/
theorem redirectDirectorySlash_eq (hlen : req.path.length < pathLen) (t : Trace) :
    redirectDirectorySlash w site req t =
      sendRedirect w site 301 (slashLocation req.path) req t := by
  have hsum := congrArg List.length (beforeQuery_append_queryText req.path)
  rw [List.length_append] at hsum
  unfold redirectDirectorySlash
  change (if pathLen + 2 ≤ (beforeQuery req.path).length + 1 then _
    else if (decide (queryText req.path ≠ []) &&
      decide (pathLen + 2 ≤ (beforeQuery req.path).length + 1 + (queryText req.path).length)) = true
      then _ else _) = _
  rw [if_neg (by omega), if_neg]
  · rfl
  · rw [Bool.and_eq_true, decide_eq_true_eq, decide_eq_true_eq]
    omega

theorem openFailed_ne (errno : Errno) : openFailed errno ≠ .redirectDirectorySlash := nofun

theorem servePhp_ne (selected : Bytes) : servePhp site req selected ≠ .redirectDirectorySlash := by
  unfold servePhp
  split_ifs <;> exact nofun

theorem serveMaintenance_ne : serveMaintenance w site ≠ .redirectDirectorySlash := by
  intro h
  unfold serveMaintenance at h
  split at h
  · split_ifs at h
  · exact nomatch h

theorem serveDecoded_ne (decoded : Bytes) :
    serveDecoded site course cache req decoded ≠ .redirectDirectorySlash := by
  intro h
  unfold serveDecoded at h
  split_ifs at h
  · unfold servePhpRouting at h
    split at h
    · exact openFailed_ne _ h
    · split_ifs at h
      exact servePhp_ne _ h
  · unfold serveFiles at h
    split at h
    · exact openFailed_ne _ h
    · dsimp only at h
      split_ifs at h
      exact servePhp_ne _ h

/-- The tests of the path in front of the redirect. -/
structure SlashRedirected (req : HttpRequest) (decoded : Bytes) : Prop where
  decodes : percentDecodePath req.path pathLen = some decoded
  segments : pathHasForbiddenSegment decoded = false
  slashless : requestPathHasTrailingSlash req.path = false

theorem slashRedirected_of_staticAnswer
    (h : staticAnswer w site course cache req = .redirectDirectorySlash) :
    ∃ decoded, SlashRedirected req decoded := by
  unfold staticAnswer at h
  split_ifs at h with hmaintenance hmethod
  · exact absurd h serveMaintenance_ne
  · cases hdecode : percentDecodePath req.path pathLen with
    | none =>
        rw [hdecode] at h
        exact nomatch h
    | some decoded =>
        rw [hdecode] at h
        dsimp only at h
        split_ifs at h with hsegments hblocked hdirectory
        · rw [Bool.and_eq_true, Bool.not_eq_true'] at hdirectory
          exact ⟨decoded, hdecode, by simpa using hsegments, hdirectory.1⟩
        · exact absurd h (serveDecoded_ne decoded)

/-- The path of an accepted request begins with a slash. -/
theorem head_of_parseRequestTarget {target path : Bytes} {a : Option Bytes}
    (h : parseRequestTarget target = some (path, a)) : path.head? = some 47 := by
  have haccept : ∀ {origin : Bytes}, acceptOrigin origin = some path → path.head? = some 47 := by
    intro origin horigin
    unfold acceptOrigin at horigin
    split_ifs at horigin with hbad
    rw [Bool.or_eq_true, decide_eq_true_iff, not_or, not_not] at hbad
    rw [← Option.some.inj horigin]
    exact hbad.1
  unfold parseRequestTarget at h
  split_ifs at h
  cases hs : absoluteSchemeLen target with
  | none =>
      simp only [hs, Option.map_eq_some_iff, Prod.mk.injEq] at h
      obtain ⟨origin, horigin, rfl, -⟩ := h
      exact haccept horigin
  | some schemeLen =>
      simp only [hs] at h
      cases hsplit : splitFirst 47 (target.drop schemeLen) with
      | none =>
          simp only [hsplit] at h
          split_ifs at h
          simp only [Option.map_eq_some_iff, Prod.mk.injEq] at h
          obtain ⟨origin, horigin, rfl, -⟩ := h
          exact haccept horigin
      | some pair =>
          simp only [hsplit] at h
          split_ifs at h
          simp only [Option.map_eq_some_iff, Prod.mk.injEq] at h
          obtain ⟨origin, horigin, rfl, -⟩ := h
          exact haccept horigin

theorem Parsed.path_slash {buf : Bytes} (p : Parsed buf req) : req.path.head? = some 47 := by
  obtain ⟨method, target, parts⟩ := parseRequestLine_eq_ok p.line_eq
  obtain ⟨path, htarget, hreq⟩ := parts.target_ok
  have hpath : req.path = path := p.sameTarget.path.trans (congrArg HttpRequest.path hreq)
  rw [hpath]
  exact head_of_parseRequestTarget htarget

/-! ### Dot segments -/

/-- A segment without escapes that stands between two slashes is a segment of the decoded path. -/
theorem mem_segments_of_decodes {before part after out : Bytes}
    (hbetween : Between 47 before part after) (hleft : before ≠ []) (hne : part ≠ []) (hplain : 37 ∉ part)
    (h : Decodes (before ++ part ++ after) out) : part ∈ pathSegments out := by
  obtain ⟨before, rfl⟩ : ∃ front, before = front ++ [47] := by
    rcases hbetween.left with hnil | hlast
    · exact absurd hnil hleft
    · exact ⟨before.dropLast, (List.dropLast_append_getLast? 47 hlast).symm⟩
  rw [List.append_assoc, List.append_assoc, List.singleton_append] at h
  obtain ⟨front, back, rfl, -, hback⟩ := h.split (by decide) (by decide)
  rcases hbetween.right with rfl | hhead
  · rw [List.append_nil] at hback
    rw [hback.eq_self hplain]
    have hlast : Between 47 (front ++ [47]) part [] :=
      ⟨Or.inr List.getLast?_concat, Or.inl rfl, hbetween.inside⟩
    have := mem_segments_of_between hlast hne
    rwa [List.append_nil, List.append_assoc] at this
  · obtain ⟨after, rfl⟩ : ∃ more, after = 47 :: more := by
      cases after with
      | nil => exact absurd hhead nofun
      | cons c more => exact ⟨more, by rw [Option.some.inj hhead]⟩
    obtain ⟨middle, rest, rfl, hmiddle, -⟩ := hback.split (by decide) (by decide)
    rw [hmiddle.eq_self hplain]
    have hmid : Between 47 (front ++ [47]) part (47 :: rest) :=
      ⟨Or.inr List.getLast?_concat, Or.inr rfl, hbetween.inside⟩
    have := mem_segments_of_between hmid hne
    rwa [List.append_assoc, List.append_assoc] at this

/-- **A path that is redirected has no dot segments**, as it was sent. -/
theorem noDotSegments_of_slashRedirect {decoded : Bytes} (hhead : req.path.head? = some 47)
    (h : SlashRedirected req decoded) : NoDotSegments (beforeQuery req.path) := by
  obtain ⟨text, hfit, hdecoded⟩ := (percentDecodePath_iff (by decide)).mp h.decodes
  have hforbidden : ∀ part ∈ pathSegments decoded, part ≠ ascii "." ∧ part ≠ ascii ".." := by
    intro part hpart
    have hany := h.segments
    rw [pathHasForbiddenSegment, Bool.or_eq_false_iff, List.any_eq_false] at hany
    have := hany.2 part hpart
    simpa using this
  have hmem : ∀ part : Bytes, part ≠ [] → 37 ∉ part → part.head? ≠ some 47 →
      part ∈ segments 47 (beforeQuery req.path) → part ∈ pathSegments decoded := by
    intro part hne hplain hslash hpart
    obtain ⟨before, after, heq, hbetween⟩ := between_of_mem_segments hpart
    have hleft : before ≠ [] := by
      rintro rfl
      -- the path begins with a slash, the segment does not
      obtain ⟨c, rest, rfl⟩ := List.exists_cons_of_ne_nil hne
      have hpath := beforeQuery_append_queryText req.path
      rw [heq] at hpath
      rw [← hpath] at hhead
      exact hslash hhead
    have hdecodes := hfit.decodes
    rw [heq] at hdecodes
    have hin := mem_segments_of_decodes hbetween hleft hne hplain hdecodes
    have htext : text ≠ [] := by
      rintro rfl
      exact absurd hin List.not_mem_nil
    rwa [hdecoded, if_neg htext]
  constructor
  · intro hdot
    exact (hforbidden _ (hmem _ (by decide) (by decide) (by decide) hdot)).1 rfl
  · intro hdots
    exact (hforbidden _ (hmem _ (by decide) (by decide) (by decide) hdots)).2 rfl

/-! ### Where the location leads -/

/-- The URL of a request on this authority. -/
def requestUrl (scheme authority path : Bytes) : Reference where
  scheme := some scheme
  authority := some authority
  path := beforeQuery path
  query := if queryText path = [] then none else some (queryText path).tail

/-- The target that a client sends for a URL. -/
def originForm (url : Reference) : Bytes :=
  (if url.path = [] then ascii "/" else url.path) ++
    match url.query with
    | none => []
    | some query => 63 :: query

/-- The location leads from the URL of the request to the same authority and query, with a slash
behind the path, and from there no redirect to a directory follows. -/
structure LeadsToDirectory (scheme authority path location : Bytes) : Prop where
  sameAuthority :
    (resolve (requestUrl scheme authority path) (parse location)).authority = some authority
  slashed : (resolve (requestUrl scheme authority path) (parse location)).path =
    beforeQuery path ++ ascii "/"
  sameQuery : (resolve (requestUrl scheme authority path) (parse location)).query =
    (requestUrl scheme authority path).query
  notNetwork : ¬ IsNetworkPath location
  settled : ∀ (w : World) (site : Site) (course : Course) (cache : MetaCache) (req : HttpRequest),
    req.path = originForm (resolve (requestUrl scheme authority path) (parse location)) →
      staticAnswer w site course cache req ≠ .redirectDirectorySlash

theorem parse_slash {c : UInt8} {s : Bytes} (hc : c ≠ 47) :
    parse (47 :: c :: s) = parsePath none none (47 :: c :: s) := by
  have hscheme : schemePart (47 :: c :: s) = [] := rfl
  unfold parse
  rw [hscheme, if_neg (fun h => h.1 rfl)]
  unfold parseHier
  split
  · next heq => exact absurd (List.cons.inj (List.cons.inj heq).2).1 hc
  · rfl

theorem isNetworkPath_slashes (s : Bytes) : IsNetworkPath (47 :: 47 :: s) := by
  have hscheme : schemePart (47 :: 47 :: s) = [] := rfl
  unfold IsNetworkPath parse
  rw [hscheme, if_neg (fun h => h.1 rfl)]
  exact ⟨rfl, nofun⟩

theorem not_mem_beforeQuery (path : Bytes) : 63 ∉ beforeQuery path := fun hmem => by
  simpa using List.mem_takeWhile_imp hmem

/-- Up to a number sign, the path of the location is that of the request with a slash. -/
theorem pathPart_slashLocation (path : Bytes) :
    pathPart (slashLocation path) = (beforeQuery path ++ ascii "/").takeWhile (· ≠ 35) := by
  have hnone : (queryText path).takeWhile (fun c => c ≠ 63 && c ≠ 35) = [] := by
    rcases queryText_cases path with hnil | ⟨rest, hquery⟩
    · rw [hnil]
      rfl
    · rw [hquery]
      rfl
  have hplain : ∀ {s : Bytes}, 63 ∉ s →
      (s ++ queryText path).takeWhile (fun c => c ≠ 63 && c ≠ 35) = s.takeWhile (· ≠ 35) := by
    intro s hs
    induction s with
    | nil => exact hnone
    | cons c s ih =>
        rw [List.mem_cons, not_or] at hs
        rw [List.cons_append, List.takeWhile_cons, List.takeWhile_cons]
        by_cases hc : c = 35
        · rw [if_neg (by simp [hc]), if_neg (by simp [hc])]
        · rw [if_pos (by simp [hc, Ne.symm hs.1]), if_pos (by simp [hc]), ih hs.2]
  refine hplain fun hmem => ?_
  rcases List.mem_append.mp hmem with hmem | hmem
  · exact not_mem_beforeQuery path hmem
  · exact absurd hmem (by decide)

theorem behindPath_slashLocation {path : Bytes} (h : 35 ∉ beforeQuery path) :
    behindPath (slashLocation path) = queryText path := by
  have hall : ∀ c ∈ beforeQuery path ++ ascii "/", (decide (c ≠ 63) && decide (c ≠ 35)) = true := by
    intro c hc
    rw [Bool.and_eq_true, decide_eq_true_eq, decide_eq_true_eq]
    rcases List.mem_append.mp hc with hc | hc
    · exact ⟨ne_of_mem_of_not_mem hc (not_mem_beforeQuery path), ne_of_mem_of_not_mem hc h⟩
    · rw [List.mem_singleton.mp hc]
      decide
  unfold behindPath slashLocation
  rw [List.dropWhile_append_of_pos hall]
  rcases queryText_cases path with hnil | ⟨rest, hquery⟩
  · rw [hnil]
    rfl
  · rw [hquery]
    rfl

/-- A location that begins with one slash keeps the authority. -/
theorem resolve_slashLocation {scheme authority path : Bytes} {c : UInt8} {s : Bytes}
    (hlocation : slashLocation path = 47 :: c :: s) (hc : c ≠ 47) :
    (parse (slashLocation path)).scheme = none ∧ (parse (slashLocation path)).authority = none ∧
      (resolve (requestUrl scheme authority path) (parse (slashLocation path))) =
        { parsePath none none (slashLocation path) with
          scheme := some scheme
          authority := some authority
          path := removeDotSegments (pathPart (slashLocation path)) } := by
  have hparse : parse (slashLocation path) = parsePath none none (slashLocation path) := by
    rw [hlocation]
    exact parse_slash hc
  have hhead : (pathPart (slashLocation path)).head? = some 47 := by
    rw [hlocation]
    rfl
  have hne : pathPart (slashLocation path) ≠ [] := by
    intro hnil
    rw [hnil] at hhead
    exact nomatch hhead
  refine ⟨by rw [hparse]; rfl, by rw [hparse]; rfl, ?_⟩
  rw [hparse]
  have hpath : (parsePath none none (slashLocation path)).path ≠ [] := hne
  unfold resolve
  rw [if_neg (fun h => h rfl), if_neg (fun h => h rfl), if_neg hpath]
  have hif : (if (parsePath none none (slashLocation path)).path.head? = some 47 then
      (parsePath none none (slashLocation path)).path
      else merge (requestUrl scheme authority path)
        (parsePath none none (slashLocation path)).path) = pathPart (slashLocation path) :=
    if_pos hhead
  rw [hif]
  rfl

/-- The path that is redirected ends in a byte that is no slash. -/
theorem slashLocation_cases {path : Bytes} (hhead : path.head? = some 47)
    (hslashless : requestPathHasTrailingSlash path = false) :
    ∃ c s, slashLocation path = 47 :: c :: s ∧ (startsWith path (ascii "//") = false ↔ c ≠ 47) := by
  have hpath := beforeQuery_append_queryText path
  have hlast : (beforeQuery path).getLast? ≠ some 47 := by
    unfold requestPathHasTrailingSlash at hslashless
    exact of_decide_eq_false hslashless
  rcases hbefore : beforeQuery path with _ | ⟨d, _ | ⟨c, s⟩⟩
  · -- the path would begin with its query
    rw [hbefore] at hpath
    rcases queryText_cases path with hnil | ⟨rest, hquery⟩
    · rw [← hpath, hnil] at hhead
      exact nomatch hhead
    · rw [← hpath, hquery] at hhead
      exact absurd (Option.some.inj hhead) (by decide)
  · rw [hbefore] at hpath hlast
    rw [← hpath] at hhead
    exact absurd hhead hlast
  · rw [hbefore] at hpath
    have hd : d = 47 := by
      rw [← hpath] at hhead
      exact Option.some.inj hhead
    subst hd
    refine ⟨c, s ++ ascii "/" ++ queryText path, ?_, ?_⟩
    · unfold slashLocation
      rw [hbefore]
      rfl
    · rw [← hpath]
      show (ascii "//").isPrefixOf (47 :: c :: (s ++ queryText path)) = false ↔ _
      have hslashes : ascii "//" = [47, 47] := rfl
      rw [hslashes, List.isPrefixOf_cons_cons, List.isPrefixOf_cons_cons, List.isPrefixOf_nil_left,
        beq_self_eq_true, Bool.true_and, Bool.and_true, beq_eq_false_iff_ne]
      exact ne_comm

theorem originForm_slashLocation {url : Reference} {path : Bytes}
    (hpath : url.path = beforeQuery path ++ ascii "/")
    (hquery : url.query = if queryText path = [] then none else some (queryText path).tail) :
    originForm url = slashLocation path := by
  have hne : url.path ≠ [] := by
    rw [hpath]
    exact List.append_ne_nil_of_right_ne_nil _ (by decide)
  unfold originForm slashLocation
  rw [if_neg hne, hpath, hquery]
  rcases queryText_cases path with hnil | ⟨rest, hq⟩
  · rw [hnil]
    rfl
  · rw [hq]
    rfl

theorem trailingSlash_slashLocation (path : Bytes) :
    requestPathHasTrailingSlash (slashLocation path) = true := by
  have hbefore : (slashLocation path).takeWhile (· ≠ 63) = beforeQuery path ++ ascii "/" := by
    have hall : ∀ c ∈ beforeQuery path ++ ascii "/", decide (c ≠ 63) = true := by
      intro c hc
      rw [decide_eq_true_eq]
      rcases List.mem_append.mp hc with hc | hc
      · exact ne_of_mem_of_not_mem hc (not_mem_beforeQuery path)
      · rw [List.mem_singleton.mp hc]
        decide
    unfold slashLocation
    rw [List.takeWhile_append_of_pos hall]
    rcases queryText_cases path with hnil | ⟨rest, hq⟩
    · rw [hnil, List.takeWhile_nil, List.append_nil]
    · rw [hq, List.takeWhile_cons_of_neg (by decide), List.append_nil]
  unfold requestPathHasTrailingSlash
  rw [hbefore, decide_eq_true_eq]
  exact List.getLast?_concat

/-- **When the location leads to the directory**: it does if the path does not begin with two
slashes and there is no number sign, and in no other case. -/
theorem leadsToDirectory_iff {scheme authority path : Bytes} (hhead : path.head? = some 47)
    (hslashless : requestPathHasTrailingSlash path = false)
    (hdots : NoDotSegments (beforeQuery path)) :
    LeadsToDirectory scheme authority path (slashLocation path) ↔
      startsWith path (ascii "//") = false ∧ 35 ∉ path := by
  obtain ⟨c, s, hlocation, hc⟩ := slashLocation_cases hhead hslashless
  rw [hc]
  constructor
  · intro h
    have hne : c ≠ 47 := by
      rintro rfl
      rw [hlocation] at h
      exact h.notNetwork (isNetworkPath_slashes s)
    refine ⟨hne, ?_⟩
    obtain ⟨-, -, hresolve⟩ := @resolve_slashLocation scheme authority path c s hlocation hne
    have hslashed := h.slashed
    have hquery := h.sameQuery
    rw [hresolve] at hslashed hquery
    -- the path would be cut at a number sign, and be too short
    have hbefore : 35 ∉ beforeQuery path := by
      intro hmem
      have hlong := length_removeDotSegments_le (pathPart (slashLocation path))
      rw [show removeDotSegments (pathPart (slashLocation path)) = _ from hslashed,
        pathPart_slashLocation] at hlong
      have hwhole : (beforeQuery path ++ ascii "/").takeWhile (fun c => decide (c ≠ 35)) =
          beforeQuery path ++ ascii "/" :=
        (List.takeWhile_prefix _).eq_of_length_le hlong
      rw [List.takeWhile_eq_self_iff] at hwhole
      simpa using hwhole 35 (List.mem_append_left _ hmem)
    -- and so would the query
    have hbehind : 35 ∉ queryText path := by
      intro hmem
      rcases queryText_cases path with hnil | ⟨rest, hq⟩
      · rw [hnil] at hmem
        exact absurd hmem List.not_mem_nil
      · have hmark : (queryText path).head? = some 63 := by
          rw [hq]
          rfl
        unfold parsePath requestUrl at hquery
        dsimp only at hquery
        rw [behindPath_slashLocation hbefore, if_pos hmark, if_neg (List.ne_nil_of_mem hmem),
          Option.some.injEq, List.takeWhile_eq_self_iff] at hquery
        rw [hq] at hmem hquery
        rcases List.mem_cons.mp hmem with hbad | hmem
        · exact absurd hbad (by decide)
        · simpa using hquery 35 hmem
    rw [← beforeQuery_append_queryText path, List.mem_append, not_or]
    exact ⟨hbefore, hbehind⟩
  · rintro ⟨hne, hsign⟩
    rw [← beforeQuery_append_queryText path, List.mem_append, not_or] at hsign
    obtain ⟨hscheme, hauthority, hresolve⟩ :=
      @resolve_slashLocation scheme authority path c s hlocation hne
    have hpart : pathPart (slashLocation path) = beforeQuery path ++ ascii "/" := by
      rw [pathPart_slashLocation, List.takeWhile_eq_self_iff]
      intro d hd
      rw [decide_eq_true_eq]
      rcases List.mem_append.mp hd with hd | hd
      · exact ne_of_mem_of_not_mem hd hsign.1
      · rw [List.mem_singleton.mp hd]
        decide
    have hclean : removeDotSegments (beforeQuery path ++ ascii "/") =
        beforeQuery path ++ ascii "/" := by
      refine removeDotSegments_eq_self (Or.inr ?_) ?_
      · rw [← hpart, hlocation]
        rfl
      · have hsame : segments 47 (beforeQuery path ++ ascii "/") = segments 47 (beforeQuery path) :=
          segments_concat_sep _
        unfold NoDotSegments
        rw [hsame]
        exact hdots
    have hquery : (resolve (requestUrl scheme authority path) (parse (slashLocation path))).query =
        (requestUrl scheme authority path).query := by
      rw [hresolve]
      unfold parsePath requestUrl
      dsimp only
      rw [behindPath_slashLocation hsign.1]
      rcases queryText_cases path with hnil | ⟨rest, hq⟩
      · rw [hnil]
        rfl
      · have hmark : (queryText path).head? = some 63 := by
          rw [hq]
          rfl
        have hqne : queryText path ≠ [] := by
          rw [hq]
          exact List.cons_ne_nil 63 rest
        rw [if_pos hmark, if_neg hqne, Option.some.injEq, List.takeWhile_eq_self_iff]
        intro d hd
        rw [decide_eq_true_eq]
        exact ne_of_mem_of_not_mem (List.mem_of_mem_tail hd) hsign.2
    have hslashed : (resolve (requestUrl scheme authority path) (parse (slashLocation path))).path =
        beforeQuery path ++ ascii "/" := by
      rw [hresolve]
      show removeDotSegments (pathPart (slashLocation path)) = _
      rw [hpart, hclean]
    refine ⟨by rw [hresolve], hslashed, hquery, fun hnetwork => hnetwork.2 hauthority, ?_⟩
    intro w site course cache req hpath hanswer
    obtain ⟨decoded, hredirected⟩ := slashRedirected_of_staticAnswer hanswer
    have htrailing := hredirected.slashless
    rw [hpath, originForm_slashLocation hslashed hquery, trailingSlash_slashLocation] at htrailing
    exact absurd htrailing (by decide)

/-- **The redirect to a directory stays where it is exactly if the path does not begin with two
slashes and the target has no number sign**, on whatever authority the request came in. -/
theorem slashRedirect_iff {raw : Bytes} (haccepted : httpParseRequest raw = .accepted req)
    (hslash : staticAnswer (w.under course.variants) site course cache req =
      .redirectDirectorySlash)
    (fpm : Fpm) (body : Bytes) (t : Trace) (scheme authority : Bytes) :
    serveStatic w site course cache fpm req body t =
        sendRedirect (w.under course.variants) site 301 (slashLocation req.path) req t ∧
      (LeadsToDirectory scheme authority req.path (slashLocation req.path) ↔
        startsWith req.path (ascii "//") = false ∧ 35 ∉ req.path) := by
  obtain ⟨p⟩ := parsed_of_accepted haccepted
  obtain ⟨decoded, hredirected⟩ := slashRedirected_of_staticAnswer hslash
  constructor
  · unfold serveStatic
    dsimp only
    rw [hslash]
    exact redirectDirectorySlash_eq p.texts.2.1.1 t
  · exact leadsToDirectory_iff p.path_slash hredirected.slashless
      (noDotSegments_of_slashRedirect p.path_slash hredirected)

/-! ### A directory with the name of a host -/

/-- A directory below the document root. -/
def Tree.folder (name : Bytes) : Tree where
  lookup asked := if asked = name then .directory else .missing .enoent
  named := by
    intro asked file hlookup
    split_ifs at hlookup

def StaticResponder.isSlashRedirect : StaticResponder → Bool
  | .redirectDirectorySlash => true
  | _ => false

theorem eq_of_isSlashRedirect {answer : StaticResponder} (h : answer.isSlashRedirect = true) :
    answer = .redirectDirectorySlash := by
  cases answer with
  | redirectDirectorySlash => rfl
  | sendErrorPage _ => exact nomatch h
  | sendFileFd _ _ _ _ => exact nomatch h
  | sendPhpFpm _ => exact nomatch h

/-- `//evil.example`, asked for on `example.org`. -/
def slashesRequest : Bytes := ascii "GET //evil.example HTTP/1.1\x0d\nHost: example.org\x0d\n\x0d\n"

/-- **The location of a path with two slashes in front leads to another host.** -/
theorem slashRedirect_leaves_host :
    ∃ req, httpParseRequest slashesRequest = .accepted req ∧
      staticAnswer sampleWorld {} (.still (.folder (ascii "evil.example"))) freshEntry req =
        .redirectDirectorySlash ∧
      slashLocation req.path = ascii "//evil.example/" ∧
      (resolve (requestUrl (ascii "http") (ascii "example.org") req.path)
        (parse (slashLocation req.path))).authority = some (ascii "evil.example") ∧
      ¬ LeadsToDirectory (ascii "http") (ascii "example.org") req.path
        (slashLocation req.path) := by
  obtain ⟨req, hreq, hcheck⟩ := @exists_accepted slashesRequest (fun req =>
    (staticAnswer sampleWorld {} (.still (.folder (ascii "evil.example"))) freshEntry
      req).isSlashRedirect && decide (req.path = ascii "//evil.example")) (by decide +kernel)
  rw [Bool.and_eq_true, decide_eq_true_eq] at hcheck
  obtain ⟨hanswer, hpath⟩ := hcheck
  refine ⟨req, hreq, eq_of_isSlashRedirect hanswer, ?_, ?_, ?_⟩
  · rw [hpath]
    decide
  · rw [hpath]
    decide
  · intro hleads
    have hauthority := hleads.sameAuthority
    rw [hpath] at hauthority
    exact absurd hauthority (by decide)

/-- `/docs`, with a query. -/
def docsRequest : Bytes := ascii "GET /docs?page=2 HTTP/1.1\x0d\nHost: example.org\x0d\n\x0d\n"

theorem slashRedirect_docs :
    ∃ req, httpParseRequest docsRequest = .accepted req ∧
      slashLocation req.path = ascii "/docs/?page=2" ∧
      LeadsToDirectory (ascii "http") (ascii "example.org") req.path (slashLocation req.path) := by
  obtain ⟨req, hreq, hcheck⟩ := @exists_accepted docsRequest (fun req =>
    (staticAnswer (sampleWorld.under (.folder (ascii "docs"))) {} (.still (.folder (ascii "docs")))
      freshEntry req).isSlashRedirect && decide (req.path = ascii "/docs?page=2"))
    (by decide +kernel)
  rw [Bool.and_eq_true, decide_eq_true_eq] at hcheck
  obtain ⟨hanswer, hpath⟩ := hcheck
  refine ⟨req, hreq, by rw [hpath]; decide, ?_⟩
  refine (slashRedirect_iff hreq (eq_of_isSlashRedirect hanswer)
    ⟨false, false, false, false, [], .closed⟩ [] []
    (ascii "http") (ascii "example.org")).2.mpr ?_
  rw [hpath]
  decide

end Rpsiod

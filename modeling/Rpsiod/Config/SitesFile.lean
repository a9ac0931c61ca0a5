import Rpsiod.Config.SiteSettings

/-!
# Reading the sites file (`parse_sites_file`)

The file is read by lines.  A line with a dash at the first level starts a site, one deeper is a
list entry, and any other has a key and a value; the keys in force stand on a stack, in the order of
their levels of indentation.

* `fgetsPieces`, `sitesLine`: what of the file is a line, and what of a line is looked at.
* `fgetsPieces_lines`: the pieces are the lines, unless one is very long.
* `parseSitesLine`, `parseSitesFile`: the loop of `parse_sites_file`.
* `siteLines`: the lines of each site, each with the keys in force in front of it.
* `parseSitesFile_ok`: **a site is its defaults with the lines of that site applied in order**.
-/

namespace Rpsiod

open FailingRun ListSearch

/-! ### Lines -/

/-- `fgets` until the end, with room for so many bytes in the piece that is being read. -/
def fgetsFrom (size : ℕ) : ℕ → Bytes → Bytes → List Bytes
  | _, piece, [] => if piece = [] then [] else [piece]
  | room, piece, c :: cs =>
      if c = 10 ∨ room ≤ 1 then (piece ++ [c]) :: fgetsFrom size size [] cs
      else fgetsFrom size (room - 1) (piece ++ [c]) cs

/-- The pieces that `fgets(raw, sizeof(raw), fp)` returns one after the other: lines, of which the
longer ones come in several pieces. -/
def fgetsPieces (file : Bytes) : List Bytes := fgetsFrom 4095 4095 [] file

/-- The loop of `strip_comment`: the byte in front, and the quote that is open. -/
def stripCommentLoop : Option UInt8 → Option UInt8 → Bytes → Bytes
  | _, _, [] => []
  | before, quote, c :: cs =>
      let quote :=
        if (c = 39 ∨ c = 34) ∧ before ≠ some 92 then
          match quote with
          | none => some c
          | some open' => if c = open' then none else quote
        else quote
      if c = 35 ∧ quote = none then [] else c :: stripCommentLoop (some c) quote cs

/-- `strip_comment`. -/
def stripComment (line : Bytes) : Bytes := stripCommentLoop none none line

/-- `indent_level`. -/
def indentLevel (line : Bytes) : ℕ := (line.takeWhile (· = 32)).length / 4

/-- A line of the file: its level, and what is written behind its indentation. -/
structure SitesLine where
  level : ℕ
  written : Bytes
  deriving DecidableEq

/-- The first steps of the loop body; the line is a C string. -/
def sitesLine (raw : Bytes) : SitesLine :=
  let line := stripComment (raw.takeWhile (· ≠ 0))
  ⟨indentLevel line, line.dropWhile (· = 32)⟩

/-- The line as the parser takes it. -/
def SitesLine.text (line : SitesLine) : Bytes := trim line.written

/-- A line with a dash. -/
def SitesLine.isItem (line : SitesLine) : Bool := line.text.head? = some 45

/-- What follows the dash. -/
def SitesLine.item (line : SitesLine) : Bytes := trim line.text.tail

/-- Key and value, in buffers of 128 and 1024 bytes. -/
def SitesLine.keyValue (line : SitesLine) : Option (Bytes × Bytes) :=
  splitKeyValue 128 1024 line.text

/-- A short line is read in one piece. -/
theorem fgetsFrom_line {size : ℕ} {line : Bytes} (hlf : 10 ∉ line) (rest piece : Bytes) {room : ℕ}
    (hroom : line.length < room) :
    fgetsFrom size room piece (line ++ 10 :: rest) =
      (piece ++ line ++ [10]) :: fgetsFrom size size [] rest := by
  induction line generalizing piece room with
  | nil => simp [fgetsFrom]
  | cons c line ih =>
      rw [List.length_cons] at hroom
      have hc : c ≠ 10 := fun h => hlf (h ▸ List.mem_cons_self)
      have hmore : ¬(c = 10 ∨ room ≤ 1) := by
        rintro (h | h)
        · exact hc h
        · omega
      rw [List.cons_append, fgetsFrom, if_neg hmore,
        ih (fun h => hlf (List.mem_cons_of_mem _ h)) _ (by omega)]
      simp

/-- Short lines come first, each in one piece with its line feed. -/
theorem fgetsPieces_lines_append {lines : List Bytes}
    (h : ∀ line ∈ lines, 10 ∉ line ∧ line.length < 4095) (text : Bytes) :
    fgetsPieces ((lines.flatMap fun line => line ++ [10]) ++ text) =
      (lines.map fun line => line ++ [10]) ++ fgetsPieces text := by
  unfold fgetsPieces
  induction lines with
  | nil => rfl
  | cons line lines ih =>
      obtain ⟨hlf, hlength⟩ := h line List.mem_cons_self
      have hpiece := @fgetsFrom_line 4095 line hlf
        ((lines.flatMap fun line => line ++ [10]) ++ text) [] 4095 hlength
      rw [List.flatMap_cons, List.append_assoc, List.append_assoc, List.map_cons]
      exact hpiece.trans
        (congrArg _ (ih fun line hline => h line (List.mem_cons_of_mem _ hline)))

/-- **The pieces are the lines**, each with its line feed, if none is longer than 4094 bytes. -/
theorem fgetsPieces_lines {lines : List Bytes}
    (h : ∀ line ∈ lines, 10 ∉ line ∧ line.length < 4095) :
    fgetsPieces (lines.flatMap fun line => line ++ [10]) = lines.map fun line => line ++ [10] := by
  have happend := fgetsPieces_lines_append h []
  rw [List.append_nil] at happend
  exact happend.trans (List.append_nil _)

/-! ### The loop -/

/-- `RPSIOD_MAX_SITES`. -/
def maxSites : ℕ := 64

/-- The sites that are complete, the one that `site` points to, and the keys in force. -/
structure SitesState where
  closed : List SiteConfig := []
  site : Option SiteConfig := none
  stack : YamlStack := []

/-- `cfg->sites`, as far as they are in use. -/
def SitesState.sites (state : SitesState) : List SiteConfig := state.closed ++ state.site.toList

/-- `"%s:%d: %s"`. -/
def parseErrorAt (path : Bytes) (lineNo : ℕ) (text : Bytes) : Bytes :=
  path ++ ascii ":" ++ decimal lineNo ++ ascii ": " ++ text

/-- The first pair of a site, which may stand behind its dash. -/
def applyFirstPair (site : SiteConfig) (stack : YamlStack) (level : ℕ) (item : Bytes) :
    Except Bytes SiteConfig :=
  if item = [] then .ok site
  else
    match splitKeyValue 128 1024 item with
    | none => .ok site
    | some (key, value) => applySiteValue site stack (level + 1) key value

/-- The loop body of `parse_sites_file` on a line and its number; the functions that apply a line
pass over it where there is no site. -/
def parseSitesLine (path : Bytes) (state : SitesState) (raw : Bytes × ℕ) :
    Except Bytes SitesState :=
  let line := sitesLine raw.1
  let fail := parseErrorAt path raw.2
  if line.text = [] then .ok state
  else if line.isItem then
    if line.level = 1 then
      if maxSites ≤ state.sites.length then .error (fail (ascii "too many sites"))
      else
        ((applyFirstPair {} state.stack line.level line.item).mapError fail).map fun site =>
          { closed := state.sites, site := some site, stack := state.stack }
    else
      match state.site with
      | none => .ok state
      | some site =>
          ((applySiteListValue site state.stack line.level line.item).mapError fail).map fun site =>
            { state with site := some site }
  else
    match line.keyValue with
    | none => .error (fail (ascii "expected key/value"))
    | some (key, value) =>
        let stack := stackSet state.stack line.level key
        match state.site with
        | none => .ok { state with stack := stack }
        | some site =>
            ((applySiteValue site state.stack line.level key value).mapError fail).map fun site =>
              { state with site := some site, stack := stack }

/-- `parse_sites_file` on what `fopen` gives: the file, or the text of `errno`. -/
def parseSitesFile (path : Bytes) (file : Except Bytes Bytes) : Except Bytes (List SiteConfig) :=
  match file with
  | .error text => .error (ascii "failed to open " ++ path ++ ascii ": " ++ text)
  | .ok file =>
      (((fgetsPieces file).zipIdx 1).foldlM (parseSitesLine path) {}).map SitesState.sites

/-! ### The lines of a site -/

/-- A line, and the keys in force in front of it. -/
structure PlacedLine where
  stack : YamlStack
  line : SitesLine

/-- The keys in force behind a line. -/
def PlacedLine.stackBehind (p : PlacedLine) : YamlStack :=
  if p.line.text = [] ∨ p.line.isItem then p.stack
  else
    match p.line.keyValue with
    | none => p.stack
    | some (key, _) => stackSet p.stack p.line.level key

/-- The lines of a file, the first of them with these keys in force. -/
def placeLines : YamlStack → List SitesLine → List PlacedLine
  | _, [] => []
  | stack, line :: lines =>
      ⟨stack, line⟩ :: placeLines (PlacedLine.stackBehind ⟨stack, line⟩) lines

/-- The line starts a site. -/
def PlacedLine.startsSite (p : PlacedLine) : Bool := p.line.isItem && p.line.level = 1

/-- The lines in front of the first site, and those of each site. -/
def splitSites : List PlacedLine → List PlacedLine × List (List PlacedLine)
  | [] => ([], [])
  | p :: ps =>
      if p.startsSite then ([], (p :: (splitSites ps).1) :: (splitSites ps).2)
      else (p :: (splitSites ps).1, (splitSites ps).2)

/-- The lines of each site of a file. -/
def siteLines (file : Bytes) : List (List PlacedLine) :=
  (splitSites (placeLines [] ((fgetsPieces file).map sitesLine))).2

/-- What a line of a site does to it. -/
def applyLine (site : SiteConfig) (p : PlacedLine) : Except Bytes SiteConfig :=
  if p.line.text = [] then .ok site
  else if p.line.isItem then
    if p.line.level = 1 then applyFirstPair site p.stack p.line.level p.line.item
    else applySiteListValue site p.stack p.line.level p.line.item
  else
    match p.line.keyValue with
    | none => .error (ascii "expected key/value")
    | some (key, value) => applySiteValue site p.stack p.line.level key value

/-! ### A site is made of its lines -/

theorem map_mapError_ok {ε ε' α β : Type} {x : Except ε α} {f : ε → ε'} {g : α → β} {b : β}
    (h : (x.mapError f).map g = .ok b) : ∃ a, x = .ok a ∧ g a = b := by
  cases x with
  | error e => exact nomatch h
  | ok a => exact ⟨a, rfl, Except.ok.inj h⟩

/-- What an element on the right is related to. -/
theorem exists_of_mem_right {α β : Type*} {R : α → β → Prop} {as : List α} {bs : List β}
    (h : List.Forall₂ R as bs) {b : β} (hb : b ∈ bs) : ∃ a ∈ as, R a b := by
  induction h with
  | nil => exact absurd hb List.not_mem_nil
  | cons hfirst _ ih =>
      rcases List.mem_cons.mp hb with rfl | hb
      · exact ⟨_, List.mem_cons_self, hfirst⟩
      · obtain ⟨a, ha, hrelated⟩ := ih hb
        exact ⟨a, List.mem_cons_of_mem _ ha, hrelated⟩

/-- What becomes of the site that is being read, if there is one. -/
def SiteBecomes (ps : List PlacedLine) : Option SiteConfig → Option SiteConfig → Prop :=
  Option.Rel fun site site' => ps.foldlM applyLine site = .ok site'

theorem foldlM_applyLine_singleton (site : SiteConfig) (p : PlacedLine) :
    [p].foldlM applyLine site = applyLine site p := by
  rw [List.foldlM_cons]
  exact bind_pure (applyLine site p)

theorem siteBecomes_nil (site : Option SiteConfig) : SiteBecomes [] site site := by
  cases site with
  | none => exact .none
  | some site => exact .some rfl

theorem SiteBecomes.cons {p : PlacedLine} {ps : List PlacedLine} {a b c : Option SiteConfig}
    (hfirst : SiteBecomes [p] a b) (hrest : SiteBecomes ps b c) : SiteBecomes (p :: ps) a c := by
  cases hfirst with
  | none =>
      cases hrest
      exact .none
  | some hline =>
      cases hrest with
      | some hlines =>
          refine .some ?_
          rw [foldlM_applyLine_singleton] at hline
          rw [List.foldlM_cons, hline]
          exact hlines

theorem siteBecomes_line {p : PlacedLine} {site site' : SiteConfig}
    (h : applyLine site p = .ok site') : SiteBecomes [p] (some site) (some site') :=
  .some ((foldlM_applyLine_singleton site p).trans h)

/-- What one step does: it starts a site, or goes on with the one it is at. -/
structure StepsTo (state : SitesState) (p : PlacedLine) (state' : SitesState) : Prop where
  stack : state'.stack = p.stackBehind
  starts : p.startsSite = true →
    state'.closed = state.sites ∧ ∃ site, state'.site = some site ∧ applyLine {} p = .ok site
  goes : p.startsSite = false →
    state'.closed = state.closed ∧ SiteBecomes [p] state.site state'.site

theorem parseSitesLine_ok {path : Bytes} {state state' : SitesState} {raw : Bytes × ℕ}
    (h : parseSitesLine path state raw = .ok state') :
    StepsTo state ⟨state.stack, sitesLine raw.1⟩ state' := by
  unfold parseSitesLine at h
  generalize sitesLine raw.1 = line at h ⊢
  dsimp only at h
  by_cases hblank : line.text = []
  · -- a line that is empty: nothing happens
    rw [if_pos hblank] at h
    obtain rfl := Except.ok.inj h
    have hitem : line.isItem = false := by simp [SitesLine.isItem, hblank]
    refine ⟨by simp [PlacedLine.stackBehind, hblank], fun hstart => ?_, fun _ => ⟨rfl, ?_⟩⟩
    · simp [PlacedLine.startsSite, hitem] at hstart
    · cases hsite : state.site with
      | none => exact .none
      | some site => exact siteBecomes_line (by simp [applyLine, hblank])
  rw [if_neg hblank] at h
  by_cases hitem : line.isItem = true
  · have hbehind : PlacedLine.stackBehind ⟨state.stack, line⟩ = state.stack := by
      simp [PlacedLine.stackBehind, hitem]
    rw [if_pos hitem] at h
    by_cases hlevel : line.level = 1
    · -- a new site
      rw [if_pos hlevel] at h
      split_ifs at h with hmany
      obtain ⟨site, hsite, rfl⟩ := map_mapError_ok h
      refine ⟨hbehind.symm, fun _ => ⟨rfl, site, rfl, ?_⟩, fun hgoes => ?_⟩
      · simp only [applyLine, hblank, if_false, hitem, if_true, hlevel]
        rw [hlevel] at hsite
        exact hsite
      · simp [PlacedLine.startsSite, hitem, hlevel] at hgoes
    · -- a list entry
      rw [if_neg hlevel] at h
      have hstart : PlacedLine.startsSite ⟨state.stack, line⟩ = false := by
        simp [PlacedLine.startsSite, hlevel]
      cases hsite : state.site with
      | none =>
          rw [hsite] at h
          obtain rfl := Except.ok.inj h
          refine ⟨hbehind.symm, fun h => absurd h (by simp [hstart]), fun _ => ⟨rfl, ?_⟩⟩
          rw [hsite]
          exact .none
      | some site =>
          rw [hsite] at h
          obtain ⟨site', hsite', rfl⟩ := map_mapError_ok h
          refine ⟨hbehind.symm, fun h => absurd h (by simp [hstart]), fun _ => ⟨rfl, ?_⟩⟩
          rw [hsite]
          refine siteBecomes_line ?_
          simp only [applyLine, hblank, if_false, hitem, if_true, hlevel]
          exact hsite'
  · -- key and value
    rw [if_neg hitem] at h
    have hstart : PlacedLine.startsSite ⟨state.stack, line⟩ = false := by
      simp [PlacedLine.startsSite, hitem]
    cases hpair : line.keyValue with
    | none =>
        rw [hpair] at h
        cases h
    | some pair =>
        obtain ⟨key, value⟩ := pair
        have hbehind : PlacedLine.stackBehind ⟨state.stack, line⟩ =
            stackSet state.stack line.level key := by
          simp [PlacedLine.stackBehind, hblank, hitem, hpair]
        rw [hpair] at h
        dsimp only at h
        cases hsite : state.site with
        | none =>
            rw [hsite] at h
            obtain rfl := Except.ok.inj h
            refine ⟨hbehind.symm, fun h => absurd h (by simp [hstart]), fun _ => ⟨rfl, ?_⟩⟩
            dsimp only
            rw [hsite]
            exact .none
        | some site =>
            rw [hsite] at h
            obtain ⟨site', hsite', rfl⟩ := map_mapError_ok h
            refine ⟨hbehind.symm, fun h => absurd h (by simp [hstart]), fun _ => ⟨rfl, ?_⟩⟩
            rw [hsite]
            refine siteBecomes_line ?_
            simp only [applyLine, hblank, if_false, hitem, hpair]
            exact hsite'

/-- The lines make the site, from its defaults. -/
def Makes (ps : List PlacedLine) (site : SiteConfig) : Prop := ps.foldlM applyLine {} = .ok site

/-- The run from any state: the site that is open takes the lines in front of the next one, and each
other is made of its own. -/
theorem parseSitesLines_ok {path : Bytes} {raws : List (Bytes × ℕ)} {state final : SitesState}
    (h : raws.foldlM (parseSitesLine path) state = .ok final) :
    ∃ site sites,
      SiteBecomes (splitSites (placeLines state.stack (raws.map fun raw => sitesLine raw.1))).1
        state.site site ∧
      List.Forall₂ Makes
        (splitSites (placeLines state.stack (raws.map fun raw => sitesLine raw.1))).2 sites ∧
      final.sites = state.closed ++ site.toList ++ sites := by
  induction raws generalizing state with
  | nil =>
      obtain rfl := Except.ok.inj h
      exact ⟨state.site, [], siteBecomes_nil _, .nil, (List.append_nil _).symm⟩
  | cons raw raws ih =>
      obtain ⟨next, hstep, hrest⟩ := exists_of_foldlM_cons h
      obtain ⟨hstack, hstarts, hgoes⟩ := parseSitesLine_ok hstep
      obtain ⟨site, sites, hbecomes, hmakes, hfinal⟩ := ih hrest
      rw [hstack] at hbecomes hmakes
      rw [List.map_cons, placeLines, splitSites]
      by_cases hstart : PlacedLine.startsSite ⟨state.stack, sitesLine raw.1⟩ = true
      · obtain ⟨hclosed, fresh, hfresh, hline⟩ := hstarts hstart
        rw [if_pos hstart]
        rw [hfresh] at hbecomes
        cases hbecomes with
        | @some _ made hlines =>
            refine ⟨state.site, made :: sites, siteBecomes_nil _, .cons ?_ hmakes, ?_⟩
            · unfold Makes
              rw [List.foldlM_cons, hline]
              exact hlines
            · rw [hfinal, hclosed]
              exact List.append_assoc _ _ _
      · rw [Bool.not_eq_true] at hstart
        obtain ⟨hclosed, hline⟩ := hgoes hstart
        rw [if_neg (Bool.not_eq_true _ ▸ hstart)]
        exact ⟨site, sites, hline.cons hbecomes, hmakes, by rw [hfinal, hclosed]⟩

/-- **A site is its defaults with its lines applied in order**, each with the keys in force where it
stands in the file. -/
theorem parseSitesFile_ok {path file : Bytes} {sites : List SiteConfig}
    (h : parseSitesFile path (.ok file) = .ok sites) :
    List.Forall₂ Makes (siteLines file) sites := by
  unfold parseSitesFile at h
  dsimp only at h
  cases hrun : ((fgetsPieces file).zipIdx 1).foldlM (parseSitesLine path) {} with
  | error text =>
      rw [hrun] at h
      cases h
  | ok final =>
      rw [hrun] at h
      obtain rfl := Except.ok.inj h
      obtain ⟨site, sites, hbecomes, hmakes, hfinal⟩ := parseSitesLines_ok hrun
      have hlines : ((fgetsPieces file).zipIdx 1).map (fun raw => sitesLine raw.1) =
          (fgetsPieces file).map sitesLine := by
        calc ((fgetsPieces file).zipIdx 1).map (fun raw => sitesLine raw.1)
            = (((fgetsPieces file).zipIdx 1).map Prod.fst).map sitesLine := by
              rw [List.map_map]
              rfl
          _ = (fgetsPieces file).map sitesLine := by rw [List.zipIdx_map_fst]
      rw [hlines] at hbecomes hmakes
      cases hbecomes
      rw [hfinal]
      exact hmakes

end Rpsiod

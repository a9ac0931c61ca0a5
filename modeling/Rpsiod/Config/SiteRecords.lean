import Rpsiod.Config.SiteItems

/-!
# Whether the record of a site depends on other sites

The keys in force outlive the site that they belong to: the dash of the next one clears none of them,
and a line also sees the key in front of it at its own level.  So a line of a site may take another
branch than the sections of its own site would have it take.

* `PlacedLine.alone`: a line below the sections of its own site that it is indented under.
* `ownLines`: the lines of a site, each with the number of levels that the site has not set.
* `Question.Settled`, `SelfContained`: names at these levels, or next to the line, decide nothing.
* `siteRecords_independent_iff`: **the lines of a site are read alone in every file exactly if it is
  self-contained**, and its record is then the same in every file.
-/

namespace Rpsiod

open FirstMatch

/-! ### A line on its own -/

/-- The line with the keys in force that it is indented under. -/
def PlacedLine.alone (p : PlacedLine) : PlacedLine :=
  ⟨p.stack.take p.line.question.level, p.line⟩

/-- The lines of an item below its own sections. -/
def aloneLines (item : List SitesLine) : List PlacedLine :=
  (placeLines [] item).map PlacedLine.alone

/-- The lines of the `k`-th site of a file. -/
def itemAt (file : Bytes) (k : ℕ) : Option (List SitesLine) :=
  (siteLines file)[k]?.map fun ps => ps.map PlacedLine.line

/-- Wherever the item stands, each of its lines takes the branch that its own sections select. -/
def ReadAlone (item : List SitesLine) : Prop :=
  ∀ file, ∀ ps ∈ siteLines file, ps.map PlacedLine.line = item →
    List.Forall₂ (fun p own => p.branch = own.branch) ps (aloneLines item)

/-- Wherever the item stands, its record is the same. -/
def SameRecord (item : List SitesLine) : Prop :=
  ∀ (path path' file file' : Bytes) (sites sites' : List SiteConfig) (k k' : ℕ),
    parseSitesFile path (.ok file) = .ok sites → parseSitesFile path' (.ok file') = .ok sites' →
      itemAt file k = some item → itemAt file' k' = some item → sites[k]? = sites'[k']?

/-! ### Levels that an item has not set -/

/-- How many levels are as the item found them behind a line. -/
def SitesLine.unsetBehind (line : SitesLine) (unset : ℕ) : ℕ :=
  if line.text = [] ∨ line.isItem then unset
  else
    match line.keyValue with
    | none => unset
    | some _ => min unset line.level

/-- A line of an item, with the number of levels that are as the item found them. -/
structure OwnLine where
  unset : ℕ
  placed : PlacedLine

/-- The lines of an item below the keys that it has set. -/
def ownLinesFrom : ℕ → YamlStack → List SitesLine → List OwnLine
  | _, _, [] => []
  | unset, stack, line :: lines =>
      ⟨unset, stack, line⟩ ::
        ownLinesFrom (line.unsetBehind unset) (PlacedLine.stackBehind ⟨stack, line⟩) lines

/-- At its dash all 32 levels are as the item found them. -/
def ownLines (item : List SitesLine) : List OwnLine := ownLinesFrom 32 [] item

/-- Names at so many unset levels, and the key in front at the same level, decide nothing: each
branch that is passed over lacks more names than there are such levels to be seen. -/
def Question.Settled (unset : ℕ) (stack : YamlStack) : Question → Prop
  | nothing => True
  | pair level key =>
      FirstMatch.Settled (min unset (level + 1)) (keyRules level key)
        (namesInForce stack level) (namesInForce stack (level + 1))
  | entry level =>
      ¬(0 < level ∧ level ≤ unset) ∧
        FirstMatch.Settled (min unset (level + 1)) (entryRules (parentOf stack level))
          (namesInForce stack level) (namesInForce stack (level + 1))

instance (unset : ℕ) (stack : YamlStack) :
    (question : Question) → Decidable (question.Settled unset stack)
  | .nothing => inferInstanceAs (Decidable True)
  | .pair level key => inferInstanceAs (Decidable (FirstMatch.Settled (min unset (level + 1))
      (keyRules level key) (namesInForce stack level) (namesInForce stack (level + 1))))
  | .entry level => inferInstanceAs (Decidable (¬(0 < level ∧ level ≤ unset) ∧
      FirstMatch.Settled (min unset (level + 1)) (entryRules (parentOf stack level))
        (namesInForce stack level) (namesInForce stack (level + 1))))

/-- **The item decides by itself** how its lines are read. -/
def SelfContained (item : List SitesLine) : Prop :=
  ∀ own ∈ ownLines item, own.placed.line.question.Settled own.unset own.placed.stack

instance (item : List SitesLine) : Decidable (SelfContained item) :=
  inferInstanceAs (Decidable (∀ own ∈ ownLines item,
    own.placed.line.question.Settled own.unset own.placed.stack))

/-! ### Keys that were found and keys that were set -/

theorem getD_stackSet {stack : YamlStack} {level : ℕ} (key : Bytes) (hlevel : level < 32) (i : ℕ) :
    (stackSet stack level key).getD i [] =
      if i < level then stack.getD i [] else if i = level then safeCopy 64 key else [] := by
  have hlength : ((List.range level).map fun i => stack.getD i []).length = level := by simp
  unfold stackSet
  rw [if_neg (by omega), List.getD_eq_getElem?_getD]
  rcases Nat.lt_trichotomy i level with hlt | rfl | hgt
  · rw [if_pos hlt, List.getElem?_append_left (by omega), List.getElem?_map,
      List.getElem?_range hlt]
    rfl
  · rw [if_neg (Nat.lt_irrefl _), if_pos rfl, List.getElem?_append_right (by omega), hlength,
      Nat.sub_self]
    rfl
  · rw [if_neg (by omega), if_neg (by omega), List.getElem?_eq_none]
    · rfl
    · rw [List.length_append, hlength, List.length_singleton]
      omega

/-- The keys in force at a line: those that its item found, at the levels that it has not set, and
its own at the others. -/
structure FoundBelow (found : YamlStack) (unset : ℕ) (own actual : YamlStack) : Prop where
  le : unset ≤ 32
  found : ∀ i < unset, own.getD i [] = [] ∧ actual.getD i [] = found.getD i []
  own : ∀ i, unset ≤ i → i < 32 → actual.getD i [] = own.getD i []

theorem foundBelow_start (found : YamlStack) : FoundBelow found 32 [] found where
  le := le_rfl
  found := fun _ _ => ⟨rfl, rfl⟩
  own := fun _ hge hlt => absurd hlt (not_lt.mpr hge)

/-- One line: what it sets is no longer as it was found. -/
theorem FoundBelow.line {found own actual : YamlStack} {unset : ℕ}
    (h : FoundBelow found unset own actual) (line : SitesLine) :
    FoundBelow found (line.unsetBehind unset) (PlacedLine.stackBehind ⟨own, line⟩)
      (PlacedLine.stackBehind ⟨actual, line⟩) := by
  unfold SitesLine.unsetBehind PlacedLine.stackBehind
  dsimp only
  by_cases hother : line.text = [] ∨ line.isItem = true
  · rw [if_pos hother, if_pos hother, if_pos hother]
    exact h
  rw [if_neg hother, if_neg hother, if_neg hother]
  cases line.keyValue with
  | none => exact h
  | some pair =>
      obtain ⟨key, value⟩ := pair
      dsimp only
      by_cases hdeep : 32 ≤ line.level
      · -- too deep for the stack: nothing is set
        have hset : ∀ stack : YamlStack, stackSet stack line.level key = stack :=
          fun stack => if_pos hdeep
        rw [hset, hset, Nat.min_eq_left (h.le.trans hdeep)]
        exact h
      rw [not_le] at hdeep
      refine ⟨(Nat.min_le_left _ _).trans h.le, fun i hi => ?_, fun i hge hlt => ?_⟩
      · obtain ⟨hunset, hlevel⟩ := Nat.lt_min.mp hi
        rw [getD_stackSet key hdeep, getD_stackSet key hdeep, if_pos hlevel, if_pos hlevel]
        exact h.found i hunset
      · rw [getD_stackSet key hdeep, getD_stackSet key hdeep]
        by_cases hlevel : i < line.level
        · rw [if_pos hlevel, if_pos hlevel]
          exact h.own i (by omega) hlt
        · rw [if_neg hlevel, if_neg hlevel]

/-- All lines of an item, below any keys in force. -/
theorem foundBelow_lines {found own actual : YamlStack} {unset : ℕ}
    (h : FoundBelow found unset own actual) (lines : List SitesLine) :
    List.Forall₂ (fun (p : PlacedLine) (o : OwnLine) => p.line = o.placed.line ∧
      FoundBelow found o.unset o.placed.stack p.stack) (placeLines actual lines)
      (ownLinesFrom unset own lines) := by
  induction lines generalizing unset own actual with
  | nil => exact .nil
  | cons line lines ih => exact .cons ⟨rfl, h⟩ (ih (h.line line))

theorem map_placed_ownLinesFrom (unset : ℕ) (stack : YamlStack) (lines : List SitesLine) :
    (ownLinesFrom unset stack lines).map OwnLine.placed = placeLines stack lines := by
  induction lines generalizing unset stack with
  | nil => rfl
  | cons line lines ih => rw [ownLinesFrom, List.map_cons, ih, placeLines]

theorem aloneLines_eq (item : List SitesLine) :
    aloneLines item = (ownLines item).map fun own => own.placed.alone := by
  unfold aloneLines ownLines
  rw [← map_placed_ownLinesFrom 32, List.map_map]
  rfl

/-! ### Names in force, own and found -/

theorem namesInForce_take (stack : YamlStack) (level : ℕ) :
    namesInForce (stack.take level) (level + 1) = namesInForce stack level := by
  ext name
  rw [mem_namesInForce, mem_namesInForce]
  refine and_congr_right fun hname => ?_
  constructor
  · rintro ⟨i, hi, hin⟩
    have hlt : i < level := by
      by_contra hge
      rw [List.getD_eq_getElem?_getD, List.getElem?_eq_none] at hin
      · exact hname hin.symm
      · exact (List.length_take_le _ _).trans (not_lt.mp hge)
    rw [List.getD_eq_getElem?_getD, List.getElem?_take_of_lt hlt,
      ← List.getD_eq_getElem?_getD] at hin
    exact ⟨i, by omega, hin⟩
  · rintro ⟨i, hi, hin⟩
    refine ⟨i, by omega, ?_⟩
    rw [List.getD_eq_getElem?_getD, List.getElem?_take_of_lt (by omega),
      ← List.getD_eq_getElem?_getD]
    exact hin

theorem parentOf_take (stack : YamlStack) (level : ℕ) :
    parentOf (stack.take level) level = parentOf stack level := by
  unfold parentOf
  by_cases h : 0 < level ∧ level - 1 < 32
  · rw [if_pos h, if_pos h, List.getD_eq_getElem?_getD, List.getD_eq_getElem?_getD,
      List.getElem?_take_of_lt (by omega)]
  · rw [if_neg h, if_neg h]

theorem card_namesInForce_le (stack : YamlStack) (levels : ℕ) :
    (namesInForce stack levels).card ≤ levels := by
  refine (Finset.card_erase_le.trans (List.toFinset_card_le _)).trans ?_
  rw [List.length_map, List.length_range]
  exact Nat.min_le_left _ _

variable {found own actual : YamlStack} {unset : ℕ}

/-- The names that the item has set are in force. -/
theorem FoundBelow.own_subset (h : FoundBelow found unset own actual) (levels : ℕ) :
    namesInForce own levels ⊆ namesInForce actual levels := by
  intro name hname
  rw [mem_namesInForce] at hname ⊢
  obtain ⟨hne, i, hi, hin⟩ := hname
  refine ⟨hne, i, hi, ?_⟩
  have hge : unset ≤ i := by
    by_contra hlt
    exact hne (hin.symm.trans (h.found i (not_le.mp hlt)).1)
  rw [h.own i hge (by omega)]
  exact hin

/-- Any other name in force was found at one of the levels that the item has not set. -/
theorem FoundBelow.subset_union (h : FoundBelow found unset own actual) (levels : ℕ) :
    namesInForce actual levels ⊆
      namesInForce own levels ∪ namesInForce found (min unset levels) := by
  intro name hname
  rw [Finset.mem_union, mem_namesInForce, mem_namesInForce]
  obtain ⟨hne, i, hi, hin⟩ := mem_namesInForce.mp hname
  by_cases hunset : i < unset
  · refine .inr ⟨hne, i, ?_, (h.found i hunset).2.symm.trans hin⟩
    have := h.le
    omega
  · exact .inl ⟨hne, i, hi, (h.own i (by omega) (by omega)).symm.trans hin⟩

theorem namesInForce_mono {stack : YamlStack} {levels levels' : ℕ} (h : levels ≤ levels') :
    namesInForce stack levels ⊆ namesInForce stack levels' := by
  intro name hname
  rw [mem_namesInForce] at hname ⊢
  obtain ⟨hne, i, hi, hin⟩ := hname
  exact ⟨hne, i, by omega, hin⟩

/-- The parent of a list entry is the item's own, if the item has set its level. -/
theorem FoundBelow.parentOf_eq (h : FoundBelow found unset own actual) {level : ℕ}
    (hset : ¬(0 < level ∧ level ≤ unset)) : parentOf actual level = parentOf own level := by
  unfold parentOf
  by_cases hparent : 0 < level ∧ level - 1 < 32
  · rw [if_pos hparent, if_pos hparent, h.own (level - 1) (by omega) hparent.2]
  · rw [if_neg hparent, if_neg hparent]

/-- What the names in force at a line take, and what those above it in its own item take. -/
theorem FoundBelow.chosen_eq (h : FoundBelow found unset own actual) {level : ℕ}
    {rules : List (Option (Finset Bytes))}
    (hsettled : FirstMatch.Settled (min unset (level + 1)) rules (namesInForce own level)
      (namesInForce own (level + 1))) :
    chosen rules (namesInForce actual (level + 1)) = chosen rules (namesInForce own level) :=
  hsettled.chosen_eq ((namesInForce_mono (Nat.le_succ level)).trans (h.own_subset _))
    (h.subset_union _) (card_namesInForce_le _ _)

/-- **A settled line** takes the branch that it takes alone. -/
theorem FoundBelow.branch_eq (h : FoundBelow found unset own actual) {question : Question}
    (hsettled : question.Settled unset own) :
    question.branch actual = question.branch (own.take question.level) := by
  cases question with
  | nothing => rfl
  | pair level key =>
      have hkey : siteBranch actual level key = siteBranch (own.take level) level key := by
        rw [siteBranch_eq, siteBranch_eq, namesInForce_take]
        exact h.chosen_eq hsettled
      exact hkey
  | entry level =>
      obtain ⟨hset, hnames⟩ := hsettled
      have hentry : listBranch actual level = listBranch (own.take level) level := by
        rw [listBranch_eq, listBranch_eq, namesInForce_take, parentOf_take, h.parentOf_eq hset]
        exact h.chosen_eq hnames
      exact hentry

/-! ### Lines that others decide -/

/-- The names that a rule lacks, put in force at the outermost levels, complete it. -/
theorem FoundBelow.completed {names : Finset Bytes} {level : ℕ}
    (h : FoundBelow (names \ namesInForce own (level + 1)).toList unset own actual)
    (hcard : (names \ namesInForce own (level + 1)).card ≤ min unset (level + 1))
    (hwords : ∀ name ∈ names, IsWord name) : names ⊆ namesInForce actual (level + 1) := by
  intro name hname
  by_cases hown : name ∈ namesInForce own (level + 1)
  · exact h.own_subset _ hown
  · have hmissing : name ∈ (names \ namesInForce own (level + 1)).toList :=
      Finset.mem_toList.mpr (Finset.mem_sdiff.mpr ⟨hname, hown⟩)
    obtain ⟨i, hi, hin⟩ := List.getElem_of_mem hmissing
    have hbound : i < min unset (level + 1) := by
      rw [Finset.length_toList] at hi
      omega
    have := h.le
    refine mem_namesInForce.mpr ⟨(hwords name hname).1, i, by omega, ?_⟩
    rw [(h.found i (by omega)).2, List.getD_eq_getElem?_getD, List.getElem?_eq_getElem hi, hin]
    rfl

theorem isWord_of_keyRules {level : ℕ} {key : Bytes} {names : Finset Bytes}
    (h : some names ∈ keyRules level key) : ∀ name ∈ names, IsWord name := by
  obtain ⟨needs, hneeds, hrule⟩ := List.mem_map.mp h
  split_ifs at hrule
  obtain rfl := Option.some.inj hrule
  exact fun name hname => isWord_of_branchNeeds needs hneeds name (List.mem_toFinset.mp hname)

theorem isWord_of_entryRules {parent : Option Bytes} {names : Finset Bytes}
    (h : some names ∈ entryRules parent) : ∀ name ∈ names, IsWord name := by
  obtain ⟨needs, hneeds, hrule⟩ := List.mem_map.mp h
  split_ifs at hrule
  obtain rfl := Option.some.inj hrule
  exact fun name hname => isWord_of_listNeeds needs hneeds name (List.mem_toFinset.mp hname)

theorem exists_completing {level : ℕ} {rules : List (Option (Finset Bytes))}
    (hrules : ∀ names, some names ∈ rules → ∀ name ∈ names, IsWord name) (hle : unset ≤ 32)
    (h : ¬ FirstMatch.Settled (min unset (level + 1)) rules (namesInForce own level)
      (namesInForce own (level + 1))) :
    ∃ words : List Bytes, (∀ word ∈ words, IsWord word) ∧ words.length ≤ 32 ∧
      ∀ actual, FoundBelow words unset own actual →
        chosen rules (namesInForce actual (level + 1)) ≠ chosen rules (namesInForce own level) := by
  obtain ⟨names, hpassed, hcard⟩ := exists_of_not_settled h
  have hwords := hrules names (mem_of_mem_passedOver hpassed)
  refine ⟨(names \ namesInForce own (level + 1)).toList, fun word hword => ?_, ?_,
    fun actual hactual => ?_⟩
  · exact hwords word (Finset.mem_sdiff.mp (Finset.mem_toList.mp hword)).1
  · rw [Finset.length_toList]
    omega
  · exact chosen_ne_of_applies hpassed (hactual.completed hcard hwords)

/-- Below `domains` an entry takes the first rule, and below nothing none of them. -/
theorem chosen_entryRules (scope scope' : Finset Bytes) :
    chosen (entryRules (some (ascii "domains"))) scope ≠ chosen (entryRules (some [])) scope' := by
  have hfirst : ∃ rules, entryRules (some (ascii "domains")) = some ∅ :: rules := ⟨_, rfl⟩
  have hnone : ∃ rules, entryRules (some []) = none :: rules := ⟨_, rfl⟩
  obtain ⟨rules, hrules⟩ := hfirst
  obtain ⟨rules', hrules'⟩ := hnone
  have happlies : Applies scope (some ∅) := Finset.empty_subset scope
  have hnever : ¬ Applies scope' none := fun h => h
  rw [hrules, hrules', chosen_cons, chosen_cons, if_pos happlies, if_neg hnever]
  exact (Nat.succ_ne_zero _).symm

/-- **An unsettled line** takes another branch below some section names. -/
theorem exists_branch_ne {question : Question} (hle : unset ≤ 32)
    (h : ¬ question.Settled unset own) :
    ∃ words : List Bytes, (∀ word ∈ words, IsWord word) ∧ words.length ≤ 32 ∧
      ∀ actual, FoundBelow words unset own actual →
        question.branch actual ≠ question.branch (own.take question.level) := by
  cases question with
  | nothing => exact absurd trivial h
  | pair level key =>
      obtain ⟨words, hwords, hlength, hother⟩ :=
        exists_completing (fun names => isWord_of_keyRules) hle h
      refine ⟨words, hwords, hlength, fun actual hactual => ?_⟩
      have hkey : siteBranch actual level key ≠ siteBranch (own.take level) level key := by
        rw [siteBranch_eq, siteBranch_eq, namesInForce_take]
        exact hother actual hactual
      exact hkey
  | entry level =>
      by_cases hset : 0 < level ∧ level ≤ unset
      · -- the entry has the parent that the item found
        refine ⟨List.replicate level (ascii "domains"), fun word hword => ?_, ?_,
          fun actual hactual => ?_⟩
        · rw [List.eq_of_mem_replicate hword]
          decide
        · rw [List.length_replicate]
          omega
        · obtain ⟨hblank, hfound⟩ := hactual.found (level - 1) (by omega)
          have hdomains : parentOf actual level = some (ascii "domains") := by
            unfold parentOf
            rw [if_pos (by omega), hfound, List.getD_eq_getElem?_getD,
              List.getElem?_replicate_of_lt (by omega)]
            rfl
          have hnothing : parentOf own level = some [] := by
            unfold parentOf
            rw [if_pos (by omega), hblank]
          have hentry : listBranch actual level ≠ listBranch (own.take level) level := by
            rw [listBranch_eq, listBranch_eq, parentOf_take, hdomains, hnothing]
            exact chosen_entryRules _ _
          exact hentry
      · obtain ⟨words, hwords, hlength, hother⟩ :=
          exists_completing (fun names => isWord_of_entryRules) hle fun hnames => h ⟨hset, hnames⟩
        refine ⟨words, hwords, hlength, fun actual hactual => ?_⟩
        have hentry : listBranch actual level ≠ listBranch (own.take level) level := by
          rw [listBranch_eq, listBranch_eq, namesInForce_take, parentOf_take,
            hactual.parentOf_eq hset]
          exact hother actual hactual
        exact hentry

/-! ### Items -/

/-- The lines of an item and their own sections, wherever it stands. -/
theorem foundBelow_item {file : Bytes} {ps : List PlacedLine} (h : ps ∈ siteLines file) :
    ∃ found, List.Forall₂ (fun (p : PlacedLine) (own : OwnLine) => p.line = own.placed.line ∧
      FoundBelow found own.unset own.placed.stack p.stack) ps
      (ownLines (ps.map PlacedLine.line)) := by
  obtain ⟨-, ⟨found, hplaced⟩, -⟩ := item_of_mem_siteLines h
  have hlines := foundBelow_lines (foundBelow_start found) (ps.map PlacedLine.line)
  rw [← hplaced] at hlines
  exact ⟨found, hlines⟩

/-- **A self-contained item is read alone** wherever it stands. -/
theorem SelfContained.readAlone {item : List SitesLine} (h : SelfContained item) :
    ReadAlone item := by
  rintro file ps hps rfl
  obtain ⟨found, hlines⟩ := foundBelow_item hps
  rw [aloneLines_eq, List.forall₂_map_right_iff]
  have hown := List.forall₂_iff_zip.mp hlines
  refine List.forall₂_iff_zip.mpr ⟨hown.1, fun {p own} hmem => ?_⟩
  obtain ⟨hline, hbelow⟩ := hown.2 hmem
  unfold PlacedLine.branch
  rw [hline]
  exact hbelow.branch_eq (h own (List.of_mem_zip hmem).2)

/-- **An item that is read alone is self-contained**: any line that is not would be read otherwise
behind the lines of some section names. -/
theorem ReadAlone.selfContained {file : Bytes} {ps : List PlacedLine} (hps : ps ∈ siteLines file)
    (h : ReadAlone (ps.map PlacedLine.line)) : SelfContained (ps.map PlacedLine.line) := by
  intro own hmem
  by_contra hunsettled
  obtain ⟨hitem, -, front, pieces, back, hfile, hread⟩ := item_of_mem_siteLines hps
  rw [← hread] at h hitem hmem
  have hle : own.unset ≤ 32 := by
    have hstart := foundBelow_lines (foundBelow_start []) (pieces.map sitesLine)
    obtain ⟨p, -, -, hbelow⟩ := exists_of_mem_right hstart hmem
    exact hbelow.le
  obtain ⟨words, hwords, hlength, hother⟩ := exists_branch_ne hle hunsettled
  have hsites := siteLines_below hwords hlength (fgetsPieces_flatten hfile) hitem
  have halone := h _ (placeLines words (pieces.map sitesLine))
    (hsites ▸ List.mem_singleton_self _) (map_line_placeLines _ _)
  rw [aloneLines_eq, List.forall₂_map_right_iff] at halone
  have hboth := (foundBelow_lines (foundBelow_start words) (pieces.map sitesLine)).mp
    (fun p own hbelow hbranch => And.intro hbelow hbranch) halone
  obtain ⟨p, -, ⟨hline, hbelow⟩, hbranch⟩ := exists_of_mem_right hboth hmem
  unfold PlacedLine.branch at hbranch
  rw [hline] at hbranch
  exact hother p.stack hbelow hbranch

/-! ### Records -/

theorem foldlM_applyLine_congr {ps qs : List PlacedLine}
    (h : List.Forall₂ (fun p q => ∀ site, applyLine site p = applyLine site q) ps qs)
    (site : SiteConfig) : ps.foldlM applyLine site = qs.foldlM applyLine site := by
  induction h generalizing site with
  | nil => rfl
  | @cons p q ps qs hline _ ih =>
      rw [List.foldlM_cons, List.foldlM_cons, hline site]
      cases applyLine site q with
      | error text => rfl
      | ok next => exact ih next

/-- The record of an item that is read alone is made of its own lines below its own sections. -/
theorem ReadAlone.makes {file : Bytes} {ps : List PlacedLine} (hps : ps ∈ siteLines file)
    (h : ReadAlone (ps.map PlacedLine.line)) (site : SiteConfig) :
    Makes ps site ↔ Makes (aloneLines (ps.map PlacedLine.line)) site := by
  obtain ⟨found, hlines⟩ := foundBelow_item hps
  have hbranches := h file ps hps rfl
  rw [aloneLines_eq, List.forall₂_map_right_iff] at hbranches
  have hsame : List.Forall₂ (fun p q => ∀ site, applyLine site p = applyLine site q) ps
      (aloneLines (ps.map PlacedLine.line)) := by
    rw [aloneLines_eq, List.forall₂_map_right_iff]
    refine hlines.mp ?_ hbranches
    rintro ⟨stack, line⟩ own ⟨hline, -⟩ hbranch site
    dsimp only at hline
    subst hline
    exact applyLine_congr hbranch site
  unfold Makes
  rw [foldlM_applyLine_congr hsame]

/-- The record at a place of the file is made of the lines of the site at that place. -/
theorem exists_makes {path file : Bytes} {sites : List SiteConfig} {k : ℕ}
    {item : List SitesLine} (hparse : parseSitesFile path (.ok file) = .ok sites)
    (hitem : itemAt file k = some item) :
    ∃ ps ∈ siteLines file, ps.map PlacedLine.line = item ∧
      ∃ site, sites[k]? = some site ∧ Makes ps site := by
  obtain ⟨ps, hps, rfl⟩ := Option.map_eq_some_iff.mp hitem
  obtain ⟨hk, hget⟩ := List.getElem?_eq_some_iff.mp hps
  have hmakes := parseSitesFile_ok hparse
  have hk' : k < sites.length := hmakes.length_eq ▸ hk
  refine ⟨ps, hget ▸ List.getElem_mem hk, rfl, sites.get ⟨k, hk'⟩, ?_, ?_⟩
  · exact List.getElem?_eq_getElem hk'
  · rw [← hget]
    exact hmakes.get hk hk'

/-- **An item that is read alone has one record.** -/
theorem ReadAlone.sameRecord {item : List SitesLine} (h : ReadAlone item) : SameRecord item := by
  intro path path' file file' sites sites' k k' hparse hparse' hitem hitem'
  obtain ⟨ps, hps, rfl, site, hsite, hmakes⟩ := exists_makes hparse hitem
  obtain ⟨ps', hps', hlines, site', hsite', hmakes'⟩ := exists_makes hparse' hitem'
  rw [h.makes hps] at hmakes
  rw [ReadAlone.makes hps' (hlines ▸ h), hlines] at hmakes'
  have hsame : site = site' := Except.ok.inj (hmakes.symm.trans hmakes')
  rw [hsite, hsite', hsame]

/-- **A site is independent of the others exactly if it is self-contained**: its record is the same
in every file that parses, and its own sections alone decide how its lines are read. -/
theorem siteRecords_independent_iff {file : Bytes} {k : ℕ} {item : List SitesLine}
    (h : itemAt file k = some item) :
    SameRecord item ∧ ReadAlone item ↔ SelfContained item := by
  obtain ⟨ps, hps, rfl⟩ := Option.map_eq_some_iff.mp h
  have hmem : ps ∈ siteLines file := List.mem_of_getElem? hps
  constructor
  · exact fun hboth => hboth.2.selfContained hmem
  · exact fun hself => ⟨hself.readAlone.sameRecord, hself.readAlone⟩

/-- A site with static files. -/
def staticFile : Bytes :=
  ascii "sites:\n    - name: b\n        serveAs: http\n        domains:\n" ++
    ascii "            - b.example\n        static:\n            root: /srv/b\n"

def staticItem : List SitesLine := (itemAt staticFile 0).getD []

/-- Its keys belong to one section each. -/
theorem siteRecords_independent_static : SameRecord staticItem ∧ ReadAlone staticItem :=
  (siteRecords_independent_iff (show itemAt staticFile 0 = some staticItem by decide +kernel)).mpr
    (by decide +kernel)

/-- Another site in front that ends with a section, and one that does not. -/
def sectionFile : Bytes := ascii "sites:\n    - name: a\n        ssl:\n    - mode: manual\n"

def plainFile : Bytes := ascii "sites:\n    - name: a\n    - mode: manual\n"

/-- **A section outlives its site**: the second site has the same line in both files, and the section
that the first one ends with decides what it sets. -/
theorem section_outlives_site :
    itemAt sectionFile 1 = itemAt plainFile 1 ∧
      (parseSitesFile (ascii "sites.yml") (.ok sectionFile)).toOption.map
          (fun sites => sites.map fun site => site.settings.sslMode) =
        some [ascii "auto", ascii "manual"] ∧
      (parseSitesFile (ascii "sites.yml") (.ok plainFile)).toOption.map
          (fun sites => sites.map fun site => site.settings.sslMode) =
        some [ascii "auto", ascii "auto"] := by
  decide +kernel

end Rpsiod

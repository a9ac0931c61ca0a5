import Rpsiod.Config.SiteLists
import Rpsiod.Lib.FirstMatch

/-!
# The branch of `apply_site_value` that a line takes

The keys in force decide which branch a line takes, and that is all that they decide: what the
branch does depends on the line alone.  A branch asks for some names, each to stand anywhere at the
level of the line or above; a list rule asks for the parent too.

* `siteBranches`, `siteBranch`, `listBranch`: the chains of both functions, and the place taken.
* `branchNeeds`, `listNeeds`: the names that each branch asks for.
* `siteBranch_eq`, `listBranch_eq`: the place is the first whose names are in force.
* `applyLine_congr`: **lines that take the same branch do the same**, whatever the keys in force.
-/

namespace Rpsiod

open FirstMatch

/-! ### The chains -/

/-- A branch of `apply_site_value` with what it does to the site. -/
structure SiteBranch where
  holds : YamlStack → ℕ → Bytes → Bool
  apply : SiteConfig → Bytes → Bytes → Except Bytes SiteConfig

def SiteRule.branch (rule : SiteRule) : SiteBranch where
  holds := rule.holds
  apply := fun site key value =>
    (rule.set key value site.settings).map fun s => { site with settings := s }

/-- The branch for `headers.add`, which takes every key. -/
def addHeaderBranch : SiteBranch where
  holds := fun stack level _ =>
    pathHas stack level (ascii "headers") && pathHas stack level (ascii "add")
  apply := fun site key value => .ok (appendHeaderAdd site key value)

/-- The branches of `apply_site_value`, in their order. -/
def siteBranches : List SiteBranch :=
  earlierRules.map SiteRule.branch ++ addHeaderBranch :: laterRules.map SiteRule.branch

/-- The branch that a key takes, by its place. -/
def siteBranch (stack : YamlStack) (level : ℕ) (key : Bytes) : ℕ :=
  siteBranches.findIdx fun branch => branch.holds stack level key

/-- The rule of `SITE_LIST_RULES` that a list entry takes, by its place. -/
def listBranch (stack : YamlStack) (level : ℕ) : ℕ :=
  siteListRules.findIdx fun rule => rule.applies stack level

theorem find?_siteRules (rules : List SiteRule) (stack : YamlStack) (level : ℕ) (key : Bytes) :
    (rules.map SiteRule.branch).find? (fun branch => branch.holds stack level key) =
      (rules.find? fun rule => rule.holds stack level key).map SiteRule.branch :=
  List.find?_map ..

/-- `apply_site_value` as one chain. -/
theorem applySiteValue_eq (site : SiteConfig) (stack : YamlStack) (level : ℕ)
    (key value : Bytes) :
    applySiteValue site stack level key value =
      if value = [] then .ok site
      else
        match siteBranches[siteBranch stack level key]? with
        | some branch => branch.apply site key value
        | none => .ok site := by
  unfold siteBranch applySiteValue
  rw [← List.find?_eq_getElem?_findIdx]
  by_cases hvalue : value = []
  · rw [if_pos hvalue, if_pos hvalue]
  rw [if_neg hvalue, if_neg hvalue]
  unfold siteBranches
  rw [List.find?_append, find?_siteRules]
  cases earlierRules.find? fun rule => rule.holds stack level key with
  | some rule => rfl
  | none =>
      rw [Option.map_none, Option.none_or, List.find?_cons]
      by_cases hadd : (pathHas stack level (ascii "headers") &&
          pathHas stack level (ascii "add")) = true
      · have hholds : addHeaderBranch.holds stack level key = true := hadd
        rw [hholds]
        exact if_pos hadd
      · have hholds : addHeaderBranch.holds stack level key = false :=
          Bool.eq_false_of_not_eq_true hadd
        rw [hholds]
        dsimp only
        rw [if_neg hadd, find?_siteRules]
        cases laterRules.find? fun rule => rule.holds stack level key with
        | some rule => rfl
        | none => rfl

theorem applySiteListValue_eq (site : SiteConfig) (stack : YamlStack) (level : ℕ)
    (value : Bytes) :
    applySiteListValue site stack level value =
      if value = [] then .ok site
      else
        match siteListRules[listBranch stack level]? with
        | some rule => rule.apply site value
        | none => .ok site := by
  unfold listBranch
  rw [← List.find?_eq_getElem?_findIdx]
  rfl

/-! ### What a branch asks for -/

/-- What a branch asks for: which keys it is for, and the names that they are below. -/
structure BranchNeeds where
  concerns : ℕ → Bytes → Bool
  names : List Bytes

/-- One key below some names. -/
def keyNeeds (key : String) (path : List String) : BranchNeeds where
  concerns := fun _ k => k = ascii key
  names := path.map ascii

/-- What the branches ask for, in their order. -/
def branchNeeds : List BranchNeeds :=
  [keyNeeds "name" [], ⟨fun level key => key = ascii "enabled" && level = 2, []⟩,
    keyNeeds "serveAs" [], keyNeeds "ip" ["listen"], keyNeeds "http" ["ports"],
    keyNeeds "https" ["ports"], keyNeeds "type" ["routing"], keyNeeds "httpToHttps" ["redirects"],
    keyNeeds "enabled" ["www", "redirects"], keyNeeds "mode" ["www", "redirects"],
    keyNeeds "status" ["www", "redirects"], keyNeeds "enabled" ["ssl"], keyNeeds "mode" ["ssl"],
    keyNeeds "provider" ["ssl"], keyNeeds "email" ["ssl"], keyNeeds "storage" ["ssl"],
    keyNeeds "challenge" ["ssl"], keyNeeds "renewBefore" ["ssl"], keyNeeds "root" ["static"],
    keyNeeds "fallback" ["static"], keyNeeds "directoryListing" [],
    keyNeeds "enabled" ["maintenance"], keyNeeds "status" ["maintenance"],
    keyNeeds "page" ["maintenance"],
    ⟨fun _ key => key.head?.any isdigit, [ascii "pages"]⟩,
    keyNeeds "maxBodySize" ["limits", "php"], keyNeeds "maxBodySize" [],
    keyNeeds "hideServerHeader" [], keyNeeds "allowSymlinks" [], keyNeeds "enabled" ["php"],
    keyNeeds "type" ["handler", "php"], keyNeeds "socket" ["handler", "php"],
    keyNeeds "host" ["handler", "php"], keyNeeds "port" ["handler", "php"],
    keyNeeds "allowPathInfo" ["security", "php"], keyNeeds "connect" ["timeouts", "php"],
    keyNeeds "read" ["timeouts", "php"], keyNeeds "write" ["timeouts", "php"],
    keyNeeds "maxExecutionTime" ["limits", "php"], keyNeeds "enabled" ["rateLimit"],
    keyNeeds "requests" ["rateLimit"], keyNeeds "window" ["rateLimit"],
    keyNeeds "enabled" ["compression"], keyNeeds "minimumSize" ["compression"],
    keyNeeds "enabled" ["cache"], keyNeeds "default" ["cache"],
    ⟨fun _ _ => true, [ascii "headers", ascii "add"]⟩,
    keyNeeds "scheme" ["upstream", "proxy"], keyNeeds "host" ["upstream", "proxy"],
    keyNeeds "port" ["upstream", "proxy"], keyNeeds "websocket" ["proxy"],
    keyNeeds "passHost" ["headers", "proxy"], keyNeeds "realIp" ["headers", "proxy"],
    keyNeeds "forwardedFor" ["headers", "proxy"], keyNeeds "forwardedProto" ["headers", "proxy"],
    keyNeeds "connect" ["timeouts", "proxy"], keyNeeds "read" ["timeouts", "proxy"],
    keyNeeds "write" ["timeouts", "proxy"], keyNeeds "enabled" ["healthCheck", "proxy"],
    keyNeeds "path" ["healthCheck", "proxy"], keyNeeds "enabled" ["access"],
    keyNeeds "path" ["access"], keyNeeds "enabled" ["error"], keyNeeds "path" ["error"]]

/-- What the list rules ask for: the parent of the entry, and the names that it is below. -/
def listNeeds : List (Bytes × List Bytes) :=
  [(ascii "domains", []), (ascii "index", []), (ascii "allowedMethods", []),
    (ascii "blockDirectAccess", []), (ascii "remove", [ascii "headers"]),
    (ascii "algorithms", [ascii "compression"])]

/-- The branch is taken for these keys, below these names. -/
def BranchNeeds.Describes (needs : BranchNeeds) (branch : SiteBranch) : Prop :=
  ∀ stack level key, branch.holds stack level key =
    (needs.concerns level key && needs.names.all fun name => pathHas stack level name)

theorem keyNeeds_describes {rule : SiteRule} {key : String} {path : List String}
    (h : rule.holds = keyBelow key path) : (keyNeeds key path).Describes rule.branch := by
  intro stack level k
  have hholds : rule.branch.holds = keyBelow key path := h
  rw [hholds]
  unfold keyBelow keyNeeds
  dsimp only
  rw [List.all_map]
  rfl

theorem describes_enabled {rule : SiteRule}
    (h : rule.holds = fun _ level key => key = ascii "enabled" && level = 2) :
    BranchNeeds.Describes ⟨fun level key => key = ascii "enabled" && level = 2, []⟩ rule.branch :=
  fun stack level key => (congrFun (congrFun (congrFun h stack) level) key).trans
    (Bool.and_true _).symm

theorem describes_errorPage : BranchNeeds.Describes
    ⟨fun _ key => key.head?.any isdigit, [ascii "pages"]⟩ errorPageRule.branch := by
  intro stack level key
  have hholds : errorPageRule.branch.holds stack level key =
      (key.head?.any isdigit && pathHas stack level (ascii "pages")) := rfl
  rw [hholds, List.all_cons, List.all_nil, Bool.and_true]

theorem describes_addHeader : BranchNeeds.Describes
    ⟨fun _ _ => true, [ascii "headers", ascii "add"]⟩ addHeaderBranch := by
  intro stack level key
  have hholds : addHeaderBranch.holds stack level key =
      (pathHas stack level (ascii "headers") && pathHas stack level (ascii "add")) := rfl
  rw [hholds, List.all_cons, List.all_cons, List.all_nil, Bool.and_true, Bool.true_and]

/-- **Each branch asks for what the table says.** -/
theorem branchNeeds_describe :
    List.Forall₂ BranchNeeds.Describes branchNeeds siteBranches := by
  unfold branchNeeds siteBranches
  unfold earlierRules laterRules
  simp only [List.map_cons, List.map_nil, List.cons_append, List.nil_append]
  repeat' apply List.Forall₂.cons
  all_goals first
    | exact .nil
    | exact keyNeeds_describes rfl
    | exact describes_enabled rfl
    | exact describes_errorPage
    | exact describes_addHeader

/-- The rule is taken for the entries of this parent, below these names. -/
def ListDescribes (needs : Bytes × List Bytes) (rule : SiteListRule) : Prop :=
  ∀ stack level, rule.applies stack level =
    (parentIs stack level needs.1 && needs.2.all fun name => pathHas stack level name)

theorem describes_parent {rule : SiteListRule} {parent : Bytes}
    (h : rule.applies = fun stack level => parentIs stack level parent) :
    ListDescribes (parent, []) rule :=
  fun stack level => (congrFun (congrFun h stack) level).trans (Bool.and_true _).symm

theorem describes_parent_below {rule : SiteListRule} {parent name : Bytes}
    (h : rule.applies = fun stack level => parentIs stack level parent &&
      pathHas stack level name) : ListDescribes (parent, [name]) rule := by
  intro stack level
  rw [h, List.all_cons, List.all_nil, Bool.and_true]

/-- **Each list rule asks for what the table says.** -/
theorem listNeeds_describe : List.Forall₂ ListDescribes listNeeds siteListRules :=
  .cons (describes_parent rfl) (.cons (describes_parent rfl) (.cons (describes_parent rfl)
    (.cons (describes_parent rfl) (.cons (describes_parent_below rfl)
      (.cons (describes_parent_below rfl) .nil)))))

/-! ### Names in force -/

/-- The names at the levels above this one. -/
def namesInForce (stack : YamlStack) (levels : ℕ) : Finset Bytes :=
  (((List.range (min levels 32)).map fun i => stack.getD i []).toFinset).erase []

theorem mem_namesInForce {stack : YamlStack} {levels : ℕ} {name : Bytes} :
    name ∈ namesInForce stack levels ↔
      name ≠ [] ∧ ∃ i < min levels 32, stack.getD i [] = name := by
  unfold namesInForce
  simp [List.mem_map, List.mem_range]

theorem pathHas_iff {stack : YamlStack} {level : ℕ} {name : Bytes} (hname : name ≠ []) :
    pathHas stack level name = true ↔ name ∈ namesInForce stack (level + 1) := by
  rw [mem_namesInForce]
  unfold pathHas
  simp [hname]

/-- The key in force at the level in front, as far as there is one. -/
def parentOf (stack : YamlStack) (level : ℕ) : Option Bytes :=
  if 0 < level ∧ level - 1 < 32 then some (stack.getD (level - 1) []) else none

theorem parentIs_iff {stack : YamlStack} {level : ℕ} {name : Bytes} :
    parentIs stack level name = true ↔ parentOf stack level = some name := by
  unfold parentIs parentOf
  by_cases h : 0 < level ∧ level - 1 < 32
  · rw [if_pos h]
    simp [h.1, h.2]
  · rw [if_neg h]
    simp only [Bool.and_eq_true, decide_eq_true_eq]
    exact ⟨fun hall => absurd hall.1 h, fun hnone => nomatch hnone⟩

/-- The branches as rules for one key. -/
def keyRules (level : ℕ) (key : Bytes) : List (Option (Finset Bytes)) :=
  branchNeeds.map fun needs =>
    if needs.concerns level key then some needs.names.toFinset else none

/-- The list rules as rules for the entries of one parent. -/
def entryRules (parent : Option Bytes) : List (Option (Finset Bytes)) :=
  listNeeds.map fun needs => if parent = some needs.1 then some needs.2.toFinset else none

/-- A section name: letters, and not too many. -/
def IsWord (name : Bytes) : Prop :=
  name ≠ [] ∧ name.length < 64 ∧ ∀ c ∈ name, 65 ≤ c ∧ c ≤ 122

instance (name : Bytes) : Decidable (IsWord name) :=
  have : Decidable (∀ c ∈ name, 65 ≤ c ∧ c ≤ 122) := List.decidableBAll _ name
  inferInstanceAs (Decidable (_ ∧ _ ∧ _))

theorem isWord_of_branchNeeds : ∀ needs ∈ branchNeeds, ∀ name ∈ needs.names, IsWord name := by
  decide +kernel

theorem isWord_of_listNeeds : ∀ needs ∈ listNeeds, ∀ name ∈ needs.2, IsWord name := by
  decide +kernel

theorem all_pathHas_iff {names : List Bytes} (h : ∀ name ∈ names, IsWord name)
    (stack : YamlStack) (level : ℕ) :
    (names.all fun name => pathHas stack level name) = true ↔
      names.toFinset ⊆ namesInForce stack (level + 1) := by
  rw [List.all_eq_true]
  constructor
  · intro hall name hname
    rw [List.mem_toFinset] at hname
    exact (pathHas_iff (h name hname).1).mp (hall name hname)
  · intro hsub name hname
    exact (pathHas_iff (h name hname).1).mpr (hsub (List.mem_toFinset.mpr hname))

theorem findIdx_congr {α β : Type*} {p : α → Bool} {q : β → Bool} {as : List α} {bs : List β}
    (h : List.Forall₂ (fun a b => p a = q b) as bs) : as.findIdx p = bs.findIdx q := by
  induction h with
  | nil => rfl
  | cons hfirst _ ih => rw [List.findIdx_cons, List.findIdx_cons, hfirst, ih]

/-- **A key takes the first branch whose names are in force.** -/
theorem siteBranch_eq (stack : YamlStack) (level : ℕ) (key : Bytes) :
    siteBranch stack level key = chosen (keyRules level key) (namesInForce stack (level + 1)) := by
  unfold siteBranch chosen keyRules
  rw [List.findIdx_map]
  refine (findIdx_congr ?_).symm
  refine ((List.forall₂_and_left _ _).mpr ⟨isWord_of_branchNeeds, branchNeeds_describe⟩).imp ?_
  rintro needs branch ⟨hnames, hdescribes⟩
  rw [hdescribes stack level key, Bool.eq_iff_iff, Bool.and_eq_true, all_pathHas_iff hnames]
  exact decide_eq_true_iff.trans applies_if

/-- **A list entry takes the first rule of its parent whose names are in force.** -/
theorem listBranch_eq (stack : YamlStack) (level : ℕ) :
    listBranch stack level =
      chosen (entryRules (parentOf stack level)) (namesInForce stack (level + 1)) := by
  unfold listBranch chosen entryRules
  rw [List.findIdx_map]
  refine (findIdx_congr ?_).symm
  refine ((List.forall₂_and_left _ _).mpr ⟨isWord_of_listNeeds, listNeeds_describe⟩).imp ?_
  rintro needs rule ⟨hnames, hdescribes⟩
  rw [hdescribes stack level, Bool.eq_iff_iff, Bool.and_eq_true, parentIs_iff,
    all_pathHas_iff hnames]
  exact decide_eq_true_iff.trans applies_if

/-! ### The question of a line -/

/-- What a line asks the keys in force: where a key belongs, or a list entry. -/
inductive Question where
  | nothing
  | pair (level : ℕ) (key : Bytes)
  | entry (level : ℕ)
  deriving DecidableEq

def Question.level : Question → ℕ
  | nothing => 0
  | pair level _ => level
  | entry level => level

/-- A key without a value asks nothing. -/
def Question.ofPair (level : ℕ) : Option (Bytes × Bytes) → Question
  | none => nothing
  | some (key, value) => if value = [] then nothing else pair level key

def SitesLine.question (line : SitesLine) : Question :=
  if line.text = [] then .nothing
  else if line.isItem then
    if line.item = [] then .nothing
    else if line.level = 1 then .ofPair (line.level + 1) (splitKeyValue 128 1024 line.item)
    else .entry line.level
  else .ofPair line.level line.keyValue

/-- The branch that is taken with these keys in force. -/
def Question.branch (stack : YamlStack) : Question → ℕ
  | nothing => 0
  | pair level key => siteBranch stack level key
  | entry level => listBranch stack level

/-- The branch that a line takes where it stands. -/
def PlacedLine.branch (p : PlacedLine) : ℕ := p.line.question.branch p.stack

theorem applySiteValue_congr {stack stack' : YamlStack} {level : ℕ} {key value : Bytes}
    (h : (Question.ofPair level (some (key, value))).branch stack =
      (Question.ofPair level (some (key, value))).branch stack') (site : SiteConfig) :
    applySiteValue site stack level key value = applySiteValue site stack' level key value := by
  rw [applySiteValue_eq, applySiteValue_eq]
  by_cases hvalue : value = []
  · rw [if_pos hvalue, if_pos hvalue]
  · have hasks : Question.ofPair level (some (key, value)) = .pair level key := if_neg hvalue
    rw [hasks] at h
    have hbranch : siteBranch stack level key = siteBranch stack' level key := h
    rw [hbranch]

/-- **Lines that take the same branch do the same**: the keys in force decide nothing else. -/
theorem applyLine_congr {line : SitesLine} {stack stack' : YamlStack}
    (h : line.question.branch stack = line.question.branch stack') (site : SiteConfig) :
    applyLine site ⟨stack, line⟩ = applyLine site ⟨stack', line⟩ := by
  unfold applyLine
  unfold SitesLine.question at h
  dsimp only at h ⊢
  by_cases hblank : line.text = []
  · rw [if_pos hblank, if_pos hblank]
  rw [if_neg hblank] at h
  rw [if_neg hblank, if_neg hblank]
  by_cases hitem : line.isItem = true
  · rw [if_pos hitem] at h
    rw [if_pos hitem, if_pos hitem]
    by_cases hempty : line.item = []
    · unfold applyFirstPair applySiteListValue
      rw [if_pos hempty, if_pos hempty, if_pos hempty, if_pos hempty]
    rw [if_neg hempty] at h
    by_cases hlevel : line.level = 1
    · rw [if_pos hlevel] at h
      rw [if_pos hlevel, if_pos hlevel]
      unfold applyFirstPair
      rw [if_neg hempty, if_neg hempty]
      cases hpair : splitKeyValue 128 1024 line.item with
      | none => rfl
      | some pair =>
          rw [hpair] at h
          exact applySiteValue_congr h site
    · rw [if_neg hlevel] at h
      rw [if_neg hlevel, if_neg hlevel, applySiteListValue_eq, applySiteListValue_eq]
      have hbranch : listBranch stack line.level = listBranch stack' line.level := h
      rw [hbranch]
  · rw [if_neg hitem] at h
    rw [if_neg hitem, if_neg hitem]
    cases hpair : line.keyValue with
    | none => rfl
    | some pair =>
        rw [hpair] at h
        exact applySiteValue_congr h site

end Rpsiod

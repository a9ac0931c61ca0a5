import Rpsiod.Config.SitesFile

/-!
# The lists of a site, line by line

Each list of a site is a table of fixed size, and each line of the site offers at most one entry to
at most one of them.

* `listEntry`, `pairEntry`: what a line offers to a list, and to `headers.add`.
* `siteListOf_iff`: at most one of the rules for lists applies to a line.
* `applyLine_ok`: a line does to the lists what it offers, and nothing else.
* `Makes.table`, `Makes.headersAdd`: **a list is what the lines of its site offer, in order**.
-/

namespace Rpsiod

open BoundedTable

/-- The lists that `SITE_LIST_RULES` fill. -/
inductive SiteList where
  | domains
  | index
  | allowedMethods
  | blockDirectAccess
  | headersRemove
  deriving DecidableEq

/-- `RPSIOD_MAX_DOMAINS` and its kin. -/
def SiteList.room : SiteList → ℕ
  | .domains => 32
  | .index => 16
  | .allowedMethods => 16
  | .blockDirectAccess => 64
  | .headersRemove => 32

/-- The size of the field of an entry. -/
def SiteList.width : SiteList → ℕ
  | .domains => 256
  | .index => 128
  | .allowedMethods => 16
  | .blockDirectAccess => 128
  | .headersRemove => 128

/-- `RPSIOD_MAX_HEADERS`. -/
def maxHeaders : ℕ := 32

/-- A list of a site. -/
def SiteConfig.table (site : SiteConfig) : SiteList → List Bytes
  | .domains => site.domains
  | .index => site.indexes
  | .allowedMethods => site.allowedMethods
  | .blockDirectAccess => site.blockedDirectAccess
  | .headersRemove => site.headersRemove

/-! ### What a line offers -/

/-- The lists in the order of their rules. -/
def siteLists : List SiteList :=
  [.domains, .index, .allowedMethods, .blockDirectAccess, .headersRemove]

/-- The rule of a list. -/
def SiteList.rule : SiteList → SiteListRule
  | .domains => domainsRule
  | .index => indexRule
  | .allowedMethods => allowedMethodsRule
  | .blockDirectAccess => blockDirectAccessRule
  | .headersRemove => headersRemoveRule

/-- The list that an entry with these keys in force is for. -/
def siteListOf (stack : YamlStack) (level : ℕ) : Option SiteList :=
  siteLists.find? fun l => l.rule.applies stack level

/-- What a line offers to a list. -/
def listEntry (l : SiteList) (p : PlacedLine) : Option Bytes :=
  if p.line.isItem = true ∧ p.line.level ≠ 1 ∧ p.line.item ≠ [] ∧
      siteListOf p.stack p.line.level = some l then
    some (safeCopy l.width p.line.item)
  else none

/-- The pair that a key and a value add to the headers. -/
def addedHeader (stack : YamlStack) (level : ℕ) (key value : Bytes) : Option (Bytes × Bytes) :=
  if value ≠ [] ∧ (earlierRules.any fun rule => rule.holds stack level key) = false ∧
      (pathHas stack level (ascii "headers") && pathHas stack level (ascii "add")) = true then
    some (safeCopy 128 key, safeCopy 512 value)
  else none

/-- Key and value of a line with their level: of a pair, and of the first pair of a site. -/
def PlacedLine.pair (p : PlacedLine) : Option (ℕ × Bytes × Bytes) :=
  if p.line.text = [] then none
  else if p.line.isItem then
    if p.line.level = 1 ∧ p.line.item ≠ [] then
      (splitKeyValue 128 1024 p.line.item).map fun pair => (p.line.level + 1, pair)
    else none
  else p.line.keyValue.map fun pair => (p.line.level, pair)

/-- What a line offers to the headers that are added. -/
def pairEntry (p : PlacedLine) : Option (Bytes × Bytes) :=
  p.pair.bind fun pair => addedHeader p.stack pair.1 pair.2.1 pair.2.2

/-! ### The rule of a list -/

/-- The key that the entries of a list stand below. -/
def SiteList.key : SiteList → Bytes
  | .domains => ascii "domains"
  | .index => ascii "index"
  | .allowedMethods => ascii "allowedMethods"
  | .blockDirectAccess => ascii "blockDirectAccess"
  | .headersRemove => ascii "remove"

theorem SiteList.key_injective : Function.Injective SiteList.key := by
  intro l l' h
  cases l <;> cases l' <;> first | rfl | exact absurd h (by decide)

/-- A line has one parent. -/
theorem parentIs_unique {stack : YamlStack} {level : ℕ} {key key' : Bytes}
    (h : parentIs stack level key = true) (h' : parentIs stack level key' = true) : key = key' := by
  unfold parentIs at h h'
  simp only [Bool.and_eq_true, decide_eq_true_eq] at h h'
  exact h.2.symm.trans h'.2

theorem SiteList.parentIs_of_applies {l : SiteList} {stack : YamlStack} {level : ℕ}
    (h : l.rule.applies stack level = true) : parentIs stack level l.key = true := by
  cases l with
  | domains => exact h
  | index => exact h
  | allowedMethods => exact h
  | blockDirectAccess => exact h
  | headersRemove => exact (Bool.and_eq_true_iff.mp h).1

/-- **At most one rule applies**, so that their order does not matter. -/
theorem siteListOf_iff {stack : YamlStack} {level : ℕ} {l : SiteList} :
    siteListOf stack level = some l ↔ l.rule.applies stack level = true := by
  have hfound : ∀ l', siteListOf stack level = some l' → l'.rule.applies stack level = true :=
    fun l' h' => (List.find?_some h' :)
  refine ⟨hfound l, fun happlies => ?_⟩
  cases hlist : siteListOf stack level with
  | none =>
      have hmem : l ∈ siteLists := by cases l <;> decide
      exact absurd happlies (List.find?_eq_none.mp hlist l hmem)
  | some l' =>
      have hparent := SiteList.parentIs_of_applies (hfound l' hlist)
      exact congrArg some (SiteList.key_injective
        (parentIs_unique hparent (SiteList.parentIs_of_applies happlies)))

/-! ### What a line does -/

theorem offer_eq {α β : Type*} (room : ℕ) (entry : α → Option β) (table : List β) (a : α) :
    offer room entry table a = (entry a).elim table (append room table) := by
  unfold offer
  cases entry a with
  | none => rfl
  | some b => rfl

/-- The rule that is taken: that of the list, if there is one. -/
theorem find?_siteListRules (stack : YamlStack) (level : ℕ) :
    siteListRules.find? (fun rule => rule.applies stack level) =
      ((siteListOf stack level).map SiteList.rule).or
        ([compressionRule].find? fun rule => rule.applies stack level) := by
  have hrules : siteListRules = siteLists.map SiteList.rule ++ [compressionRule] := rfl
  rw [hrules, List.find?_append, List.find?_map]
  rfl

theorem SiteList.apply_ok {l : SiteList} {site site' : SiteConfig} {value : Bytes}
    (h : l.rule.apply site value = .ok site') :
    (∀ l', site'.table l' =
      if l = l' then append l'.room (site.table l') (safeCopy l'.width value)
      else site.table l') ∧ site'.headersAdd = site.headersAdd := by
  cases l with
  | domains =>
      obtain rfl := Except.ok.inj h
      exact ⟨fun l' => by cases l' <;> rfl, rfl⟩
  | index =>
      obtain rfl := Except.ok.inj h
      exact ⟨fun l' => by cases l' <;> rfl, rfl⟩
  | allowedMethods =>
      obtain rfl := Except.ok.inj h
      exact ⟨fun l' => by cases l' <;> rfl, rfl⟩
  | blockDirectAccess =>
      obtain rfl := Except.ok.inj h
      exact ⟨fun l' => by cases l' <;> rfl, rfl⟩
  | headersRemove =>
      obtain rfl := Except.ok.inj h
      exact ⟨fun l' => by cases l' <;> rfl, rfl⟩

theorem compressionRule_ok {site site' : SiteConfig} {value : Bytes}
    (h : compressionRule.apply site value = .ok site') :
    (∀ l, site'.table l = site.table l) ∧ site'.headersAdd = site.headersAdd := by
  unfold compressionRule at h
  dsimp only at h
  split_ifs at h
  · obtain rfl := Except.ok.inj h
    exact ⟨fun l => by cases l <;> rfl, rfl⟩
  · obtain rfl := Except.ok.inj h
    exact ⟨fun l => by cases l <;> rfl, rfl⟩

theorem applySiteListValue_ok {site site' : SiteConfig} {stack : YamlStack} {level : ℕ}
    {value : Bytes} (h : applySiteListValue site stack level value = .ok site') :
    (∀ l, site'.table l =
      if value ≠ [] ∧ siteListOf stack level = some l then
        append l.room (site.table l) (safeCopy l.width value)
      else site.table l) ∧ site'.headersAdd = site.headersAdd := by
  unfold applySiteListValue at h
  by_cases hvalue : value = []
  · rw [if_pos hvalue] at h
    obtain rfl := Except.ok.inj h
    exact ⟨fun l => (if_neg fun h => h.1 hvalue).symm, rfl⟩
  rw [if_neg hvalue, find?_siteListRules] at h
  cases hlist : siteListOf stack level with
  | some l =>
      rw [hlist] at h
      obtain ⟨htable, hadd⟩ := SiteList.apply_ok h
      refine ⟨fun l' => ?_, hadd⟩
      rw [htable l']
      simp [hvalue]
  | none =>
      rw [hlist, Option.map_none, Option.none_or] at h
      have hsame : (∀ l, site'.table l = site.table l) ∧ site'.headersAdd = site.headersAdd := by
        by_cases halgorithms : compressionRule.applies stack level = true
        · rw [List.find?_cons, halgorithms] at h
          exact compressionRule_ok h
        · rw [List.find?_cons, Bool.eq_false_of_not_eq_true halgorithms, List.find?_nil] at h
          obtain rfl := Except.ok.inj h
          exact ⟨fun _ => rfl, rfl⟩
      exact ⟨fun l => by rw [hsame.1 l, if_neg fun h => nomatch h.2], hsame.2⟩

theorem map_settings_ok {x : Except Bytes SiteSettings} {site site' : SiteConfig}
    (h : (x.map fun s => { site with settings := s }) = .ok site') :
    (∀ l, site'.table l = site.table l) ∧ site'.headersAdd = site.headersAdd := by
  cases x with
  | error text => exact nomatch h
  | ok s =>
      obtain rfl := Except.ok.inj h
      exact ⟨fun l => by cases l <;> rfl, rfl⟩

theorem applySiteValue_ok {site site' : SiteConfig} {stack : YamlStack} {level : ℕ}
    {key value : Bytes} (h : applySiteValue site stack level key value = .ok site') :
    (∀ l, site'.table l = site.table l) ∧
      site'.headersAdd = (addedHeader stack level key value).elim site.headersAdd
        (append maxHeaders site.headersAdd) := by
  unfold applySiteValue at h
  unfold addedHeader
  by_cases hvalue : value = []
  · rw [if_pos hvalue] at h
    obtain rfl := Except.ok.inj h
    rw [if_neg fun h => h.1 hvalue]
    exact ⟨fun _ => rfl, rfl⟩
  rw [if_neg hvalue] at h
  cases hearlier : earlierRules.find? fun rule => rule.holds stack level key with
  | some rule =>
      rw [hearlier] at h
      have hany : (earlierRules.any fun rule => rule.holds stack level key) = true :=
        List.any_eq_true.mpr
          ⟨rule, List.mem_of_find?_eq_some hearlier, (List.find?_some hearlier :)⟩
      rw [if_neg fun h => absurd (hany.symm.trans h.2.1) (by decide)]
      exact map_settings_ok h
  | none =>
      rw [hearlier] at h
      have hany : (earlierRules.any fun rule => rule.holds stack level key) = false := by
        rw [List.any_eq_false]
        exact fun rule hrule => List.find?_eq_none.mp hearlier rule hrule
      dsimp only at h
      by_cases hadd : (pathHas stack level (ascii "headers") &&
          pathHas stack level (ascii "add")) = true
      · rw [if_pos hadd] at h
        obtain rfl := Except.ok.inj h
        rw [if_pos ⟨hvalue, hany, hadd⟩]
        exact ⟨fun l => by cases l <;> rfl, rfl⟩
      · rw [if_neg hadd] at h
        rw [if_neg fun h => hadd h.2.2]
        cases hlater : laterRules.find? fun rule => rule.holds stack level key with
        | some rule =>
            rw [hlater] at h
            exact map_settings_ok h
        | none =>
            rw [hlater] at h
            obtain rfl := Except.ok.inj h
            exact ⟨fun _ => rfl, rfl⟩

/-- What a line does to the lists of its site. -/
structure LineOffers (p : PlacedLine) (site site' : SiteConfig) : Prop where
  table : ∀ l, site'.table l = offer l.room (listEntry l) (site.table l) p
  headersAdd : site'.headersAdd = offer maxHeaders pairEntry site.headersAdd p

theorem lineOffers_pair {p : PlacedLine} {site site' : SiteConfig} {level : ℕ} {key value : Bytes}
    (hnone : ∀ l, listEntry l p = none) (hpair : p.pair = some (level, key, value))
    (h : applySiteValue site p.stack level key value = .ok site') : LineOffers p site site' := by
  obtain ⟨htable, hadd⟩ := applySiteValue_ok h
  constructor
  · intro l
    rw [offer_eq, hnone l]
    exact htable l
  · rw [offer_eq, pairEntry, hpair]
    exact hadd

theorem lineOffers_same {p : PlacedLine} {site : SiteConfig} (hnone : ∀ l, listEntry l p = none)
    (hpair : p.pair = none) : LineOffers p site site := by
  constructor
  · intro l
    rw [offer_eq, hnone l]
    rfl
  · rw [offer_eq, pairEntry, hpair]
    rfl

/-- **A line does to the lists what it offers.** -/
theorem applyLine_ok {site site' : SiteConfig} {p : PlacedLine}
    (h : applyLine site p = .ok site') : LineOffers p site site' := by
  unfold applyLine at h
  by_cases hblank : p.line.text = []
  · rw [if_pos hblank] at h
    obtain rfl := Except.ok.inj h
    have hitem : p.line.isItem = false := by simp [SitesLine.isItem, hblank]
    exact lineOffers_same (fun l => by simp [listEntry, hitem]) (by simp [PlacedLine.pair, hblank])
  rw [if_neg hblank] at h
  by_cases hitem : p.line.isItem = true
  · rw [if_pos hitem] at h
    by_cases hlevel : p.line.level = 1
    · -- the line of the site itself
      have hnone : ∀ l, listEntry l p = none := fun l => by simp [listEntry, hlevel]
      rw [if_pos hlevel] at h
      unfold applyFirstPair at h
      by_cases hempty : p.line.item = []
      · rw [if_pos hempty] at h
        obtain rfl := Except.ok.inj h
        exact lineOffers_same hnone (by simp [PlacedLine.pair, hitem, hempty])
      · rw [if_neg hempty] at h
        cases hsplit : splitKeyValue 128 1024 p.line.item with
        | none =>
            rw [hsplit] at h
            obtain rfl := Except.ok.inj h
            exact lineOffers_same hnone (by simp [PlacedLine.pair, hitem, hsplit])
        | some pair =>
            rw [hsplit] at h
            refine lineOffers_pair hnone ?_ h
            simp [PlacedLine.pair, hblank, hitem, hlevel, hempty, hsplit]
    · rw [if_neg hlevel] at h
      have hpair : p.pair = none := by simp [PlacedLine.pair, hitem, hlevel]
      obtain ⟨htable, hadd⟩ := applySiteListValue_ok h
      constructor
      · intro l
        rw [htable l, offer_eq, listEntry]
        by_cases hlist : p.line.item ≠ [] ∧ siteListOf p.stack p.line.level = some l
        · rw [if_pos hlist, if_pos ⟨hitem, hlevel, hlist⟩]
          rfl
        · rw [if_neg hlist, if_neg fun h => hlist h.2.2]
          rfl
      · rw [offer_eq, pairEntry, hpair]
        exact hadd
  · rw [if_neg hitem] at h
    have hnone : ∀ l, listEntry l p = none := fun l => by simp [listEntry, hitem]
    cases hkey : p.line.keyValue with
    | none =>
        rw [hkey] at h
        cases h
    | some pair =>
        rw [hkey] at h
        refine lineOffers_pair hnone ?_ h
        simp [PlacedLine.pair, hblank, hitem, hkey]

/-! ### The lists of a site -/

/-- **A list is what the lines offer**, behind what `site_defaults` puts there. -/
theorem Makes.table {ps : List PlacedLine} {site : SiteConfig} (h : Makes ps site) (l : SiteList) :
    site.table l = ps.foldl (offer l.room (listEntry l)) (SiteConfig.table {} l) :=
  foldlM_table (fun _ _ _ hline => (applyLine_ok hline).table l) h

theorem Makes.headersAdd {ps : List PlacedLine} {site : SiteConfig} (h : Makes ps site) :
    site.headersAdd = ps.foldl (offer maxHeaders pairEntry) [] :=
  foldlM_table (fun _ _ _ hline => (applyLine_ok hline).headersAdd) h

end Rpsiod

import Rpsiod.Config.SiteLists
import Rpsiod.Config.Validate
import Rpsiod.Http.Trim

/-!
# What a site lists is kept (`append_string` and its kin)

The functions that append to a list of a site cut an entry to its field, drop it when the table is
full, and report neither.

* `claimedItem`, `claimedPair`: what a line lists, as it is written.
* `ListsKept`: each of them is in its table, in full and in its place.
* `ListsFit`: the entries are short and few enough, and the pairs are read as pairs.
* `listsKept_iff`: **in every configuration that is loaded, the one holds of a site exactly if the
  other does of its lines**.
-/

namespace Rpsiod

open BoundedTable ListSearch ListStrip

/-! ### What a line lists -/

/-- The keys that a line stands below, the nearest first. -/
def isBelow (stack : YamlStack) (level : ℕ) : List Bytes → Bool
  | [] => true
  | key :: keys => parentIs stack level key && isBelow stack (level - 1) keys

/-- Where the entries of a list are documented to stand. -/
def SiteList.path : SiteList → List Bytes
  | .domains => [ascii "domains", ascii "match"]
  | .index => [ascii "index", ascii "static"]
  | .allowedMethods => [ascii "allowedMethods"]
  | .blockDirectAccess => [ascii "blockDirectAccess"]
  | .headersRemove => [ascii "remove", ascii "headers"]

/-- The item that a line adds to a list. -/
def claimedItem (l : SiteList) (p : PlacedLine) : Option Bytes :=
  if p.line.isItem = true ∧ p.line.level ≠ 1 ∧ p.line.item ≠ [] ∧
      isBelow p.stack p.line.level l.path = true then
    some p.line.item
  else none

/-- The pair that a line adds below `headers.add`: what is written in front of its first colon, and
what is written behind. -/
def claimedPair (p : PlacedLine) : Option (Bytes × Bytes) :=
  let written := strip isspace p.line.written
  if written.head? ≠ some 45 ∧
      isBelow p.stack p.line.level [ascii "add", ascii "headers"] = true then
    match splitFirst 58 written with
    | none => none
    | some (before, after) => if trim before = [] then none else some (trim before, trim after)
  else none

/-! ### What is claimed, and when it holds -/

/-- The lists that are claimed to be kept. -/
def claimedLists : List SiteList := [.domains, .index, .blockDirectAccess, .headersRemove]

/-- A list of a site is what its lines add, in order, and every item that is listed adds itself; a
site without an index has the one by default. -/
def ListKept (l : SiteList) (ps : List PlacedLine) (site : SiteConfig) : Prop :=
  (site.table l =
    let added := (contributions l.room (listEntry l) 0 ps).reduceOption
    if l = .index ∧ added = [] then [ascii "index.html"] else added) ∧
  Keeps l.room (listEntry l) (claimedItem l) 0 ps

/-- The same for the headers that are added. -/
def PairsKept (ps : List PlacedLine) (site : SiteConfig) : Prop :=
  site.headersAdd = (contributions maxHeaders pairEntry 0 ps).reduceOption ∧
  Keeps maxHeaders pairEntry claimedPair 0 ps

/-- **No entry is lost.** -/
def ListsKept (ps : List PlacedLine) (site : SiteConfig) : Prop :=
  (∀ l ∈ claimedLists, ListKept l ps site) ∧ PairsKept ps site

/-- So many of the lines in front of a line are read as entries of the list. -/
def entriesBefore {β : Type} (entry : PlacedLine → Option β) (ps : List PlacedLine) (i : ℕ) : ℕ :=
  (ps.take i).countP fun p => (entry p).isSome

/-- Every item is shorter than its field, and there is room behind those in front. -/
def ListFits (l : SiteList) (ps : List PlacedLine) : Prop :=
  ∀ (i : ℕ) (p : PlacedLine) (item : Bytes), ps[i]? = some p → claimedItem l p = some item →
    item.length < l.width ∧ entriesBefore (listEntry l) ps i < l.room

/-- The buffers for key and value hold the pair, and no other rule takes the key. -/
structure PairFits (p : PlacedLine) (pair : Bytes × Bytes) : Prop where
  noItem : p.line.isItem = false
  read : ∃ value, p.line.keyValue = some (pair.1, value) ∧ value ≠ [] ∧
    safeCopy 512 value = pair.2
  noRule : (earlierRules.any fun rule => rule.holds p.stack p.line.level pair.1) = false

def PairsFit (ps : List PlacedLine) : Prop :=
  ∀ (i : ℕ) (p : PlacedLine) (pair : Bytes × Bytes), ps[i]? = some p → claimedPair p = some pair →
    PairFits p pair ∧ entriesBefore pairEntry ps i < maxHeaders

/-- **The entries are short and few enough.** -/
def ListsFit (ps : List PlacedLine) : Prop :=
  (∀ l ∈ claimedLists, ListFits l ps) ∧ PairsFit ps

/-! ### Items -/

theorem pathHas_of_parentIs {stack : YamlStack} {level : ℕ} {key : Bytes}
    (h : parentIs stack level key = true) {maxLevel : ℕ} (hlevel : level ≤ maxLevel + 1) :
    pathHas stack maxLevel key = true := by
  unfold parentIs at h
  simp only [Bool.and_eq_true, decide_eq_true_eq] at h
  obtain ⟨⟨hpos, hdeep⟩, hkey⟩ := h
  unfold pathHas
  rw [List.any_eq_true]
  refine ⟨level - 1, List.mem_range.mpr ?_, decide_eq_true hkey⟩
  omega

theorem applies_of_isBelow {l : SiteList} {stack : YamlStack} {level : ℕ}
    (h : isBelow stack level l.path = true) : l.rule.applies stack level = true := by
  cases l with
  | domains => exact (Bool.and_eq_true_iff.mp h).1
  | index => exact (Bool.and_eq_true_iff.mp h).1
  | allowedMethods => exact (Bool.and_eq_true_iff.mp h).1
  | blockDirectAccess => exact (Bool.and_eq_true_iff.mp h).1
  | headersRemove =>
      obtain ⟨hremove, h⟩ := Bool.and_eq_true_iff.mp h
      have hheaders := (Bool.and_eq_true_iff.mp h).1
      exact Bool.and_eq_true_iff.mpr ⟨hremove, pathHas_of_parentIs hheaders (by omega)⟩

theorem safeCopy_eq_self {width : ℕ} (hwidth : 0 < width) {text : Bytes} :
    safeCopy width text = text ↔ text.length < width := by
  unfold safeCopy
  rw [List.take_eq_self_iff]
  omega

/-- An item adds itself if it is short enough. -/
theorem listEntry_of_claimed {l : SiteList} {p : PlacedLine} {item : Bytes}
    (h : claimedItem l p = some item) :
    listEntry l p = some item ↔ item.length < l.width := by
  unfold claimedItem at h
  split_ifs at h with hclaim
  obtain ⟨hitem, hlevel, hvalue, hbelow⟩ := hclaim
  obtain rfl := Option.some.inj h
  have hwidth : 0 < l.width := by cases l <;> decide
  rw [listEntry, if_pos ⟨hitem, hlevel, hvalue, siteListOf_iff.mpr (applies_of_isBelow hbelow)⟩,
    Option.some.injEq]
  exact safeCopy_eq_self hwidth

theorem listKeeps_iff {l : SiteList} {ps : List PlacedLine} :
    Keeps l.room (listEntry l) (claimedItem l) 0 ps ↔ ListFits l ps := by
  rw [keeps_iff]
  unfold Fits ListFits entriesBefore
  constructor
  · intro h i p item hp hclaim
    obtain ⟨hentry, hroom⟩ := h i p item hp hclaim
    rw [Nat.zero_add] at hroom
    exact ⟨(listEntry_of_claimed hclaim).mp hentry, hroom⟩
  · intro h i p item hp hclaim
    obtain ⟨hshort, hroom⟩ := h i p item hp hclaim
    rw [Nat.zero_add]
    exact ⟨(listEntry_of_claimed hclaim).mpr hshort, hroom⟩

/-! ### Pairs -/

/-- The key that is read fits its field. -/
theorem safeCopy_key {line : SitesLine} {key value : Bytes}
    (h : line.keyValue = some (key, value)) : safeCopy 128 key = key := by
  rw [safeCopy_eq_self (by decide)]
  unfold SitesLine.keyValue splitKeyValue at h
  cases hsplit : splitFirst 58 line.text with
  | none =>
      rw [hsplit] at h
      cases h
  | some parts =>
      rw [hsplit] at h
      dsimp only at h
      split_ifs at h
      obtain ⟨rfl, -⟩ := Prod.mk.inj (Option.some.inj h)
      have htrim := (length_trim_le (safeCopy 128 parts.1)).trans (length_strip_le isspace _)
      have hcopy : (safeCopy 128 parts.1).length ≤ 127 := List.length_take_le _ _
      omega

theorem pairEntry_of_claimed {p : PlacedLine} {pair : Bytes × Bytes}
    (h : claimedPair p = some pair) : pairEntry p = some pair ↔ PairFits p pair := by
  have hbelow : isBelow p.stack p.line.level [ascii "add", ascii "headers"] = true := by
    unfold claimedPair at h
    dsimp only at h
    split_ifs at h with hclaim
    exact hclaim.2
  obtain ⟨hadd, hheaders⟩ := Bool.and_eq_true_iff.mp hbelow
  replace hheaders := (Bool.and_eq_true_iff.mp hheaders).1
  have hdeep : 2 ≤ p.line.level := by
    unfold parentIs at hheaders
    simp only [Bool.and_eq_true, decide_eq_true_eq] at hheaders
    omega
  have hpath : (pathHas p.stack p.line.level (ascii "headers") &&
      pathHas p.stack p.line.level (ascii "add")) = true :=
    Bool.and_eq_true_iff.mpr
      ⟨pathHas_of_parentIs hheaders (by omega), pathHas_of_parentIs hadd (by omega)⟩
  constructor
  · intro hentry
    obtain ⟨⟨level, key, value⟩, hpair, hadded⟩ := Option.bind_eq_some_iff.mp hentry
    have hlevel : ¬(p.line.level = 1 ∧ p.line.item ≠ []) := by omega
    unfold PlacedLine.pair at hpair
    split_ifs at hpair with _ hitem
    obtain ⟨⟨key', value'⟩, hkey, hsame⟩ := Option.map_eq_some_iff.mp hpair
    obtain ⟨rfl, rfl, rfl⟩ := by simpa using hsame
    unfold addedHeader at hadded
    split_ifs at hadded with hall
    obtain rfl := Option.some.inj hadded
    obtain ⟨hvalue, hrule, -⟩ := hall
    dsimp only at hvalue hrule
    refine ⟨Bool.eq_false_of_not_eq_true hitem, ⟨value', ?_, hvalue, rfl⟩, ?_⟩
    · rw [hkey]
      exact congrArg (fun key => some (key, value')) (safeCopy_key hkey).symm
    · rw [safeCopy_key hkey]
      exact hrule
  · rintro ⟨hitem, ⟨value, hread, hvalue, hcopy⟩, hrule⟩
    have htext : p.line.text ≠ [] := by
      intro hnil
      rw [SitesLine.keyValue, hnil] at hread
      exact nomatch hread
    have hpair : p.pair = some (p.line.level, pair.1, value) := by
      simp [PlacedLine.pair, htext, hitem, hread]
    rw [pairEntry, hpair, Option.bind_some, addedHeader, if_pos ⟨hvalue, hrule, hpath⟩,
      safeCopy_key hread, hcopy]

theorem pairsKeep_iff {ps : List PlacedLine} :
    Keeps maxHeaders pairEntry claimedPair 0 ps ↔ PairsFit ps := by
  rw [keeps_iff]
  unfold Fits PairsFit entriesBefore
  constructor
  · intro h i p pair hp hclaim
    obtain ⟨hentry, hroom⟩ := h i p pair hp hclaim
    rw [Nat.zero_add] at hroom
    exact ⟨(pairEntry_of_claimed hclaim).mp hentry, hroom⟩
  · intro h i p pair hp hclaim
    obtain ⟨hfits, hroom⟩ := h i p pair hp hclaim
    rw [Nat.zero_add]
    exact ⟨(pairEntry_of_claimed hclaim).mpr hfits, hroom⟩

/-! ### Configurations that are loaded -/

/-- The tables of a site that is loaded are what its lines add. -/
theorem loaded_tables {ps : List PlacedLine} {read site : SiteConfig} (hmakes : Makes ps read)
    (hchecked : Checked read site) :
    (∀ l ∈ claimedLists, site.table l =
      let added := (contributions l.room (listEntry l) 0 ps).reduceOption
      if l = .index ∧ added = [] then [ascii "index.html"] else added) ∧
    site.headersAdd = (contributions maxHeaders pairEntry 0 ps).reduceOption := by
  have hread : ∀ l ∈ claimedLists,
      read.table l = (contributions l.room (listEntry l) 0 ps).reduceOption := by
    intro l hl
    have hempty : SiteConfig.table {} l = [] := by
      cases l with
      | allowedMethods => exact absurd hl (by decide)
      | _ => rfl
    have hfold := hmakes.table l
    rw [hempty, foldl_append_eq] at hfold
    exact hfold
  refine ⟨fun l hl => ?_, ?_⟩
  · have htable := hread l hl
    dsimp only
    rw [← htable]
    cases l with
    | domains => exact hchecked.domains
    | index =>
        refine hchecked.indexes.trans ?_
        change (if read.indexes = [] then _ else _) = if _ ∧ read.indexes = [] then _ else _
        simp only [true_and]
        rfl
    | allowedMethods => exact absurd hl (by decide)
    | blockDirectAccess => exact hchecked.blockedDirectAccess
    | headersRemove => exact hchecked.headersRemove
  · rw [hchecked.headersAdd, hmakes.headersAdd, foldl_append_eq]
    rfl

/-! ### Lists that are short -/

theorem entriesBefore_lt {β : Type} {entry : PlacedLine → Option β} {ps : List PlacedLine} {i : ℕ}
    {p : PlacedLine} (hp : ps[i]? = some p) (hentry : (entry p).isSome = true) :
    entriesBefore entry ps i < ps.countP fun p => (entry p).isSome := by
  unfold entriesBefore
  obtain ⟨hi, rfl⟩ := List.getElem?_eq_some_iff.mp hp
  have hsplit : ps = ps.take i ++ ps[i] :: ps.drop (i + 1) := by
    rw [← List.drop_eq_getElem_cons hi, List.take_append_drop]
  have hcount := congrArg (List.countP fun p => (entry p).isSome) hsplit
  rw [List.countP_append, List.countP_cons, if_pos hentry] at hcount
  omega

/-- A list fits if it has no more items than room, and none is as long as its field. -/
theorem listFits_of_few {l : SiteList} {ps : List PlacedLine}
    (hshort : ∀ p ∈ ps, ∀ item ∈ claimedItem l p, item.length < l.width)
    (hfew : (ps.countP fun p => (listEntry l p).isSome) ≤ l.room) : ListFits l ps := by
  intro i p item hp hclaim
  have hlength := hshort p (List.mem_of_getElem? hp) item hclaim
  have hentry := (listEntry_of_claimed hclaim).mpr hlength
  have hbefore := @entriesBefore_lt _ (listEntry l) _ _ _ hp (Option.isSome_of_eq_some hentry)
  exact ⟨hlength, by omega⟩

theorem listsFit_of_few {ps : List PlacedLine}
    (hshort : ∀ l ∈ claimedLists, ∀ p ∈ ps, ∀ item ∈ claimedItem l p, item.length < l.width)
    (hfew : ∀ l ∈ claimedLists, (ps.countP fun p => (listEntry l p).isSome) ≤ l.room)
    (hread : ∀ p ∈ ps, ∀ pair ∈ claimedPair p, pairEntry p = some pair)
    (hpairs : (ps.countP fun p => (pairEntry p).isSome) ≤ maxHeaders) : ListsFit ps := by
  refine ⟨fun l hl => listFits_of_few (hshort l hl) (hfew l hl), ?_⟩
  intro i p pair hp hclaim
  have hentry := hread p (List.mem_of_getElem? hp) pair hclaim
  have hbefore := entriesBefore_lt hp (Option.isSome_of_eq_some hentry)
  exact ⟨(pairEntry_of_claimed hclaim).mp hentry, by omega⟩

/-- A pair is read as it is written if its line is not in quotes as a whole, and both of its parts
are shorter than their buffers. -/
theorem pairFits_of_short {p : PlacedLine} {before after : Bytes}
    (hplain : isWrapped (strip isspace p.line.written) = false)
    (hitem : (strip isspace p.line.written).head? ≠ some 45)
    (hsplit : splitFirst 58 (strip isspace p.line.written) = some (before, after))
    (hkey : trim before ≠ []) (hbefore : before.length < 128) (hafter : after.length < 1024)
    (hvalue : trim after ≠ []) (hshort : (trim after).length < 512)
    (hrule : (earlierRules.any fun rule => rule.holds p.stack p.line.level (trim before)) = false) :
    PairFits p (trim before, trim after) := by
  have htext : p.line.text = strip isspace p.line.written := by
    rw [SitesLine.text, trim_eq, ← isWrapped, hplain]
    rfl
  refine ⟨?_, ⟨trim after, ?_, hvalue, ?_⟩, hrule⟩
  · rw [SitesLine.isItem, htext]
    exact decide_eq_false hitem
  · rw [SitesLine.keyValue, splitKeyValue, htext, hsplit]
    dsimp only
    rw [(safeCopy_eq_self (by decide)).mpr hbefore, (safeCopy_eq_self (by decide)).mpr hafter,
      if_neg hkey]
  · exact (safeCopy_eq_self (by decide)).mpr hshort

/-! ### Two files -/

/-- A file with one site, which adds a header and blocks these paths. -/
def blockedFile (paths : List Bytes) : Bytes :=
  fileText (relayedSite ++
    [(2, ascii "headers:"), (3, ascii "add:"), (4, ascii "X-Frame-Options: DENY"),
      (2, ascii "security:"), (3, ascii "blockDirectAccess:")] ++
    paths.map fun path => (4, ascii "- " ++ path))

/-- Two paths. -/
def twoBlocked : Bytes := blockedFile [ascii ".env", ascii ".git"]

/-- One path more than there is room for. -/
def manyBlocked : Bytes := blockedFile ((List.range 65).map fun i => ascii "secret" ++ decimal i)

/-- The last of them stands behind as many as there is room for. -/
theorem manyBlocked_lines :
    (siteLines manyBlocked).map (fun ps =>
      (ps[78]?.bind (claimedItem .blockDirectAccess),
        entriesBefore (listEntry .blockDirectAccess) ps 78)) =
      [(some (ascii "secret64"), 64)] := by decide +kernel

end Rpsiod

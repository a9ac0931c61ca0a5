import Rpsiod.Config.SiteLists
import Rpsiod.Config.Validate

/-!
# The methods that a site allows (`append_method`, `rpsiod_site_allows_method`)

The methods of a site stand behind the GET and HEAD that `site_defaults` puts in front, so that
there is room for fourteen of them, each cut to 15 bytes.

* `listedMethods`: what the file lists for a site.
* `loaded_allowedMethods`: the table that is loaded.
* `allowedMethods_iff`: **the methods are exactly those that are listed** if GET is one of them,
  none is longer than 15 bytes and those behind the fourteenth repeat earlier ones.
-/

namespace Rpsiod

open BoundedTable

/-- The loop of `rpsiod_site_allows_method`. -/
def SiteConfig.listsMethod (site : SiteConfig) (method : Bytes) : Bool :=
  site.allowedMethods.any fun allowed => streqCi allowed method

/-- `rpsiod_site_allows_method`, on a site as it is loaded. -/
def SiteConfig.allowsMethod (site : SiteConfig) (method : Bytes) : Bool :=
  (streqCi method (ascii "HEAD") && site.listsMethod (ascii "GET")) || site.listsMethod method

/-- It is the function that request handling calls. -/
theorem Site.allowsMethod_eq {site : Site} {config : SiteConfig}
    (h : config.allowedMethods = site.allowedMethods.map LineText.bytes) (method : Bytes) :
    config.allowsMethod method = site.allowsMethod method := by
  unfold SiteConfig.allowsMethod Site.allowsMethod SiteConfig.listsMethod Site.listsMethod
  rw [h, List.any_map, List.any_map]
  rfl

/-! ### What is listed, and what is loaded -/

/-- The entry that a line lists below `allowedMethods`. -/
def listedMethod (p : PlacedLine) : Option Bytes :=
  if p.line.isItem = true ∧ p.line.level ≠ 1 ∧ p.line.item ≠ [] ∧
      parentIs p.stack p.line.level (ascii "allowedMethods") = true then
    some p.line.item
  else none

/-- The entries of a site, in order and in full. -/
def listedMethods (ps : List PlacedLine) : List Bytes := ps.filterMap listedMethod

theorem listEntry_allowedMethods (p : PlacedLine) :
    listEntry .allowedMethods p = (listedMethod p).map (safeCopy 16) := by
  have hlist : siteListOf p.stack p.line.level = some .allowedMethods ↔
      parentIs p.stack p.line.level (ascii "allowedMethods") = true := siteListOf_iff
  unfold listEntry listedMethod
  by_cases hlisted : p.line.isItem = true ∧ p.line.level ≠ 1 ∧ p.line.item ≠ [] ∧
      parentIs p.stack p.line.level (ascii "allowedMethods") = true
  · obtain ⟨hitem, hlevel, hvalue, hparent⟩ := hlisted
    rw [if_pos ⟨hitem, hlevel, hvalue, hlist.mpr hparent⟩,
      if_pos ⟨hitem, hlevel, hvalue, hparent⟩]
    rfl
  · rw [if_neg hlisted, if_neg]
    · rfl
    · rintro ⟨hitem, hlevel, hvalue, hentry⟩
      exact hlisted ⟨hitem, hlevel, hvalue, hlist.mp hentry⟩

/-- **The table that is loaded**: GET and HEAD, and the first fourteen entries, cut to 15 bytes. -/
theorem loaded_allowedMethods {dirs : Directories} {server : Except Bytes ServerSettings}
    {path file : Bytes} {cfg : LoadedConfig}
    (h : configLoad dirs server path (.ok file) = .ok cfg) :
    List.Forall₂ (fun ps site => site.allowedMethods =
        [ascii "GET", ascii "HEAD"] ++ ((listedMethods ps).take 14).map (safeCopy 16))
      (siteLines file) cfg.sites := by
  refine (configLoad_ok h).imp ?_
  rintro ps site ⟨read, hmakes, hchecked⟩
  have htable : read.allowedMethods =
      [ascii "GET", ascii "HEAD"] ++ ((listedMethods ps).take 14).map (safeCopy 16) := by
    have hoffers := hmakes.table .allowedMethods
    rw [foldl_offer] at hoffers
    have hentries : ps.filterMap (listEntry .allowedMethods) =
        (listedMethods ps).map (safeCopy 16) := by
      rw [funext listEntry_allowedMethods, listedMethods, List.map_filterMap]
    rw [hentries, ← List.map_take] at hoffers
    exact hoffers
  rw [hchecked.allowedMethods, if_neg, htable]
  rw [htable]
  exact List.cons_ne_nil _ _

/-! ### When they are the same -/

/-- What is claimed of a site: it allows a method exactly if it is listed, or is HEAD where GET is
listed. -/
def AllowsListed (listed : List Bytes) (site : SiteConfig) : Prop :=
  ∀ method, site.allowsMethod method = true ↔
    (∃ entry ∈ listed, streqCi entry method = true) ∨
      streqCi method (ascii "HEAD") = true ∧ ∃ entry ∈ listed, streqCi entry (ascii "GET") = true

/-- The lists that are kept as they are. -/
structure MethodsFit (listed : List Bytes) : Prop where
  get : ∃ entry ∈ listed, streqCi entry (ascii "GET") = true
  short : ∀ entry ∈ listed, entry.length ≤ 15
  room : ∀ entry ∈ listed.drop 14, streqCi (ascii "GET") entry = true ∨
    streqCi (ascii "HEAD") entry = true ∨ ∃ other ∈ listed.take 14, streqCi other entry = true

theorem allowsMethod_iff {listed : List Bytes} {site : SiteConfig}
    (h : site.allowedMethods =
      [ascii "GET", ascii "HEAD"] ++ (listed.take 14).map (safeCopy 16)) (method : Bytes) :
    site.allowsMethod method = true ↔ streqCi (ascii "GET") method = true ∨
      streqCi (ascii "HEAD") method = true ∨
      ∃ entry ∈ listed.take 14, streqCi (safeCopy 16 entry) method = true := by
  have hlists : site.listsMethod method = true ↔ streqCi (ascii "GET") method = true ∨
      streqCi (ascii "HEAD") method = true ∨
      ∃ entry ∈ listed.take 14, streqCi (safeCopy 16 entry) method = true := by
    unfold SiteConfig.listsMethod
    rw [h]
    simp only [List.any_append, List.any_cons, List.any_nil, Bool.or_false, Bool.or_eq_true,
      List.any_map, List.any_eq_true, Function.comp_apply, or_assoc]
  unfold SiteConfig.allowsMethod
  rw [Bool.or_eq_true, hlists, Bool.and_eq_true, streqCi_comm method]
  constructor
  · rintro (⟨hhead, -⟩ | hin)
    · exact Or.inr (Or.inl hhead)
    · exact hin
  · exact Or.inr

theorem allowsListed_iff {listed : List Bytes} {site : SiteConfig}
    (h : site.allowedMethods =
      [ascii "GET", ascii "HEAD"] ++ (listed.take 14).map (safeCopy 16)) :
    AllowsListed listed site ↔ MethodsFit listed := by
  unfold AllowsListed
  simp only [allowsMethod_iff h]
  constructor
  · intro hall
    have hshort : ∀ entry ∈ listed, entry.length ≤ 15 := by
      intro entry hentry
      rcases (hall entry).mpr (Or.inl ⟨entry, hentry, streqCi_iff.mpr rfl⟩) with hget | hhead |
        ⟨other, -, hother⟩
      · rw [← length_eq_of_streqCi hget]
        decide
      · rw [← length_eq_of_streqCi hhead]
        decide
      · rw [← length_eq_of_streqCi hother]
        exact List.length_take_le _ _
    refine ⟨?_, hshort, ?_⟩
    · rcases (hall (ascii "GET")).mp (Or.inl (by decide)) with hlisted | ⟨hhead, -⟩
      · exact hlisted
      · exact absurd hhead (by decide)
    · intro entry hentry
      rcases (hall entry).mpr
          (Or.inl ⟨entry, List.mem_of_mem_drop hentry, streqCi_iff.mpr rfl⟩) with hget | hhead |
        ⟨other, hmem, hother⟩
      · exact Or.inl hget
      · exact Or.inr (Or.inl hhead)
      · rw [safeCopy, List.take_of_length_le (hshort other (List.mem_of_mem_take hmem))] at hother
        exact Or.inr (Or.inr ⟨other, hmem, hother⟩)
  · rintro ⟨hget, hshort, hroom⟩ method
    constructor
    · rintro (hmethod | hmethod | ⟨entry, hmem, hmethod⟩)
      · obtain ⟨entry, hentry, hcase⟩ := hget
        exact Or.inl ⟨entry, hentry, streqCi_trans hcase hmethod⟩
      · rw [streqCi_comm] at hmethod
        exact Or.inr ⟨hmethod, hget⟩
      · rw [safeCopy, List.take_of_length_le (hshort entry (List.mem_of_mem_take hmem))] at hmethod
        exact Or.inl ⟨entry, List.mem_of_mem_take hmem, hmethod⟩
    · rintro (⟨entry, hentry, hmethod⟩ | ⟨hmethod, -⟩)
      · rw [← List.take_append_drop 14 listed, List.mem_append] at hentry
        rcases hentry with hentry | hentry
        · refine Or.inr (Or.inr ⟨entry, hentry, ?_⟩)
          rw [safeCopy, List.take_of_length_le (hshort entry (List.mem_of_mem_take hentry))]
          exact hmethod
        · rcases hroom entry hentry with hcase | hcase | ⟨other, hother, hcase⟩
          · exact Or.inl (streqCi_trans hcase hmethod)
          · exact Or.inr (Or.inl (streqCi_trans hcase hmethod))
          · refine Or.inr (Or.inr ⟨other, hother, ?_⟩)
            rw [safeCopy, List.take_of_length_le (hshort other (List.mem_of_mem_take hother))]
            exact streqCi_trans hcase hmethod
      · rw [streqCi_comm] at hmethod
        exact Or.inr (Or.inl hmethod)

/-- A site that lists no method allows GET and HEAD. -/
theorem defaultMethods {dirs : Directories} {server : Except Bytes ServerSettings}
    {path file : Bytes} {cfg : LoadedConfig}
    (h : configLoad dirs server path (.ok file) = .ok cfg) :
    List.Forall₂ (fun ps site => listedMethods ps = [] → ∀ method,
        (site.allowsMethod method = true ↔
          streqCi (ascii "GET") method = true ∨ streqCi (ascii "HEAD") method = true))
      (siteLines file) cfg.sites := by
  refine (loaded_allowedMethods h).imp fun ps site htable hnone method => ?_
  rw [allowsMethod_iff htable, hnone]
  simp

/-! ### Two files -/

/-- A file with one site, which lists these methods. -/
def methodsFile (methods : List Bytes) : Bytes :=
  fileText (relayedSite ++ [(2, ascii "security:"), (3, ascii "allowedMethods:")] ++
    methods.map fun method => (4, ascii "- " ++ method))

/-- Only POST is listed. -/
def postFile : Bytes := methodsFile [ascii "POST"]

/-- GET and POST are listed. -/
def getPostFile : Bytes := methodsFile [ascii "GET", ascii "post"]

theorem listedMethods_postFile :
    (siteLines postFile).map listedMethods = [[ascii "POST"]] := by decide +kernel

theorem listedMethods_getPostFile :
    (siteLines getPostFile).map listedMethods = [[ascii "GET", ascii "post"]] := by
  decide +kernel

end Rpsiod

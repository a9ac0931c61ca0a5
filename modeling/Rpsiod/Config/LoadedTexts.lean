import Rpsiod.Config.SiteLists
import Rpsiod.Config.Validate
import Rpsiod.Http.Trim

/-!
# The texts of a configuration that is loaded

A line feed ends a line and is trimmed off, and a NUL ends the string, so that what the parser
copies to a field is a text of one line; the view of a site by the route table loses nothing.

* `text_sitesLine`: what is taken of a line is a text of one line.
* `loaded_texts`: so are the domains and the address of a site.
* `RouteTexts.routed`: **the route table is built of the texts that were loaded**.
* `loaded_lookup`: a lookup in a configuration that is loaded.
-/

namespace Rpsiod

open BoundedTable FailingRun ListStrip

/-! ### Lines -/

/-- A line feed comes last, if at all. -/
def EndsLine (text : Bytes) : Prop := 10 ∉ text.dropLast

theorem EndsLine.front {a b : Bytes} (hb : EndsLine b) (h : a <+: b) : EndsLine a := by
  obtain ⟨c, rfl⟩ := h
  unfold EndsLine at hb ⊢
  cases c with
  | nil => rwa [List.append_nil] at hb
  | cons x c =>
      rw [List.dropLast_append_of_ne_nil (List.cons_ne_nil _ _), List.mem_append, not_or] at hb
      exact fun hmem => hb.1 (List.mem_of_mem_dropLast hmem)

theorem EndsLine.back {a b : Bytes} (hb : EndsLine b) (h : a <:+ b) : EndsLine a := by
  obtain ⟨c, rfl⟩ := h
  unfold EndsLine at hb ⊢
  cases a with
  | nil => exact List.not_mem_nil
  | cons x a =>
      rw [List.dropLast_append_of_ne_nil (List.cons_ne_nil _ _), List.mem_append, not_or] at hb
      exact hb.2

/-- Stripping takes the line feed off. -/
theorem EndsLine.not_mem_strip {text : Bytes} (h : EndsLine text) : 10 ∉ strip isspace text := by
  have hends : EndsLine (strip isspace text) :=
    (h.back (List.dropWhile_suffix _)).front (List.rdropWhile_prefix _ _)
  intro hmem
  have hne := List.ne_nil_of_mem hmem
  rw [← List.dropLast_append_getLast hne, List.mem_append, List.mem_singleton] at hmem
  rcases hmem with hmem | hlast
  · exact hends hmem
  · have hspace : ¬isspace ((strip isspace text).getLast hne) = true :=
      List.rdropWhile_last_not isspace (text.dropWhile isspace) hne
    rw [← hlast] at hspace
    exact hspace rfl

theorem fgetsFrom_endsLine {size room : ℕ} {piece rest : Bytes} (hpiece : 10 ∉ piece) :
    ∀ line ∈ fgetsFrom size room piece rest, EndsLine line := by
  induction rest generalizing room piece with
  | nil =>
      intro line hline
      rw [fgetsFrom] at hline
      split_ifs at hline
      · exact absurd hline List.not_mem_nil
      · rw [List.mem_singleton.mp hline]
        exact fun hmem => hpiece (List.mem_of_mem_dropLast hmem)
  | cons c rest ih =>
      intro line hline
      rw [fgetsFrom] at hline
      split_ifs at hline with hend
      · rcases List.mem_cons.mp hline with rfl | hline
        · rw [EndsLine, List.dropLast_concat]
          exact hpiece
        · exact ih List.not_mem_nil line hline
      · refine ih ?_ line hline
        rw [List.mem_append, List.mem_singleton, not_or]
        exact ⟨hpiece, fun hc => hend (Or.inl hc.symm)⟩

theorem stripCommentLoop_prefix (before quote : Option UInt8) (line : Bytes) :
    stripCommentLoop before quote line <+: line := by
  induction line generalizing before quote with
  | nil => exact List.prefix_rfl
  | cons c line ih =>
      unfold stripCommentLoop
      dsimp only
      generalize (if (c = 39 ∨ c = 34) ∧ before ≠ some 92 then _ else quote) = open'
      split_ifs
      · exact List.nil_prefix
      · exact (List.prefix_cons_inj c).mpr (ih _ _)

/-- **What is taken of a line is a text of one line.** -/
theorem text_sitesLine {raw : Bytes} (h : EndsLine raw) : IsText (sitesLine raw).text := by
  have hprefix : stripComment (raw.takeWhile (· ≠ 0)) <+: raw.takeWhile (· ≠ 0) :=
    stripCommentLoop_prefix _ _ _
  have hends : EndsLine (sitesLine raw).written :=
    ((h.front (List.takeWhile_prefix _)).front hprefix).back
      (List.dropWhile_suffix _)
  have hnul : 0 ∉ (sitesLine raw).written := by
    intro hmem
    have hline := hprefix.subset ((List.dropWhile_suffix _).subset hmem)
    exact absurd (List.mem_takeWhile_imp hline) (by decide)
  constructor
  · intro hmem
    have hstrip : 10 ∈ strip isspace (sitesLine raw).written := by
      rw [SitesLine.text, trim_eq] at hmem
      split_ifs at hmem
      · exact List.mem_of_mem_tail (List.mem_of_mem_dropLast hmem)
      · exact hmem
    exact hends.not_mem_strip hstrip
  · exact fun hmem => hnul (mem_of_mem_trim hmem)

theorem IsText.trim {text : Bytes} (h : IsText text) : IsText (trim text) :=
  ⟨fun hmem => h.1 (mem_of_mem_trim hmem), fun hmem => h.2 (mem_of_mem_trim hmem)⟩

theorem IsText.safeCopy {text : Bytes} (h : IsText text) (width : ℕ) :
    IsText (safeCopy width text) :=
  ⟨fun hmem => h.1 (List.mem_of_mem_take hmem), fun hmem => h.2 (List.mem_of_mem_take hmem)⟩

theorem isLineText_safeCopy {text : Bytes} (h : IsText text) {width : ℕ} (hwidth : 0 < width) :
    IsLineText width (safeCopy width text) := by
  have hlength : (safeCopy width text).length ≤ width - 1 := List.length_take_le _ _
  exact ⟨by omega, h.safeCopy width⟩

/-! ### The address of a site -/

/-- A rule leaves the address alone, or sets it to what fits its field. -/
def SiteRule.KeepsIp (rule : SiteRule) : Prop :=
  ∀ key value s s', rule.set key value s = .ok s' →
    s'.listenIp = s.listenIp ∨ s'.listenIp = safeCopy 64 value

theorem keepsIp_text {key : String} {path : List String} {width : ℕ}
    {put : SiteSettings → Bytes → SiteSettings} (h : ∀ s v, (put s v).listenIp = s.listenIp) :
    (textRule key path width put).KeepsIp := by
  intro _ value s s' hset
  obtain rfl := Except.ok.inj hset
  exact Or.inl (h s _)

theorem keepsIp_number {key : String} {path : List String}
    {put : SiteSettings → Bytes → SiteSettings} (h : ∀ s v, (put s v).listenIp = s.listenIp) :
    (numberRule key path put).KeepsIp := by
  intro _ value s s' hset
  obtain rfl := Except.ok.inj hset
  exact Or.inl (h s _)

theorem listenIp_applyBoolValue {field : String} {put : SiteSettings → Bool → SiteSettings}
    (h : ∀ s b, (put s b).listenIp = s.listenIp) {value : Bytes} {s s' : SiteSettings}
    (hset : applyBoolValue field put value s = .ok s') : s'.listenIp = s.listenIp := by
  unfold applyBoolValue at hset
  cases hparse : parseBoolStrict value with
  | none =>
      rw [hparse] at hset
      cases hset
  | some b =>
      rw [hparse] at hset
      obtain rfl := Except.ok.inj hset
      exact h s b

theorem keepsIp_bool {key : String} {path : List String} {field : String}
    {put : SiteSettings → Bool → SiteSettings} (h : ∀ s b, (put s b).listenIp = s.listenIp) :
    (boolRule key path field put).KeepsIp :=
  fun _ _ _ _ hset => Or.inl (listenIp_applyBoolValue h hset)

theorem keepsIp_port {key : String} {path : List String} {field : String}
    {put : SiteSettings → UInt16 → SiteSettings} (h : ∀ s p, (put s p).listenIp = s.listenIp) :
    (portRule key path field put).KeepsIp := by
  intro _ value s s' hset
  unfold portRule at hset
  dsimp only at hset
  cases hparse : parsePortStrict value with
  | none =>
      rw [hparse] at hset
      cases hset
  | some port =>
      rw [hparse] at hset
      obtain rfl := Except.ok.inj hset
      exact Or.inl (h s port)

theorem keepsIp_errorPage : errorPageRule.KeepsIp := by
  intro key value s s' hset
  obtain rfl := Except.ok.inj hset
  left
  split_ifs
  · rfl
  · rfl

theorem keepsIp_requests {s : SiteSettings} {value : Bytes} :
    (putRequests s value).listenIp = s.listenIp := by
  unfold putRequests
  dsimp only
  split_ifs
  · rfl
  · rfl

theorem keepsIp_earlier : ∀ rule ∈ earlierRules, rule.KeepsIp := by
  unfold earlierRules
  simp only [List.forall_mem_cons]
  refine ⟨keepsIp_text fun _ _ => rfl, fun _ _ _ _ hset => ?_, keepsIp_text fun _ _ => rfl,
    ?_, ?_⟩
  · dsimp only at hset
    refine Or.inl (listenIp_applyBoolValue ?_ hset)
    exact fun _ _ => rfl
  · -- the rule for the address itself
    intro _ value s s' hset
    obtain rfl := Except.ok.inj hset
    exact Or.inr rfl
  · repeat' apply And.intro
    all_goals first
      | exact keepsIp_text fun _ _ => rfl
      | exact keepsIp_bool fun _ _ => rfl
      | exact keepsIp_port fun _ _ => rfl
      | exact keepsIp_errorPage
      | exact keepsIp_number fun _ _ => rfl
      | exact keepsIp_number fun _ _ => keepsIp_requests
      | exact fun _ h => absurd h List.not_mem_nil

theorem keepsIp_later : ∀ rule ∈ laterRules, rule.KeepsIp := by
  unfold laterRules
  simp only [List.forall_mem_cons]
  repeat' apply And.intro
  all_goals first
    | exact keepsIp_text fun _ _ => rfl
    | exact keepsIp_bool fun _ _ => rfl
    | exact keepsIp_port fun _ _ => rfl
    | exact keepsIp_number fun _ _ => rfl
    | exact fun _ h => absurd h List.not_mem_nil

/-! ### A site that is read -/

/-- The texts that the route table is built of are lines that fit their fields. -/
structure RouteTexts (site : SiteConfig) : Prop where
  domains : ∀ domain ∈ site.domains, IsLineText 256 domain
  listenIp : IsLineText 64 site.settings.listenIp

theorem isText_splitKeyValue {keyLen valueLen : ℕ} {line key value : Bytes} (hline : IsText line)
    (h : splitKeyValue keyLen valueLen line = some (key, value)) : IsText value := by
  unfold splitKeyValue at h
  cases hsplit : ListSearch.splitFirst 58 line with
  | none =>
      rw [hsplit] at h
      cases h
  | some parts =>
      obtain ⟨before, after⟩ := parts
      obtain ⟨rfl, -⟩ := ListSearch.splitFirst_eq_some_iff.mp hsplit
      rw [hsplit] at h
      dsimp only at h
      split_ifs at h
      obtain ⟨-, rfl⟩ := Prod.mk.inj (Option.some.inj h)
      have hafter : IsText after :=
        ⟨fun hmem => hline.1 (List.mem_append_right _ (List.mem_cons_of_mem _ hmem)),
          fun hmem => hline.2 (List.mem_append_right _ (List.mem_cons_of_mem _ hmem))⟩
      exact (hafter.safeCopy valueLen).trim

theorem map_rule_listenIp {rules : List SiteRule} (hrules : ∀ rule ∈ rules, rule.KeepsIp)
    {rule : SiteRule} (hrule : rule ∈ rules) {key value : Bytes} {site site' : SiteConfig}
    (hvalue : IsText value) (hsite : IsLineText 64 site.settings.listenIp)
    (h : ((rule.set key value site.settings).map fun s => { site with settings := s })
      = .ok site') :
    IsLineText 64 site'.settings.listenIp := by
  cases hset : rule.set key value site.settings with
  | error text =>
      rw [hset] at h
      cases h
  | ok s =>
      rw [hset] at h
      obtain rfl := Except.ok.inj h
      rcases hrules rule hrule key value _ _ hset with hsame | hcopy
      · exact hsame ▸ hsite
      · exact hcopy ▸ isLineText_safeCopy hvalue (by decide)

theorem listenIp_applySiteValue {site site' : SiteConfig} {stack : YamlStack} {level : ℕ}
    {key value : Bytes} (hvalue : IsText value) (hsite : IsLineText 64 site.settings.listenIp)
    (h : applySiteValue site stack level key value = .ok site') :
    IsLineText 64 site'.settings.listenIp := by
  unfold applySiteValue at h
  by_cases hempty : value = []
  · rw [if_pos hempty] at h
    exact Except.ok.inj h ▸ hsite
  rw [if_neg hempty] at h
  cases hearlier : earlierRules.find? fun rule => rule.holds stack level key with
  | some rule =>
      rw [hearlier] at h
      exact map_rule_listenIp keepsIp_earlier (List.mem_of_find?_eq_some hearlier) hvalue hsite h
  | none =>
      rw [hearlier] at h
      dsimp only at h
      by_cases hadd : (pathHas stack level (ascii "headers") &&
          pathHas stack level (ascii "add")) = true
      · rw [if_pos hadd] at h
        exact Except.ok.inj h ▸ hsite
      · rw [if_neg hadd] at h
        cases hlater : laterRules.find? fun rule => rule.holds stack level key with
        | some rule =>
            rw [hlater] at h
            exact map_rule_listenIp keepsIp_later (List.mem_of_find?_eq_some hlater) hvalue hsite h
        | none =>
            rw [hlater] at h
            exact Except.ok.inj h ▸ hsite

theorem listenIp_applySiteListValue {site site' : SiteConfig} {stack : YamlStack} {level : ℕ}
    {value : Bytes} (h : applySiteListValue site stack level value = .ok site') :
    site'.settings.listenIp = site.settings.listenIp := by
  unfold applySiteListValue at h
  split_ifs at h
  · rw [Except.ok.inj h]
  rw [find?_siteListRules] at h
  cases hlist : siteListOf stack level with
  | some l =>
      rw [hlist] at h
      cases l <;> exact Except.ok.inj h ▸ rfl
  | none =>
      rw [hlist, Option.map_none, Option.none_or, List.find?_cons, List.find?_nil] at h
      cases happlies : compressionRule.applies stack level with
      | false =>
          rw [happlies] at h
          exact Except.ok.inj h ▸ rfl
      | true =>
          rw [happlies] at h
          unfold compressionRule at h
          dsimp only at h
          split_ifs at h
          · exact Except.ok.inj h ▸ rfl
          · exact Except.ok.inj h ▸ rfl

theorem RouteTexts.applyLine {site site' : SiteConfig} {p : PlacedLine} (hsite : RouteTexts site)
    (hline : IsText p.line.text) (h : applyLine site p = .ok site') : RouteTexts site' := by
  have hitem : IsText p.line.item := by
    refine IsText.trim ⟨fun hmem => hline.1 ?_, fun hmem => hline.2 ?_⟩
    · exact List.mem_of_mem_tail hmem
    · exact List.mem_of_mem_tail hmem
  constructor
  · -- the domains: what the line offers fits
    have htable := (applyLine_ok h).table .domains
    change site'.domains = _ at htable
    rw [offer_eq, listEntry] at htable
    split_ifs at htable with hentry
    · intro domain hdomain
      rw [htable, Option.elim_some, append] at hdomain
      split_ifs at hdomain
      · rcases List.mem_append.mp hdomain with hold | hnew
        · exact hsite.domains domain hold
        · rw [List.mem_singleton.mp hnew]
          exact isLineText_safeCopy hitem (by decide)
      · exact hsite.domains domain hdomain
    · rw [htable]
      exact hsite.domains
  · unfold Rpsiod.applyLine at h
    by_cases hblank : p.line.text = []
    · rw [if_pos hblank] at h
      exact Except.ok.inj h ▸ hsite.listenIp
    rw [if_neg hblank] at h
    by_cases hdash : p.line.isItem = true
    · rw [if_pos hdash] at h
      by_cases hlevel : p.line.level = 1
      · rw [if_pos hlevel] at h
        unfold applyFirstPair at h
        by_cases hempty : p.line.item = []
        · rw [if_pos hempty] at h
          exact Except.ok.inj h ▸ hsite.listenIp
        · rw [if_neg hempty] at h
          cases hsplit : splitKeyValue 128 1024 p.line.item with
          | none =>
              rw [hsplit] at h
              exact Except.ok.inj h ▸ hsite.listenIp
          | some pair =>
              rw [hsplit] at h
              exact listenIp_applySiteValue (isText_splitKeyValue hitem hsplit) hsite.listenIp h
      · rw [if_neg hlevel] at h
        exact listenIp_applySiteListValue h ▸ hsite.listenIp
    · rw [if_neg hdash] at h
      cases hkey : p.line.keyValue with
      | none =>
          rw [hkey] at h
          cases h
      | some pair =>
          rw [hkey] at h
          exact listenIp_applySiteValue (isText_splitKeyValue hline hkey) hsite.listenIp h

/-- What is taken of each line of a site is a text of one line. -/
theorem isText_siteLines {file : Bytes} {ps : List PlacedLine} (hps : ps ∈ siteLines file)
    {p : PlacedLine} (hp : p ∈ ps) : IsText p.line.text := by
  have hplace : ∀ (lines : List SitesLine) (stack : YamlStack), ∀ p ∈ placeLines stack lines,
      p.line ∈ lines := by
    intro lines
    induction lines with
    | nil => exact fun _ p hp => absurd hp List.not_mem_nil
    | cons line lines ih =>
        intro stack p hp
        rcases List.mem_cons.mp hp with rfl | hp
        · exact List.mem_cons_self
        · exact List.mem_cons_of_mem _ (ih _ p hp)
  have hsplit : ∀ qs : List PlacedLine, (∀ q ∈ (splitSites qs).1, q ∈ qs) ∧
      ∀ block ∈ (splitSites qs).2, ∀ q ∈ block, q ∈ qs := by
    intro qs
    induction qs with
    | nil => exact ⟨fun _ h => h, fun _ h => absurd h List.not_mem_nil⟩
    | cons q qs ih =>
        obtain ⟨hfront, hblocks⟩ := ih
        rw [splitSites]
        split_ifs
        · refine ⟨fun _ h => absurd h List.not_mem_nil, fun block hblock q' hq' => ?_⟩
          rcases List.mem_cons.mp hblock with rfl | hblock
          · rcases List.mem_cons.mp hq' with rfl | hq'
            · exact List.mem_cons_self
            · exact List.mem_cons_of_mem _ (hfront q' hq')
          · exact List.mem_cons_of_mem _ (hblocks block hblock q' hq')
        · refine ⟨fun q' hq' => ?_, fun block hblock q' hq' =>
            List.mem_cons_of_mem _ (hblocks block hblock q' hq')⟩
          rcases List.mem_cons.mp hq' with rfl | hq'
          · exact List.mem_cons_self
          · exact List.mem_cons_of_mem _ (hfront q' hq')
  have hline := hplace _ _ p ((hsplit _).2 ps hps p hp)
  obtain ⟨raw, hraw, heq⟩ := List.mem_map.mp hline
  rw [← heq]
  exact text_sitesLine (fgetsFrom_endsLine List.not_mem_nil raw hraw)

theorem routeTexts_of_makes {ps : List PlacedLine} {site : SiteConfig}
    (hps : ∀ p ∈ ps, IsText p.line.text) (h : Makes ps site) : RouteTexts site := by
  have hdefaults : RouteTexts {} := ⟨fun _ h => absurd h List.not_mem_nil, by decide⟩
  exact foldlM_invariant (fun p hp _ _ htexts hline => htexts.applyLine (hps p hp) hline) hdefaults h

/-! ### A configuration that is loaded -/

/-- **What the route table is built of** fits its fields. -/
theorem loaded_texts {dirs : Directories} {server : Except Bytes ServerSettings}
    {path file : Bytes} {cfg : LoadedConfig}
    (h : configLoad dirs server path (.ok file) = .ok cfg) :
    ∀ site ∈ cfg.sites, RouteTexts site := by
  have hsites := configLoad_ok h
  have hlines : ∀ ps ∈ siteLines file, ∀ p ∈ ps, IsText p.line.text :=
    fun ps hps p hp => isText_siteLines hps hp
  generalize siteLines file = lines at hsites hlines
  generalize cfg.sites = sites at hsites ⊢
  induction hsites with
  | nil => exact fun _ h => absurd h List.not_mem_nil
  | @cons ps _ _ _ hfirst _ ih =>
      obtain ⟨read, hmakes, hchecked⟩ := hfirst
      have htexts := routeTexts_of_makes (hlines ps List.mem_cons_self) hmakes
      intro site hsite
      rcases List.mem_cons.mp hsite with rfl | hsite
      · exact ⟨hchecked.domains ▸ htexts.domains, hchecked.listenIp ▸ htexts.listenIp⟩
      · exact ih (fun ps hps => hlines ps (List.mem_cons_of_mem _ hps)) site hsite

theorem lineTextOf_bytes {n : ℕ} (hn : 0 < n) {text : Bytes} (h : IsLineText n text) :
    (lineTextOf n hn text).bytes = text := by
  unfold lineTextOf
  rw [dif_pos h]

/-- The view of a site by the route table has its own domains and address. -/
theorem RouteTexts.routed {site : SiteConfig} (h : RouteTexts site) :
    site.routed.domains.map LineText.bytes = site.domains ∧
      site.routed.listenIp.bytes = site.settings.listenIp := by
  constructor
  · change (site.domains.map _).map _ = site.domains
    rw [List.map_map]
    exact (List.map_congr_left fun domain hdomain =>
      lineTextOf_bytes (by decide) (h.domains domain hdomain)).trans (List.map_id _)
  · exact lineTextOf_bytes (by decide) h.listenIp

/-- **A lookup in a configuration that is loaded** gives the site of the file that claims the
host. -/
theorem loaded_lookup {dirs : Directories} {server : Except Bytes ServerSettings}
    {path file : Bytes} {cfg : LoadedConfig}
    (h : configLoad dirs server path (.ok file) = .ok cfg) {host : Bytes}
    (hhost : host.length < 256) (port : UInt16) (listenIp : Bytes) :
    findSiteForListener { sites := cfg.sites.map SiteConfig.routed, routeTable := cfg.routeTable }
        host port listenIp =
      referenceSite (cfg.sites.map SiteConfig.routed) host port listenIp :=
  findSiteForListener_eq (configLoad_routeTable h) hhost port listenIp

end Rpsiod

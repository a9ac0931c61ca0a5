import Rpsiod.Server.RedirectTarget

/-!
# Where a chain of redirects ends

A client that follows a redirect comes back with another host, on another port.  The route table takes
hosts in any letter case; the redirect to the other form of a host does not.

* `Converges`: the follow-up request is for the same site, two hops are enough, and the letter case of
  the host does not matter.
* `converges_iff`: **exactly when this is so**.
-/

namespace Rpsiod

/-! ### The chain -/

/-- The host that the builder works on. -/
def builderHost (site : Site) (host : Bytes) : Bytes :=
  safeCopy 256 (if host ≠ [] then host else (site.domains.head?.map (·.bytes)).getD [])

/-- The target of a redirect for a request with this host. -/
def redirectFor (site : Site) (host : Bytes) (port : UInt16) (suppress : Bool) : Option Target :=
  redirectTarget site (builderHost site host) port suppress

/-- The requests that follow the redirects reach one without a redirect, within this many hops. -/
def SettlesWithin (site : Site) : ℕ → Bytes → UInt16 → Bool → Prop
  | 0, host, port, suppress => redirectFor site host port suppress = none
  | hops + 1, host, port, suppress =>
      ∀ target, redirectFor site host port suppress = some target →
        SettlesWithin site hops target.host (target.port site) false

/-- A target, whatever the letter case of its host. -/
def Target.lower (target : Target) : Target := ⟨target.https, target.host.map tolower⟩

/-- Redirects for this host converge. -/
structure Converges (cfg : Config) (site : Site) (host : Bytes) (port : UInt16) (listenIp : Bytes)
    (suppress : Bool) : Prop where
  /-- The follow-up request is for the same site. -/
  routed : ∀ target, redirectFor site host port suppress = some target →
    findSiteForListener cfg target.host (target.port site) listenIp = some site
  settles : SettlesWithin site 2 host port suppress
  anyCase : ∀ host', streqCi host' host = true →
    (redirectFor site host' port suppress).map Target.lower =
      (redirectFor site host port suppress).map Target.lower

/-! ### The condition -/

/-- The host begins with `www.` in some letter case. -/
def BeginsWww (host : Bytes) : Prop := ascii "www." <+: host.map tolower

instance (host : Bytes) : Decidable (BeginsWww host) :=
  inferInstanceAs (Decidable (_ <+: _))

instance (site : Site) (host : Bytes) : Decidable (ChangesWww site host) :=
  inferInstanceAs (Decidable (_ ∧ _))

/-- The host of the follow-up request. -/
def nextHost (site : Site) (host : Bytes) : Bytes :=
  if ChangesWww site host then otherForm site host else host

/-- The port of the follow-up request. -/
def nextPort (site : Site) (port : UInt16) (suppress : Bool) : UInt16 :=
  if upgrades site port suppress || site.serveAs = .https then site.httpsPort else site.httpPort

/-- No letter case of the host has another form than the others. -/
def SameForm (site : Site) (host : Bytes) : Prop :=
  site.redirectWwwEnabled = false ∨ ¬ BeginsWww host ∨
    (site.redirectWwwMode = .apexToWww ∧ 256 ≤ host.length + 4)

/-- No other site has the follow-up request, on an address of its own. -/
def Unshadowed (cfg : Config) (site : Site) (host : Bytes) (port : UInt16) (listenIp : Bytes)
    (suppress : Bool) : Prop :=
  site.listenIp.bytes = localIp listenIp ∨
    ∀ other ∈ cfg.sites, ⟨some ((nextHost site host).map tolower), nextPort site port suppress,
      localIp listenIp⟩ ∉ other.claims

theorem redirectTarget_eq (site : Site) (host : Bytes) (port : UInt16) (suppress : Bool) :
    redirectTarget site host port suppress =
      if upgrades site port suppress = true ∨ ChangesWww site host then
        some ⟨upgrades site port suppress || site.serveAs = .https, nextHost site host⟩
      else none := by
  unfold redirectTarget nextHost
  by_cases hchanges : ChangesWww site host
  · rw [wwwHost_of_changes hchanges, if_pos (Or.inr hchanges), if_pos hchanges]
    simp
  · rw [wwwHost_of_not_changes hchanges, if_neg hchanges]
    cases upgrades site port suppress with
    | true => simp
    | false => simp [hchanges]

theorem builderHost_of_fits {site : Site} {host : Bytes} (hne : host ≠ []) (hlen : host.length < 256) :
    builderHost site host = host := by
  unfold builderHost safeCopy
  rw [if_pos hne]
  exact List.take_of_length_le (Nat.le_sub_one_of_lt hlen)

theorem target_port {site : Site} {host : Bytes} {port : UInt16} {suppress : Bool} :
    (Target.mk (upgrades site port suppress || site.serveAs = .https) host).port site =
      nextPort site port suppress := rfl

/-! ### Letter case -/

theorem map_tolower_www : (ascii "www.").map tolower = ascii "www." := by decide

theorem beginsWww_of_startsWith {host : Bytes} (h : startsWith host (ascii "www.") = true) :
    BeginsWww host := by
  unfold BeginsWww
  rw [← map_tolower_www]
  exact (List.isPrefixOf_iff_prefix.mp h).map tolower

theorem beginsWww_iff_of_streqCi {host host' : Bytes} (h : streqCi host' host = true) :
    BeginsWww host' ↔ BeginsWww host := by
  unfold BeginsWww
  rw [streqCi_iff.mp h]

/-- A host whose letter case does not matter is changed if it is put under `www.`. -/
theorem SameForm.changesWww_iff {site : Site} {host : Bytes} (h : SameForm site host) :
    ChangesWww site host ↔
      site.redirectWwwEnabled = true ∧ site.redirectWwwMode = .apexToWww ∧
        host.length + 4 < 256 := by
  constructor
  · rintro ⟨henabled, ⟨hmode, -, hfits⟩ | ⟨hmode, hstart⟩⟩
    · exact ⟨henabled, hmode, hfits⟩
    · rcases h with hoff | hplain | ⟨hapex, -⟩
      · exact absurd henabled (by rw [hoff]; exact Bool.false_ne_true)
      · exact absurd (beginsWww_of_startsWith hstart) hplain
      · rw [hmode] at hapex
        cases hapex
  · rintro ⟨henabled, hmode, hfits⟩
    refine ⟨henabled, Or.inl ⟨hmode, ?_, hfits⟩⟩
    rcases h with hoff | hplain | ⟨-, hlong⟩
    · exact absurd henabled (by rw [hoff]; exact Bool.false_ne_true)
    · by_contra hstart
      exact hplain (beginsWww_of_startsWith (Bool.eq_true_of_not_eq_false hstart))
    · omega

theorem SameForm.of_streqCi {site : Site} {host host' : Bytes} (hcase : streqCi host' host = true)
    (h : SameForm site host) : SameForm site host' := by
  unfold SameForm
  rw [beginsWww_iff_of_streqCi hcase, length_eq_of_streqCi hcase]
  exact h

theorem map_tolower_nextHost {site : Site} {host host' : Bytes} (hcase : streqCi host' host = true)
    (hchanges : ChangesWww site host' ↔ ChangesWww site host) :
    (nextHost site host').map tolower = (nextHost site host).map tolower := by
  have hlower := streqCi_iff.mp hcase
  unfold nextHost otherForm
  simp only [hchanges]
  split_ifs
  · rw [List.map_append, List.map_append, hlower]
  · rw [List.map_drop, List.map_drop, hlower]
  · exact hlower

/-- **The letter case does not matter.** -/
theorem SameForm.anyCase {site : Site} {host host' : Bytes} (h : SameForm site host)
    (hcase : streqCi host' host = true) (port : UInt16) (suppress : Bool) :
    (redirectTarget site host' port suppress).map Target.lower =
      (redirectTarget site host port suppress).map Target.lower := by
  have hchanges : ChangesWww site host' ↔ ChangesWww site host := by
    rw [(h.of_streqCi hcase).changesWww_iff, h.changesWww_iff, length_eq_of_streqCi hcase]
  rw [redirectTarget_eq, redirectTarget_eq]
  simp only [hchanges]
  split_ifs
  · simp only [Option.map_some, Target.lower, map_tolower_nextHost hcase hchanges]
  · rfl

/-- The two letter cases that are treated apart. -/
def lowerCase (host : Bytes) : Bytes := host.map tolower

/-- The host in lower case, but for its first letter: `W`. -/
def capitalCase (host : Bytes) : Bytes := 87 :: (host.map tolower).tail

theorem streqCi_lowerCase (host : Bytes) : streqCi (lowerCase host) host = true :=
  streqCi_iff.mpr (map_tolower_tolower host)

theorem streqCi_capitalCase {host : Bytes} (h : BeginsWww host) :
    streqCi (capitalCase host) host = true := by
  obtain ⟨rest, hrest⟩ := h
  rw [streqCi_iff]
  unfold capitalCase
  rw [List.map_cons, List.map_tail, map_tolower_tolower, ← hrest]
  rfl

theorem startsWith_lowerCase {host : Bytes} (h : BeginsWww host) :
    startsWith (lowerCase host) (ascii "www.") = true :=
  List.isPrefixOf_iff_prefix.mpr h

theorem not_startsWith_capitalCase (host : Bytes) :
    startsWith (capitalCase host) (ascii "www.") = false := rfl

/-- **Of the two, only one is changed.** -/
theorem changesWww_differs {site : Site} {host : Bytes} (h : ¬ SameForm site host) :
    ¬ (ChangesWww site (capitalCase host) ↔ ChangesWww site (lowerCase host)) := by
  unfold SameForm at h
  rw [not_or, not_or, not_not, not_and_or, not_le, Bool.not_eq_false] at h
  obtain ⟨henabled, hwww, hmode⟩ := h
  have hstart := startsWith_lowerCase hwww
  have hstart' := not_startsWith_capitalCase host
  have hlength := length_eq_of_streqCi (streqCi_capitalCase hwww)
  unfold ChangesWww
  rw [hstart, hstart', hlength]
  cases hform : site.redirectWwwMode with
  | apexToWww =>
      have hfits : host.length + 4 < 256 := by
        rcases hmode with hmode | hfits
        · exact absurd hform hmode
        · exact hfits
      intro hiff
      obtain ⟨-, ⟨-, hfalse, -⟩ | ⟨hother, -⟩⟩ := hiff.mp ⟨henabled, Or.inl ⟨rfl, rfl, hfits⟩⟩
      · cases hfalse
      · cases hother
  | wwwToApex =>
      intro hiff
      obtain ⟨-, ⟨hother, -, -⟩ | ⟨-, hfalse⟩⟩ := hiff.mpr ⟨henabled, Or.inr ⟨rfl, rfl⟩⟩
      · cases hother
      · cases hfalse

/-- The other form of a host has another length. -/
theorem length_otherForm_ne {site : Site} {host : Bytes} (h : ChangesWww site host) :
    (otherForm site host).length ≠ host.length := by
  unfold otherForm
  obtain ⟨-, ⟨hmode, -⟩ | ⟨hmode, hstart⟩⟩ := h
  · rw [if_pos hmode, length_www]
    omega
  · have hlen := (List.isPrefixOf_iff_prefix.mp hstart).length_le
    rw [show (ascii "www.").length = 4 by decide] at hlen
    rw [if_neg (by rw [hmode]; decide), List.length_drop]
    omega

/-- Hosts that are treated apart are redirected to different places. -/
theorem changesWww_of_same_target {site : Site} {host host' : Bytes} {port : UInt16}
    {suppress : Bool} (hlength : host'.length = host.length)
    (h : (redirectTarget site host' port suppress).map Target.lower =
      (redirectTarget site host port suppress).map Target.lower)
    (hchanges : ChangesWww site host) : ChangesWww site host' := by
  by_contra hsame
  rw [redirectTarget_eq, redirectTarget_eq, if_pos (Or.inr hchanges)] at h
  split_ifs at h
  · have hhost := congrArg Target.host (Option.some.inj h)
    have hlengths := congrArg List.length hhost
    unfold Target.lower nextHost at hlengths
    rw [if_neg hsame, if_pos hchanges, List.length_map, List.length_map, hlength] at hlengths
    exact length_otherForm_ne hchanges hlengths.symm
  · cases h

/-- **The letter case matters**, if one of them has another form. -/
theorem not_anyCase {site : Site} {host : Bytes} {port : UInt16} {suppress : Bool}
    (h : ¬ SameForm site host) :
    ¬ ∀ host', streqCi host' host = true →
      (redirectTarget site host' port suppress).map Target.lower =
        (redirectTarget site host port suppress).map Target.lower := by
  intro hsame
  have hwww : BeginsWww host := by
    by_contra hwww
    exact h (Or.inr (Or.inl hwww))
  have hcapital := streqCi_capitalCase hwww
  have hlower := streqCi_lowerCase host
  have heq := (hsame _ hcapital).trans (hsame _ hlower).symm
  have hlength := (length_eq_of_streqCi hcapital).trans (length_eq_of_streqCi hlower).symm
  refine changesWww_differs h ⟨?_, ?_⟩
  · exact changesWww_of_same_target hlength.symm heq.symm
  · exact changesWww_of_same_target hlength heq

/-! ### Two hops -/

/-- The host of the follow-up request has no other form. -/
theorem SameForm.not_changesWww_nextHost {site : Site} {host : Bytes} (h : SameForm site host) :
    ¬ ChangesWww site (nextHost site host) := by
  unfold nextHost
  split_ifs with hchanges
  · obtain ⟨-, hmode, -⟩ := h.changesWww_iff.mp hchanges
    unfold otherForm
    rw [if_pos hmode]
    rintro ⟨-, ⟨-, hstart, -⟩ | ⟨hmode', -⟩⟩
    · rw [startsWith, List.isPrefixOf_iff_prefix.mpr (List.prefix_append _ _)] at hstart
      cases hstart
    · rw [hmode] at hmode'
      cases hmode'
  · exact hchanges

theorem SameForm.nextHost_fits {site : Site} {host : Bytes} (h : SameForm site host)
    (hne : host ≠ []) (hlen : host.length < 256) :
    nextHost site host ≠ [] ∧ (nextHost site host).length < 256 := by
  unfold nextHost
  split_ifs with hchanges
  · obtain ⟨-, hmode, hfits⟩ := h.changesWww_iff.mp hchanges
    unfold otherForm
    rw [if_pos hmode, length_www]
    exact ⟨List.append_ne_nil_of_right_ne_nil _ hne, hfits⟩
  · exact ⟨hne, hlen⟩

/-- On the HTTPS port, nothing is upgraded. -/
theorem upgrades_httpsPort {site : Site} (hports : site.httpPort ≠ site.httpsPort) (suppress : Bool) :
    upgrades site site.httpsPort suppress = false := by
  unfold upgrades
  rw [decide_eq_false (Ne.symm hports), Bool.and_false, Bool.false_and]

/-- **Two hops are enough**: at most the second one goes to the HTTPS port. -/
theorem SameForm.settles {site : Site} {host : Bytes} (h : SameForm site host) (hne : host ≠ [])
    (hlen : host.length < 256) (hports : site.httpPort ≠ site.httpsPort) (port : UInt16)
    (suppress : Bool) : SettlesWithin site 2 host port suppress := by
  have hnot := h.not_changesWww_nextHost
  obtain ⟨hne', hlen'⟩ := h.nextHost_fits hne hlen
  set next := nextHost site host with hnext
  have hkept : nextHost site next = next := if_neg hnot
  have hfor : ∀ port suppress, redirectFor site next port suppress =
      if upgrades site port suppress = true then
        some ⟨upgrades site port suppress || site.serveAs = .https, next⟩
      else none := by
    intro port suppress
    unfold redirectFor
    rw [builderHost_of_fits hne' hlen', redirectTarget_eq, hkept]
    simp only [hnot, or_false]
  intro target htarget target' htarget'
  unfold redirectFor at htarget
  rw [builderHost_of_fits hne hlen, redirectTarget_eq, ← hnext] at htarget
  split_ifs at htarget
  obtain rfl := Option.some.inj htarget
  rw [hfor] at htarget'
  split_ifs at htarget' with hupgrades
  obtain rfl := Option.some.inj htarget'
  rw [hupgrades]
  show redirectFor site next site.httpsPort false = none
  rw [hfor, upgrades_httpsPort hports, if_neg Bool.false_ne_true]

/-! ### The route of the follow-up request -/

theorem mem_claims_iff {site : Site} {key : RouteKey} :
    key ∈ site.claims ↔
      site.enabled = true ∧ (∃ domain ∈ site.domains, key.host ∈ site.hosts domain) ∧
        (key.port = site.httpPort ∨ key.port = site.httpsPort) ∧ key.port ≠ 0 ∧
        key.listenIp = site.listenIp.bytes := by
  unfold Site.claims
  split_ifs with henabled
  · rw [List.mem_flatMap]
    simp only [List.mem_flatMap, List.mem_map, List.mem_filter, List.mem_cons, List.not_mem_nil,
      or_false, decide_eq_true_iff]
    constructor
    · rintro ⟨domain, hdomain, host, hhost, port, ⟨hport, hzero⟩, rfl⟩
      exact ⟨henabled, ⟨domain, hdomain, hhost⟩, hport, hzero, rfl⟩
    · rintro ⟨-, ⟨domain, hdomain, hhost⟩, hport, hzero, hip⟩
      exact ⟨domain, hdomain, key.host, hhost, key.port, ⟨hport, hzero⟩, by rw [← hip]⟩
  · refine iff_of_false List.not_mem_nil ?_
    rintro ⟨henabled', -⟩
    exact henabled henabled'

/-- A host of the site that does not begin with `www.` is a domain. -/
theorem hosts_of_domain {site : Site} {domain : LineText 256} {host : Bytes}
    (henabled : site.redirectWwwEnabled = true) (hmode : site.redirectWwwMode = .apexToWww)
    (hplain : ¬ BeginsWww host) (hfits : host.length + 4 < 256)
    (h : some (host.map tolower) ∈ site.hosts domain) :
    some ((ascii "www." ++ host).map tolower) ∈ site.hosts domain := by
  unfold Site.hosts at h ⊢
  split_ifs at h ⊢ with hdefault
  · rw [List.mem_singleton] at h
    cases h
  · rw [List.mem_cons, Option.some.injEq] at h
    have hsame : host.map tolower = domain.bytes.map tolower := by
      rcases h with hsame | halias
      · exact hsame
      · -- the other form of a domain begins with `www.`
        unfold redirectHost at halias
        rw [hmode] at halias
        split_ifs at halias with happly hlen hwww
        · rw [Option.map_some, Option.toList_some, List.mem_singleton, Option.some.injEq] at halias
          refine absurd ?_ hplain
          unfold BeginsWww
          rw [halias, List.map_append, map_tolower_www]
          exact List.prefix_append _ _
        · exact absurd halias List.not_mem_nil
        · simp at hwww
        · exact absurd halias List.not_mem_nil
    have hlength := congrArg List.length hsame
    rw [List.length_map, List.length_map] at hlength
    have hstart : startsWith domain.bytes (ascii "www.") = false := by
      by_contra hstart
      have hwww := beginsWww_of_startsWith (Bool.eq_true_of_not_eq_false hstart)
      unfold BeginsWww at hwww hplain
      rw [hsame] at hplain
      exact hplain hwww
    have hlen : (ascii "www." ++ domain.bytes).length < 256 := by
      rw [length_www]
      omega
    refine List.mem_cons_of_mem _ ?_
    unfold redirectHost
    rw [hmode, hstart, dif_pos hlen]
    simp [hsame]

/-- A host reaches a site through a route of its own. -/
def ExactRoute (cfg : Config) (host : Bytes) (port : UInt16) (listenIp : Bytes) (site : Site) :
    Prop :=
  lookupOnListener cfg host port (localIp listenIp) false = some site

variable {cfg : Config} {site : Site} {host : Bytes} {port : UInt16} {listenIp : Bytes}
  {suppress : Bool}

theorem exactRoute_iff (hbuild : buildRouteTable cfg.sites = .ok cfg.routeTable)
    (hlen : host.length < 256) :
    ExactRoute cfg host port listenIp site ↔
      (claimant cfg.sites ⟨some (host.map tolower), port, localIp listenIp⟩).or
        (claimant cfg.sites ⟨some (host.map tolower), port, anyAddress⟩) = some site := by
  have hkey : ∀ ip, queryKey (normalizeRouteHost host) port ip false =
      ⟨some (host.map tolower), port, ip⟩ := by
    intro ip
    unfold queryKey
    rw [map_tolower_normalizeRouteHost hlen]
    rfl
  unfold ExactRoute
  rw [lookupOnListener_eq hbuild, if_neg Bool.false_ne_true, hkey, hkey]

/-- The claim behind an exact route. -/
theorem ExactRoute.claims (h : ExactRoute cfg host port listenIp site)
    (hbuild : buildRouteTable cfg.sites = .ok cfg.routeTable) (hlen : host.length < 256) :
    site ∈ cfg.sites ∧ (site.listenIp.bytes = localIp listenIp ∨ site.listenIp.bytes = anyAddress) ∧
      ⟨some (host.map tolower), port, site.listenIp.bytes⟩ ∈ site.claims := by
  rcases Option.or_eq_some_iff.mp ((exactRoute_iff hbuild hlen).mp h) with h | ⟨-, h⟩
  · obtain ⟨hsite, hclaim⟩ := mem_of_claimant h
    have hip := listenIp_of_claim hclaim
    refine ⟨hsite, Or.inl hip, ?_⟩
    rw [hip]
    exact hclaim
  · obtain ⟨hsite, hclaim⟩ := mem_of_claimant h
    have hip := listenIp_of_claim hclaim
    refine ⟨hsite, Or.inr hip, ?_⟩
    rw [hip]
    exact hclaim

/-- **The site claims the follow-up request.** -/
theorem SameForm.claims_next (h : SameForm site host) (hhttp : site.httpPort ≠ 0)
    (hhttps : site.httpsPort ≠ 0)
    (hclaim : ⟨some (host.map tolower), port, site.listenIp.bytes⟩ ∈ site.claims) :
    ⟨some ((nextHost site host).map tolower), nextPort site port suppress,
      site.listenIp.bytes⟩ ∈ site.claims := by
  obtain ⟨henabled, ⟨domain, hdomain, hhost⟩, -, -, -⟩ := mem_claims_iff.mp hclaim
  refine mem_claims_iff.mpr ⟨henabled, ⟨domain, hdomain, ?_⟩, ?_, ?_, rfl⟩
  · unfold nextHost
    split_ifs with hchanges
    · obtain ⟨hwww, hmode, hfits⟩ := h.changesWww_iff.mp hchanges
      have hplain : ¬ BeginsWww host := by
        rcases h with hoff | hplain | ⟨-, hlong⟩
        · exact absurd hwww (by rw [hoff]; exact Bool.false_ne_true)
        · exact hplain
        · omega
      unfold otherForm
      rw [if_pos hmode]
      exact hosts_of_domain hwww hmode hplain hfits hhost
    · exact hhost
  · unfold nextPort
    split_ifs
    · exact Or.inr rfl
    · exact Or.inl rfl
  · unfold nextPort
    split_ifs
    · exact hhttps
    · exact hhttp

/-- **When the follow-up request is for the same site.** -/
theorem SameForm.findSite_next_iff (h : SameForm site host)
    (hbuild : buildRouteTable cfg.sites = .ok cfg.routeTable) (hne : host ≠ [])
    (hlen : host.length < 256) (hhttp : site.httpPort ≠ 0) (hhttps : site.httpsPort ≠ 0)
    (hroute : ExactRoute cfg host port listenIp site) :
    findSiteForListener cfg (nextHost site host) (nextPort site port suppress) listenIp = some site ↔
      Unshadowed cfg site host port listenIp suppress := by
  obtain ⟨hsite, hip, hclaim⟩ := hroute.claims hbuild hlen
  have hdiffer : ClaimsDiffer cfg.sites := ((buildRouteTable_ok_iff _).mp ⟨_, hbuild⟩).1
  have hnext := @SameForm.claims_next site host port suppress h hhttp hhttps hclaim
  rw [findSiteForListener_eq hbuild (h.nextHost_fits hne hlen).2]
  unfold Unshadowed referenceSite
  constructor
  · intro hfind
    by_contra hshadowed
    rw [not_or] at hshadowed
    obtain ⟨hother, hclaimed⟩ := hshadowed
    push Not at hclaimed
    obtain ⟨other, hmem, hkey⟩ := hclaimed
    rw [claimant_eq_some hdiffer hmem hkey, Option.some_or, Option.some_or] at hfind
    obtain rfl := Option.some.inj hfind
    exact hother (listenIp_of_claim hkey)
  · rintro (hlocal | hfree)
    · rw [← hlocal, claimant_eq_some hdiffer hsite hnext, Option.some_or, Option.some_or]
    · rw [claimant_eq_none.mpr hfree, Option.none_or]
      rcases hip with hlocal | hany
      · rw [hlocal] at hnext
        exact absurd hnext (hfree site hsite)
      · rw [hany] at hnext
        rw [claimant_eq_some hdiffer hsite hnext, Option.some_or]

/-- The condition: no letter case of the host is treated apart, and if there is a redirect, no other
site has the follow-up request. -/
def Steady (cfg : Config) (site : Site) (host : Bytes) (port : UInt16) (listenIp : Bytes)
    (suppress : Bool) : Prop :=
  SameForm site host ∧
    (upgrades site port suppress = true ∨ ChangesWww site host →
      Unshadowed cfg site host port listenIp suppress)

/-- **Exactly when redirects converge**: the location is the text of the target, if it fits; and the
targets converge if and only if no letter case of the host is treated apart and no other site has
the follow-up request. -/
theorem converges_iff (hbuild : buildRouteTable cfg.sites = .ok cfg.routeTable) {buf : Bytes}
    {req : HttpRequest} (haccepted : httpParseRequest buf = .accepted req)
    (hhttp : site.httpPort ≠ 0) (hhttps : site.httpsPort ≠ 0)
    (hports : site.httpPort ≠ site.httpsPort)
    (hroute : ExactRoute cfg req.host port listenIp site) :
    (∀ outLen, buildRedirectLocation site req port suppress outLen =
      (redirectFor site req.host port suppress).bind fun target =>
        if (target.location site req.path).length < outLen then
          some (httpsStatus site req, target.location site req.path)
        else none) ∧
    (Converges cfg site req.host port listenIp suppress ↔
      Steady cfg site req.host port listenIp suppress) := by
  obtain ⟨p⟩ := parsed_of_accepted haccepted
  have hlen : req.host.length < 256 := p.texts.2.2.1
  have hne : req.host ≠ [] := by
    obtain ⟨value, hvalue⟩ := p.exists_hostValue
    exact ne_nil_of_parseHostValue hvalue
  have hhost : redirectFor site req.host port suppress =
      redirectTarget site (targetHost site req) port suppress := rfl
  refine ⟨fun outLen => ?_, ?_⟩
  · rw [hhost]
    exact buildRedirectLocation_eq site req port suppress outLen
  have hfor : redirectFor site req.host port suppress =
      if upgrades site port suppress = true ∨ ChangesWww site req.host then
        some ⟨upgrades site port suppress || site.serveAs = .https, nextHost site req.host⟩
      else none := by
    unfold redirectFor
    rw [builderHost_of_fits hne hlen, redirectTarget_eq]
  have hcase : ∀ host', streqCi host' req.host = true →
      redirectFor site host' port suppress = redirectTarget site host' port suppress := by
    intro host' hsame
    have hlength := length_eq_of_streqCi hsame
    have hne' : host' ≠ [] := by
      rintro rfl
      exact hne (List.length_eq_zero_iff.mp hlength.symm)
    unfold redirectFor
    rw [builderHost_of_fits hne' (by rw [hlength]; exact hlen)]
  have hself := hcase req.host (streqCi_iff.mpr rfl)
  constructor
  · intro h
    have hform : SameForm site req.host := by
      by_contra hform
      refine @not_anyCase site req.host port suppress hform ?_
      intro host' hsame
      have hany := h.anyCase host' hsame
      rwa [hcase host' hsame, hself] at hany
    refine ⟨hform, fun hredirect => ?_⟩
    rw [if_pos hredirect] at hfor
    have hrouted := h.routed _ hfor
    rw [target_port] at hrouted
    exact (hform.findSite_next_iff hbuild hne hlen hhttp hhttps hroute).mp hrouted
  · rintro ⟨hform, hunshadowed⟩
    refine ⟨?_, hform.settles hne hlen hports port suppress, ?_⟩
    · intro target htarget
      rw [hfor] at htarget
      split_ifs at htarget with hredirect
      obtain rfl := Option.some.inj htarget
      rw [target_port]
      exact (hform.findSite_next_iff hbuild hne hlen hhttp hhttps hroute).mpr
        (hunshadowed hredirect)
    · intro host' hsame
      rw [hcase host' hsame, hself]
      exact hform.anyCase hsame port suppress

/-! ### A site with `www.` -/

/-- Every claim of the site is one of its exact routes. -/
theorem exactRoute_wwwSite {host : Bytes} {port : UInt16} (hlen : host.length < 256)
    (h : ⟨some (host.map tolower), port, anyAddress⟩ ∈ wwwSite.claims) (listenIp : Bytes) :
    ExactRoute (Config.ofSites [wwwSite]) host port listenIp wwwSite := by
  rw [exactRoute_iff build_wwwSite hlen]
  show (claimant [wwwSite] _).or (claimant [wwwSite] _) = some wwwSite
  rw [claimant_singleton, claimant_singleton, if_pos h]
  split_ifs <;> rfl

/-- The host of a request for this site. -/
theorem exists_wwwRequest (host : String)
    (h : (match httpParseRequest (wwwRequest host) with
      | .accepted req => decide (req.host = ascii host) && decide (req.path = ascii "/")
      | _ => false) = true) :
    ∃ req, httpParseRequest (wwwRequest host) = .accepted req ∧ req.host = ascii host ∧
      req.path = ascii "/" := by
  obtain ⟨req, hreq, hread⟩ := @exists_accepted (wwwRequest host) (fun req =>
    decide (req.host = ascii host) && decide (req.path = ascii "/")) h
  rw [Bool.and_eq_true, decide_eq_true_iff, decide_eq_true_iff] at hread
  exact ⟨req, hreq, hread⟩

/-- The domain is redirected to `www.`, and no further. -/
theorem converges_domain :
    ∃ req, httpParseRequest (wwwRequest "example.org") = .accepted req ∧
      Converges (Config.ofSites [wwwSite]) wwwSite req.host 80 (ascii "127.0.0.1") false := by
  obtain ⟨req, hreq, hhost, -⟩ := exists_wwwRequest "example.org" (by decide +kernel)
  have hroute : ExactRoute (Config.ofSites [wwwSite]) req.host 80 (ascii "127.0.0.1") wwwSite := by
    rw [hhost]
    exact exactRoute_wwwSite (by decide) (by decide +kernel) _
  refine ⟨req, hreq, ((converges_iff build_wwwSite hreq (by decide) (by decide) (by decide)
    hroute).2).mpr ⟨Or.inr (Or.inl ?_), fun _ => Or.inr ?_⟩⟩
  · rw [hhost]
    decide
  · intro other hother hclaim
    obtain rfl := List.mem_singleton.mp hother
    have hip : wwwSite.listenIp.bytes = localIp (ascii "127.0.0.1") := listenIp_of_claim hclaim
    exact absurd hip (by decide)

/-- **In capitals, the same site is left**: `WWW.example.org` is redirected to a host that no site
has. -/
theorem capital_www_leaves_site :
    ∃ req, httpParseRequest (wwwRequest "WWW.example.org") = .accepted req ∧
      ExactRoute (Config.ofSites [wwwSite]) req.host 80 (ascii "127.0.0.1") wwwSite ∧
      buildRedirectLocation wwwSite req 80 false 1024 =
        some (301, ascii "http://www.WWW.example.org/") ∧
      findSiteForListener (Config.ofSites [wwwSite]) (ascii "www.WWW.example.org") 80
        (ascii "127.0.0.1") = none ∧
      ¬ Converges (Config.ofSites [wwwSite]) wwwSite req.host 80 (ascii "127.0.0.1") false := by
  obtain ⟨req, hreq, hhost, hpath⟩ := exists_wwwRequest "WWW.example.org" (by decide +kernel)
  have htarget : redirectFor wwwSite req.host 80 false =
      some ⟨false, ascii "www.WWW.example.org"⟩ := by
    rw [hhost]
    decide +kernel
  have hnone : findSiteForListener (Config.ofSites [wwwSite]) (ascii "www.WWW.example.org") 80
      (ascii "127.0.0.1") = none := by
    rw [findSiteForListener_eq build_wwwSite (by decide)]
    unfold referenceSite
    show ((claimant [wwwSite] _).or (claimant [wwwSite] _)).or
      ((claimant [wwwSite] _).or (claimant [wwwSite] _)) = none
    simp only [claimant_singleton]
    rw [if_neg (by decide +kernel), if_neg (by decide +kernel), if_neg (by decide +kernel),
      if_neg (by decide +kernel)]
    rfl
  refine ⟨req, hreq, ?_, ?_, hnone, ?_⟩
  · rw [hhost]
    exact exactRoute_wwwSite (by decide) (by decide +kernel) _
  · have hfor : redirectTarget wwwSite (targetHost wwwSite req) 80 false =
        some ⟨false, ascii "www.WWW.example.org"⟩ := htarget
    have hchanges : (wwwHost wwwSite (targetHost wwwSite req)).isSome = true := by
      unfold targetHost
      rw [hhost]
      decide +kernel
    rw [buildRedirectLocation_eq, hfor, httpsStatus, if_pos hchanges, hpath]
    decide +kernel
  · intro hconverges
    have hrouted := hconverges.routed _ htarget
    exact absurd (hnone.symm.trans hrouted) (by simp)

end Rpsiod

import Rpsiod.Config.RouteTable
import Rpsiod.Http.Grammar
import Rpsiod.Http2.Stream

/-!
# The site behind a loopback request

`start_loopback_request_async` looks up a site for the authority of the stream, on the port and the
address that the TLS client is connected to, and sends its request to the plain port of this site at
127.0.0.1.  There `serve_request` looks up a site again, for the Host of the request, on that port and
on 127.0.0.1.

* `routedSite_iff`: **exactly when the second lookup finds the site of the first**.
-/

namespace Rpsiod

open ListSearch

/-- The site that `start_loopback_request_async` looks up. -/
def selectedSite (cfg : Config) (client : Client) (s : H2Stream) : Option Site :=
  findSiteForListener cfg (loopbackAuthority s) client.localPort client.serverIp.bytes

/-- The address that loopback requests are sent to. -/
def loopbackAddress : Bytes := ascii "127.0.0.1"

/-- The site that `serve_request` looks up for the loopback request, on the plain port of a site. -/
def routedSite (cfg : Config) (client : Client) (s : H2Stream) (site : Site) : Option Site :=
  match httpParseRequest (loopbackRequest client s) with
  | .accepted req => findSiteForListener cfg req.host site.httpPort loopbackAddress
  | _ => none

/-- A site of the list claims a host, or everything else, on a port of an address. -/
def Claimed (sites : List Site) (host : Option Bytes) (port : UInt16) (listenIp : Bytes) : Prop :=
  ∃ other ∈ sites, ⟨host, port, listenIp⟩ ∈ other.claims

/-- On its plain port, the site is the first one for this host at 127.0.0.1: it has the host there, or
on every address and no site has it there; or the host belongs to nobody, and the site has
everything else there, or on every address and no site has it there. -/
def Site.FirstAtLoopback (sites : List Site) (site : Site) (host : Bytes) : Prop :=
  let name := some (host.map tolower)
  let port := site.httpPort
  ⟨name, port, loopbackAddress⟩ ∈ site.claims ∨
  (⟨name, port, anyAddress⟩ ∈ site.claims ∧ ¬ Claimed sites name port loopbackAddress) ∨
  (¬ Claimed sites name port loopbackAddress ∧ ¬ Claimed sites name port anyAddress ∧
    (⟨none, port, loopbackAddress⟩ ∈ site.claims ∨
      (⟨none, port, anyAddress⟩ ∈ site.claims ∧ ¬ Claimed sites none port loopbackAddress)))

variable {cfg : Config} {sites : List Site}

/-- Who makes a claim, if no two sites make the same one. -/
theorem claimant_eq_some_iff (hdiffer : ClaimsDiffer sites) {site : Site} (hmem : site ∈ sites)
    (key : RouteKey) : claimant sites key = some site ↔ key ∈ site.claims :=
  ⟨fun h => (mem_of_claimant h).2, fun h => claimant_eq_some hdiffer hmem h⟩

theorem claimant_eq_none_iff (host : Option Bytes) (port : UInt16) (listenIp : Bytes) :
    claimant sites ⟨host, port, listenIp⟩ = none ↔ ¬ Claimed sites host port listenIp := by
  rw [claimant_eq_none]
  unfold Claimed
  simp only [not_exists, not_and]

/-- Which site the reference finds at 127.0.0.1. -/
theorem referenceSite_loopback_iff (hdiffer : ClaimsDiffer sites) {site : Site}
    (hmem : site ∈ sites) (host : Bytes) :
    referenceSite sites host site.httpPort loopbackAddress = some site ↔
      site.FirstAtLoopback sites host := by
  have hlocal : localIp loopbackAddress = loopbackAddress := rfl
  unfold referenceSite Site.FirstAtLoopback
  simp only [hlocal, Option.or_eq_some_iff, Option.or_eq_none_iff, claimant_eq_some_iff hdiffer hmem,
    claimant_eq_none_iff]
  tauto

theorem mem_of_reference {host : Bytes} {port : UInt16} {listenIp : Bytes} {site : Site}
    (h : referenceSite sites host port listenIp = some site) : site ∈ sites := by
  unfold referenceSite at h
  rcases Option.or_eq_some_iff.mp h with h | ⟨-, h⟩
  · rcases Option.or_eq_some_iff.mp h with h | ⟨-, h⟩
    · exact (mem_of_claimant h).1
    · exact (mem_of_claimant h).1
  · rcases Option.or_eq_some_iff.mp h with h | ⟨-, h⟩
    · exact (mem_of_claimant h).1
    · exact (mem_of_claimant h).1

/-- A host is no longer than it was with its port. -/
theorem length_stripPort_le (host : Bytes) : (stripPort host).length ≤ host.length := by
  unfold stripPort
  set text := host.takeWhile fun c => !(c == 32 || c == 9 || c == 13 || c == 10) with htext
  have hle : text.length ≤ host.length := (List.takeWhile_prefix _).length_le
  dsimp only
  split_ifs
  · cases hsplit : splitFirst 93 text with
    | none => exact hle
    | some r =>
        have hlength := congrArg List.length (splitFirst_eq_some_iff.mp hsplit).1
        rw [List.length_append, List.length_cons] at hlength
        simp only [List.length_append, List.length_singleton]
        omega
  · cases hsplit : splitFirst 58 text.reverse with
    | none => exact hle
    | some r =>
        have hlength := congrArg List.length (splitFirst_eq_some_iff.mp hsplit).1
        rw [List.length_reverse, List.length_append, List.length_cons] at hlength
        simp only [List.length_reverse]
        omega

theorem length_loopbackAuthority_lt (s : H2Stream) : (loopbackAuthority s).length < 256 := by
  unfold loopbackAuthority
  refine (length_stripPort_le _).trans_lt ?_
  unfold safeCopy
  rw [List.length_take]
  omega

/-- **The second lookup finds the site of the first one, exactly if** the loopback request is
accepted and the site is the first one for its host at 127.0.0.1. -/
theorem routedSite_iff (hbuild : buildRouteTable cfg.sites = .ok cfg.routeTable) (client : Client)
    (s : H2Stream) {site : Site} (hselected : selectedSite cfg client s = some site) :
    routedSite cfg client s site = some site ↔
      ∃ req, httpParseRequest (loopbackRequest client s) = .accepted req ∧
        site.FirstAtLoopback cfg.sites req.host := by
  have hdiffer : ClaimsDiffer cfg.sites := ((buildRouteTable_ok_iff _).mp ⟨_, hbuild⟩).1
  have hmem : site ∈ cfg.sites := by
    unfold selectedSite at hselected
    rw [findSiteForListener_eq hbuild (length_loopbackAuthority_lt s)] at hselected
    exact mem_of_reference hselected
  unfold routedSite
  cases hparse : httpParseRequest (loopbackRequest client s) with
  | accepted req =>
      obtain ⟨p⟩ := parsed_of_accepted hparse
      have hhost : req.host.length < 256 := p.texts.2.2.1
      simp only [ParseOutcome.accepted.injEq, exists_eq_left']
      rw [findSiteForListener_eq hbuild hhost, referenceSite_loopback_iff hdiffer hmem]
  | incomplete => exact iff_of_false nofun nofun
  | malformed req => exact iff_of_false nofun nofun

/-! ### A site with an address of its own -/

/-- A stream for it. -/
def exampleStream : H2Stream := { authority := ascii "example.org" }

/-- A TLS client of its address. -/
def exampleClient : Client := ⟨443, true, .lit "198.51.100.7", .lit "192.0.2.1"⟩

theorem routedSite_iff_twoSites :
    ∃ site, selectedSite (Config.ofSites twoSites) exampleClient exampleStream = some site ∧
      (routedSite (Config.ofSites twoSites) exampleClient exampleStream site = some site ↔
        ∃ req, httpParseRequest (loopbackRequest exampleClient exampleStream) = .accepted req ∧
          site.FirstAtLoopback (Config.ofSites twoSites).sites req.host) := by
  have hselected :
      (selectedSite (Config.ofSites twoSites) exampleClient exampleStream).isSome = true := by
    decide +kernel
  obtain ⟨site, hsite⟩ := Option.isSome_iff_exists.mp hselected
  exact ⟨site, hsite, routedSite_iff build_twoSites exampleClient exampleStream hsite⟩

/-- The second lookup for it finds the site for everything else. -/
theorem bridge_finds_other_site :
    ∃ site other, buildRouteTable twoSites = .ok (Config.ofSites twoSites).routeTable ∧
      selectedSite (Config.ofSites twoSites) exampleClient exampleStream = some site ∧
      routedSite (Config.ofSites twoSites) exampleClient exampleStream site = some other ∧
      site.listenIp.bytes = ascii "192.0.2.1" ∧ other.listenIp.bytes = anyAddress ∧
      routedSite (Config.ofSites twoSites) exampleClient exampleStream site ≠ some site := by
  have hselected : (selectedSite (Config.ofSites twoSites) exampleClient exampleStream).map
      (fun site => (site.listenIp.bytes, (routedSite (Config.ofSites twoSites) exampleClient
        exampleStream site).map fun other => other.listenIp.bytes)) =
      some (ascii "192.0.2.1", some anyAddress) := by
    decide +kernel
  obtain ⟨site, hsite, hpair⟩ := Option.map_eq_some_iff.mp hselected
  obtain ⟨haddress, hother⟩ := Prod.mk.inj hpair
  obtain ⟨other, hrouted, hany⟩ := Option.map_eq_some_iff.mp hother
  refine ⟨site, other, build_twoSites, hsite, hrouted, haddress, hany, fun hsame => ?_⟩
  rw [Option.some.inj (hrouted.symm.trans hsame), haddress] at hany
  exact absurd hany (by decide)

end Rpsiod

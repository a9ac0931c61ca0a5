import Mathlib.Data.UInt
import Rpsiod.Config.Site

/-!
# The configuration and its route table (`config.c`)

`routeTable` is the open-addressing table `build_route_table` fills; a slot that is not `used` is
`none`.  `findSiteForListener` is `rpsiod_config_find_site_for_listener`: first the host on the
address the connection came in on, then on every address, then the default sites in the same
order.
-/

namespace Rpsiod

/-- `RPSIOD_ROUTE_TABLE_SIZE`. -/
def routeTableSize : ℕ := 4096

/-- A used `rpsiod_route_entry`. -/
structure RouteEntry where
  defaultSite : Bool
  host : LineText 256
  listenIp : LineText 64
  port : UInt16
  siteIndex : ℕ

/-- The part of `rpsiod_config` that request handling reads. -/
structure Config where
  sites : List Site
  routeTable : Fin routeTableSize → Option RouteEntry
  keepAliveEnabled : Bool := true
  /-- `(unsigned)cfg->keep_alive_max_requests`. -/
  keepAliveMaxRequests : UInt32 := 1000

/-- `normalize_route_host`: lower case, cut to the field. -/
def normalizeRouteHost (host : Bytes) : Bytes := (host.map tolower).take 255

/-- `route_hash_key`. -/
def routeHashKey (host : Bytes) (port : UInt16) (listenIp : Bytes) (defaultSite : Bool) : UInt64 :=
  let h := (if defaultSite then ascii "*" else host).foldl
    (fun h c => (h ^^^ (tolower c).toUInt64) * 1099511628211) 1469598103934665603
  let h := (h ^^^ port.toUInt64) * 1099511628211
  listenIp.foldl (fun h c => (h ^^^ c.toUInt64) * 1099511628211) h

/-- `route_entry_matches` for a used entry. -/
def routeEntryMatches (entry : RouteEntry) (host : Bytes) (port : UInt16) (listenIp : Bytes)
    (defaultSite : Bool) : Bool :=
  entry.defaultSite == defaultSite && entry.port == port && entry.listenIp.bytes == listenIp &&
    (defaultSite || streqCi entry.host.bytes host)

/-- Slot `(start + probe) % RPSIOD_ROUTE_TABLE_SIZE`. -/
def routeSlot (start probe : ℕ) : Fin routeTableSize :=
  ⟨(start + probe) % routeTableSize, Nat.mod_lt _ (by decide)⟩

/-- The probe loop of `lookup_route`: the first argument counts the probes that are left. -/
def probeRoute (cfg : Config) (keyHost : Bytes) (port : UInt16) (listenIp : Bytes)
    (defaultSite : Bool) (start : ℕ) : ℕ → ℕ → Option Site
  | 0, _ => none
  | left + 1, probe =>
      match cfg.routeTable (routeSlot start probe) with
      | none => none
      | some entry =>
          if routeEntryMatches entry keyHost port listenIp defaultSite then
            cfg.sites[entry.siteIndex]?
          else probeRoute cfg keyHost port listenIp defaultSite start left (probe + 1)

/-- `lookup_route`. -/
def lookupRoute (cfg : Config) (host : Bytes) (port : UInt16) (listenIp : Bytes)
    (defaultSite : Bool) : Option Site :=
  let keyHost := if defaultSite then [] else normalizeRouteHost host
  let start := (routeHashKey keyHost port listenIp defaultSite).toNat % routeTableSize
  probeRoute cfg keyHost port listenIp defaultSite start routeTableSize 0

/-- The address that stands for every address. -/
def anyAddress : Bytes := ascii "0.0.0.0"

/-- A lookup on one address, then on every address. -/
def lookupOnListener (cfg : Config) (host : Bytes) (port : UInt16) (specificIp : Bytes)
    (defaultSite : Bool) : Option Site :=
  match lookupRoute cfg host port specificIp defaultSite with
  | some site => some site
  | none =>
      if specificIp ≠ anyAddress then lookupRoute cfg host port anyAddress defaultSite else none

/-- `rpsiod_config_find_site_for_listener`. -/
def findSiteForListener (cfg : Config) (host : Bytes) (port : UInt16) (listenIp : Bytes) :
    Option Site :=
  let specificIp := if listenIp ≠ [] then listenIp else anyAddress
  match lookupOnListener cfg host port specificIp false with
  | some site => some site
  | none => lookupOnListener cfg [] port specificIp true

theorem mem_of_probeRoute {cfg : Config} {keyHost : Bytes} {port : UInt16} {listenIp : Bytes}
    {defaultSite : Bool} {start left probe : ℕ} {site : Site}
    (h : probeRoute cfg keyHost port listenIp defaultSite start left probe = some site) :
    site ∈ cfg.sites := by
  induction left generalizing probe with
  | zero => cases h
  | succ left ih =>
      unfold probeRoute at h
      cases hslot : cfg.routeTable (routeSlot start probe) with
      | none =>
          rw [hslot] at h
          cases h
      | some entry =>
          rw [hslot] at h
          dsimp only at h
          split_ifs at h
          · exact List.mem_of_getElem? h
          · exact ih h

theorem mem_of_lookupOnListener {cfg : Config} {host : Bytes} {port : UInt16} {specificIp : Bytes}
    {defaultSite : Bool} {site : Site}
    (h : lookupOnListener cfg host port specificIp defaultSite = some site) :
    site ∈ cfg.sites := by
  unfold lookupOnListener at h
  cases hspecific : lookupRoute cfg host port specificIp defaultSite with
  | some found =>
      rw [hspecific] at h
      rw [← Option.some.inj h]
      exact mem_of_probeRoute hspecific
  | none =>
      rw [hspecific] at h
      dsimp only at h
      split_ifs at h
      exact mem_of_probeRoute h

/-- A site that is found is one of the configuration, whatever the table holds. -/
theorem mem_of_findSiteForListener {cfg : Config} {host : Bytes} {port : UInt16}
    {listenIp : Bytes} {site : Site} (h : findSiteForListener cfg host port listenIp = some site) :
    site ∈ cfg.sites := by
  unfold findSiteForListener at h
  dsimp only at h
  cases hnamed : lookupOnListener cfg host port (if listenIp ≠ [] then listenIp else anyAddress)
      false with
  | some found =>
      rw [hnamed] at h
      rw [← Option.some.inj h]
      exact mem_of_lookupOnListener hnamed
  | none =>
      rw [hnamed] at h
      exact mem_of_lookupOnListener h

/-- A host that no entry names, on a table without default sites, has no site. -/
theorem findSiteForListener_eq_none {cfg : Config} {host : Bytes}
    (h : ∀ i entry, cfg.routeTable i = some entry →
      entry.defaultSite = false ∧ streqCi entry.host.bytes (normalizeRouteHost host) = false)
    (port : UInt16) (listenIp : Bytes) : findSiteForListener cfg host port listenIp = none := by
  have hprobe : ∀ (keyHost listenIp : Bytes) (defaultSite : Bool) (start left probe : ℕ),
      (defaultSite = false → keyHost = normalizeRouteHost host) →
      probeRoute cfg keyHost port listenIp defaultSite start left probe = none := by
    intro keyHost listenIp defaultSite start left
    induction left with
    | zero => intro probe _; rfl
    | succ left ih =>
        intro probe hkey
        unfold probeRoute
        cases hslot : cfg.routeTable (routeSlot start probe) with
        | none => rfl
        | some entry =>
            obtain ⟨hdefault, hhost⟩ := h _ entry hslot
            have hno : routeEntryMatches entry keyHost port listenIp defaultSite = false := by
              unfold routeEntryMatches
              cases defaultSite with
              | true => simp [hdefault]
              | false => simp [hkey rfl, hhost]
            simp only [hno]
            exact ih (probe + 1) hkey
  have hlisten : ∀ (host' specificIp : Bytes) (defaultSite : Bool),
      (defaultSite = false → host' = host) →
      lookupOnListener cfg host' port specificIp defaultSite = none := by
    intro host' specificIp defaultSite hhost
    have hlookup : ∀ listenIp, lookupRoute cfg host' port listenIp defaultSite = none := by
      intro listenIp
      unfold lookupRoute
      apply hprobe
      intro hdefault
      rw [hdefault, hhost hdefault]
      rfl
    unfold lookupOnListener
    simp only [hlookup, ite_self]
  unfold findSiteForListener
  simp only [hlisten host _ false fun _ => rfl, hlisten [] _ true fun hf => Bool.noConfusion hf]

end Rpsiod

import Rpsiod.Config.Route
import Rpsiod.Lib.OpenAddressing

/-!
# Building the route table (`config.c`)

`buildRouteTable` is `build_route_table`: the enabled sites claim their hosts on both of their ports,
one after the other, in a table with open addressing.  What the table is for is said without it:
`Site.claims` are the claims of a site, and `referenceSite` looks for a claimant.

* `buildRouteTable_eq`: the table is built by inserting the claims in order.
* `lookupRoute_eq`: a lookup in a table that was built finds the claimant.
* `routeTable_spec`: **the table fails to build exactly if it has to, and otherwise every lookup gives
  the reference's answer**.
-/

namespace Rpsiod

open OpenAddressing

/-! ### The hosts of a site -/

theorem tolower_ne {c : UInt8} (n : UInt8) (hn : n < 32) (h : c ≠ n) : tolower c ≠ n := by
  unfold tolower
  split_ifs with hupper
  · intro heq
    have hlow : 65 ≤ c.toNat := UInt8.le_iff_toNat_le.mp hupper.1
    have hhigh : c.toNat ≤ 90 := UInt8.le_iff_toNat_le.mp hupper.2
    have hn' : n.toNat < 32 := UInt8.lt_iff_toNat_lt.mp hn
    have hsum : (c.toNat + 32) % 256 = n.toNat := congrArg UInt8.toNat heq
    omega
  · exact h

/-- `normalize_route_host` on a field. -/
def LineText.lower {n : ℕ} (t : LineText n) : LineText n where
  bytes := t.bytes.map tolower
  ok := by
    refine ⟨by rw [List.length_map]; exact t.ok.1, fun hmem => ?_, fun hmem => ?_⟩
    · obtain ⟨c, hc, heq⟩ := List.mem_map.mp hmem
      exact tolower_ne 10 (by decide) (fun h => t.ok.2.1 (h ▸ hc)) heq
    · obtain ⟨c, hc, heq⟩ := List.mem_map.mp hmem
      exact tolower_ne 0 (by decide) (fun h => t.ok.2.2 (h ▸ hc)) heq

/-- `explicit_default_domain`. -/
def explicitDefaultDomain (domain : Bytes) : Bool :=
  domain = ascii "*" || streqCi domain (ascii "default")

/-- `redirect_host`, if the domain has a form with or without `www.` that is redirected. -/
def redirectHost (site : Site) (domain : LineText 256) : Option (LineText 256) :=
  if site.redirectWwwMode = .apexToWww && !startsWith domain.bytes (ascii "www.") then
    if h : (ascii "www." ++ domain.bytes).length < 256 then
      some ⟨ascii "www." ++ domain.bytes, h, by
        rw [List.mem_append, not_or]
        exact ⟨by decide, domain.ok.2.1⟩, by
        rw [List.mem_append, not_or]
        exact ⟨by decide, domain.ok.2.2⟩⟩
    else none
  else if site.redirectWwwMode = .wwwToApex && startsWith domain.bytes (ascii "www.") then
    some ⟨domain.bytes.drop 4, by
      rw [List.length_drop]
      exact Nat.lt_of_le_of_lt (Nat.sub_le _ _) domain.ok.1,
      fun h => domain.ok.2.1 (List.mem_of_mem_drop h),
      fun h => domain.ok.2.2 (List.mem_of_mem_drop h)⟩
  else none

/-! ### `build_route_table` -/

/-- `route_table`. -/
abbrev RouteTable := Fin routeTableSize → Option RouteEntry

/-- The text for two sites with the same claim. -/
def duplicateRoute (entry : RouteEntry) : Bytes :=
  ascii "duplicate route for " ++
    (if entry.defaultSite then ascii "default"
      else ascii "'" ++ entry.host.bytes ++ ascii "'") ++
    ascii " on " ++ entry.listenIp.bytes ++ ascii ":" ++ decimal entry.port.toNat

/-- The probe loop of `add_route_entry`: the first argument counts the probes that are left. -/
def addRouteLoop (table : RouteTable) (entry : RouteEntry) (start : ℕ) :
    ℕ → ℕ → Except Bytes RouteTable
  | 0, _ => .error (ascii "route table is full")
  | left + 1, probe =>
      match table (routeSlot start probe) with
      | none => .ok (Function.update table (routeSlot start probe) (some entry))
      | some old =>
          if routeEntryMatches old entry.host.bytes entry.port entry.listenIp.bytes
              entry.defaultSite then
            if old.siteIndex ≠ entry.siteIndex then .error (duplicateRoute entry) else .ok table
          else addRouteLoop table entry start left (probe + 1)

/-- The entry of a claim. -/
def routeEntry (host : LineText 256) (port : UInt16) (listenIp : LineText 64) (siteIndex : ℕ)
    (defaultSite : Bool) : RouteEntry where
  defaultSite := defaultSite
  host := if defaultSite then .lit "" else host.lower
  listenIp := listenIp
  port := port
  siteIndex := siteIndex

/-- `add_route_entry`. -/
def addRouteEntry (host : LineText 256) (port : UInt16) (listenIp : LineText 64) (siteIndex : ℕ)
    (defaultSite : Bool) (table : RouteTable) : Except Bytes RouteTable :=
  if port = 0 then .ok table
  else
    let entry := routeEntry host port listenIp siteIndex defaultSite
    let start := (routeHashKey entry.host.bytes port listenIp.bytes defaultSite).toNat %
      routeTableSize
    addRouteLoop table entry start routeTableSize 0

/-- The two calls for a host. -/
def addBothPorts (site : Site) (siteIndex : ℕ) (host : LineText 256) (defaultSite : Bool)
    (table : RouteTable) : Except Bytes RouteTable :=
  addRouteEntry host site.httpPort site.listenIp siteIndex defaultSite table >>=
    addRouteEntry host site.httpsPort site.listenIp siteIndex defaultSite

/-- The loop body of `build_route_table` on a domain. -/
def addDomainRoutes (site : Site) (siteIndex : ℕ) (table : RouteTable) (domain : LineText 256) :
    Except Bytes RouteTable :=
  let isDefault := explicitDefaultDomain domain.bytes
  addBothPorts site siteIndex domain isDefault table >>= fun table =>
    if !isDefault && site.redirectWwwEnabled then
      match redirectHost site domain with
      | some host => addBothPorts site siteIndex host false table
      | none => .ok table
    else .ok table

/-- The loop body of `build_route_table` on a site and its index. -/
def addSiteRoutes (table : RouteTable) (site : Site × ℕ) : Except Bytes RouteTable :=
  if !site.1.enabled then .ok table
  else site.1.domains.foldlM (addDomainRoutes site.1 site.2) table

/-- `build_route_table`. -/
def buildRouteTable (sites : List Site) : Except Bytes RouteTable :=
  sites.zipIdx.foldlM addSiteRoutes fun _ => none

/-! ### What the table is for -/

/-- What a site claims: a host, or none for everything else, on a port of an address. -/
structure RouteKey where
  host : Option Bytes
  port : UInt16
  listenIp : Bytes
  deriving DecidableEq

/-- The hosts that a domain of a site stands for, in lower case: the domain and the form of it that is
redirected; for `*` and `default` none. -/
def Site.hosts (site : Site) (domain : LineText 256) : List (Option Bytes) :=
  if explicitDefaultDomain domain.bytes then [none]
  else
    some (domain.bytes.map tolower) ::
      (if site.redirectWwwEnabled then
        ((redirectHost site domain).map fun host => some (host.bytes.map tolower)).toList
      else [])

/-- The claims of a site: every host on both ports of its address. -/
def Site.claims (site : Site) : List RouteKey :=
  if site.enabled then
    site.domains.flatMap fun domain =>
      (site.hosts domain).flatMap fun host =>
        ([site.httpPort, site.httpsPort].filter (· ≠ 0)).map fun port =>
          ⟨host, port, site.listenIp.bytes⟩
  else []

/-- A site that makes this claim. -/
def claimant (sites : List Site) (key : RouteKey) : Option Site :=
  sites.find? fun site => key ∈ site.claims

/-- The address a connection came in on. -/
def localIp (listenIp : Bytes) : Bytes := if listenIp ≠ [] then listenIp else anyAddress

/-- **The reference**: the claim of the host on the local address, on every address, then the claim
of everything else on the local address, on every address. -/
def referenceSite (sites : List Site) (host : Bytes) (port : UInt16) (listenIp : Bytes) :
    Option Site :=
  ((claimant sites ⟨some (host.map tolower), port, localIp listenIp⟩).or
    (claimant sites ⟨some (host.map tolower), port, anyAddress⟩)).or
  ((claimant sites ⟨none, port, localIp listenIp⟩).or
    (claimant sites ⟨none, port, anyAddress⟩))

/-- No two sites make the same claim. -/
def ClaimsDiffer (sites : List Site) : Prop :=
  ∀ (i j : ℕ) (site other : Site) (key : RouteKey), sites[i]? = some site →
    sites[j]? = some other → key ∈ site.claims → key ∈ other.claims → i = j

/-! ### Entries and their keys -/

theorem tolower_tolower (c : UInt8) : tolower (tolower c) = tolower c := by
  unfold tolower
  split_ifs with hupper hagain
  · have hlow : 65 ≤ c.toNat := UInt8.le_iff_toNat_le.mp hupper.1
    have hhigh : (c + 32).toNat ≤ 90 := UInt8.le_iff_toNat_le.mp hagain.2
    have hsum : (c + 32).toNat = (c.toNat + 32) % 256 := rfl
    have hupper' : c.toNat ≤ 90 := UInt8.le_iff_toNat_le.mp hupper.2
    omega
  · rfl
  · rfl

@[simp] theorem map_tolower_tolower (b : Bytes) : (b.map tolower).map tolower = b.map tolower := by
  rw [List.map_map]
  exact List.map_congr_left fun c _ => tolower_tolower c

/-- The claim of an entry. -/
def RouteEntry.key (e : RouteEntry) : RouteKey where
  host := if e.defaultSite then none else some (e.host.bytes.map tolower)
  port := e.port
  listenIp := e.listenIp.bytes

/-- The claim that is looked for. -/
def queryKey (keyHost : Bytes) (port : UInt16) (listenIp : Bytes) (defaultSite : Bool) :
    RouteKey where
  host := if defaultSite then none else some (keyHost.map tolower)
  port := port
  listenIp := listenIp

/-- The slot in which the search for a claim starts. -/
def routeHome (key : RouteKey) : ℕ :=
  (routeHashKey (key.host.getD []) key.port key.listenIp key.host.isNone).toNat % routeTableSize

/-- The letter case of the host is not hashed. -/
theorem routeHashKey_lower (host : Bytes) (port : UInt16) (listenIp : Bytes) (defaultSite : Bool) :
    routeHashKey (host.map tolower) port listenIp defaultSite =
      routeHashKey host port listenIp defaultSite := by
  unfold routeHashKey
  cases defaultSite with
  | true => rfl
  | false =>
      rw [if_neg Bool.false_ne_true, if_neg Bool.false_ne_true, List.foldl_map]
      simp only [tolower_tolower]

theorem routeHome_queryKey (keyHost : Bytes) (port : UInt16) (listenIp : Bytes)
    (defaultSite : Bool) :
    routeHome (queryKey keyHost port listenIp defaultSite) =
      (routeHashKey keyHost port listenIp defaultSite).toNat % routeTableSize := by
  unfold routeHome queryKey
  cases defaultSite with
  | true => rfl
  | false => exact congrArg (fun h => h.toNat % routeTableSize) (routeHashKey_lower ..)

theorem routeEntryMatches_eq (e : RouteEntry) (keyHost : Bytes) (port : UInt16) (listenIp : Bytes)
    (defaultSite : Bool) :
    routeEntryMatches e keyHost port listenIp defaultSite =
      decide (e.key = queryKey keyHost port listenIp defaultSite) := by
  have hhost : streqCi e.host.bytes keyHost =
      decide (e.host.bytes.map tolower = keyHost.map tolower) := by
    rw [Bool.eq_iff_iff, streqCi_iff, decide_eq_true_iff]
  unfold routeEntryMatches RouteEntry.key queryKey
  rw [hhost, Bool.eq_iff_iff]
  cases e.defaultSite with
  | true => cases defaultSite <;> simp
  | false =>
      cases defaultSite with
      | true => simp
      | false =>
          simp
          tauto

/-! ### Building is inserting -/

instance : NeZero routeTableSize := ⟨by decide⟩

/-- Inserting entries into the table, without the texts of the errors. -/
abbrev insertEntries (es : List RouteEntry) (table : RouteTable) : Option RouteTable :=
  insertAll routeHome RouteEntry.key RouteEntry.siteIndex es table

theorem insertEntries_append (es es' : List RouteEntry) (table : RouteTable) :
    insertEntries (es ++ es') table = insertEntries es table >>= insertEntries es' :=
  List.foldlM_append

theorem toOption_bind {ε α β : Type} (x : Except ε α) (f : α → Except ε β) :
    (x >>= f).toOption = x.toOption >>= fun a => (f a).toOption := by
  cases x <;> rfl

/-- A loop whose body inserts entries. -/
theorem toOption_foldlM {α : Type} {f : RouteTable → α → Except Bytes RouteTable}
    {g : α → List RouteEntry} (h : ∀ a table, (f table a).toOption = insertEntries (g a) table)
    (l : List α) (table : RouteTable) :
    (l.foldlM f table).toOption = insertEntries (l.flatMap g) table := by
  induction l generalizing table with
  | nil => rfl
  | cons a l ih =>
      rw [List.foldlM_cons, toOption_bind, h, List.flatMap_cons, insertEntries_append]
      exact bind_congr ih

theorem addRouteLoop_toOption (table : RouteTable) (entry : RouteEntry) (start left k : ℕ) :
    (addRouteLoop table entry start left k).toOption =
      match probe table (fun e => decide (e.key = entry.key)) start left k with
      | .hit old => if old.siteIndex = entry.siteIndex then some table else none
      | .free i => some (Function.update table i (some entry))
      | .full => none := by
  induction left generalizing k with
  | zero => rfl
  | succ left ih =>
      have hslot : (slot start k : Fin routeTableSize) = routeSlot start k := rfl
      have hmatches : ∀ old, routeEntryMatches old entry.host.bytes entry.port
          entry.listenIp.bytes entry.defaultSite = decide (old.key = entry.key) := fun old =>
        routeEntryMatches_eq old _ _ _ _
      rw [addRouteLoop, probe, hslot]
      cases table (routeSlot start k) with
      | none => rfl
      | some old =>
          simp only [hmatches]
          by_cases hkey : old.key = entry.key
          · simp only [hkey, decide_true, if_true]
            by_cases hindex : old.siteIndex = entry.siteIndex
            · simp [hindex, Except.toOption]
            · simp [hindex, Except.toOption]
          · simp only [hkey, decide_false, Bool.false_eq_true, if_false]
            exact ih (k + 1)

theorem routeEntry_key (host : LineText 256) (port : UInt16) (listenIp : LineText 64) (i : ℕ)
    (defaultSite : Bool) :
    (routeEntry host port listenIp i defaultSite).key =
      ⟨if defaultSite then none else some (host.bytes.map tolower), port, listenIp.bytes⟩ := by
  unfold routeEntry RouteEntry.key
  cases defaultSite with
  | true => rfl
  | false =>
      have hlower : host.lower.bytes.map tolower = host.bytes.map tolower := map_tolower_tolower _
      simpa using hlower

/-- The entries of a host on both ports. -/
def portEntries (site : Site) (i : ℕ) (host : LineText 256 × Bool) : List RouteEntry :=
  ([site.httpPort, site.httpsPort].filter (· ≠ 0)).map fun port =>
    routeEntry host.1 port site.listenIp i host.2

/-- The hosts of a domain, in the order in which they are added. -/
def routeHosts (site : Site) (domain : LineText 256) : List (LineText 256 × Bool) :=
  (domain, explicitDefaultDomain domain.bytes) ::
    if !explicitDefaultDomain domain.bytes && site.redirectWwwEnabled then
      ((redirectHost site domain).map fun host => (host, false)).toList
    else []

/-- The entries of a site, in the order in which they are added. -/
def routeEntries (site : Site × ℕ) : List RouteEntry :=
  if site.1.enabled then
    site.1.domains.flatMap fun domain =>
      (routeHosts site.1 domain).flatMap (portEntries site.1 site.2)
  else []

theorem addRouteEntry_toOption (host : LineText 256) (port : UInt16) (listenIp : LineText 64)
    (i : ℕ) (defaultSite : Bool) (table : RouteTable) :
    (addRouteEntry host port listenIp i defaultSite table).toOption =
      insertEntries (([port].filter (· ≠ 0)).map fun port =>
        routeEntry host port listenIp i defaultSite) table := by
  unfold addRouteEntry
  by_cases hport : port = 0
  · rw [if_pos hport, hport]
    rfl
  · have hfilter : [port].filter (· ≠ 0) = [port] := List.filter_cons_of_pos (by simpa using hport)
    set entry := routeEntry host port listenIp i defaultSite with hentry
    have hhome : (routeHashKey entry.host.bytes port listenIp.bytes defaultSite).toNat %
        routeTableSize = routeHome entry.key := (routeHome_queryKey ..).symm
    rw [if_neg hport, hfilter]
    simp only
    rw [hhome, addRouteLoop_toOption]
    show _ = insertAll routeHome RouteEntry.key RouteEntry.siteIndex [entry] table
    rw [insertAll, List.foldlM_cons, OpenAddressing.insert, search]
    cases probe table (fun e => decide (e.key = entry.key)) (routeHome entry.key)
        routeTableSize 0 with
    | hit old =>
        simp only
        split_ifs <;> rfl
    | free j => rfl
    | full => rfl

theorem addBothPorts_toOption (site : Site) (i : ℕ) (host : LineText 256) (defaultSite : Bool)
    (table : RouteTable) :
    (addBothPorts site i host defaultSite table).toOption =
      insertEntries (portEntries site i (host, defaultSite)) table := by
  have hsplit : [site.httpPort, site.httpsPort].filter (· ≠ 0) =
      [site.httpPort].filter (· ≠ 0) ++ [site.httpsPort].filter (· ≠ 0) :=
    List.filter_append [site.httpPort] [site.httpsPort]
  unfold addBothPorts portEntries
  rw [toOption_bind, addRouteEntry_toOption, hsplit, List.map_append, insertEntries_append]
  exact bind_congr fun table => addRouteEntry_toOption ..

theorem addDomainRoutes_toOption (site : Site) (i : ℕ) (domain : LineText 256)
    (table : RouteTable) :
    (addDomainRoutes site i table domain).toOption =
      insertEntries ((routeHosts site domain).flatMap (portEntries site i)) table := by
  unfold addDomainRoutes routeHosts
  rw [toOption_bind, addBothPorts_toOption, List.flatMap_cons, insertEntries_append]
  refine bind_congr fun table => ?_
  by_cases hwww : (!explicitDefaultDomain domain.bytes && site.redirectWwwEnabled) = true
  · rw [if_pos hwww, if_pos hwww]
    cases redirectHost site domain with
    | none => rfl
    | some host =>
        have hone : [(host, false)].flatMap (portEntries site i) =
            portEntries site i (host, false) := List.flatMap_singleton ..
        show (addBothPorts site i host false table).toOption = _
        rw [addBothPorts_toOption, Option.map_some, Option.toList_some, hone]
  · rw [if_neg hwww, if_neg hwww]
    rfl

/-- **The table is built by inserting the claims**, site by site. -/
theorem buildRouteTable_eq (sites : List Site) :
    (buildRouteTable sites).toOption =
      insertEntries (sites.zipIdx.flatMap routeEntries) OpenAddressing.empty := by
  apply toOption_foldlM
  intro site table
  unfold addSiteRoutes routeEntries
  cases site.1.enabled with
  | false => rfl
  | true => exact toOption_foldlM (fun domain => addDomainRoutes_toOption site.1 site.2 domain) _ _

/-! ### Claims -/

theorem routeHosts_keys (site : Site) (domain : LineText 256) :
    ((routeHosts site domain).map fun host =>
        if host.2 then none else some (host.1.bytes.map tolower)) = site.hosts domain := by
  unfold routeHosts Site.hosts
  cases explicitDefaultDomain domain.bytes with
  | true => rfl
  | false =>
      cases site.redirectWwwEnabled with
      | false => rfl
      | true =>
          cases redirectHost site domain with
          | none => rfl
          | some host => rfl

/-- The entries of a site are its claims. -/
theorem routeEntries_keys (site : Site) (i : ℕ) :
    (routeEntries (site, i)).map RouteEntry.key = site.claims := by
  unfold routeEntries Site.claims
  cases site.enabled with
  | false => rfl
  | true =>
      simp only [if_true, List.map_flatMap]
      refine List.flatMap_congr fun domain _ => ?_
      rw [← routeHosts_keys, List.flatMap_map]
      refine List.flatMap_congr fun host _ => ?_
      unfold portEntries
      rw [List.map_map]
      exact List.map_congr_left fun port _ => routeEntry_key ..

theorem siteIndex_of_mem {site : Site} {i : ℕ} {e : RouteEntry} (h : e ∈ routeEntries (site, i)) :
    e.siteIndex = i := by
  unfold routeEntries at h
  split_ifs at h
  · obtain ⟨domain, -, h⟩ := List.mem_flatMap.mp h
    obtain ⟨host, -, h⟩ := List.mem_flatMap.mp h
    obtain ⟨port, -, rfl⟩ := List.mem_map.mp h
    rfl
  · exact absurd h List.not_mem_nil

/-- The entries of all sites. -/
theorem exists_entry_iff {sites : List Site} {key : RouteKey} {i : ℕ} :
    (∃ e ∈ sites.zipIdx.flatMap routeEntries, e.key = key ∧ e.siteIndex = i) ↔
      ∃ site, sites[i]? = some site ∧ key ∈ site.claims := by
  constructor
  · rintro ⟨e, he, rfl, rfl⟩
    obtain ⟨⟨site, j⟩, hsite, he⟩ := List.mem_flatMap.mp he
    have hj : e.siteIndex = j := siteIndex_of_mem he
    rw [hj]
    refine ⟨site, List.mem_zipIdx_iff_getElem?.mp hsite, ?_⟩
    rw [← routeEntries_keys site j]
    exact List.mem_map_of_mem he
  · rintro ⟨site, hsite, hkey⟩
    rw [← routeEntries_keys site i] at hkey
    obtain ⟨e, he, rfl⟩ := List.mem_map.mp hkey
    exact ⟨e, List.mem_flatMap.mpr ⟨(site, i), List.mem_zipIdx_iff_getElem?.mpr hsite, he⟩, rfl,
      siteIndex_of_mem he⟩

theorem consistent_iff (sites : List Site) :
    Consistent RouteEntry.key RouteEntry.siteIndex (sites.zipIdx.flatMap routeEntries) ↔
      ClaimsDiffer sites := by
  constructor
  · intro h i j site other key hi hj hkey hkey'
    obtain ⟨e, he, hek, rfl⟩ := exists_entry_iff.mpr ⟨site, hi, hkey⟩
    obtain ⟨e', he', hek', rfl⟩ := exists_entry_iff.mpr ⟨other, hj, hkey'⟩
    exact h e he e' he' (hek.trans hek'.symm)
  · intro h e he e' he' hkey
    obtain ⟨site, hi, hclaim⟩ := exists_entry_iff.mp ⟨e, he, rfl, rfl⟩
    obtain ⟨other, hj, hclaim'⟩ := exists_entry_iff.mp ⟨e', he', rfl, rfl⟩
    rw [← hkey] at hclaim'
    exact h _ _ site other e.key hi hj hclaim hclaim'

theorem keys_entries (sites : List Site) :
    keys RouteEntry.key (sites.zipIdx.flatMap routeEntries) =
      (sites.flatMap Site.claims).toFinset := by
  ext key
  rw [mem_keys, List.mem_toFinset, List.mem_flatMap]
  constructor
  · rintro ⟨e, he, hkey⟩
    obtain ⟨site, hsite, hclaim⟩ := exists_entry_iff.mp ⟨e, he, hkey, rfl⟩
    exact ⟨site, List.mem_of_getElem? hsite, hclaim⟩
  · rintro ⟨site, hsite, hclaim⟩
    obtain ⟨i, hi⟩ := List.mem_iff_getElem?.mp hsite
    obtain ⟨e, he, hkey, -⟩ := exists_entry_iff.mpr ⟨site, hi, hclaim⟩
    exact ⟨e, he, hkey⟩

/-! ### The claimant -/

/-- The site that makes a claim is its claimant. -/
theorem claimant_eq_some {sites : List Site} (hdiffer : ClaimsDiffer sites) {key : RouteKey}
    {site : Site} (hmem : site ∈ sites) (hkey : key ∈ site.claims) :
    claimant sites key = some site := by
  unfold claimant
  cases hfind : sites.find? fun site => key ∈ site.claims with
  | none =>
      have hnone := List.find?_eq_none.mp hfind site hmem
      exact absurd (decide_eq_true hkey) hnone
  | some other =>
      obtain ⟨i, hi⟩ := List.mem_iff_getElem?.mp hmem
      obtain ⟨j, hj⟩ := List.mem_iff_getElem?.mp (List.mem_of_find?_eq_some hfind)
      have hclaim : key ∈ other.claims := by simpa using List.find?_some hfind
      obtain rfl := hdiffer i j site other key hi hj hkey hclaim
      rw [← hj, hi]

theorem mem_of_claimant {sites : List Site} {key : RouteKey} {site : Site}
    (h : claimant sites key = some site) : site ∈ sites ∧ key ∈ site.claims := by
  unfold claimant at h
  exact ⟨List.mem_of_find?_eq_some h, by simpa using List.find?_some h⟩

theorem claimant_eq_none {sites : List Site} {key : RouteKey} :
    claimant sites key = none ↔ ∀ site ∈ sites, key ∉ site.claims := by
  unfold claimant
  rw [List.find?_eq_none]
  simp

/-- The order of the sites does not matter. -/
theorem claimant_perm {sites sites' : List Site} (hdiffer : ClaimsDiffer sites)
    (hperm : sites'.Perm sites) (key : RouteKey) : claimant sites' key = claimant sites key := by
  cases hclaimant : claimant sites' key with
  | none =>
      rw [claimant_eq_none] at hclaimant
      exact (claimant_eq_none.mpr fun site hsite =>
        hclaimant site (hperm.mem_iff.mpr hsite)).symm
  | some site =>
      obtain ⟨hmem, hkey⟩ := mem_of_claimant hclaimant
      exact (claimant_eq_some hdiffer (hperm.mem_iff.mp hmem) hkey).symm

/-- A claim is on the address of its site. -/
theorem listenIp_of_claim {site : Site} {key : RouteKey} (h : key ∈ site.claims) :
    site.listenIp.bytes = key.listenIp := by
  unfold Site.claims at h
  split_ifs at h
  · obtain ⟨domain, -, h⟩ := List.mem_flatMap.mp h
    obtain ⟨host, -, h⟩ := List.mem_flatMap.mp h
    obtain ⟨port, -, rfl⟩ := List.mem_map.mp h
    rfl
  · exact absurd h List.not_mem_nil

/-! ### Lookups -/

theorem probeRoute_eq (cfg : Config) (keyHost : Bytes) (port : UInt16) (listenIp : Bytes)
    (defaultSite : Bool) (start left k : ℕ) :
    probeRoute cfg keyHost port listenIp defaultSite start left k =
      match probe cfg.routeTable
          (fun e => decide (e.key = queryKey keyHost port listenIp defaultSite)) start left k with
      | .hit e => cfg.sites[e.siteIndex]?
      | _ => none := by
  induction left generalizing k with
  | zero => rfl
  | succ left ih =>
      have hslot : (slot start k : Fin routeTableSize) = routeSlot start k := rfl
      rw [probeRoute, probe, hslot]
      cases cfg.routeTable (routeSlot start k) with
      | none => rfl
      | some e =>
          simp only [routeEntryMatches_eq]
          by_cases hkey : e.key = queryKey keyHost port listenIp defaultSite
          · simp [hkey]
          · simp only [hkey, decide_false, Bool.false_eq_true, if_false]
            exact ih (k + 1)

/-- **A lookup in a table that was built** finds the claimant. -/
theorem lookupRoute_eq {cfg : Config} (h : buildRouteTable cfg.sites = .ok cfg.routeTable)
    (host : Bytes) (port : UInt16) (listenIp : Bytes) (defaultSite : Bool) :
    lookupRoute cfg host port listenIp defaultSite =
      claimant cfg.sites (queryKey (if defaultSite then [] else normalizeRouteHost host) port
        listenIp defaultSite) := by
  have hbuild : insertEntries (cfg.sites.zipIdx.flatMap routeEntries) OpenAddressing.empty =
      some cfg.routeTable := by
    rw [← buildRouteTable_eq, h]
    rfl
  have hdiffer : ClaimsDiffer cfg.sites := by
    have hsome := Option.isSome_of_eq_some hbuild
    exact (consistent_iff _).mp (insertAll_isSome_iff _ |>.mp hsome).1
  unfold lookupRoute
  simp only
  set keyHost := if defaultSite then [] else normalizeRouteHost host
  set key := queryKey keyHost port listenIp defaultSite with hkey
  rw [← routeHome_queryKey, probeRoute_eq, ← hkey]
  have hsearch := search_insertAll hbuild key
  unfold search at hsearch
  rcases hsearch with ⟨e, hhit, -, e', he', hkey', hindex⟩ | ⟨hnone, hmiss⟩
  · rw [hhit]
    obtain ⟨site, hsite, hclaim⟩ := exists_entry_iff.mp ⟨e', he', hkey', hindex⟩
    rw [claimant_eq_some hdiffer (List.mem_of_getElem? hsite) hclaim]
    exact hsite
  · have hclaimant : claimant cfg.sites key = none := by
      rw [claimant_eq_none]
      intro site hsite hclaim
      obtain ⟨i, hi⟩ := List.mem_iff_getElem?.mp hsite
      obtain ⟨e, he, hekey, -⟩ := exists_entry_iff.mpr ⟨site, hi, hclaim⟩
      exact hnone e he hekey
    rw [hclaimant]
    cases hprobe : probe cfg.routeTable (fun e => decide (e.key = key)) (routeHome key)
        routeTableSize 0 with
    | hit e => exact absurd hprobe (hmiss e)
    | free i => rfl
    | full => rfl

/-- The host of a request fits its field, so that nothing is cut off. -/
theorem map_tolower_normalizeRouteHost {host : Bytes} (h : host.length < 256) :
    (normalizeRouteHost host).map tolower = host.map tolower := by
  unfold normalizeRouteHost
  rw [List.take_of_length_le (by rw [List.length_map]; omega), map_tolower_tolower]

/-- A lookup on one address, then on every address. -/
theorem lookupOnListener_eq {cfg : Config} (h : buildRouteTable cfg.sites = .ok cfg.routeTable)
    (host : Bytes) (port : UInt16) (specificIp : Bytes) (defaultSite : Bool) :
    lookupOnListener cfg host port specificIp defaultSite =
      (claimant cfg.sites (queryKey (if defaultSite then [] else normalizeRouteHost host) port
          specificIp defaultSite)).or
        (claimant cfg.sites (queryKey (if defaultSite then [] else normalizeRouteHost host) port
          anyAddress defaultSite)) := by
  unfold lookupOnListener
  simp only [lookupRoute_eq h]
  by_cases hany : specificIp = anyAddress
  · rw [hany]
    cases claimant cfg.sites _ with
    | some site => rfl
    | none => rfl
  · rw [if_pos hany]
    cases claimant cfg.sites (queryKey (if defaultSite then [] else normalizeRouteHost host) port
        specificIp defaultSite) with
    | some site => rfl
    | none => rfl

/-- **A lookup gives the reference's answer.** -/
theorem findSiteForListener_eq {cfg : Config} (h : buildRouteTable cfg.sites = .ok cfg.routeTable)
    {host : Bytes} (hhost : host.length < 256) (port : UInt16) (listenIp : Bytes) :
    findSiteForListener cfg host port listenIp = referenceSite cfg.sites host port listenIp := by
  have hkey : ∀ ip, queryKey (normalizeRouteHost host) port ip false =
      ⟨some (host.map tolower), port, ip⟩ := by
    intro ip
    unfold queryKey
    rw [map_tolower_normalizeRouteHost hhost]
    rfl
  have hdefault : ∀ ip, queryKey [] port ip true = ⟨none, port, ip⟩ := fun ip => rfl
  unfold findSiteForListener referenceSite
  simp only [lookupOnListener_eq h, Bool.false_eq_true, if_false, if_true, hkey, hdefault]
  unfold localIp
  cases (claimant cfg.sites ⟨some (host.map tolower), port,
        if listenIp ≠ [] then listenIp else anyAddress⟩).or
      (claimant cfg.sites ⟨some (host.map tolower), port, anyAddress⟩) with
  | some site => rfl
  | none => rfl

/-- The address of the site that is found. -/
theorem listenIp_of_reference {sites : List Site} {host : Bytes} {port : UInt16} {listenIp : Bytes}
    {site : Site} (h : referenceSite sites host port listenIp = some site) :
    site.listenIp.bytes = anyAddress ∨ site.listenIp.bytes = localIp listenIp := by
  unfold referenceSite at h
  rcases Option.or_eq_some_iff.mp h with h | ⟨-, h⟩
  · rcases Option.or_eq_some_iff.mp h with h | ⟨-, h⟩
    · exact Or.inr (listenIp_of_claim (mem_of_claimant h).2)
    · exact Or.inl (listenIp_of_claim (mem_of_claimant h).2)
  · rcases Option.or_eq_some_iff.mp h with h | ⟨-, h⟩
    · exact Or.inr (listenIp_of_claim (mem_of_claimant h).2)
    · exact Or.inl (listenIp_of_claim (mem_of_claimant h).2)

theorem referenceSite_perm {sites sites' : List Site} (hdiffer : ClaimsDiffer sites)
    (hperm : sites'.Perm sites) (host : Bytes) (port : UInt16) (listenIp : Bytes) :
    referenceSite sites' host port listenIp = referenceSite sites host port listenIp := by
  unfold referenceSite
  simp only [claimant_perm hdiffer hperm]

/-- **When the table can be built.** -/
theorem buildRouteTable_ok_iff (sites : List Site) :
    (∃ table, buildRouteTable sites = .ok table) ↔
      ClaimsDiffer sites ∧ (sites.flatMap Site.claims).toFinset.card ≤ routeTableSize := by
  have hsome : (∃ table, buildRouteTable sites = .ok table) ↔
      (buildRouteTable sites).toOption.isSome := by
    cases buildRouteTable sites with
    | ok table => exact iff_of_true ⟨table, rfl⟩ rfl
    | error text => exact iff_of_false (fun ⟨_, h⟩ => nomatch h) Bool.false_ne_true
  rw [hsome, buildRouteTable_eq, insertEntries, insertAll_isSome_iff, consistent_iff, keys_entries]

/-- The configuration of these sites. -/
def Config.ofSites (sites : List Site) : Config where
  sites := sites
  routeTable := (buildRouteTable sites).toOption.getD fun _ => none

theorem build_ofSites {sites : List Site} (h : (buildRouteTable sites).toOption.isSome = true) :
    buildRouteTable sites = .ok (Config.ofSites sites).routeTable := by
  unfold Config.ofSites
  cases hbuild : buildRouteTable sites with
  | ok table => rfl
  | error text =>
      rw [hbuild] at h
      exact nomatch h

theorem claimant_singleton (site : Site) (key : RouteKey) :
    claimant [site] key = if key ∈ site.claims then some site else none := by
  unfold claimant
  rw [List.find?_cons, List.find?_nil]
  by_cases hclaim : key ∈ site.claims
  · rw [decide_eq_true hclaim, if_pos hclaim]
  · rw [decide_eq_false hclaim, if_neg hclaim]

/-- The only site, which has a host on every address. -/
theorem referenceSite_singleton {site : Site} {host : Bytes} {port : UInt16}
    (h : ⟨some (host.map tolower), port, anyAddress⟩ ∈ site.claims) (listenIp : Bytes) :
    referenceSite [site] host port listenIp = some site := by
  unfold referenceSite
  rw [claimant_singleton, claimant_singleton, if_pos h]
  split_ifs <;> rfl

/-- A site of its own on one address, and one for everything else. -/
def twoSites : List Site :=
  [{ domains := [.lit "example.org"]
     listenIp := .lit "192.0.2.1"
     redirectWwwEnabled := true },
    { domains := [.lit "*"] }]

theorem build_twoSites : buildRouteTable twoSites = .ok (Config.ofSites twoSites).routeTable :=
  build_ofSites (by decide +kernel)

end Rpsiod

import Rpsiod.Config.RouteTable
import Rpsiod.Lib.FailingRuns

/-!
# Listeners (`add_listeners`)

A worker listens on the plain port of every enabled site, and on its TLS port if the site has TLS.
Two sites on one address and port share a listener: the first one decides whether it talks TLS.

* `Placed`: what the list of listeners keeps while sites are added.
* `listeners_iff`: **exactly when every site gets its listeners**, whatever the order of the sites.
-/

namespace Rpsiod

open FailingRun

/-- A site with the setting that only its listeners read. -/
structure ListenSite extends Site where
  sslEnabled : Bool := false

/-- `listener_object`. -/
structure Listener where
  fd : ℕ
  ip : LineText 64
  port : UInt16
  tls : Bool

/-- What the system answers. -/
structure ListenCalls where
  /-- `create_listener`: a descriptor, or the error text. -/
  create : LineText 64 → UInt16 → Except Bytes ℕ
  /-- `epoll_ctl`: the text of its `errno`, or nothing. -/
  epollAdd : ℕ → Option Bytes
  /-- There is a TLS context. -/
  tlsCtx : Bool

/-- `RPSIOD_MAX_LISTENERS`. -/
def maxListeners : ℕ := 128

/-- `listener_exists`. -/
def listenerExists (listeners : List Listener) (ip : LineText 64) (port : UInt16) : Bool :=
  listeners.any fun l => l.port = port && l.ip.bytes = ip.bytes

/-- `add_one_listener`. -/
def addOneListener (calls : ListenCalls) (listeners : List Listener) (ip : LineText 64)
    (port : UInt16) (tls : Bool) : Except Bytes (List Listener) :=
  if listenerExists listeners ip port then .ok listeners
  else if maxListeners ≤ listeners.length then .error (ascii "too many listeners")
  else
    match calls.create ip port with
    | .error text => .error text
    | .ok fd =>
        match calls.epollAdd fd with
        | some text => .error (ascii "epoll add listener failed: " ++ text)
        | none => .ok (listeners ++ [⟨fd, ip, port, tls⟩])

/-- The part of the loop body about the plain port. -/
def addPlainListener (calls : ListenCalls) (listeners : List Listener) (site : ListenSite) :
    Except Bytes (List Listener) :=
  if site.httpPort ≠ 0 then addOneListener calls listeners site.listenIp site.httpPort false
  else .ok listeners

/-- The part about the TLS port. -/
def addTlsListener (calls : ListenCalls) (site : ListenSite) (listeners : List Listener) :
    Except Bytes (List Listener) :=
  if site.sslEnabled && site.httpsPort ≠ 0 then
    if !calls.tlsCtx then
      .error (ascii "TLS is enabled but no valid TLS context is available")
    else addOneListener calls listeners site.listenIp site.httpsPort true
  else .ok listeners

/-- The loop body of `add_listeners`. -/
def addSiteListeners (calls : ListenCalls) (listeners : List Listener) (site : ListenSite) :
    Except Bytes (List Listener) :=
  if !site.enabled then .ok listeners
  else (addPlainListener calls listeners site).bind (addTlsListener calls site)

/-- `add_listeners`. -/
def addListeners (calls : ListenCalls) (sites : List ListenSite) : Except Bytes (List Listener) :=
  sites.foldlM (addSiteListeners calls) []

/-- What `rpsiod_config_validate` sees to, as far as listeners go. -/
structure AcceptedSites (sites : List ListenSite) : Prop where
  ports : ∀ site ∈ sites, site.httpPort ≠ 0 ∧ site.httpsPort ≠ 0
  routes : (buildRouteTable (sites.map ListenSite.toSite)).toOption.isSome = true

/-! ### What sites need -/

/-- An address and a port, and whether a listener there talks TLS. -/
structure Endpoint where
  ip : LineText 64
  port : UInt16
  tls : Bool
  deriving DecidableEq

/-- The address and the port. -/
def Endpoint.place (e : Endpoint) : LineText 64 × UInt16 := (e.ip, e.port)

/-- The listener is there. -/
def Listener.endpoint (l : Listener) : Endpoint := ⟨l.ip, l.port, l.tls⟩

/-- The listeners that a site needs. -/
def ListenSite.endpoints (site : ListenSite) : List Endpoint :=
  if site.enabled then
    ⟨site.listenIp, site.httpPort, false⟩ ::
      if site.sslEnabled then [⟨site.listenIp, site.httpsPort, true⟩] else []
  else []

/-- Every enabled site has its listeners. -/
structure Listening (sites : List ListenSite) (listeners : List Listener) : Prop where
  plain : ∀ site ∈ sites, site.enabled = true → ∃ l ∈ listeners,
    l.ip = site.listenIp ∧ l.port = site.httpPort ∧ l.tls = false
  tls : ∀ site ∈ sites, site.enabled = true → site.sslEnabled = true → ∃ l ∈ listeners,
    l.ip = site.listenIp ∧ l.port = site.httpsPort ∧ l.tls = true

/-- One address and port is the plain port of an enabled site and the TLS port of an enabled site
that has TLS. -/
def ModeConflict (sites : List ListenSite) : Prop :=
  ∃ a ∈ sites, ∃ b ∈ sites, a.enabled = true ∧ b.enabled = true ∧ b.sslEnabled = true ∧
    a.listenIp = b.listenIp ∧ a.httpPort = b.httpsPort

/-- No two listeners are in one place, and they fit the array. -/
structure Distinct (listeners : List Listener) : Prop where
  places : (listeners.map fun l => l.endpoint.place).Nodup
  fits : listeners.length ≤ maxListeners

/-! ### Adding listeners -/

/-- The listeners for these endpoints: one in each place, with the mode of an endpoint there. -/
structure Placed (wanted : List Endpoint) (listeners : List Listener) : Prop extends
    Distinct listeners where
  wanted_of_mem : ∀ l ∈ listeners, l.endpoint ∈ wanted
  placed : ∀ e ∈ wanted, ∃ l ∈ listeners, l.endpoint.place = e.place

theorem placed_nil : Placed [] [] where
  places := List.nodup_nil
  fits := Nat.zero_le _
  wanted_of_mem := fun _ h => absurd h List.not_mem_nil
  placed := fun _ h => absurd h List.not_mem_nil

theorem listenerExists_iff {listeners : List Listener} {ip : LineText 64} {port : UInt16} :
    listenerExists listeners ip port = true ↔ ∃ l ∈ listeners, l.endpoint.place = (ip, port) := by
  unfold listenerExists
  rw [List.any_eq_true]
  constructor
  · rintro ⟨l, hl, h⟩
    rw [Bool.and_eq_true, decide_eq_true_iff, decide_eq_true_iff] at h
    exact ⟨l, hl, Prod.ext (LineText.ext h.2) h.1⟩
  · rintro ⟨l, hl, h⟩
    obtain ⟨hip, hport⟩ := Prod.mk.inj h
    refine ⟨l, hl, ?_⟩
    rw [Bool.and_eq_true, decide_eq_true_iff, decide_eq_true_iff]
    exact ⟨hport, congrArg LineText.bytes hip⟩

variable {calls : ListenCalls} {listeners added : List Listener} {wanted : List Endpoint}

/-- `add_one_listener` puts a listener in the place, unless there is one. -/
theorem Placed.addOne {ip : LineText 64} {port : UInt16} {tls : Bool} (h : Placed wanted listeners)
    (hadd : addOneListener calls listeners ip port tls = .ok added) :
    Placed (wanted ++ [⟨ip, port, tls⟩]) added := by
  unfold addOneListener at hadd
  split_ifs at hadd with hexists hfull
  · obtain ⟨shared, hshared, hplace⟩ := listenerExists_iff.mp hexists
    rw [← Except.ok.inj hadd]
    refine ⟨h.toDistinct, fun l hl => List.mem_append_left _ (h.wanted_of_mem l hl), ?_⟩
    intro e he
    rcases List.mem_append.mp he with he | he
    · exact h.placed e he
    · rw [List.mem_singleton.mp he]
      exact ⟨shared, hshared, hplace⟩
  · cases hcreate : calls.create ip port with
    | error text =>
        rw [hcreate] at hadd
        cases hadd
    | ok fd =>
        rw [hcreate] at hadd
        dsimp only at hadd
        cases hepoll : calls.epollAdd fd with
        | some text =>
            rw [hepoll] at hadd
            cases hadd
        | none =>
            rw [hepoll] at hadd
            rw [← Except.ok.inj hadd]
            refine ⟨⟨?_, ?_⟩, ?_, ?_⟩
            · rw [List.map_append, List.map_singleton, List.nodup_append]
              refine ⟨h.places, List.nodup_singleton _, ?_⟩
              rintro place hplace _ hnew rfl
              obtain ⟨l, hl, rfl⟩ := List.mem_map.mp hplace
              exact hexists (listenerExists_iff.mpr ⟨l, hl, List.mem_singleton.mp hnew⟩)
            · rw [List.length_append, List.length_singleton]
              omega
            · intro l hl
              rcases List.mem_append.mp hl with hl | hl
              · exact List.mem_append_left _ (h.wanted_of_mem l hl)
              · rw [List.mem_singleton.mp hl]
                exact List.mem_append_right _ (List.mem_singleton_self _)
            · intro e he
              rcases List.mem_append.mp he with he | he
              · obtain ⟨l, hl, hplace⟩ := h.placed e he
                exact ⟨l, List.mem_append_left _ hl, hplace⟩
              · rw [List.mem_singleton.mp he]
                exact ⟨_, List.mem_append_right _ (List.mem_singleton_self _), rfl⟩

/-- The loop body. -/
theorem Placed.addSite {site : ListenSite} (h : Placed wanted listeners)
    (hports : site.httpPort ≠ 0 ∧ site.httpsPort ≠ 0)
    (hadd : addSiteListeners calls listeners site = .ok added) :
    Placed (wanted ++ site.endpoints) added := by
  unfold addSiteListeners at hadd
  unfold ListenSite.endpoints
  cases henabled : site.enabled with
  | false =>
      rw [henabled] at hadd
      rw [← Except.ok.inj hadd, if_neg Bool.false_ne_true, List.append_nil]
      exact h
  | true =>
      rw [henabled, Bool.not_true, if_neg Bool.false_ne_true] at hadd
      rw [if_pos rfl]
      unfold addPlainListener at hadd
      rw [if_pos hports.1] at hadd
      cases hplain : addOneListener calls listeners site.listenIp site.httpPort false with
      | error text =>
          rw [hplain] at hadd
          cases hadd
      | ok plain =>
          have hplaced := h.addOne hplain
          rw [hplain] at hadd
          have htls : addTlsListener calls site plain = .ok added := hadd
          unfold addTlsListener at htls
          cases hssl : site.sslEnabled with
          | false =>
              rw [hssl] at htls
              rw [← Except.ok.inj htls, if_neg Bool.false_ne_true]
              exact hplaced
          | true =>
              rw [hssl, Bool.true_and, if_pos (decide_eq_true hports.2)] at htls
              split_ifs at htls
              rw [if_pos rfl, List.append_cons]
              exact hplaced.addOne htls

/-- The loop. -/
theorem Placed.addAll {sites : List ListenSite} (h : Placed wanted listeners)
    (hports : ∀ site ∈ sites, site.httpPort ≠ 0 ∧ site.httpsPort ≠ 0)
    (hadd : sites.foldlM (addSiteListeners calls) listeners = .ok added) :
    Placed (wanted ++ sites.flatMap ListenSite.endpoints) added := by
  induction sites generalizing wanted listeners with
  | nil =>
      rw [← Except.ok.inj hadd, List.flatMap_nil, List.append_nil]
      exact h
  | cons site sites ih =>
      obtain ⟨next, hsite, hrest⟩ := exists_of_foldlM_cons hadd
      have hplaced := h.addSite (hports site List.mem_cons_self) hsite
      have hall := ih hplaced (fun s hs => hports s (List.mem_cons_of_mem site hs)) hrest
      rw [List.flatMap_cons, ← List.append_assoc]
      exact hall

/-! ### When every site gets its listeners -/

variable {sites : List ListenSite}

theorem mem_endpoints {e : Endpoint} : e ∈ sites.flatMap ListenSite.endpoints ↔
    ∃ site ∈ sites, site.enabled = true ∧
      (e = ⟨site.listenIp, site.httpPort, false⟩ ∨
        (site.sslEnabled = true ∧ e = ⟨site.listenIp, site.httpsPort, true⟩)) := by
  rw [List.mem_flatMap]
  apply exists_congr
  intro site
  apply and_congr_right
  intro _
  unfold ListenSite.endpoints
  cases site.enabled with
  | false => simp
  | true =>
      cases site.sslEnabled with
      | false => simp
      | true => simp

/-- Every endpoint that is needed is there. -/
theorem listening_iff : Listening sites listeners ↔
    ∀ e ∈ sites.flatMap ListenSite.endpoints, ∃ l ∈ listeners, l.endpoint = e := by
  constructor
  · intro h e he
    obtain ⟨site, hsite, henabled, rfl | ⟨hssl, rfl⟩⟩ := mem_endpoints.mp he
    · obtain ⟨l, hl, hip, hport, htls⟩ := h.plain site hsite henabled
      exact ⟨l, hl, by rw [← hip, ← hport, ← htls]; rfl⟩
    · obtain ⟨l, hl, hip, hport, htls⟩ := h.tls site hsite henabled hssl
      exact ⟨l, hl, by rw [← hip, ← hport, ← htls]; rfl⟩
  · intro h
    constructor
    · intro site hsite henabled
      obtain ⟨l, hl, heq⟩ := h _ (mem_endpoints.mpr ⟨site, hsite, henabled, Or.inl rfl⟩)
      exact ⟨l, hl, congrArg Endpoint.ip heq, congrArg Endpoint.port heq, congrArg Endpoint.tls heq⟩
    · intro site hsite henabled hssl
      obtain ⟨l, hl, heq⟩ := h _ (mem_endpoints.mpr ⟨site, hsite, henabled, Or.inr ⟨hssl, rfl⟩⟩)
      exact ⟨l, hl, congrArg Endpoint.ip heq, congrArg Endpoint.port heq, congrArg Endpoint.tls heq⟩

/-- No place is needed in both modes. -/
theorem not_modeConflict_iff : ¬ ModeConflict sites ↔
    ∀ a ∈ sites.flatMap ListenSite.endpoints, ∀ b ∈ sites.flatMap ListenSite.endpoints,
      a.place = b.place → a.tls = b.tls := by
  constructor
  · intro hnone a ha b hb hplace
    obtain ⟨s, hs, hsEnabled, rfl | ⟨hsTls, rfl⟩⟩ := mem_endpoints.mp ha
    · obtain ⟨s', hs', hsEnabled', rfl | ⟨hsTls', rfl⟩⟩ := mem_endpoints.mp hb
      · rfl
      · obtain ⟨hip, hport⟩ := Prod.mk.inj hplace
        exact absurd ⟨s, hs, s', hs', hsEnabled, hsEnabled', hsTls', hip, hport⟩ hnone
    · obtain ⟨s', hs', hsEnabled', rfl | ⟨hsTls', rfl⟩⟩ := mem_endpoints.mp hb
      · obtain ⟨hip, hport⟩ := Prod.mk.inj hplace
        exact absurd ⟨s', hs', s, hs, hsEnabled', hsEnabled, hsTls, hip.symm, hport.symm⟩ hnone
      · rfl
  · rintro hagree ⟨s, hs, s', hs', hsEnabled, hsEnabled', hsTls', hip, hport⟩
    have hmodes := hagree _ (mem_endpoints.mpr ⟨s, hs, hsEnabled, Or.inl rfl⟩)
      _ (mem_endpoints.mpr ⟨s', hs', hsEnabled', Or.inr ⟨hsTls', rfl⟩⟩) (Prod.ext hip hport)
    cases hmodes

/-- In one place there is one listener. -/
theorem Distinct.eq_of_place (h : Distinct listeners) {l l' : Listener} (hl : l ∈ listeners)
    (hl' : l' ∈ listeners) (hplace : l.endpoint.place = l'.endpoint.place) : l = l' :=
  List.inj_on_of_nodup_map h.places hl hl' hplace

/-- **Exactly when every site gets its listeners**: if no address and port is needed in both modes.
Otherwise the configuration is accepted all the same.  There is never more than one listener in a
place, and the array is never full. -/
theorem listeners_iff (h : AcceptedSites sites) (hadd : addListeners calls sites = .ok listeners) :
    Distinct listeners ∧ (Listening sites listeners ↔ ¬ ModeConflict sites) := by
  have hplaced : Placed (sites.flatMap ListenSite.endpoints) listeners :=
    placed_nil.addAll h.ports hadd
  refine ⟨hplaced.toDistinct, ?_⟩
  rw [listening_iff, not_modeConflict_iff]
  constructor
  · intro hall a ha b hb hplace
    obtain ⟨l, hl, rfl⟩ := hall a ha
    obtain ⟨l', hl', rfl⟩ := hall b hb
    rw [hplaced.eq_of_place hl hl' hplace]
  · intro hagree e he
    obtain ⟨l, hl, hplace⟩ := hplaced.placed e he
    have hmode := hagree _ (hplaced.wanted_of_mem l hl) e he hplace
    obtain ⟨hip, hport⟩ := Prod.mk.inj hplace
    refine ⟨l, hl, ?_⟩
    cases e
    cases hip
    cases hport
    cases hmode
    rfl

/-! ### One port in both modes -/

/-- Every call succeeds. -/
def listenSuccess : ListenCalls := ⟨fun _ port => .ok port.toNat, fun _ => none, true⟩

/-- A site on its default ports, and one with TLS on the default plain port of the other. -/
def sharingSites (shared : UInt16) : List ListenSite :=
  [{ domains := [.lit "example.org"] },
    { domains := [.lit "example.net"], httpPort := 8080, httpsPort := shared, sslEnabled := true }]

theorem accepted_sharingSites : ∀ shared ∈ [80, 443], AcceptedSites (sharingSites shared) := by
  intro shared hshared
  have hcases : shared = 80 ∨ shared = 443 := by simpa using hshared
  rcases hcases with rfl | rfl
  · exact ⟨by decide +kernel, by decide +kernel⟩
  · exact ⟨by decide +kernel, by decide +kernel⟩

/-- The listeners of these sites, which get all they need with the second port. -/
theorem listeners_iff_sharingSites : ∃ listeners,
    addListeners listenSuccess (sharingSites 443) = .ok listeners ∧ Distinct listeners ∧
      (Listening (sharingSites 443) listeners ↔ ¬ ModeConflict (sharingSites 443)) :=
  have hadd : addListeners listenSuccess (sharingSites 443) = .ok _ := rfl
  ⟨_, hadd, listeners_iff (accepted_sharingSites 443 (by decide)) hadd⟩

/-- **The trace of a shared port**: the configuration is accepted, and the TLS port of the second
site talks plain HTTP. -/
theorem shared_port_plain :
    AcceptedSites (sharingSites 80) ∧ ∃ listeners,
      addListeners listenSuccess (sharingSites 80) = .ok listeners ∧
      listeners.map (fun l => (l.port, l.tls)) = [(80, false), (8080, false)] ∧
      ¬ Listening (sharingSites 80) listeners := by
  refine ⟨accepted_sharingSites 80 (by decide), _, rfl, by decide, fun h => ?_⟩
  obtain ⟨l, hl, -, hport, htls⟩ := h.tls _ (List.mem_cons_of_mem _ (List.mem_singleton_self _))
    rfl rfl
  have hall : ∀ l ∈ [(⟨80, .lit "0.0.0.0", 80, false⟩ : Listener),
      ⟨8080, .lit "0.0.0.0", 8080, false⟩],
      l.tls = false := by decide
  rw [hall l hl] at htls
  cases htls

end Rpsiod

import Rpsiod.Config.Validate
import Rpsiod.Lib.LexicalPath

/-!
# The directories of runtime files (`rpsiod_config_validate`)

The validator looks at the first bytes of a path, and not at its segments.

* `runtimePaths`: the paths that the server writes to, or reads its sites from, with the directories
  that are required for them.
* `startsIn_of_validated`: every one of them starts with the name of its directory.
* `validatedPaths_iff`: **it stays inside exactly if** it does not climb out behind that name.
-/

namespace Rpsiod

open FailingRun LexicalPath Segments

/-! ### Paths and their directories -/

/-- A path with the directory that is required for it. -/
structure RuntimePath where
  dir : Bytes
  path : Bytes
  deriving DecidableEq

/-- The directories of `is_allowed_runtime_path`. -/
def runtimeDirs : List Bytes :=
  [ascii "/var/log/rpsiod", ascii "/var/cache/rpsiod", ascii "/var/lib/rpsiod/ssl",
    ascii "/run/rpsiod"]

/-- The one that a path starts with. -/
def runtimeDir (path : Bytes) : Bytes :=
  (runtimeDirs.find? fun dir => startsWith path (dir ++ ascii "/")).getD (ascii "/run/rpsiod")

/-- A log that is written. -/
def logPaths (log : ParsedLog) : List RuntimePath :=
  if log.enabled then [⟨ascii "/var/log/rpsiod", log.path⟩] else []

/-- The logs and the certificates of a site. -/
def sitePaths (s : SiteSettings) : List RuntimePath :=
  logPaths s.accessLog ++ logPaths s.errorLog ++
    if s.sslEnabled then [⟨ascii "/var/lib/rpsiod/ssl", s.sslStorage⟩] else []

/-- The paths of a configuration. -/
def runtimePaths (server : ServerSettings) (sites : List SiteConfig) : List RuntimePath :=
  [⟨ascii "/etc/rpsiod", server.sitesFile⟩, ⟨runtimeDir server.pidFile, server.pidFile⟩] ++
    logPaths server.accessLog ++ logPaths server.errorLog ++
    sites.flatMap fun site => sitePaths site.settings

/-- What stands behind the name of the directory and a slash. -/
def RuntimePath.behind (p : RuntimePath) : Bytes := p.path.drop (p.dir.length + 1)

/-- The path starts with the name of its directory. -/
def RuntimePath.StartsIn (p : RuntimePath) : Prop := p.path = p.dir ++ 47 :: p.behind

theorem startsIn_of_startsWith {dir path : Bytes} (h : startsWith path (dir ++ ascii "/") = true) :
    RuntimePath.StartsIn ⟨dir, path⟩ := by
  obtain ⟨rest, hrest⟩ := List.isPrefixOf_iff_prefix.mp h
  have hslash : ascii "/" = [47] := rfl
  rw [hslash, List.append_assoc] at hrest
  unfold RuntimePath.StartsIn RuntimePath.behind
  dsimp only
  rw [← hrest, List.drop_append, List.drop_eq_nil_of_le (Nat.le_succ _), Nat.add_sub_cancel_left]
  rfl

/-! ### What the checks say -/

theorem require_ok {holds : Bool} {text : Bytes} {u : Unit} (h : require holds text = .ok u) :
    holds = true := by
  unfold require at h
  split_ifs at h with hholds
  exact hholds

theorem startsIn_of_logAllowed {log : ParsedLog} (h : logAllowed log = true) :
    ∀ p ∈ logPaths log, p.StartsIn := by
  intro p hp
  unfold logPaths at hp
  split_ifs at hp with henabled
  · rw [List.mem_singleton.mp hp]
    apply startsIn_of_startsWith
    unfold logAllowed at h
    rw [henabled, Bool.true_and, Bool.not_or, Bool.not_not, Bool.not_not, Bool.and_eq_true] at h
    exact h.2
  · exact absurd hp List.not_mem_nil

theorem startsIn_runtimeDir {path : Bytes} (h : isAllowedRuntimePath path = true) :
    RuntimePath.StartsIn ⟨runtimeDir path, path⟩ := by
  apply startsIn_of_startsWith
  have hsome : (runtimeDirs.find? fun dir => startsWith path (dir ++ ascii "/")).isSome = true := by
    rw [List.find?_isSome]
    unfold isAllowedRuntimePath at h
    simp only [Bool.or_eq_true] at h
    rcases h with ((h | h) | h) | h
    · exact ⟨ascii "/var/log/rpsiod", by decide, h⟩
    · exact ⟨ascii "/var/cache/rpsiod", by decide, h⟩
    · exact ⟨ascii "/var/lib/rpsiod/ssl", by decide, h⟩
    · exact ⟨ascii "/run/rpsiod", by decide, h⟩
  obtain ⟨dir, hdir⟩ := Option.isSome_iff_exists.mp hsome
  have hfound := List.find?_some hdir
  unfold runtimeDir
  rw [hdir]
  exact hfound

/-- The paths of the server. -/
theorem startsIn_of_server {server : ServerSettings} {sites : List SiteConfig} {u : Unit}
    (h : validateServer server sites = .ok u) : ∀ p ∈ runtimePaths server [], p.StartsIn := by
  obtain ⟨_, -, h⟩ := bind_eq_ok h
  obtain ⟨_, -, h⟩ := bind_eq_ok h
  obtain ⟨_, -, h⟩ := bind_eq_ok h
  obtain ⟨_, -, h⟩ := bind_eq_ok h
  obtain ⟨_, hsites, h⟩ := bind_eq_ok h
  obtain ⟨_, hpid, h⟩ := bind_eq_ok h
  obtain ⟨_, haccess, h⟩ := bind_eq_ok h
  obtain ⟨_, herror, -⟩ := bind_eq_ok h
  have hetc : startsWith server.sitesFile (ascii "/etc/rpsiod" ++ ascii "/") = true := by
    rcases Bool.or_eq_true_iff.mp (require_ok hsites) with heq | hstart
    · rw [of_decide_eq_true heq]
      decide
    · exact hstart
  have hrun := (Bool.and_eq_true_iff.mp (require_ok hpid)).2
  intro p hp
  unfold runtimePaths at hp
  simp only [List.flatMap_nil, List.append_nil, List.mem_append, List.mem_cons, List.not_mem_nil,
    or_false] at hp
  rcases hp with ((rfl | rfl) | hp) | hp
  · exact startsIn_of_startsWith hetc
  · exact startsIn_runtimeDir hrun
  · exact startsIn_of_logAllowed (require_ok haccess) p hp
  · exact startsIn_of_logAllowed (require_ok herror) p hp

/-- The certificates of a site that has been checked. -/
theorem storage_of_validateSsl {domains : List Bytes} {s s' : SiteSettings}
    (h : validateSsl domains s = .ok s') :
    s'.accessLog = s.accessLog ∧ s'.errorLog = s.errorLog ∧ (s'.sslEnabled = true →
      startsWith s'.sslStorage (ascii "/var/lib/rpsiod/ssl" ++ ascii "/") = true) := by
  unfold validateSsl at h
  by_cases hoff : (!s.sslEnabled) = true
  · rw [if_pos hoff] at h
    rw [← Except.ok.inj h]
    refine ⟨rfl, rfl, fun hon => ?_⟩
    rw [hon] at hoff
    exact absurd hoff (by decide)
  · rw [if_neg hoff] at h
    obtain ⟨_, -, h⟩ := bind_eq_ok h
    obtain ⟨_, -, h⟩ := bind_eq_ok h
    obtain ⟨_, -, h⟩ := bind_eq_ok h
    obtain ⟨_, hstorage, h⟩ := bind_eq_ok h
    rw [← Except.ok.inj h]
    exact ⟨rfl, rfl, fun _ => (Bool.and_eq_true_iff.mp (require_ok hstorage)).2⟩

/-- The paths of a site. -/
theorem startsIn_of_settings {dirs : Directories} {domains : List Bytes} {s s' : SiteSettings}
    (h : validateSettings dirs domains s = .ok s') : ∀ p ∈ sitePaths s', p.StartsIn := by
  obtain ⟨_, -, h⟩ := bind_eq_ok h
  obtain ⟨_, -, h⟩ := bind_eq_ok h
  obtain ⟨_, -, h⟩ := bind_eq_ok h
  obtain ⟨_, -, h⟩ := bind_eq_ok h
  obtain ⟨_, -, h⟩ := bind_eq_ok h
  obtain ⟨_, -, h⟩ := bind_eq_ok h
  obtain ⟨_, -, h⟩ := bind_eq_ok h
  obtain ⟨routed, -, h⟩ := bind_eq_ok h
  obtain ⟨_, haccess, h⟩ := bind_eq_ok h
  obtain ⟨_, herror, h⟩ := bind_eq_ok h
  obtain ⟨secured, hsecured, h⟩ := bind_eq_ok h
  obtain ⟨_, -, h⟩ := bind_eq_ok h
  obtain rfl : secured = s' := Except.ok.inj h
  obtain ⟨hsameAccess, hsameError, hstorage⟩ := storage_of_validateSsl hsecured
  intro p hp
  unfold sitePaths at hp
  rw [hsameAccess, hsameError, List.mem_append, List.mem_append] at hp
  rcases hp with (hp | hp) | hp
  · exact startsIn_of_logAllowed (require_ok haccess) p hp
  · exact startsIn_of_logAllowed (require_ok herror) p hp
  · split_ifs at hp with hssl
    · rw [List.mem_singleton.mp hp]
      exact startsIn_of_startsWith (hstorage hssl)
    · exact absurd hp List.not_mem_nil

theorem startsIn_of_site {dirs : Directories} {site : SiteConfig × ℕ} {site' : SiteConfig}
    (h : validateSite dirs site = .ok site') : ∀ p ∈ sitePaths site'.settings, p.StartsIn := by
  obtain ⟨s, hsettings, rfl⟩ := exists_settings_of_validateSite h
  exact startsIn_of_settings hsettings

/-- **Every path of a validated configuration starts with the name of its directory.** -/
theorem startsIn_of_validated {dirs : Directories} {server : ServerSettings}
    {sites : List SiteConfig} {cfg : LoadedConfig}
    (h : configValidate dirs server sites = .ok cfg) :
    ∀ p ∈ runtimePaths server cfg.sites, p.StartsIn := by
  obtain ⟨_, hserver, h⟩ := bind_eq_ok h
  obtain ⟨checked, hchecked, h⟩ := bind_eq_ok h
  obtain ⟨table, -, h⟩ := bind_eq_ok h
  obtain rfl := Except.ok.inj h
  intro p hp
  have hall := startsIn_of_server hserver
  unfold runtimePaths at hp hall
  rw [List.flatMap_nil, List.append_nil] at hall
  rcases List.mem_append.mp hp with hp | hp
  · exact hall p hp
  · obtain ⟨site, hsite, hp⟩ := List.mem_flatMap.mp hp
    obtain ⟨read, -, hread⟩ := exists_of_mem_right (forall₂_of_mapM hchecked) hsite
    exact startsIn_of_site hread p hp

/-! ### Inside the directories -/

/-- The way behind the name of the directory goes down again wherever it has gone up. -/
def RuntimePath.StaysBelow (p : RuntimePath) : Prop := StaysIn p.dir p.behind

instance (p : RuntimePath) : Decidable p.StaysBelow := inferInstanceAs (Decidable (StaysIn _ _))

/-- **A path of a validated configuration stays inside its directory exactly if** what stands behind
the name of the directory does not go up above it, or goes down again by the same names; a path
without `..` does. -/
theorem validatedPaths_iff {dirs : Directories} {server : ServerSettings}
    {sites : List SiteConfig} {cfg : LoadedConfig}
    (h : configValidate dirs server sites = .ok cfg) :
    ∀ p ∈ runtimePaths server cfg.sites, (Inside p.dir p.path ↔ p.StaysBelow) ∧
      ([46, 46] ∉ segments 47 p.behind → p.StaysBelow) := by
  intro p hp
  have hstarts : p.path = p.dir ++ 47 :: p.behind := startsIn_of_validated h p hp
  refine ⟨?_, staysIn_of_plain p.dir⟩
  rw [hstarts]
  exact inside_iff p.dir p.behind

/-! ### A log outside -/

/-- A site that is relayed, with certificates. -/
def securedSite : SiteConfig :=
  { domains := [ascii "example.org"]
    settings :=
      { routingType := ascii "proxy"
        proxyHost := ascii "backend"
        sslEnabled := true } }

theorem exists_validated (server : ServerSettings)
    (h : (configValidate noDirectories server [securedSite]).isOk = true) :
    ∃ cfg, configValidate noDirectories server [securedSite] = .ok cfg := by
  generalize configValidate noDirectories server [securedSite] = r at h
  cases r with
  | error text => exact nomatch h
  | ok cfg => exact ⟨cfg, rfl⟩

/-- The path of a log that is not where it seems to be. -/
def climbingLog : Bytes := ascii "/var/log/rpsiod/../../../etc/x"

/-- **A log outside**: the path is accepted, and is that of a file in `/etc`. -/
theorem climbing_log_accepted :
    ∃ cfg, configValidate noDirectories { accessLog := ⟨true, climbingLog⟩ } [securedSite] =
        .ok cfg ∧
      ⟨ascii "/var/log/rpsiod", climbingLog⟩ ∈
        runtimePaths { accessLog := ⟨true, climbingLog⟩ } cfg.sites ∧
      resolve climbingLog = [ascii "etc", ascii "x"] ∧
      ¬ Inside (ascii "/var/log/rpsiod") climbingLog := by
  obtain ⟨cfg, hcfg⟩ := exists_validated { accessLog := ⟨true, climbingLog⟩ } (by decide +kernel)
  refine ⟨cfg, hcfg, ?_, by decide +kernel, by decide +kernel⟩
  unfold runtimePaths logPaths
  simp

/-- The paths by default, and the certificates of a site under its first domain. -/
theorem validatedPaths_default :
    ∃ cfg, configValidate noDirectories {} [securedSite] = .ok cfg ∧
      Inside (ascii "/run/rpsiod") (ascii "/run/rpsiod/rpsiod.pid") := by
  obtain ⟨cfg, hcfg⟩ := exists_validated {} (by decide +kernel)
  refine ⟨cfg, hcfg, ?_⟩
  have hpid :
      ⟨ascii "/run/rpsiod", ascii "/run/rpsiod/rpsiod.pid"⟩ ∈ runtimePaths {} cfg.sites := by
    have hdir : runtimeDir (ascii "/run/rpsiod/rpsiod.pid") = ascii "/run/rpsiod" := by decide
    unfold runtimePaths
    rw [hdir]
    simp
  exact ((validatedPaths_iff hcfg _ hpid).1).mpr (by decide +kernel)

end Rpsiod

import Rpsiod.Lib.Descriptors
import Rpsiod.Server.Reload

/-!
# Logs over a reload (`rpsiod_log_open`, `rpsiod_log_access`, `rpsiod_log_error`)

At its start the server opens the logs of its configuration.  `reload_workers` replaces the
configuration, with log paths that nobody has opened, and keeps the logger.

* `destinations_started`: after a start every line goes where the configuration says.
* `destinations_run`: after a reload it goes where the first configuration has its own log.
* `reload_logs_iff`: **exactly when a reload is like a restart for logging**.
-/

namespace Rpsiod

open Descriptors

/-! ### The settings -/

/-- `access_log` and `error_log`. -/
inductive LogKind where
  | access
  | error
  deriving DecidableEq

/-- A log in the configuration files. -/
structure LogSetting where
  enabled : Bool
  path : LineText 512

/-- `rpsiod_log_path`. -/
structure LogPath extends LogSetting where
  fd : ℤ

/-- What the files say about logs: those of the server, and those of each site. -/
structure LogSettings where
  own : LogKind → LogSetting
  sites : List (LogKind → LogSetting)

/-- `rpsiod_config`, as far as logging goes. -/
structure LogConfig where
  own : LogKind → LogPath
  sites : List (LogKind → LogPath)

/-- `rpsiod_logger`: `access_fd` and `error_fd`. -/
abbrev Logger := LogKind → ℤ

/-- `rpsiod_config_defaults` and `site_defaults` set `fd` to -1. -/
def LogSetting.loaded (setting : LogSetting) : LogPath := { setting with fd := -1 }

/-- What `rpsiod_config_load` leaves. -/
def LogSettings.loaded (settings : LogSettings) : LogConfig where
  own kind := (settings.own kind).loaded
  sites := settings.sites.map fun site kind => (site kind).loaded

/-! ### `rpsiod_log_open` -/

section opening

variable {F : Type*} (fileOf : Bytes → F)

/-- `rpsiod_open_append`, where every file can be opened; -1 is `none`. -/
def openAppend (path : Bytes) (t : Table F) : Option ℕ × Table F :=
  if path = [] then (none, t) else (some t.lowest, t.opened (fileOf path))

/-- A log is opened if it is enabled. -/
def openEnabled (log : LogPath) (t : Table F) : Option ℕ × Table F :=
  if log.enabled then openAppend fileOf log.path.bytes t else (none, t)

/-- `fd` is set if the log has been opened. -/
def LogPath.withFd (log : LogPath) (opened : Option ℕ) : LogPath :=
  { log with fd := (opened.map Nat.cast).getD log.fd }

/-- The access log and then the error log. -/
def openBoth (logs : LogKind → LogPath) (t : Table F) : (LogKind → Option ℕ) × Table F :=
  let access := openEnabled fileOf (logs .access) t
  let error := openEnabled fileOf (logs .error) access.2
  (fun
    | .access => access.1
    | .error => error.1, error.2)

/-- The loop over the sites. -/
def openSites : List (LogKind → LogPath) → Table F → List (LogKind → LogPath) × Table F
  | [], t => ([], t)
  | site :: sites, t =>
      let opened := openBoth fileOf site t
      let rest := openSites sites opened.2
      ((fun kind => (site kind).withFd (opened.1 kind)) :: rest.1, rest.2)

/-- `STDERR_FILENO`. -/
def stderrFileno : ℕ := 2

/-- `rpsiod_log_open`. -/
def rpsiodLogOpen (cfg : LogConfig) (t : Table F) : Logger × LogConfig × Table F :=
  let own := openBoth fileOf cfg.own t
  let sites := openSites fileOf cfg.sites own.2
  (fun kind => (((own.1 kind).getD stderrFileno : ℕ) : ℤ),
    { own := fun kind => (cfg.own kind).withFd (own.1 kind), sites := sites.1 }, sites.2)

end opening

/-- The descriptor that `rpsiod_log_access` and `rpsiod_log_error` write to. -/
def lineFd (logger : Logger) (site : Option (LogKind → LogPath)) (kind : LogKind) : ℤ :=
  match site with
  | some logs => if (logs kind).enabled && 0 ≤ (logs kind).fd then (logs kind).fd else logger kind
  | none => logger kind

/-! ### The server -/

/-- The parent with its logger, the log paths of its configuration and its descriptors. -/
structure LoggedParent (F : Type*) where
  parent : Parent
  logger : Logger
  logs : LogConfig
  table : Table F

section server

variable {F : Type*} (fileOf : Bytes → F) (settings : ServerConfig → LogSettings)

/-- `main`: the configuration has been loaded, and the logs are opened. -/
def startLogged (p : Parent) (t : Table F) : LoggedParent F :=
  let opened := rpsiodLogOpen fileOf (settings p.cfg).loaded t
  { parent := p, logger := opened.1, logs := opened.2.1, table := opened.2.2 }

/-- The log paths behind `reload_workers`: those that were loaded, if any were. -/
def reloadedLogs (calls : ReloadCalls) (s : LoggedParent F) : LogConfig :=
  if calls.allocatesConfig then
    match reloaded calls s.parent with
    | .ok next => (settings next).loaded
    | .error _ => s.logs
  else s.logs

/-- A round of the loop of `rpsiod_server_run`. -/
def LoggedParent.step (s : LoggedParent F) (event : ParentEvent) : LoggedParent F where
  parent := s.parent.step event
  logger := s.logger
  logs :=
    match event with
    | .reload calls => reloadedLogs settings calls s
    | .exited _ _ => s.logs
  table := s.table

/-- A run of the loop. -/
def LoggedParent.run (s : LoggedParent F) (events : List ParentEvent) : LoggedParent F :=
  events.foldl (LoggedParent.step settings) s

/-- What a descriptor refers to, if it is one. -/
def fileAt (t : Table F) (fd : ℤ) : Option F := if 0 ≤ fd then t.file fd.toNat else none

/-- Where a line about each site goes. -/
def LoggedParent.destinations (s : LoggedParent F) (kind : LogKind) : List (Option F) :=
  s.logs.sites.map fun site => fileAt s.table (lineFd s.logger (some site) kind)

end server

/-! ### Where the lines belong -/

section destinations

variable {F : Type*} (fileOf : Bytes → F) (stderr : F)

/-- The file of a log: its own if it has one, or else this one. -/
def LogSetting.fileOr (setting : LogSetting) (other : F) : F :=
  if setting.enabled ∧ setting.path.bytes ≠ [] then fileOf setting.path.bytes else other

/-- The log of the server itself. -/
def LogSettings.ownFile (settings : LogSettings) (kind : LogKind) : F :=
  (settings.own kind).fileOr fileOf stderr

/-- The log of a site of these settings. -/
def LogSettings.siteFile (settings : LogSettings) (site : LogKind → LogSetting) (kind : LogKind) : F :=
  (site kind).fileOr fileOf (settings.ownFile fileOf stderr kind)

end destinations

/-! ### After a start -/

section started

variable {F : Type*} {fileOf : Bytes → F} {stderr : F}

/-- The log has a file of its own, and this descriptor refers to it; or neither. -/
def Refers (fileOf : Bytes → F) (t : Table F) (setting : LogSetting) (opened : Option ℕ) : Prop :=
  match opened with
  | some fd => (setting.enabled ∧ setting.path.bytes ≠ []) ∧ t.file fd = some (fileOf setting.path.bytes)
  | none => ¬ (setting.enabled ∧ setting.path.bytes ≠ [])

theorem Refers.keeps {t t' : Table F} {setting : LogSetting} {opened : Option ℕ}
    (h : Refers fileOf t setting opened) (hkeeps : t.Keeps t') : Refers fileOf t' setting opened := by
  cases opened with
  | none => exact h
  | some fd => exact ⟨h.1, hkeeps fd _ h.2⟩

theorem openEnabled_spec (log : LogPath) (t : Table F) :
    t.Keeps (openEnabled fileOf log t).2 ∧
      Refers fileOf (openEnabled fileOf log t).2 log.toLogSetting (openEnabled fileOf log t).1 := by
  unfold openEnabled openAppend
  split_ifs with henabled hpath
  · exact ⟨.refl t, fun hall => hall.2 hpath⟩
  · refine ⟨keeps_opened t _, ⟨henabled, hpath⟩, ?_⟩
    rw [file_opened, if_pos rfl]
  · exact ⟨.refl t, fun hall => henabled hall.1⟩

theorem openBoth_spec (logs : LogKind → LogPath) (t : Table F) :
    t.Keeps (openBoth fileOf logs t).2 ∧ ∀ kind,
      Refers fileOf (openBoth fileOf logs t).2 (logs kind).toLogSetting
        ((openBoth fileOf logs t).1 kind) := by
  obtain ⟨hkeeps, haccess⟩ := @openEnabled_spec F fileOf (logs .access) t
  obtain ⟨hkeeps', herror⟩ :=
    @openEnabled_spec F fileOf (logs .error) (openEnabled fileOf (logs .access) t).2
  refine ⟨hkeeps.trans hkeeps', fun kind => ?_⟩
  cases kind with
  | access => exact haccess.keeps hkeeps'
  | error => exact herror

theorem fileAt_natCast (t : Table F) (fd : ℕ) : fileAt t fd = t.file fd := by
  unfold fileAt
  rw [if_pos (Int.natCast_nonneg fd), Int.toNat_natCast]

theorem lineFd_of_open {logger : Logger} {logs : LogKind → LogPath} {kind : LogKind}
    (h : (logs kind).enabled = true ∧ 0 ≤ (logs kind).fd) :
    lineFd logger (some logs) kind = (logs kind).fd := by
  unfold lineFd
  dsimp only
  rw [if_pos]
  rw [Bool.and_eq_true, decide_eq_true_iff]
  exact h

theorem lineFd_of_not_open {logger : Logger} {logs : LogKind → LogPath} {kind : LogKind}
    (h : ¬ ((logs kind).enabled = true ∧ 0 ≤ (logs kind).fd)) :
    lineFd logger (some logs) kind = logger kind := by
  unfold lineFd
  dsimp only
  rw [if_neg]
  rw [Bool.and_eq_true, decide_eq_true_iff]
  exact h

theorem fd_withFd (setting : LogSetting) (opened : Option ℕ) :
    (setting.loaded.withFd opened).fd = (opened.map Nat.cast).getD (-1) := rfl

/-- Where a line about a site goes whose logs have been opened. -/
theorem fileAt_lineFd {t : Table F} {site : LogKind → LogSetting} {opened : LogKind → Option ℕ}
    {logger : Logger} {kind : LogKind} {own : F} (h : Refers fileOf t (site kind) (opened kind))
    (hown : fileAt t (logger kind) = some own) :
    fileAt t (lineFd logger (some fun kind => (site kind).loaded.withFd (opened kind)) kind) =
      some ((site kind).fileOr fileOf own) := by
  unfold LogSetting.fileOr
  cases hopened : opened kind with
  | none =>
      rw [hopened] at h
      have hnot : ¬ ((site kind).enabled = true ∧ (site kind).path.bytes ≠ []) := h
      rw [if_neg hnot, lineFd_of_not_open]
      · exact hown
      · rw [fd_withFd, hopened]
        rintro ⟨-, hnegative⟩
        exact absurd hnegative (by decide)
  | some fd =>
      rw [hopened] at h
      obtain ⟨hopen, hfile⟩ := h
      have hfd : ((site kind).loaded.withFd (opened kind)).fd = fd := by
        rw [fd_withFd, hopened]
        rfl
      rw [if_pos hopen, lineFd_of_open ⟨hopen.1, by rw [hfd]; exact Int.natCast_nonneg fd⟩, hfd,
        fileAt_natCast]
      exact hfile

/-- The loop over the sites. -/
theorem openSites_spec (sites : List (LogKind → LogSetting)) (t : Table F) :
    t.Keeps (openSites fileOf (sites.map fun site kind => (site kind).loaded) t).2 ∧
      ∀ (logger : Logger) (kind : LogKind) (own : F),
        fileAt (openSites fileOf (sites.map fun site kind => (site kind).loaded) t).2 (logger kind) =
          some own →
        (openSites fileOf (sites.map fun site kind => (site kind).loaded) t).1.map (fun site =>
            fileAt (openSites fileOf (sites.map fun site kind => (site kind).loaded) t).2
              (lineFd logger (some site) kind)) =
          sites.map fun site => some ((site kind).fileOr fileOf own) := by
  induction sites generalizing t with
  | nil => exact ⟨.refl t, fun _ _ _ _ => rfl⟩
  | cons site sites ih =>
      obtain ⟨hkeeps, hrefers⟩ := @openBoth_spec F fileOf (fun kind => (site kind).loaded) t
      obtain ⟨hkeeps', hsites⟩ := ih (openBoth fileOf (fun kind => (site kind).loaded) t).2
      refine ⟨hkeeps.trans hkeeps', fun logger kind own hown => ?_⟩
      have hhead := fileAt_lineFd ((hrefers kind).keeps hkeeps') hown
      have htail := hsites logger kind own hown
      exact List.cons_eq_cons.mpr ⟨hhead, htail⟩

variable {settings : ServerConfig → LogSettings}

/-- The logger of a server that has been started. -/
theorem logger_started (p : Parent) {t : Table F} (hstderr : t.file stderrFileno = some stderr)
    (kind : LogKind) :
    fileAt (startLogged fileOf settings p t).table ((startLogged fileOf settings p t).logger kind) =
      some ((settings p.cfg).ownFile fileOf stderr kind) := by
  obtain ⟨hkeeps, hrefers⟩ := @openBoth_spec F fileOf (settings p.cfg).loaded.own t
  obtain ⟨hkeeps', -⟩ := @openSites_spec F fileOf (settings p.cfg).sites
    (openBoth fileOf (settings p.cfg).loaded.own t).2
  have hrefers' := (hrefers kind).keeps hkeeps'
  have hkept := (hkeeps.trans hkeeps') _ _ hstderr
  unfold LogSettings.ownFile LogSetting.fileOr startLogged rpsiodLogOpen
  dsimp only
  rw [fileAt_natCast]
  cases hopened : (openBoth fileOf (settings p.cfg).loaded.own t).1 kind with
  | none =>
      rw [hopened] at hrefers'
      have hnot : ¬ (((settings p.cfg).own kind).enabled = true ∧
          ((settings p.cfg).own kind).path.bytes ≠ []) := hrefers'
      rw [if_neg hnot]
      exact hkept
  | some fd =>
      rw [hopened] at hrefers'
      obtain ⟨hopen, hfile⟩ := hrefers'
      exact hfile.trans (congrArg some (if_pos hopen).symm)

/-- **After a start every line goes where the configuration says.** -/
theorem destinations_started (p : Parent) {t : Table F}
    (hstderr : t.file stderrFileno = some stderr) (kind : LogKind) :
    (startLogged fileOf settings p t).destinations kind =
      (settings p.cfg).sites.map fun site =>
        some ((settings p.cfg).siteFile fileOf stderr site kind) := by
  obtain ⟨-, hsites⟩ := @openSites_spec F fileOf (settings p.cfg).sites
    (openBoth fileOf (settings p.cfg).loaded.own t).2
  exact hsites _ kind _ (logger_started p hstderr kind)

/-! ### After a reload -/

/-- Nothing in a run touches the logger and its descriptors. -/
theorem logger_kept_run (s : LoggedParent F) (events : List ParentEvent) :
    (s.run settings events).logger = s.logger ∧ (s.run settings events).table = s.table := by
  unfold LoggedParent.run
  induction events generalizing s with
  | nil => exact ⟨rfl, rfl⟩
  | cons event events ih =>
      obtain ⟨hlogger, htable⟩ := ih (s.step settings event)
      exact ⟨hlogger, htable⟩

/-- A reload that succeeds leaves the log paths of the configuration it has loaded. -/
theorem logs_of_reload {s : LoggedParent F} {calls : ReloadCalls}
    (h : (reloadWorkers calls s.parent).2 = 0) :
    (s.step settings (.reload calls)).logs =
      (settings (s.step settings (.reload calls)).parent.cfg).loaded := by
  show reloadedLogs settings calls s = (settings (reloadWorkers calls s.parent).1.cfg).loaded
  rcases reloadWorkers_cases calls s.parent with ⟨hreload, -⟩ | ⟨next, hconfig, hload, hreload⟩
  · rw [hreload] at h
    cases h
  · have hcfg : (reloadWorkers calls s.parent).1.cfg = next := by
      rw [hreload]
      rcases reloadWith_cases calls s.parent next with ⟨-, -, hcfg, -⟩ | ⟨-, -, hcfg, -⟩
      · exact hcfg
      · exact hcfg
    unfold reloadedLogs
    rw [hcfg, hconfig, if_pos rfl, hload]

/-- The log paths that are loaded are not open, so that every line goes to the logger. -/
theorem destinations_unopened {s : LoggedParent F} {loaded : LogSettings}
    (h : s.logs = loaded.loaded) (kind : LogKind) :
    s.destinations kind = loaded.sites.map fun _ => fileAt s.table (s.logger kind) := by
  unfold LoggedParent.destinations
  rw [h]
  unfold LogSettings.loaded
  dsimp only
  rw [List.map_map]
  apply List.map_congr_left
  intro site _
  rw [Function.comp_apply, lineFd_of_not_open]
  rintro ⟨-, hnegative⟩
  exact absurd hnegative (show ¬ (0 : ℤ) ≤ -1 by decide)

/-- **After a reload every line goes to the log that the first configuration has for itself.** -/
theorem destinations_run {p : Parent} {t : Table F} (hstderr : t.file stderrFileno = some stderr)
    (events : List ParentEvent) {calls : ReloadCalls}
    (h : (reloadWorkers calls ((startLogged fileOf settings p t).run settings events).parent).2 = 0)
    (kind : LogKind) :
    let s := ((startLogged fileOf settings p t).run settings events).step settings (.reload calls)
    s.destinations kind = (settings s.parent.cfg).sites.map fun _ =>
      some ((settings p.cfg).ownFile fileOf stderr kind) := by
  intro s
  obtain ⟨hlogger, htable⟩ :=
    @logger_kept_run _ settings (startLogged fileOf settings p t) events
  rw [← logger_started p hstderr kind, ← htable, ← hlogger]
  exact destinations_unopened (logs_of_reload h) kind

/-- Every line goes where it would go if the server had been started with this configuration. -/
def LikeRestart (fileOf : Bytes → F) (settings : ServerConfig → LogSettings) (stderr : F)
    (s : LoggedParent F) : Prop :=
  ∀ (p : Parent) (t : Table F), p.cfg = s.parent.cfg → t.file stderrFileno = some stderr →
    ∀ kind, s.destinations kind = (startLogged fileOf settings p t).destinations kind

/-- All lines about the sites of the second settings belong to the log that the first have for
themselves. -/
def OneLog (fileOf : Bytes → F) (stderr : F) (first next : LogSettings) : Prop :=
  ∀ kind, ∀ site ∈ next.sites, next.siteFile fileOf stderr site kind = first.ownFile fileOf stderr kind

/-- **Exactly when a reload is like a restart for logging**: in every run, the lines about the sites
of the new configuration must all belong to the log that the server was started with. -/
theorem reload_logs_iff {p : Parent} {t : Table F} (hstderr : t.file stderrFileno = some stderr)
    (events : List ParentEvent) {calls : ReloadCalls}
    (h : (reloadWorkers calls ((startLogged fileOf settings p t).run settings events).parent).2 = 0) :
    let s := ((startLogged fileOf settings p t).run settings events).step settings (.reload calls)
    LikeRestart fileOf settings stderr s ↔
      OneLog fileOf stderr (settings p.cfg) (settings s.parent.cfg) := by
  intro s
  have hreloaded := destinations_run hstderr events h
  constructor
  · intro hlike kind site hsite
    have hstarted := hlike s.parent ⟨[none, none, some stderr]⟩ rfl rfl kind
    rw [destinations_started s.parent rfl kind, hreloaded kind] at hstarted
    exact (Option.some.inj (List.map_inj_left.mp hstarted site hsite)).symm
  · intro hone p' t' hcfg hstderr' kind
    rw [destinations_started p' hstderr' kind, hcfg, hreloaded kind]
    apply List.map_congr_left
    intro site hsite
    rw [hone kind site hsite]

end started

/-! ### A site with a log of its own -/

/-- The logs of the server, and a site with an access log of its own or without. -/
def sampleLogs (siteLog : Bool) : LogSettings where
  own
    | .access => ⟨true, .lit "/var/log/rpsiod/access.log"⟩
    | .error => ⟨true, .lit "/var/log/rpsiod/error.log"⟩
  sites := [fun
    | .access => ⟨siteLog, .lit "/var/log/rpsiod/site.log"⟩
    | .error => ⟨false, .lit ""⟩]

/-- The files are loaded again as they are, and nothing fails. -/
def unchangedReload : ReloadCalls where
  allocatesConfig := true
  load := fun _ _ => .ok (maintainedConfig false)
  cpus := 4
  allocatesPids := true
  fork := fun i => some (pidAfter 200 i)

/-- A terminal for standard error, which is named here by an empty path. -/
def terminal : Table Bytes := ⟨[some [], some [], some []]⟩

/-- The server of a site, behind a reload. -/
def reloadedSample (siteLog : Bool) : LoggedParent Bytes :=
  ((startLogged id (fun _ => sampleLogs siteLog) servingParent terminal).run
    (fun _ => sampleLogs siteLog) []).step (fun _ => sampleLogs siteLog) (.reload unchangedReload)

theorem reload_logs_iff_sample :
    LikeRestart id (fun _ => sampleLogs false) [] (reloadedSample false) ↔
      OneLog id [] (sampleLogs false) (sampleLogs false) :=
  reload_logs_iff (p := servingParent) (t := terminal) rfl [] (by decide +kernel)

/-- **The trace of a reload without a change**: the access log of a site is open before, and behind
it the lines of the site go to that of the server. -/
theorem site_log_lost :
    (startLogged id (fun _ => sampleLogs true) servingParent terminal).destinations .access =
        [some (ascii "/var/log/rpsiod/site.log")] ∧
      (reloadWorkers unchangedReload servingParent).2 = 0 ∧
      (reloadedSample true).destinations .access = [some (ascii "/var/log/rpsiod/access.log")] ∧
      ¬ LikeRestart id (fun _ => sampleLogs true) [] (reloadedSample true) := by
  have hbefore : (startLogged id (fun _ => sampleLogs true) servingParent terminal).destinations
      .access = [some (ascii "/var/log/rpsiod/site.log")] := by decide +kernel
  have hbehind : (reloadedSample true).destinations .access =
      [some (ascii "/var/log/rpsiod/access.log")] := by decide +kernel
  refine ⟨hbefore, by decide +kernel, hbehind, fun hlike => ?_⟩
  have hsame := hlike servingParent terminal rfl rfl .access
  rw [hbehind, hbefore] at hsame
  exact absurd hsame (by decide)

end Rpsiod

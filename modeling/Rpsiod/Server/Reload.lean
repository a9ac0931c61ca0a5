import Rpsiod.Config.RouteTable

/-!
# Reloading the configuration (`reload_workers`)

The parent loads its configuration anew, forks workers with it and then stops the old ones.  It
forks a worker again when one has exited.  A worker is a process with the configuration it was
forked with.

* `reloadWorkers`: what the parent does, with what the system answers to its calls.
* `keepsParent_iff`: **exactly when a failed reload changes nothing**.
* `sameConfig_run`: over a run of such reloads, all workers have the parent's configuration.
-/

namespace Rpsiod

/-! ### The parent and its workers -/

/-- `rpsiod_open_file_cache_entry`, as far as closing it goes. -/
structure CachedFile where
  fd : ℤ
  valid : Bool

/-- The open-file cache of a site. -/
structure SiteCache where
  entries : List CachedFile
  count : ℕ

/-- `rpsiod_config` as the parent has it. -/
structure ServerConfig where
  serverFile : LineText 512
  loadedSitesFile : LineText 512
  workersAuto : Bool
  workers : ℤ
  reusePort : Bool
  config : Config
  caches : List SiteCache

/-- A process id. -/
abbrev Pid := {pid : ℤ // 0 < pid}

/-- A process, with the configuration it was forked with. -/
structure Worker where
  pid : Pid
  cfg : ServerConfig

/-- The parent: its configuration, its array of process ids, and the workers there are. -/
structure Parent where
  cfg : ServerConfig
  pids : List ℤ
  workers : ℕ
  running : List Worker
  counted : pids.length = workers

/-- What the system answers to the calls of `reload_workers`. -/
structure ReloadCalls where
  /-- The first `calloc`. -/
  allocatesConfig : Bool
  /-- `rpsiod_config_load`, on the two files as they are now. -/
  load : Bytes → Option Bytes → Except Bytes ServerConfig
  /-- `sysconf(_SC_NPROCESSORS_ONLN)`. -/
  cpus : ℤ
  /-- The second `calloc`. -/
  allocatesPids : Bool
  /-- `fork` for each worker. -/
  fork : ℕ → Option Pid

/-! ### `reload_workers` -/

/-- `resolved_worker_count`. -/
def resolvedWorkerCount (cpus : ℤ) (cfg : ServerConfig) : ℕ :=
  let workers := if cfg.workersAuto then (if 0 < cpus then cpus else 1) else cfg.workers
  let workers := if workers < 1 then 1 else workers
  let workers := if 64 < workers then 64 else workers
  (if 1 < workers && !cfg.reusePort then 1 else workers).toNat

/-- The loop body of `rpsiod_config_close_site_caches`. -/
def SiteCache.close (cache : SiteCache) : SiteCache where
  entries := cache.entries.map fun entry => ⟨if 0 ≤ entry.fd then -1 else entry.fd, false⟩
  count := 0

/-- `rpsiod_config_close_site_caches`. -/
def closeSiteCaches (cfg : ServerConfig) : ServerConfig :=
  { cfg with caches := cfg.caches.map SiteCache.close }

/-- `start_worker` in the parent: the process id, or -1. -/
def startedPid (fork : Option Pid) : ℤ := (fork.map Subtype.val).getD (-1)

/-- The worker that `start_worker` starts. -/
def startedWorker (cfg : ServerConfig) (fork : Option Pid) : List Worker :=
  (fork.map fun pid => ⟨pid, cfg⟩).toList

/-- What `spawn_workers` leaves: the array, the workers it has started, and what it returns. -/
structure Spawned where
  pids : List ℤ
  started : List Worker
  rc : ℤ

/-- `spawn_workers`, on an array of zeros: `left` workers from number `i` on. -/
def spawnWorkers (cfg : ServerConfig) (fork : ℕ → Option Pid) : ℕ → ℕ → Spawned
  | _, 0 => ⟨[], [], 0⟩
  | i, left + 1 =>
      match fork i with
      | none => ⟨-1 :: List.replicate left 0, [], -1⟩
      | some pid =>
          let rest := spawnWorkers cfg fork (i + 1) left
          ⟨pid.val :: rest.pids, ⟨pid, cfg⟩ :: rest.started, rest.rc⟩

/-- `stop_workers` and `wait_workers`: these processes have ended. -/
def endWorkers (pids : List ℤ) (running : List Worker) : List Worker :=
  running.filter fun worker => worker.pid.val ∉ pids

theorem length_spawnWorkers (cfg : ServerConfig) (fork : ℕ → Option Pid) (i left : ℕ) :
    (spawnWorkers cfg fork i left).pids.length = left := by
  induction left generalizing i with
  | zero => rfl
  | succ left ih =>
      unfold spawnWorkers
      cases fork i with
      | none => simp
      | some pid =>
          dsimp only
          rw [List.length_cons, ih]

/-- `reload_workers` behind the load: the configuration is overwritten before the last calls that can
fail. -/
def reloadWith (calls : ReloadCalls) (p : Parent) (next : ServerConfig) : Parent × ℤ :=
  let p := { p with cfg := closeSiteCaches p.cfg }
  let p := { p with cfg := next }
  let nextWorkers := resolvedWorkerCount calls.cpus p.cfg
  if !calls.allocatesPids then (p, -1)
  else
    let spawned := spawnWorkers p.cfg calls.fork 0 nextWorkers
    let running := p.running ++ spawned.started
    if spawned.rc < 0 then ({ p with running := endWorkers spawned.pids running }, -1)
    else
      ({ cfg := p.cfg
         pids := spawned.pids
         workers := nextWorkers
         running := endWorkers p.pids running
         counted := length_spawnWorkers p.cfg calls.fork 0 nextWorkers }, 0)

/-- What `rpsiod_config_load` gives in `reload_workers`. -/
def reloaded (calls : ReloadCalls) (p : Parent) : Except Bytes ServerConfig :=
  calls.load p.cfg.serverFile.bytes
    (if p.cfg.loadedSitesFile.bytes ≠ [] then some p.cfg.loadedSitesFile.bytes else none)

/-- `reload_workers`. -/
def reloadWorkers (calls : ReloadCalls) (p : Parent) : Parent × ℤ :=
  if !calls.allocatesConfig then (p, -1)
  else
    match reloaded calls p with
    | .error _ => (p, -1)
    | .ok next => reloadWith calls p next

/-! ### The loop of the parent -/

theorem counted_set (p : Parent) (i : ℕ) (pid : ℤ) : (p.pids.set i pid).length = p.workers := by
  rw [List.length_set, p.counted]

/-- A worker has exited, and another one is started in its place: the loop body of
`rpsiod_server_run` behind `waitpid`. -/
def restartWorker (p : Parent) (dead : Pid) (fork : Option Pid) : Parent :=
  let running := p.running.filter fun worker => worker.pid ≠ dead
  match p.pids.findIdx? (· = dead.val) with
  | none => { p with running := running }
  | some i =>
      { p with
        pids := p.pids.set i (startedPid fork)
        running := running ++ startedWorker p.cfg fork
        counted := counted_set p i (startedPid fork) }

/-- What happens to the parent. -/
inductive ParentEvent where
  | reload (calls : ReloadCalls)
  | exited (dead : Pid) (fork : Option Pid)

/-- A round of the loop of `rpsiod_server_run`. -/
def Parent.step (p : Parent) : ParentEvent → Parent
  | .reload calls => (reloadWorkers calls p).1
  | .exited dead fork => restartWorker p dead fork

/-- A run of the loop. -/
def Parent.run (p : Parent) (events : List ParentEvent) : Parent := events.foldl Parent.step p

/-- Every worker has the configuration of the parent, and its process id is in the array. -/
def SameConfig (p : Parent) : Prop :=
  ∀ worker ∈ p.running, worker.cfg = p.cfg ∧ worker.pid.val ∈ p.pids

/-- A failed reload changes nothing in the parent, so that a worker that is started later has the
same configuration as the others. -/
def KeepsParent (calls : ReloadCalls) (p : Parent) : Prop :=
  (reloadWorkers calls p).2 = -1 →
    (reloadWorkers calls p).1.cfg = p.cfg ∧ (reloadWorkers calls p).1.pids = p.pids ∧
      (reloadWorkers calls p).1.workers = p.workers ∧
      (SameConfig p → ∀ dead fork, SameConfig (restartWorker (reloadWorkers calls p).1 dead fork))

/-- Behind the load, nothing fails. -/
def Completes (calls : ReloadCalls) (next : ServerConfig) : Prop :=
  calls.allocatesPids = true ∧
    ∀ i < resolvedWorkerCount calls.cpus next, (calls.fork i).isSome = true

/-- If the configuration is loaded, then it is the one there is, or nothing fails behind the load. -/
def Harmless (calls : ReloadCalls) (p : Parent) : Prop :=
  calls.allocatesConfig = true → ∀ next, reloaded calls p = .ok next →
    next = p.cfg ∨ Completes calls next

/-- Every reload of a run is harmless where it happens. -/
def HarmlessRun : Parent → List ParentEvent → Prop
  | _, [] => True
  | p, event :: events =>
      (∀ calls, event = .reload calls → Harmless calls p) ∧ HarmlessRun (p.step event) events

/-! ### Forking -/

/-- `spawn_workers` returns 0 if every `fork` succeeds, and -1 otherwise. -/
theorem spawnWorkers_rc (cfg : ServerConfig) (fork : ℕ → Option Pid) (i left : ℕ) :
    ((spawnWorkers cfg fork i left).rc = 0 ∧
      ∀ j, i ≤ j → j < i + left → (fork j).isSome = true) ∨
    ((spawnWorkers cfg fork i left).rc = -1 ∧
      ∃ j, i ≤ j ∧ j < i + left ∧ (fork j).isSome = false) := by
  induction left generalizing i with
  | zero =>
      left
      refine ⟨rfl, ?_⟩
      intro j hle hlt
      omega
  | succ left ih =>
      unfold spawnWorkers
      cases hfork : fork i with
      | none =>
          right
          refine ⟨rfl, i, le_rfl, by omega, ?_⟩
          rw [hfork]
          rfl
      | some pid =>
          dsimp only
          rcases ih (i + 1) with ⟨hrc, hall⟩ | ⟨hrc, j, hle, hlt, hnone⟩
          · left
            refine ⟨hrc, ?_⟩
            intro j hle hlt
            rcases Nat.eq_or_lt_of_le hle with rfl | hlater
            · rw [hfork]
              rfl
            · exact hall j hlater (by omega)
          · right
            exact ⟨hrc, j, by omega, by omega, hnone⟩

/-- What `spawn_workers` has started. -/
theorem mem_spawnWorkers {cfg : ServerConfig} {fork : ℕ → Option Pid} {i left : ℕ} {worker : Worker}
    (h : worker ∈ (spawnWorkers cfg fork i left).started) :
    worker.cfg = cfg ∧ worker.pid.val ∈ (spawnWorkers cfg fork i left).pids := by
  induction left generalizing i with
  | zero => exact absurd h List.not_mem_nil
  | succ left ih =>
      unfold spawnWorkers at h ⊢
      cases hfork : fork i with
      | none =>
          rw [hfork] at h
          exact absurd h List.not_mem_nil
      | some pid =>
          rw [hfork] at h
          dsimp only at h ⊢
          rcases List.mem_cons.mp h with rfl | h
          · exact ⟨rfl, List.mem_cons_self⟩
          · obtain ⟨hcfg, hpid⟩ := ih h
            exact ⟨hcfg, List.mem_cons_of_mem _ hpid⟩

theorem mem_endWorkers {pids : List ℤ} {running : List Worker} {worker : Worker} :
    worker ∈ endWorkers pids running ↔ worker ∈ running ∧ worker.pid.val ∉ pids := by
  unfold endWorkers
  rw [List.mem_filter, decide_eq_true_iff]

/-! ### What a reload leaves -/

variable {calls : ReloadCalls} {p : Parent} {next : ServerConfig}

/-- What becomes of a reload behind the load. -/
theorem reloadWith_cases (calls : ReloadCalls) (p : Parent) (next : ServerConfig) :
    (Completes calls next ∧ (reloadWith calls p next).2 = 0 ∧
      (reloadWith calls p next).1.cfg = next ∧
      ∀ worker ∈ (reloadWith calls p next).1.running,
        (worker ∈ p.running ∧ worker.pid.val ∉ p.pids) ∨
        (worker.cfg = next ∧ worker.pid.val ∈ (reloadWith calls p next).1.pids)) ∨
    (¬ Completes calls next ∧ (reloadWith calls p next).2 = -1 ∧
      (reloadWith calls p next).1.cfg = next ∧ (reloadWith calls p next).1.pids = p.pids ∧
      (reloadWith calls p next).1.workers = p.workers ∧
      ∀ worker ∈ (reloadWith calls p next).1.running, worker ∈ p.running) := by
  unfold Completes reloadWith
  dsimp only
  set count := resolvedWorkerCount calls.cpus next
  cases hpids : calls.allocatesPids with
  | false =>
      right
      refine ⟨?_, rfl, rfl, rfl, rfl, fun worker h => h⟩
      rintro ⟨hfalse, -⟩
      cases hfalse
  | true =>
      rw [Bool.not_true, if_neg Bool.false_ne_true]
      rcases spawnWorkers_rc next calls.fork 0 count with ⟨hrc, hall⟩ | ⟨hrc, j, -, hlt, hnone⟩
      · left
        rw [hrc, if_neg (lt_irrefl 0)]
        refine ⟨⟨rfl, fun i hi => hall i (Nat.zero_le i) (by omega)⟩, rfl, rfl, ?_⟩
        intro worker hworker
        obtain ⟨hrunning, hended⟩ := mem_endWorkers.mp hworker
        rcases List.mem_append.mp hrunning with hold | hnew
        · exact Or.inl ⟨hold, hended⟩
        · exact Or.inr (mem_spawnWorkers hnew)
      · right
        rw [hrc, if_pos (by decide)]
        refine ⟨?_, rfl, rfl, rfl, rfl, ?_⟩
        · rintro ⟨-, hall⟩
          rw [hall j (by omega)] at hnone
          cases hnone
        · intro worker hworker
          obtain ⟨hrunning, hended⟩ := mem_endWorkers.mp hworker
          rcases List.mem_append.mp hrunning with hold | hnew
          · exact hold
          · exact absurd (mem_spawnWorkers hnew).2 hended

/-- What becomes of a reload: it has not got to the overwriting, or goes on behind it. -/
theorem reloadWorkers_cases (calls : ReloadCalls) (p : Parent) :
    (reloadWorkers calls p = (p, -1) ∧ Harmless calls p) ∨
    ∃ next, calls.allocatesConfig = true ∧ reloaded calls p = .ok next ∧
      reloadWorkers calls p = reloadWith calls p next := by
  unfold reloadWorkers Harmless
  cases hconfig : calls.allocatesConfig with
  | false =>
      left
      refine ⟨rfl, ?_⟩
      intro hfalse
      cases hfalse
  | true =>
      rw [Bool.not_true, if_neg Bool.false_ne_true]
      cases hload : reloaded calls p with
      | error text =>
          left
          refine ⟨rfl, ?_⟩
          intro _ next hok
          cases hok
      | ok next =>
          right
          exact ⟨next, rfl, rfl, rfl⟩

/-! ### The workers -/

/-- A worker that is started later has the configuration of the parent. -/
theorem sameConfig_restart {dead : Pid} {fork : Option Pid} (h : SameConfig p) :
    SameConfig (restartWorker p dead fork) := by
  have hkept : ∀ worker ∈ p.running.filter fun worker => worker.pid ≠ dead,
      worker.cfg = p.cfg ∧ worker.pid.val ∈ p.pids ∧ worker.pid.val ≠ dead.val := by
    intro worker hworker
    obtain ⟨hmem, hne⟩ := List.mem_filter.mp hworker
    obtain ⟨hcfg, hpid⟩ := h worker hmem
    exact ⟨hcfg, hpid, fun heq => of_decide_eq_true hne (Subtype.ext heq)⟩
  unfold restartWorker
  dsimp only
  cases hfind : p.pids.findIdx? (· = dead.val) with
  | none =>
      intro worker hworker
      obtain ⟨hcfg, hpid, -⟩ := hkept worker hworker
      exact ⟨hcfg, hpid⟩
  | some i =>
      obtain ⟨hi, hdead, -⟩ := List.findIdx?_eq_some_iff_getElem.mp hfind
      intro worker hworker
      dsimp only at hworker ⊢
      rcases List.mem_append.mp hworker with hold | hnew
      · obtain ⟨hcfg, hpid, hne⟩ := hkept worker hold
        refine ⟨hcfg, ?_⟩
        obtain ⟨j, hj, hget⟩ := List.mem_iff_getElem.mp hpid
        have hij : i ≠ j := by
          rintro rfl
          rw [hget] at hdead
          exact hne (of_decide_eq_true hdead)
        refine List.mem_iff_getElem.mpr ⟨j, by rwa [List.length_set], ?_⟩
        rw [List.getElem_set_of_ne hij]
        exact hget
      · unfold startedWorker at hnew
        cases fork with
        | none => exact absurd hnew List.not_mem_nil
        | some pid =>
            obtain rfl := List.mem_singleton.mp hnew
            exact ⟨rfl, List.mem_set hi _⟩

/-- A harmless reload keeps the configurations together. -/
theorem sameConfig_reload (h : SameConfig p) (hharmless : Harmless calls p) :
    SameConfig (reloadWorkers calls p).1 := by
  rcases reloadWorkers_cases calls p with ⟨hreload, -⟩ | ⟨next, hconfig, hload, hreload⟩
  · rw [hreload]
    exact h
  · rw [hreload]
    rcases reloadWith_cases calls p next with ⟨-, -, hcfg, hrunning⟩ |
      ⟨hfails, -, hcfg, hpids, -, hrunning⟩
    · intro worker hworker
      rcases hrunning worker hworker with ⟨hold, hended⟩ | ⟨hnew, hpid⟩
      · exact absurd (h worker hold).2 hended
      · exact ⟨hnew.trans hcfg.symm, hpid⟩
    · have hsame : next = p.cfg := (hharmless hconfig next hload).resolve_right hfails
      intro worker hworker
      rw [hcfg, hpids, hsame]
      exact h worker (hrunning worker hworker)

/-- **Over a run of harmless reloads, all workers have the parent's configuration.** -/
theorem sameConfig_run {events : List ParentEvent} (h : SameConfig p) (hrun : HarmlessRun p events) :
    SameConfig (p.run events) := by
  induction events generalizing p with
  | nil => exact h
  | cons event events ih =>
      obtain ⟨hharmless, hrest⟩ := hrun
      refine ih ?_ hrest
      cases event with
      | reload calls => exact sameConfig_reload h (hharmless calls rfl)
      | exited dead fork => exact sameConfig_restart h

/-- The parent before its loop: `spawn_workers` in `rpsiod_server_run`. -/
def startParent (cpus : ℤ) (fork : ℕ → Option Pid) (cfg : ServerConfig) : Parent where
  cfg := cfg
  pids := (spawnWorkers cfg fork 0 (resolvedWorkerCount cpus cfg)).pids
  workers := resolvedWorkerCount cpus cfg
  running := (spawnWorkers cfg fork 0 (resolvedWorkerCount cpus cfg)).started
  counted := length_spawnWorkers cfg fork 0 (resolvedWorkerCount cpus cfg)

theorem sameConfig_start (cpus : ℤ) (fork : ℕ → Option Pid) (cfg : ServerConfig) :
    SameConfig (startParent cpus fork cfg) :=
  fun _ h => mem_spawnWorkers h

/-! ### A fork that fails -/

/-- Two workers for a site, which is in maintenance or not. -/
def maintainedConfig (maintenance : Bool) : ServerConfig where
  serverFile := .lit "/etc/rpsiod/server.yml"
  loadedSitesFile := .lit "/etc/rpsiod/sites.yml"
  workersAuto := false
  workers := 2
  reusePort := true
  config := Config.ofSites [{ domains := [.lit "example.org"], maintenanceEnabled := maintenance }]
  caches := []

theorem pid_pos (first i : ℕ) : (0 : ℤ) < first + i + 1 := by
  omega

/-- Process ids behind this one. -/
def pidAfter (first i : ℕ) : Pid := ⟨first + i + 1, pid_pos first i⟩

/-- Two workers that serve the site. -/
def servingParent : Parent := startParent 4 (fun i => some (pidAfter 100 i)) (maintainedConfig false)

/-- The file has been changed, and the second `fork` fails. -/
def failingFork : ReloadCalls where
  allocatesConfig := true
  load := fun _ _ => .ok (maintainedConfig true)
  cpus := 4
  allocatesPids := true
  fork := fun i => if i = 0 then some (pidAfter 200 0) else none

end Rpsiod

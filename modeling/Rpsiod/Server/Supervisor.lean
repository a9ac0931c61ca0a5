import Mathlib.Data.List.Perm.Basic
import Rpsiod.Lib.EventBatch
import Rpsiod.Server.Reload

/-!
# The processes of a server (`rpsiod_server_run`)

The parent keeps the process ids of its workers in an array: positive ones, and -1 where `fork` has
failed.  It sends signals to what is in the array and waits for it.  A process that is not in the
array is never stopped, and a number in the array that is not a child would stop a stranger.

* `resolvedWorkerCount_mem`: there are between 1 and 64 workers.
* `Supervised`: the positive numbers in the array are the children.
* `supervised_reload`, `supervised_restart`: what one round of the loop keeps.
* `serverRun_supervised`: **over every run**, the children are those of the array, signals are sent
  to children only, and no child is left at the end.
-/

namespace Rpsiod

open EventBatch

/-! ### The code -/

/-- `stop_workers`: the processes that get SIGTERM.  `wait_workers` waits for the same ones. -/
def stopWorkers (pids : List ℤ) : List ℤ := pids.filter fun pid => 0 < pid

/-- The workers that `reload_workers` starts. -/
def reloadStarted (calls : ReloadCalls) (p : Parent) : List Worker :=
  if !calls.allocatesConfig then []
  else
    match reloaded calls p with
    | .error _ => []
    | .ok next =>
        if !calls.allocatesPids then []
        else (spawnWorkers next calls.fork 0 (resolvedWorkerCount calls.cpus next)).started

/-- The processes that `reload_workers` stops: the new ones if it fails, the old ones otherwise. -/
def reloadStopped (calls : ReloadCalls) (p : Parent) : List ℤ :=
  if !calls.allocatesConfig then []
  else
    match reloaded calls p with
    | .error _ => []
    | .ok next =>
        if !calls.allocatesPids then []
        else
          let spawned := spawnWorkers next calls.fork 0 (resolvedWorkerCount calls.cpus next)
          stopWorkers (if spawned.rc < 0 then spawned.pids else p.pids)

/-- What the system answers to `rpsiod_server_run` with more than one worker, and what happens until
the parent is to stop. -/
structure ServerCalls where
  cpus : ℤ
  fork : ℕ → Option Pid
  events : List ParentEvent

/-- What the parent starts with, and whether all its workers have been started. -/
def spawnedAtStart (calls : ServerCalls) (cfg : ServerConfig) : Spawned :=
  spawnWorkers cfg calls.fork 0 (resolvedWorkerCount calls.cpus cfg)

/-- `rpsiod_server_run` up to the end of its loop, which is not entered if a `fork` has failed. -/
def serverLoop (calls : ServerCalls) (cfg : ServerConfig) : Parent :=
  let p := startParent calls.cpus calls.fork cfg
  if (spawnedAtStart calls cfg).rc < 0 then p else p.run calls.events

/-- `rpsiod_server_run`: the children that are left. -/
def serverRun (calls : ServerCalls) (cfg : ServerConfig) : List Worker :=
  let p := serverLoop calls cfg
  endWorkers p.pids p.running

/-! ### The number of workers -/

/-- **Whatever is configured**, and whatever the system says about its processors. -/
theorem resolvedWorkerCount_mem (cpus : ℤ) (cfg : ServerConfig) :
    1 ≤ resolvedWorkerCount cpus cfg ∧ resolvedWorkerCount cpus cfg ≤ 64 := by
  unfold resolvedWorkerCount
  dsimp only
  generalize (if cfg.workersAuto then (if 0 < cpus then cpus else 1) else cfg.workers) = asked
  split_ifs
  all_goals omega

/-! ### The children and the array -/

/-- The process ids of these workers. -/
def pidsOf (running : List Worker) : List ℤ := running.map fun worker => worker.pid.val

/-- The positive numbers in the array are the children that the parent has not waited for, each
once. -/
structure Supervised (p : Parent) : Prop where
  distinct : (pidsOf p.running).Nodup
  listed : (stopWorkers p.pids).Perm (pidsOf p.running)

variable {p : Parent}

theorem mem_stopWorkers {pids : List ℤ} {pid : ℤ} :
    pid ∈ stopWorkers pids ↔ pid ∈ pids ∧ 0 < pid := by
  simp [stopWorkers]

theorem pos_of_mem_pidsOf {running : List Worker} {pid : ℤ} (h : pid ∈ pidsOf running) :
    0 < pid := by
  obtain ⟨worker, -, rfl⟩ := List.mem_map.mp h
  exact worker.pid.property

/-- A child, by its number in the array. -/
theorem Supervised.mem_iff (h : Supervised p) {pid : ℤ} (hpos : 0 < pid) :
    pid ∈ p.pids ↔ pid ∈ pidsOf p.running := by
  rw [← h.listed.mem_iff, mem_stopWorkers]
  simp [hpos]

/-- A slot of the array without a child is one in which `fork` has failed. -/
theorem Supervised.length_add (h : Supervised p) :
    p.running.length + (p.pids.filter fun pid => ¬ 0 < pid).length = p.workers := by
  have hchildren : p.running.length = (stopWorkers p.pids).length := by
    rw [h.listed.length_eq, pidsOf, List.length_map]
  have hparts := List.length_eq_length_filter_add (l := p.pids) fun pid => decide (0 < pid)
  rw [p.counted] at hparts
  have hslots : (fun pid : ℤ => decide ¬ 0 < pid) = fun pid => !decide (0 < pid) := by
    funext pid
    exact decide_not
  rw [hchildren, hslots, hparts]
  rfl

/-! ### Forking -/

/-- What `fork` answers to this many calls. -/
def forkedPids (fork : ℕ → Option Pid) (i left : ℕ) : List ℤ :=
  (List.range' i left).filterMap fun j => (fork j).map Subtype.val

variable {cfg : ServerConfig} {fork : ℕ → Option Pid} {i left : ℕ}

/-- The array has the workers that have been started. -/
theorem stopWorkers_spawnWorkers (cfg : ServerConfig) (fork : ℕ → Option Pid) (i left : ℕ) :
    stopWorkers (spawnWorkers cfg fork i left).pids =
      pidsOf (spawnWorkers cfg fork i left).started := by
  induction left generalizing i with
  | zero => rfl
  | succ left ih =>
      unfold spawnWorkers
      cases fork i with
      | none => simp [stopWorkers, pidsOf]
      | some pid =>
          have hrest := ih (i + 1)
          unfold stopWorkers pidsOf at hrest ⊢
          simp [pid.property, hrest]

/-- They are among those that `fork` has given. -/
theorem started_sublist (cfg : ServerConfig) (fork : ℕ → Option Pid) (i left : ℕ) :
    (pidsOf (spawnWorkers cfg fork i left).started).Sublist (forkedPids fork i left) := by
  induction left generalizing i with
  | zero => exact List.Sublist.refl _
  | succ left ih =>
      unfold spawnWorkers forkedPids
      rw [List.range'_succ, List.filterMap_cons]
      cases fork i with
      | none => exact List.nil_sublist _
      | some pid => exact (ih (i + 1)).cons_cons _

/-- New processes have numbers that no child has. -/
def ForksNew (fork : ℕ → Option Pid) (count : ℕ) (running : List Worker) : Prop :=
  (pidsOf running ++ forkedPids fork 0 count).Nodup

instance (fork : ℕ → Option Pid) (count : ℕ) (running : List Worker) :
    Decidable (ForksNew fork count running) := inferInstanceAs (Decidable (List.Nodup _))

theorem ForksNew.started {count : ℕ} {running : List Worker} (h : ForksNew fork count running)
    (cfg : ServerConfig) :
    (pidsOf running ++ pidsOf (spawnWorkers cfg fork 0 count).started).Nodup :=
  (List.Sublist.append_left (started_sublist cfg fork 0 count) _).nodup h

/-! ### Ending processes -/

theorem pidsOf_append (as bs : List Worker) : pidsOf (as ++ bs) = pidsOf as ++ pidsOf bs :=
  List.map_append

theorem endWorkers_append (pids : List ℤ) (as bs : List Worker) :
    endWorkers pids (as ++ bs) = endWorkers pids as ++ endWorkers pids bs :=
  List.filter_append as bs

/-- All of these are ended. -/
theorem endWorkers_eq_nil {pids : List ℤ} {ended : List Worker}
    (h : ∀ pid ∈ pidsOf ended, pid ∈ pids) : endWorkers pids ended = [] := by
  apply List.filter_eq_nil_iff.mpr
  intro worker hworker
  simpa using h _ (List.mem_map_of_mem hworker)

/-- None of these is ended. -/
theorem endWorkers_eq_self {pids : List ℤ} {kept : List Worker}
    (h : ∀ pid ∈ pidsOf kept, pid ∉ pids) : endWorkers pids kept = kept := by
  apply List.filter_eq_self.mpr
  intro worker hworker
  simpa using h _ (List.mem_map_of_mem hworker)

/-- What has been started is stopped again, and nothing else. -/
theorem end_started {spawned : Spawned} {running : List Worker}
    (hstarted : stopWorkers spawned.pids = pidsOf spawned.started)
    (hnodup : (pidsOf running ++ pidsOf spawned.started).Nodup) :
    endWorkers spawned.pids (running ++ spawned.started) = running := by
  have hkept : ∀ pid ∈ pidsOf running, pid ∉ spawned.pids := by
    intro pid hpid hmem
    have hnew := mem_stopWorkers.mpr ⟨hmem, pos_of_mem_pidsOf hpid⟩
    rw [hstarted] at hnew
    exact List.disjoint_of_nodup_append hnodup hpid hnew
  have hended : ∀ pid ∈ pidsOf spawned.started, pid ∈ spawned.pids := by
    intro pid hpid
    rw [← hstarted] at hpid
    exact (mem_stopWorkers.mp hpid).1
  rw [endWorkers_append, endWorkers_eq_self hkept, endWorkers_eq_nil hended, List.append_nil]

/-- The children of the array are stopped, and nothing else. -/
theorem Supervised.end_running (h : Supervised p) {started : List Worker}
    (hnodup : (pidsOf p.running ++ pidsOf started).Nodup) :
    endWorkers p.pids (p.running ++ started) = started := by
  have hended : ∀ pid ∈ pidsOf p.running, pid ∈ p.pids := by
    intro pid hpid
    exact (h.mem_iff (pos_of_mem_pidsOf hpid)).mpr hpid
  have hkept : ∀ pid ∈ pidsOf started, pid ∉ p.pids := by
    intro pid hpid hmem
    exact List.disjoint_of_nodup_append hnodup ((h.mem_iff (pos_of_mem_pidsOf hpid)).mp hmem) hpid
  rw [endWorkers_append, endWorkers_eq_nil hended, endWorkers_eq_self hkept, List.nil_append]

/-! ### A round -/

/-- What the system can answer: `fork` gives new numbers, and `waitpid` a child. -/
def Parent.Possible (p : Parent) : ParentEvent → Prop
  | .reload calls => Behind (reloaded calls p).toOption fun next =>
      ForksNew calls.fork (resolvedWorkerCount calls.cpus next) p.running
  | .exited dead fork => dead.val ∈ pidsOf p.running ∧
      Behind fork fun pid => pid = dead ∨ pid.val ∉ pidsOf p.running

instance (p : Parent) : (event : ParentEvent) → Decidable (p.Possible event)
  | .reload calls => inferInstanceAs (Decidable (Behind (reloaded calls p).toOption fun next =>
      ForksNew calls.fork (resolvedWorkerCount calls.cpus next) p.running))
  | .exited dead fork => inferInstanceAs (Decidable (dead.val ∈ pidsOf p.running ∧
      Behind fork fun pid => pid = dead ∨ pid.val ∉ pidsOf p.running))

/-- The processes that get SIGTERM in a round. -/
def Parent.stops (p : Parent) : ParentEvent → List ℤ
  | .reload calls => reloadStopped calls p
  | .exited _ _ => []

/-- The children there are when they get it. -/
def Parent.children (p : Parent) : ParentEvent → List Worker
  | .reload calls => p.running ++ reloadStarted calls p
  | .exited _ _ => p.running

/-- **A reload.**  New workers are all stopped again, or all old ones are stopped. -/
theorem supervised_reload {calls : ReloadCalls} (h : Supervised p)
    (hpossible : p.Possible (.reload calls)) :
    Supervised (reloadWorkers calls p).1 ∧
      ∀ pid ∈ reloadStopped calls p, pid ∈ pidsOf (p.running ++ reloadStarted calls p) := by
  unfold reloadWorkers reloadStopped reloadStarted
  cases hconfig : calls.allocatesConfig with
  | false => exact ⟨h, fun _ hpid => absurd hpid List.not_mem_nil⟩
  | true =>
      simp only [Bool.not_true, if_neg Bool.false_ne_true]
      cases hload : reloaded calls p with
      | error text => exact ⟨h, fun _ hpid => absurd hpid List.not_mem_nil⟩
      | ok next =>
          unfold reloadWith
          dsimp only
          cases hpids : calls.allocatesPids with
          | false => exact ⟨⟨h.distinct, h.listed⟩, fun _ hpid => absurd hpid List.not_mem_nil⟩
          | true =>
              simp only [Bool.not_true, if_neg Bool.false_ne_true]
              have hnodup := (hpossible next (by rw [hload]; rfl)).started next
              have hstarted :=
                stopWorkers_spawnWorkers next calls.fork 0 (resolvedWorkerCount calls.cpus next)
              set spawned := spawnWorkers next calls.fork 0 (resolvedWorkerCount calls.cpus next)
              rw [pidsOf_append]
              by_cases hrc : spawned.rc < 0
              · -- the new workers are stopped
                rw [if_pos hrc, if_pos hrc, end_started hstarted hnodup, hstarted]
                exact ⟨⟨h.distinct, h.listed⟩, fun _ hpid => List.mem_append_right _ hpid⟩
              · -- the old workers are stopped
                rw [if_neg hrc, if_neg hrc, h.end_running hnodup]
                refine ⟨⟨hnodup.of_append_right, ?_⟩, fun _ hpid => ?_⟩
                · rw [hstarted]
                · exact List.mem_append_left _ (h.listed.mem_iff.mp hpid)

theorem stopWorkers_startedPid (cfg : ServerConfig) (fork : Option Pid) :
    stopWorkers [startedPid fork] = pidsOf (startedWorker cfg fork) := by
  cases fork with
  | none => rfl
  | some pid => simp [stopWorkers, startedPid, startedWorker, pidsOf, pid.property]

/-- **A worker that has exited** gives its slot to another one. -/
theorem supervised_restart {dead : Pid} {fork : Option Pid} (h : Supervised p)
    (hpossible : p.Possible (.exited dead fork)) : Supervised (restartWorker p dead fork) := by
  obtain ⟨hdead, hnew⟩ := hpossible
  have hslot : dead.val ∈ p.pids := (h.mem_iff dead.property).mpr hdead
  set others := p.running.filter fun worker => worker.pid ≠ dead with hothers
  have hpidsOthers : pidsOf others = (pidsOf p.running).erase dead.val := by
    rw [h.distinct.erase_eq_filter, hothers, pidsOf, pidsOf, List.filter_map]
    congr 1
    apply List.filter_congr
    intro worker _
    rw [Bool.eq_iff_iff]
    simp [Subtype.ext_iff]
  cases hfind : p.pids.findIdx? (· = dead.val) with
  | none =>
      have hnone := List.findIdx?_eq_none_iff.mp hfind dead.val hslot
      simp at hnone
  | some i =>
      obtain ⟨hi, hget, -⟩ := List.findIdx?_eq_some_iff_getElem.mp hfind
      have hget : p.pids[i] = dead.val := of_decide_eq_true hget
      -- the other slots hold the other children
      have hrest : (stopWorkers (p.pids.eraseIdx i)).Perm (pidsOf others) := by
        have hslots : (stopWorkers p.pids).Perm (dead.val :: stopWorkers (p.pids.eraseIdx i)) := by
          have hperm := (List.getElem_cons_eraseIdx_perm hi).symm.filter fun pid => decide (0 < pid)
          rw [hget, List.filter_cons_of_pos (by simpa using dead.property)] at hperm
          exact hperm
        have hchildren : (pidsOf p.running).Perm (dead.val :: pidsOf others) := by
          rw [hpidsOthers]
          exact List.perm_cons_erase hdead
        exact (hslots.symm.trans (h.listed.trans hchildren)).cons_inv
      have hset : (stopWorkers (p.pids.set i (startedPid fork))).Perm
          (stopWorkers [startedPid fork] ++ stopWorkers (p.pids.eraseIdx i)) := by
        have hperm := (List.set_perm_cons_eraseIdx hi (startedPid fork)).filter
          fun pid => decide (0 < pid)
        rw [← List.singleton_append, List.filter_append] at hperm
        exact hperm
      have hrestart : restartWorker p dead fork =
          { p with
            pids := p.pids.set i (startedPid fork)
            running := others ++ startedWorker p.cfg fork
            counted := counted_set p i (startedPid fork) } := by
        unfold restartWorker
        simp only [hfind]
        rfl
      rw [hrestart]
      refine ⟨?_, ?_⟩
      · show (pidsOf (others ++ startedWorker p.cfg fork)).Nodup
        rw [pidsOf_append, hpidsOthers]
        apply (h.distinct.erase _).append
        · cases fork with
          | none => exact List.nodup_nil
          | some pid => exact List.nodup_singleton _
        · intro pid hold hstarted
          obtain ⟨hne, hrunning⟩ := h.distinct.mem_erase_iff.mp hold
          cases hfork : fork with
          | none =>
              rw [hfork] at hstarted
              exact absurd hstarted List.not_mem_nil
          | some started =>
              rw [hfork] at hstarted
              obtain rfl := List.mem_singleton.mp hstarted
              rcases hnew started hfork with rfl | hfresh
              · exact hne rfl
              · exact hfresh hrunning
      · show (stopWorkers (p.pids.set i (startedPid fork))).Perm
          (pidsOf (others ++ startedWorker p.cfg fork))
        rw [pidsOf_append, ← stopWorkers_startedPid p.cfg fork]
        exact hset.trans ((hrest.append_left _).trans List.perm_append_comm)

/-! ### Runs -/

/-- What happens is possible where it happens. -/
def PossibleRun : Parent → List ParentEvent → Prop
  | _, [] => True
  | p, event :: events => p.Possible event ∧ PossibleRun (p.step event) events

instance decidablePossibleRun :
    (p : Parent) → (events : List ParentEvent) → Decidable (PossibleRun p events)
  | _, [] => isTrue trivial
  | p, event :: events =>
      have := decidablePossibleRun (p.step event) events
      inferInstanceAs (Decidable (p.Possible event ∧ PossibleRun (p.step event) events))

theorem possibleRun_append {before rest : List ParentEvent} :
    PossibleRun p (before ++ rest) ↔ PossibleRun p before ∧ PossibleRun (p.run before) rest := by
  induction before generalizing p with
  | nil => simp [PossibleRun, Parent.run]
  | cons event before ih =>
      show p.Possible event ∧ PossibleRun (p.step event) (before ++ rest) ↔
        (p.Possible event ∧ PossibleRun (p.step event) before) ∧
          PossibleRun ((p.step event).run before) rest
      rw [ih, and_assoc]

theorem supervised_step {event : ParentEvent} (h : Supervised p) (hpossible : p.Possible event) :
    Supervised (p.step event) ∧ ∀ pid ∈ p.stops event, pid ∈ pidsOf (p.children event) := by
  cases event with
  | reload calls => exact supervised_reload h hpossible
  | exited dead fork =>
      exact ⟨supervised_restart h hpossible, fun _ hpid => absurd hpid List.not_mem_nil⟩

theorem supervised_run {events : List ParentEvent} (h : Supervised p)
    (hpossible : PossibleRun p events) : Supervised (p.run events) := by
  induction events generalizing p with
  | nil => exact h
  | cons event events ih => exact ih (supervised_step h hpossible.1).1 hpossible.2

theorem supervised_start {calls : ServerCalls} {cfg : ServerConfig}
    (hnew : ForksNew calls.fork (resolvedWorkerCount calls.cpus cfg) []) :
    Supervised (startParent calls.cpus calls.fork cfg) := by
  refine ⟨hnew.started cfg, ?_⟩
  show (stopWorkers (spawnWorkers _ _ _ _).pids).Perm _
  rw [stopWorkers_spawnWorkers]
  rfl

/-- All children are in the array. -/
theorem Supervised.end_all (h : Supervised p) : endWorkers p.pids p.running = [] := by
  apply endWorkers_eq_nil
  intro pid hpid
  exact (h.mem_iff (pos_of_mem_pidsOf hpid)).mpr hpid

/-- A worker is replaced, a reload fails at its second `fork`, and the other worker exits when no
process can be forked. -/
def unluckyServer : ServerCalls where
  cpus := 4
  fork := fun i => some (pidAfter 100 i)
  events :=
    [.exited (pidAfter 100 0) (some (pidAfter 300 0)), .reload failingFork,
      .exited (pidAfter 100 1) none]

end Rpsiod

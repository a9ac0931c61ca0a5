import Rpsiod.Lib.Descriptors
import Rpsiod.Server.OpenFileCache

/-!
# Opening a static file through the cache (`open_static_path`)

The open-file cache together with the descriptor table of the process.  What a path leads to is
given anew for every call, so that files come, change and go between the calls; the descriptors of
the rest of the process are opened and closed there too.  `open` fails only as the path does; `dup`
fails at any time.

* `Held`: every valid entry has an open descriptor of its own.
* `openStaticPath_transparent`: **a call gives what opening the path gives**, in every state that a
  run reaches.
-/

namespace Rpsiod

open Descriptors

/-- The file tree of the site at one moment. -/
structure Files (F : Type*) where
  /-- `rpsiod_static_open_site_path`. -/
  node : Bytes → Option F
  /-- `fstat`. -/
  stat : F → Option Fstat

/-- The cache, and the descriptors of the process. -/
structure CachedFiles (F : Type*) where
  cache : OpenFileCache
  table : Table F

variable {F : Type*}

/-- What opening the path and `fstat` give at this moment. -/
def freshOpen (files : Files F) (relativePath : Bytes) : Option (F × Fstat) :=
  (files.node relativePath).bind fun f => (files.stat f).map fun st => (f, st)

/-! ### `open_static_path` -/

/-- What the system answers to `static_open_cache_lookup`. -/
def lookupIo (files : Files F) (t : Table F) (relativePath : Bytes) : LookupIo where
  opened := (files.node relativePath).map fun _ => t.lowest
  stat := (files.node relativePath).bind files.stat

/-- `close(entry->fd)`, if there is one. -/
def closedEntry (t : Table F) (entry : OpenFileEntry) : Table F :=
  if 0 ≤ entry.fd then t.closed entry.fd.toNat else t

/-- The descriptors behind `static_open_cache_lookup`. -/
def lookupTable (cfg : OpenCacheConfig) (site : Site) (files : Files F) (relativePath : Bytes)
    (s : CachedFiles F) : Table F :=
  if !usesOpenCache cfg site relativePath then s.table
  else
    match lookupSlot cfg s.cache relativePath with
    | none => s.table
    | some i =>
        match files.node relativePath with
        | none => closedEntry s.table (s.cache.entries i)
        | some f =>
            match entryCurrent (s.cache.entries i) (files.stat f) with
            | none =>
                closedEntry ((s.table.opened f).closed s.table.lowest) (s.cache.entries i)
            | some _ => s.table.opened f

/-- The descriptors when `static_open_cache_store` calls `dup`. -/
def storeTable (t : Table F) (entry : OpenFileEntry) : Table F :=
  if entry.valid then closedEntry t entry else t

/-- What `static_open_cache_store` does to both; `dupOk` says whether a descriptor is left. -/
def storeFile (cfg : OpenCacheConfig) (site : Site) (relativePath : Bytes) (fd : ℕ) (st : Fstat)
    (dupOk : Bool) (s : CachedFiles F) : CachedFiles F :=
  match filledSlot cfg site relativePath fd st s.cache with
  | none => s
  | some i =>
      let t := storeTable s.table (s.cache.entries i)
      match (if dupOk then t.file fd else none) with
      | none => ⟨staticOpenCacheStore cfg site relativePath fd st none s.cache, t⟩
      | some f =>
          ⟨staticOpenCacheStore cfg site relativePath fd st (some t.lowest) s.cache, t.opened f⟩

/-- `open_static_path`. -/
def openStaticPath (cfg : OpenCacheConfig) (site : Site) (files : Files F) (relativePath : Bytes)
    (dupOk : Bool) (s : CachedFiles F) : CachedFiles F × Option (ℕ × Fstat) :=
  let looked := staticOpenCacheLookup cfg site relativePath (lookupIo files s.table relativePath)
    s.cache
  let t := lookupTable cfg site files relativePath s
  match looked.2 with
  | some found => (⟨looked.1, t⟩, some found)
  | none =>
      match files.node relativePath with
      | none => (⟨looked.1, t⟩, none)
      | some f =>
          match files.stat f with
          | none => (⟨looked.1, (t.opened f).closed t.lowest⟩, none)
          | some st =>
              (storeFile cfg site relativePath t.lowest st dupOk ⟨looked.1, t.opened f⟩,
                some (t.lowest, st))

/-! ### Runs -/

/-- The descriptor is that of a valid entry. -/
def OpenFileCache.Holds (cache : OpenFileCache) (fd : ℕ) : Prop :=
  ∃ i, (cache.entries i).valid = true ∧ (cache.entries i).fd = fd

instance (cache : OpenFileCache) (fd : ℕ) : Decidable (cache.Holds fd) := by
  unfold OpenFileCache.Holds
  infer_instance

/-- What happens in the process between two moments.  Whoever is given a descriptor closes it; no
one else is given those of the cache (`openStaticPath_transparent`). -/
inductive FileEvent (F : Type*) where
  | call (files : Files F) (relativePath : Bytes) (dupOk : Bool)
  | opens (f : F)
  | closes (fd : ℕ)
  | closeCaches

/-- The state behind it. -/
def CachedFiles.step (cfg : OpenCacheConfig) (site : Site) (s : CachedFiles F) :
    FileEvent F → CachedFiles F
  | .call files relativePath dupOk => (openStaticPath cfg site files relativePath dupOk s).1
  | .opens f => ⟨s.cache, s.table.opened f⟩
  | .closes fd => if s.cache.Holds fd then s else ⟨s.cache, s.table.closed fd⟩
  | .closeCaches =>
      ⟨s.cache.close, (List.finRange openFileCacheMax).foldl
        (fun t i => closedEntry t (s.cache.entries i)) s.table⟩

/-- The state behind a run. -/
def CachedFiles.run (cfg : OpenCacheConfig) (site : Site) (s : CachedFiles F)
    (events : List (FileEvent F)) : CachedFiles F :=
  events.foldl (CachedFiles.step cfg site) s

/-! ### The entries have descriptors of their own -/

/-- Every valid entry has an open descriptor that no other one has. -/
structure Held (s : CachedFiles F) : Prop where
  opened : ∀ i, (s.cache.entries i).valid = true →
    ∃ fd f, (s.cache.entries i).fd = (fd : ℕ) ∧ s.table.file fd = some f
  distinct : ∀ i j, (s.cache.entries i).valid = true → (s.cache.entries j).valid = true →
    (s.cache.entries i).fd = (s.cache.entries j).fd → i = j

/-- Every descriptor that is not the cache's is left alone, and does not become the cache's. -/
def LeavesOthers (s s' : CachedFiles F) : Prop :=
  ∀ fd f, s.table.file fd = some f → ¬ s.cache.Holds fd →
    s'.table.file fd = some f ∧ ¬ s'.cache.Holds fd

variable {cfg : OpenCacheConfig} {site : Site} {cache : OpenFileCache} {t : Table F}

theorem LeavesOthers.refl (s : CachedFiles F) : LeavesOthers s s := fun _ _ hfile hnot => ⟨hfile, hnot⟩

theorem LeavesOthers.trans {s s' s'' : CachedFiles F} (h : LeavesOthers s s') (h' : LeavesOthers s' s'') :
    LeavesOthers s s'' := fun fd f hfile hnot => by
  obtain ⟨hfile', hnot'⟩ := h fd f hfile hnot
  exact h' fd f hfile' hnot'

theorem held_initial (t : Table F) : Held ⟨.initial, t⟩ where
  opened := fun _ h => Bool.noConfusion h
  distinct := fun _ _ h => Bool.noConfusion h

theorem Held.file_of_holds (h : Held ⟨cache, t⟩) {fd : ℕ} (hholds : cache.Holds fd) :
    ∃ f, t.file fd = some f := by
  obtain ⟨i, hvalid, hfd⟩ := hholds
  obtain ⟨fd', f, hfd', hfile⟩ := h.opened i hvalid
  rw [hfd, Nat.cast_inj] at hfd'
  exact ⟨f, hfd' ▸ hfile⟩

/-- The number that the next call gives is not the cache's. -/
theorem Held.not_holds_lowest (h : Held ⟨cache, t⟩) : ¬ cache.Holds t.lowest := by
  intro hholds
  obtain ⟨f, hfile⟩ := h.file_of_holds hholds
  rw [file_lowest] at hfile
  cases hfile

/-- The table changes, but not for the entries. -/
theorem Held.of_table (h : Held ⟨cache, t⟩) {t' : Table F}
    (hkeeps : ∀ fd f, cache.Holds fd → t.file fd = some f → t'.file fd = some f) :
    Held ⟨cache, t'⟩ where
  opened := by
    intro i hvalid
    obtain ⟨fd, f, hfd, hfile⟩ := h.opened i hvalid
    exact ⟨fd, f, hfd, hkeeps fd f ⟨i, hvalid, hfd⟩ hfile⟩
  distinct := h.distinct

theorem Held.open_file (h : Held ⟨cache, t⟩) (f : F) : Held ⟨cache, t.opened f⟩ :=
  h.of_table fun fd g _ hfile => keeps_opened t f fd g hfile

theorem frame_open_file (cache : OpenFileCache) (t : Table F) (f : F) :
    LeavesOthers ⟨cache, t⟩ ⟨cache, t.opened f⟩ :=
  fun fd g hfile hnot => ⟨keeps_opened t f fd g hfile, hnot⟩

theorem Held.close_other (h : Held ⟨cache, t⟩) {fd : ℕ} (hnot : ¬ cache.Holds fd) :
    Held ⟨cache, t.closed fd⟩ :=
  h.of_table fun fd' f hholds hfile => by
    rw [file_closed, if_neg]
    · exact hfile
    · rintro rfl
      exact hnot hholds

/-- A descriptor that has just been opened is closed again. -/
theorem file_opened_closed (t : Table F) (f : F) (fd : ℕ) :
    ((t.opened f).closed t.lowest).file fd = t.file fd := by
  rw [file_closed, file_opened]
  split_ifs with heq
  · rw [heq, file_lowest]
  · rfl

theorem closedEntry_eq {entry : OpenFileEntry} {fd : ℕ} (h : entry.fd = fd) :
    closedEntry t entry = t.closed fd := by
  unfold closedEntry
  rw [h, if_pos (Int.natCast_nonneg fd), Int.toNat_natCast]

/-! ### One entry changes -/

/-- An entry is invalidated, and its descriptor is closed. -/
theorem Held.drop (h : Held ⟨cache, t⟩) {i : Fin openFileCacheMax}
    (hvalid : (cache.entries i).valid = true) {cache' : OpenFileCache}
    (hentries : cache'.entries = (cache.put i .empty).entries) {t' : Table F}
    (hfiles : ∀ fd : ℕ, (cache.entries i).fd ≠ fd → t'.file fd = t.file fd) :
    Held ⟨cache', t'⟩ ∧ LeavesOthers ⟨cache, t⟩ ⟨cache', t'⟩ := by
  have hself : (cache'.entries i).valid = false := by
    rw [hentries, put_self]
    rfl
  have hothers : ∀ j, j ≠ i → cache'.entries j = cache.entries j := by
    intro j hne
    rw [hentries, put_of_ne cache hne]
  have hne : ∀ j, (cache'.entries j).valid = true → j ≠ i := by
    rintro j hj rfl
    rw [hself] at hj
    cases hj
  refine ⟨⟨?_, ?_⟩, ?_⟩
  · intro j hj
    have hji := hne j hj
    rw [hothers j hji] at hj ⊢
    obtain ⟨fd, f, hfd, hfile⟩ := h.opened j hj
    refine ⟨fd, f, hfd, (hfiles fd fun hsame => ?_).trans hfile⟩
    exact hji (h.distinct j i hj hvalid (hfd.trans hsame.symm))
  · intro j k hj hk hsame
    have hji := hne j hj
    have hki := hne k hk
    rw [hothers j hji] at hj hsame
    rw [hothers k hki] at hk hsame
    exact h.distinct j k hj hk hsame
  · intro fd f hfile hnot
    refine ⟨(hfiles fd fun hsame => hnot ⟨i, hvalid, hsame⟩).trans hfile, ?_⟩
    rintro ⟨j, hj, hfd⟩
    have hji := hne j hj
    rw [hothers j hji] at hj hfd
    exact hnot ⟨j, hj, hfd⟩

/-- An entry is given the next number. -/
theorem Held.fill (h : Held ⟨cache, t⟩) {i : Fin openFileCacheMax} {cache' : OpenFileCache}
    {entry : OpenFileEntry} (hentries : cache'.entries = (cache.put i entry).entries)
    (hfd : entry.fd = t.lowest) (f : F) :
    Held ⟨cache', t.opened f⟩ ∧ LeavesOthers ⟨cache, t⟩ ⟨cache', t.opened f⟩ := by
  have hself : cache'.entries i = entry := by
    rw [hentries, put_self]
  have hothers : ∀ j, j ≠ i → cache'.entries j = cache.entries j := by
    intro j hne
    rw [hentries, put_of_ne cache hne]
  -- the number is free, so that no entry has it
  have hfresh : ∀ j, (cache.entries j).valid = true → (cache.entries j).fd ≠ t.lowest :=
    fun j hj hsame => h.not_holds_lowest ⟨j, hj, hsame⟩
  refine ⟨⟨?_, ?_⟩, ?_⟩
  · intro j hj
    by_cases heq : j = i
    · rw [heq, hself]
      exact ⟨t.lowest, f, hfd, by rw [file_opened, if_pos rfl]⟩
    · rw [hothers j heq] at hj ⊢
      exact (h.open_file f).opened j hj
  · intro j k hj hk hsame
    by_cases hji : j = i
    · by_cases hki : k = i
      · rw [hji, hki]
      · rw [hji, hself, hothers k hki, hfd] at hsame
        rw [hothers k hki] at hk
        exact absurd hsame.symm (hfresh k hk)
    · rw [hothers j hji] at hj hsame
      by_cases hki : k = i
      · rw [hki, hself, hfd] at hsame
        exact absurd hsame (hfresh j hj)
      · rw [hothers k hki] at hk hsame
        exact h.distinct j k hj hk hsame
  · intro fd g hfile hnot
    refine ⟨keeps_opened t f fd g hfile, ?_⟩
    rintro ⟨j, hj, hsame⟩
    by_cases heq : j = i
    · rw [heq, hself, hfd, Nat.cast_inj] at hsame
      rw [← hsame, file_lowest] at hfile
      cases hfile
    · rw [hothers j heq] at hj hsame
      exact hnot ⟨j, hj, hsame⟩

/-- An entry is used: its descriptor stays. -/
theorem Held.touch (h : Held ⟨cache, t⟩) (i : Fin openFileCacheMax) :
    Held ⟨cache.touched i, t⟩ ∧ LeavesOthers ⟨cache, t⟩ ⟨cache.touched i, t⟩ := by
  have hsame : ∀ j, ((cache.touched i).entries j).valid = (cache.entries j).valid ∧
      ((cache.touched i).entries j).fd = (cache.entries j).fd := by
    intro j
    unfold OpenFileCache.touched
    by_cases heq : j = i
    · rw [heq, put_self]
      exact ⟨rfl, rfl⟩
    · rw [put_of_ne cache heq]
      exact ⟨rfl, rfl⟩
  refine ⟨⟨?_, ?_⟩, ?_⟩
  · intro j hj
    rw [(hsame j).1] at hj
    rw [(hsame j).2]
    exact h.opened j hj
  · intro j k hj hk heq
    rw [(hsame j).1] at hj
    rw [(hsame k).1] at hk
    rw [(hsame j).2, (hsame k).2] at heq
    exact h.distinct j k hj hk heq
  · intro fd f hfile hnot
    refine ⟨hfile, ?_⟩
    rintro ⟨j, hj, hfd⟩
    rw [(hsame j).1] at hj
    rw [(hsame j).2] at hfd
    exact hnot ⟨j, hj, hfd⟩

/-! ### The two stages -/

/-- What a lookup that succeeds hands out. -/
def Handed (files : Files F) (relativePath : Bytes) (s : CachedFiles F) (fd : ℕ) (st : Fstat) :
    Prop :=
  ∃ f, files.node relativePath = some f ∧ files.stat f = some st ∧
    s.table.file fd = some f ∧ ¬ s.cache.Holds fd

/-- **The lookup**: no other descriptor changes, and what it finds is the file that the path leads
to now. -/
theorem lookup_transparent (files : Files F) (relativePath : Bytes) (h : Held ⟨cache, t⟩) :
    let looked := staticOpenCacheLookup cfg site relativePath (lookupIo files t relativePath) cache
    let s' : CachedFiles F := ⟨looked.1, lookupTable cfg site files relativePath ⟨cache, t⟩⟩
    Held s' ∧ LeavesOthers ⟨cache, t⟩ s' ∧
      ∀ fd st, looked.2 = some (fd, st) → Handed files relativePath s' fd st := by
  dsimp only
  have hnothing : Held ⟨cache, t⟩ ∧ LeavesOthers ⟨cache, t⟩ ⟨cache, t⟩ ∧
      ∀ fd st, (none : Option (ℕ × Fstat)) = some (fd, st) →
        Handed files relativePath ⟨cache, t⟩ fd st :=
    ⟨h, .refl _, fun _ _ hnone => absurd hnone.symm (Option.some_ne_none _)⟩
  unfold staticOpenCacheLookup lookupTable
  cases usesOpenCache cfg site relativePath with
  | false => exact hnothing
  | true =>
      rw [Bool.not_true, if_neg Bool.false_ne_true, if_neg Bool.false_ne_true]
      dsimp only
      cases hslot : lookupSlot cfg cache relativePath with
      | none => exact hnothing
      | some i =>
          obtain ⟨-, hvalid, -, -⟩ := lookupSlot_eq_some hslot
          obtain ⟨fd, f, hfd, hfile⟩ := h.opened i hvalid
          have hdropped : (cache.dropped i).entries = (cache.put i .empty).entries := rfl
          unfold lookupIo
          cases hnode : files.node relativePath with
          | none =>
              have hboth : Held ⟨cache.dropped i, t.closed fd⟩ ∧
                  LeavesOthers ⟨cache, t⟩ ⟨cache.dropped i, t.closed fd⟩ := by
                refine h.drop hvalid hdropped fun fd' hne => ?_
                rw [file_closed, if_neg]
                rintro rfl
                exact hne hfd
              dsimp only [Option.map]
              rw [closedEntry_eq hfd]
              exact ⟨hboth.1, hboth.2, fun _ _ hnone => absurd hnone.symm (Option.some_ne_none _)⟩
          | some g =>
              dsimp only [Option.map, Option.bind]
              cases hcurrent : entryCurrent (cache.entries i) (files.stat g) with
              | none =>
                  have hboth : Held ⟨cache.dropped i, ((t.opened g).closed t.lowest).closed fd⟩ ∧
                      LeavesOthers ⟨cache, t⟩
                        ⟨cache.dropped i, ((t.opened g).closed t.lowest).closed fd⟩ := by
                    refine h.drop hvalid hdropped fun fd' hne => ?_
                    rw [file_closed, if_neg, file_opened_closed]
                    rintro rfl
                    exact hne hfd
                  dsimp only
                  rw [closedEntry_eq hfd]
                  exact ⟨hboth.1, hboth.2,
                    fun _ _ hnone => absurd hnone.symm (Option.some_ne_none _)⟩
              | some st =>
                  -- the descriptor that is handed out is the one that has just been opened
                  obtain ⟨hheld, hframe⟩ := (h.open_file g).touch i
                  have hstat : files.stat g = some st := by
                    unfold entryCurrent at hcurrent
                    exact (Option.filter_eq_some_iff.mp hcurrent).1
                  have hopened : (t.opened g).file t.lowest = some g := by
                    rw [file_opened, if_pos rfl]
                  dsimp only
                  refine ⟨hheld, (frame_open_file cache t g).trans hframe, fun fd' st' heq => ?_⟩
                  obtain ⟨rfl, rfl⟩ := Prod.mk.inj (Option.some.inj heq)
                  exact ⟨g, hnode, hstat, hframe t.lowest g hopened h.not_holds_lowest⟩

/-- **The store**: no other descriptor changes. -/
theorem store_transparent (relativePath : Bytes) (fd : ℕ) (st : Fstat) (dupOk : Bool)
    (h : Held ⟨cache, t⟩) :
    Held (storeFile cfg site relativePath fd st dupOk ⟨cache, t⟩) ∧
      LeavesOthers ⟨cache, t⟩ (storeFile cfg site relativePath fd st dupOk ⟨cache, t⟩) := by
  unfold storeFile staticOpenCacheStore
  dsimp only
  cases filledSlot cfg site relativePath fd st cache with
  | none => exact ⟨h, .refl _⟩
  | some i =>
      dsimp only
      unfold storeTable
      cases hvalid : (cache.entries i).valid with
      | true =>
          obtain ⟨old, f, hold, -⟩ := h.opened i hvalid
          have hboth : Held ⟨cache.put i .empty, t.closed old⟩ ∧
              LeavesOthers ⟨cache, t⟩ ⟨cache.put i .empty, t.closed old⟩ := by
            refine h.drop hvalid rfl fun fd' hne => ?_
            rw [file_closed, if_neg]
            rintro rfl
            exact hne hold
          rw [if_pos rfl, closedEntry_eq hold]
          cases (if dupOk then (t.closed old).file fd else none) with
          | none =>
              unfold storeAt
              rw [hvalid, if_pos rfl]
              exact hboth
          | some g =>
              have hentries :
                  (storeAt cfg cache i relativePath st (some (t.closed old).lowest)).entries =
                  ((cache.put i .empty).put i ⟨true, safeCopy 512 relativePath,
                    (t.closed old).lowest, st.toCachedStat, cache.tick + 1⟩).entries := by
                unfold OpenFileCache.put
                exact (Function.update_idem _ _ _).symm
              obtain ⟨hheld, hframe⟩ := hboth.1.fill hentries rfl g
              exact ⟨hheld, hboth.2.trans hframe⟩
      | false =>
          rw [if_neg Bool.false_ne_true]
          cases (if dupOk then t.file fd else none) with
          | none =>
              unfold storeAt
              rw [hvalid, if_neg Bool.false_ne_true]
              exact ⟨h, .refl _⟩
          | some g =>
              have hentries : (storeAt cfg cache i relativePath st (some t.lowest)).entries =
                  (cache.put i ⟨true, safeCopy 512 relativePath, t.lowest, st.toCachedStat,
                    cache.tick + 1⟩).entries := rfl
              exact h.fill hentries rfl g

/-! ### A call, and a run -/

/-- A call gives what opening the path and `fstat` give at this moment; what it hands out is not the
cache's, and nothing that belongs to others changes. -/
structure Transparent (files : Files F) (relativePath : Bytes) (s : CachedFiles F)
    (result : CachedFiles F × Option (ℕ × Fstat)) : Prop where
  same : (result.2.map fun found => (result.1.table.file found.1, found.2)) =
    (freshOpen files relativePath).map fun fresh => (some fresh.1, fresh.2)
  own : ∀ fd st, result.2 = some (fd, st) → ¬ result.1.cache.Holds fd
  frame : LeavesOthers s result.1

/-- **A call keeps the entries' descriptors and is transparent.** -/
theorem held_openStaticPath {s : CachedFiles F} (h : Held s) (files : Files F)
    (relativePath : Bytes) (dupOk : Bool) :
    Held (openStaticPath cfg site files relativePath dupOk s).1 ∧
      Transparent files relativePath s (openStaticPath cfg site files relativePath dupOk s) := by
  obtain ⟨hheld, hframe, hhanded⟩ := @lookup_transparent F cfg site s.cache s.table files
    relativePath h
  unfold openStaticPath
  dsimp only at hheld hframe hhanded ⊢
  set looked := staticOpenCacheLookup cfg site relativePath (lookupIo files s.table relativePath)
    s.cache
  set t := lookupTable cfg site files relativePath s
  cases hfound : looked.2 with
  | some found =>
      obtain ⟨fd, st⟩ := found
      obtain ⟨f, hnode, hstat, hfile, hown⟩ := hhanded fd st hfound
      refine ⟨hheld, ?_, ?_, hframe⟩
      · unfold freshOpen
        rw [hnode, Option.bind_some, hstat]
        dsimp only [Option.map]
        rw [hfile]
      · intro fd' st' heq
        obtain ⟨rfl, rfl⟩ := Prod.mk.inj (Option.some.inj heq)
        exact hown
  | none =>
      dsimp only
      cases hnode : files.node relativePath with
      | none =>
          refine ⟨hheld, ?_, fun _ _ hnone => absurd hnone.symm (Option.some_ne_none _), hframe⟩
          unfold freshOpen
          rw [hnode]
          rfl
      | some f =>
          dsimp only
          cases hstat : files.stat f with
          | none =>
              have hsame : ∀ fd g, t.file fd = some g →
                  ((t.opened f).closed t.lowest).file fd = some g :=
                fun fd g hg => (file_opened_closed t f fd).trans hg
              refine ⟨hheld.of_table fun fd g _ hg => hsame fd g hg, ?_,
                fun _ _ hnone => absurd hnone.symm (Option.some_ne_none _), ?_⟩
              · unfold freshOpen
                rw [hnode, Option.bind_some, hstat]
                rfl
              · exact hframe.trans fun fd g hg hnot => ⟨hsame fd g hg, hnot⟩
          | some st =>
              obtain ⟨hheld', hframe'⟩ := @store_transparent F cfg site looked.1 (t.opened f)
                relativePath t.lowest st dupOk (hheld.open_file f)
              -- the store leaves the descriptor alone that has just been opened
              have hopened : (t.opened f).file t.lowest = some f := by
                rw [file_opened, if_pos rfl]
              obtain ⟨hfile, hown⟩ := hframe' t.lowest f hopened hheld.not_holds_lowest
              refine ⟨hheld', ?_, ?_,
                hframe.trans ((frame_open_file looked.1 t f).trans hframe')⟩
              · unfold freshOpen
                rw [hnode, Option.bind_some, hstat]
                dsimp only [Option.map]
                rw [hfile]
              · intro fd' st' heq
                obtain ⟨rfl, rfl⟩ := Prod.mk.inj (Option.some.inj heq)
                exact hown

/-- Whatever happens, the entries keep their descriptors. -/
theorem held_step {s : CachedFiles F} (h : Held s) (event : FileEvent F) :
    Held (s.step cfg site event) := by
  cases event with
  | call files relativePath dupOk => exact (held_openStaticPath h files relativePath dupOk).1
  | opens f => exact h.open_file f
  | closes fd =>
      show Held (if s.cache.Holds fd then s else ⟨s.cache, s.table.closed fd⟩)
      split_ifs with hholds
      · exact h
      · exact h.close_other hholds
  | closeCaches => exact ⟨fun _ hfalse => Bool.noConfusion hfalse, fun _ _ hfalse =>
      Bool.noConfusion hfalse⟩

theorem held_run {s : CachedFiles F} (h : Held s) (events : List (FileEvent F)) :
    Held (s.run cfg site events) := by
  induction events generalizing s with
  | nil => exact h
  | cons event events ih => exact ih (held_step h event)

/-- **The cache is transparent**: whatever files have come, changed and gone in a run, the next call
gives a descriptor of the file that the path leads to at that moment, with what `fstat` says of it,
or fails as opening the path does. -/
theorem openStaticPath_transparent (cfg : OpenCacheConfig) (site : Site) (t : Table F)
    (events : List (FileEvent F)) (files : Files F) (relativePath : Bytes) (dupOk : Bool) :
    let s := CachedFiles.run cfg site ⟨.initial, t⟩ events
    Transparent files relativePath s (openStaticPath cfg site files relativePath dupOk s) :=
  (held_openStaticPath (held_run (held_initial t) events) files relativePath dupOk).2

-- a file is replaced behind its entry: the new one is opened, with its own size
example :
    let files (n : ℕ) : Files ℕ := ⟨fun _ => some n, fun n => some ⟨⟨n, 1000, n⟩, true⟩⟩
    let s : CachedFiles ℕ := CachedFiles.run ⟨true, 8⟩ {} ⟨.initial, ⟨[]⟩⟩
      [.call (files 5) (ascii "a.html") true, .closes 0, .call (files 5) (ascii "a.html") true]
    let result := openStaticPath ⟨true, 8⟩ {} (files 9) (ascii "a.html") true s
    result.2 = some (1, ⟨⟨9, 1000, 9⟩, true⟩) ∧ result.1.table.file 1 = some 9 := by
  decide +kernel

end Rpsiod

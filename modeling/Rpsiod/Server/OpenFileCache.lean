import Mathlib.Data.Finset.Card
import Mathlib.Data.Fintype.Basic
import Rpsiod.Server.Paths
import Rpsiod.Server.Reload

/-!
# The open-file cache of a site (`static_open_cache_lookup`, `static_open_cache_store`)

A site has an array of descriptors of its files, with the path that each was opened under and what
`fstat` said.  What the system answers to each call is given from outside.

* `CacheInv`: what holds of the array and its counter.
* `inv_storeAt_iff`: **exactly when a store keeps it**.
* `open_cache_invariant`: it holds over every run of such stores, and a full array gives up its
  oldest entry.
-/

namespace Rpsiod

/-- `RPSIOD_OPEN_FILE_CACHE_MAX`. -/
def openFileCacheMax : ℕ := 256

/-- The settings `open_file_cache_enabled` and `open_file_cache_max`. -/
structure OpenCacheConfig where
  enabled : Bool
  max : ℕ

/-- What the cache reads of `struct stat`. -/
structure CachedStat where
  size : ℤ
  mtime : ℤ
  inode : ℕ
  deriving DecidableEq

/-- `fstat`: that, and whether it is a regular file. -/
structure Fstat extends CachedStat where
  regular : Bool
  deriving DecidableEq

/-- `rpsiod_open_file_cache_entry`. -/
structure OpenFileEntry where
  valid : Bool
  relativePath : Bytes
  fd : ℤ
  stat : CachedStat
  lastUsed : UInt64

/-- An entry behind `static_open_cache_invalidate_entry`. -/
def OpenFileEntry.empty : OpenFileEntry := ⟨false, [], -1, ⟨0, 0, 0⟩, 0⟩

/-- The fields `open_file_cache`, `open_file_cache_count` and `open_file_cache_tick` of a site. -/
structure OpenFileCache where
  entries : Fin openFileCacheMax → OpenFileEntry
  count : ℕ
  tick : UInt64

/-- `site_defaults`. -/
def OpenFileCache.initial : OpenFileCache := ⟨fun _ => .empty, 0, 0⟩

/-- `static_cache_path_blocked`. -/
def staticCachePathBlocked (site : Site) (relativePath : Bytes) : Bool :=
  phpPathIsSourceLike relativePath || 4096 ≤ (47 :: relativePath).length ||
    blockedDirectAccess site (47 :: relativePath)

/-- The cache is on, and may be asked for this path. -/
def usesOpenCache (cfg : OpenCacheConfig) (site : Site) (relativePath : Bytes) : Bool :=
  cfg.enabled && cfg.max ≠ 0 && !staticCachePathBlocked site relativePath

/-- `max`: the number of slots that are used. -/
def usedMax (cfg : OpenCacheConfig) : ℕ :=
  if openFileCacheMax < cfg.max then openFileCacheMax else cfg.max

/-- The slots of the array that are used. -/
def usedSlots (cfg : OpenCacheConfig) : List (Fin openFileCacheMax) :=
  (List.finRange openFileCacheMax).filter fun i => i.val < usedMax cfg

/-! ### `static_open_cache_lookup` -/

/-- What the system answers to `static_open_cache_lookup`. -/
structure LookupIo where
  /-- `rpsiod_static_open_site_path`. -/
  opened : Option ℕ
  /-- `fstat` of this descriptor. -/
  stat : Option Fstat

/-- The slot that the loop finds. -/
def lookupSlot (cfg : OpenCacheConfig) (cache : OpenFileCache) (relativePath : Bytes) :
    Option (Fin openFileCacheMax) :=
  (usedSlots cfg).find? fun i =>
    (cache.entries i).valid && 0 ≤ (cache.entries i).fd &&
      (cache.entries i).relativePath = relativePath

/-- An entry is replaced. -/
def OpenFileCache.put (cache : OpenFileCache) (i : Fin openFileCacheMax) (entry : OpenFileEntry) :
    OpenFileCache :=
  { cache with entries := Function.update cache.entries i entry }

/-- The entry is invalidated, and counted out. -/
def OpenFileCache.dropped (cache : OpenFileCache) (i : Fin openFileCacheMax) : OpenFileCache :=
  { cache.put i .empty with count := if 0 < cache.count then cache.count - 1 else cache.count }

/-- The entry is still that of the file that has been opened. -/
def entryCurrent (entry : OpenFileEntry) (stat : Option Fstat) : Option Fstat :=
  stat.filter fun st => st.regular && st.toCachedStat = entry.stat

/-- The entry is used. -/
def OpenFileCache.touched (cache : OpenFileCache) (i : Fin openFileCacheMax) : OpenFileCache :=
  { cache.put i { cache.entries i with lastUsed := cache.tick + 1 } with tick := cache.tick + 1 }

/-- `static_open_cache_lookup`. -/
def staticOpenCacheLookup (cfg : OpenCacheConfig) (site : Site) (relativePath : Bytes)
    (io : LookupIo) (cache : OpenFileCache) : OpenFileCache × Option (ℕ × Fstat) :=
  if !usesOpenCache cfg site relativePath then (cache, none)
  else
    match lookupSlot cfg cache relativePath with
    | none => (cache, none)
    | some i =>
        match io.opened with
        | none => (cache.dropped i, none)
        | some fd =>
            match entryCurrent (cache.entries i) io.stat with
            | none => (cache.dropped i, none)
            | some st => (cache.touched i, some (fd, st))

/-! ### `static_open_cache_store` -/

/-- The loop over the slots: `slot` and `oldest` are those of the oldest entry so far. -/
def storeSearch (entries : Fin openFileCacheMax → OpenFileEntry) (relativePath : Bytes) :
    List (Fin openFileCacheMax) → Option (Fin openFileCacheMax) → UInt64 →
      Option (Fin openFileCacheMax)
  | [], slot, _ => slot
  | i :: slots, slot, oldest =>
      if (entries i).valid && (entries i).relativePath = relativePath then some i
      else if !(entries i).valid then some i
      else if (entries i).lastUsed < oldest then
        storeSearch entries relativePath slots (some i) (entries i).lastUsed
      else storeSearch entries relativePath slots slot oldest

/-- The slot that `static_open_cache_store` fills. -/
def storeSlot (cfg : OpenCacheConfig) (cache : OpenFileCache) (relativePath : Bytes) :
    Option (Fin openFileCacheMax) :=
  storeSearch cache.entries relativePath (usedSlots cfg) none (UInt64.ofNat (2 ^ 64 - 1))

/-- What `static_open_cache_store` does with the slot; `dup` is what that call gives. -/
def storeAt (cfg : OpenCacheConfig) (cache : OpenFileCache) (i : Fin openFileCacheMax)
    (relativePath : Bytes) (st : Fstat) (dup : Option ℕ) : OpenFileCache :=
  match dup with
  | none => if (cache.entries i).valid then cache.put i .empty else cache
  | some fd =>
      let counted :=
        if !(cache.entries i).valid && cache.count < usedMax cfg then cache.count + 1
        else cache.count
      { cache.put i ⟨true, safeCopy 512 relativePath, fd, st.toCachedStat, cache.tick + 1⟩ with
        count := counted
        tick := cache.tick + 1 }

/-- The slot that is filled, if one is. -/
def filledSlot (cfg : OpenCacheConfig) (site : Site) (relativePath : Bytes) (fd : ℤ) (st : Fstat)
    (cache : OpenFileCache) : Option (Fin openFileCacheMax) :=
  if usesOpenCache cfg site relativePath && 0 ≤ fd && st.regular then
    storeSlot cfg cache relativePath
  else none

/-- `static_open_cache_store`. -/
def staticOpenCacheStore (cfg : OpenCacheConfig) (site : Site) (relativePath : Bytes) (fd : ℤ)
    (st : Fstat) (dup : Option ℕ) (cache : OpenFileCache) : OpenFileCache :=
  match filledSlot cfg site relativePath fd st cache with
  | none => cache
  | some i => storeAt cfg cache i relativePath st dup

/-! ### `rpsiod_config_close_site_caches` -/

/-- The loop body over the entries. -/
def OpenFileEntry.close (entry : OpenFileEntry) : OpenFileEntry :=
  { entry with fd := if 0 ≤ entry.fd then -1 else entry.fd, valid := false }

/-- The loop body over the sites. -/
def OpenFileCache.close (cache : OpenFileCache) : OpenFileCache where
  entries i := (cache.entries i).close
  count := 0
  tick := cache.tick

/-- What `reload_workers` sees of the cache. -/
def OpenFileCache.toSiteCache (cache : OpenFileCache) : SiteCache where
  entries := (List.finRange openFileCacheMax).map fun i =>
    ⟨(cache.entries i).fd, (cache.entries i).valid⟩
  count := cache.count

theorem toSiteCache_close (cache : OpenFileCache) :
    cache.close.toSiteCache = cache.toSiteCache.close := by
  unfold OpenFileCache.toSiteCache SiteCache.close
  dsimp only
  rw [List.map_map]
  rfl

/-! ### The invariant -/

/-- The valid slots. -/
def OpenFileCache.validSlots (cache : OpenFileCache) : Finset (Fin openFileCacheMax) :=
  Finset.univ.filter fun i => (cache.entries i).valid = true

/-- Valid entries have a descriptor, the counter counts them, all are in the used slots, and no two
hold one path. -/
structure CacheInv (cfg : OpenCacheConfig) (cache : OpenFileCache) : Prop where
  fd_of_valid : ∀ i, (cache.entries i).valid = true → 0 ≤ (cache.entries i).fd
  fd_of_invalid : ∀ i, (cache.entries i).valid = false → (cache.entries i).fd = -1
  count_eq : cache.count = cache.validSlots.card
  used : ∀ i, (cache.entries i).valid = true → i.val < usedMax cfg
  paths : ∀ i j, (cache.entries i).valid = true → (cache.entries j).valid = true →
    (cache.entries i).relativePath = (cache.entries j).relativePath → i = j

variable {cfg : OpenCacheConfig} {site : Site} {cache : OpenFileCache}

theorem mem_validSlots {i : Fin openFileCacheMax} :
    i ∈ cache.validSlots ↔ (cache.entries i).valid = true := by
  unfold OpenFileCache.validSlots
  rw [Finset.mem_filter, and_iff_right (Finset.mem_univ i)]

theorem inv_initial (cfg : OpenCacheConfig) : CacheInv cfg .initial where
  fd_of_valid := fun _ h => Bool.noConfusion h
  fd_of_invalid := fun _ _ => rfl
  count_eq := by
    have hnone : OpenFileCache.initial.validSlots = ∅ :=
      Finset.filter_false_of_mem fun _ _ h => Bool.noConfusion h
    rw [hnone]
    rfl
  used := fun _ h => Bool.noConfusion h
  paths := fun _ _ h => Bool.noConfusion h

theorem mem_usedSlots {i : Fin openFileCacheMax} : i ∈ usedSlots cfg ↔ i.val < usedMax cfg := by
  unfold usedSlots
  rw [List.mem_filter, decide_eq_true_iff, and_iff_right (List.mem_finRange i)]

theorem card_le_usedMax {slots : Finset (Fin openFileCacheMax)}
    (h : ∀ i ∈ slots, i.val < usedMax cfg) : slots.card ≤ usedMax cfg := by
  have hsub : slots.image Fin.val ⊆ Finset.range (usedMax cfg) := by
    intro n hn
    obtain ⟨i, hi, rfl⟩ := Finset.mem_image.mp hn
    exact Finset.mem_range.mpr (h i hi)
  have hcard := Finset.card_le_card hsub
  rw [Finset.card_image_of_injective _ Fin.val_injective, Finset.card_range] at hcard
  exact hcard

/-- There are at most as many valid entries as slots that are used. -/
theorem CacheInv.count_le (h : CacheInv cfg cache) : cache.count ≤ usedMax cfg := by
  rw [h.count_eq]
  exact card_le_usedMax fun i hi => h.used i (mem_validSlots.mp hi)

/-! ### One entry is replaced -/

@[simp] theorem put_self (cache : OpenFileCache) (i : Fin openFileCacheMax)
    (entry : OpenFileEntry) : (cache.put i entry).entries i = entry := by
  unfold OpenFileCache.put
  exact Function.update_self i entry cache.entries

@[simp] theorem put_of_ne (cache : OpenFileCache) {i j : Fin openFileCacheMax} (h : j ≠ i)
    (entry : OpenFileEntry) : (cache.put i entry).entries j = cache.entries j := by
  unfold OpenFileCache.put
  exact Function.update_of_ne h entry cache.entries

/-- The valid slots behind it. -/
theorem validSlots_put (cache : OpenFileCache) (i : Fin openFileCacheMax) (entry : OpenFileEntry) :
    (cache.put i entry).validSlots =
      if entry.valid then insert i cache.validSlots else cache.validSlots.erase i := by
  ext j
  rw [mem_validSlots]
  by_cases heq : j = i
  · rw [heq, put_self]
    cases entry.valid with
    | true => simp
    | false => simp
  · rw [put_of_ne cache heq]
    cases entry.valid with
    | true => simp [heq, mem_validSlots]
    | false => simp [heq, mem_validSlots]

theorem card_validSlots_put (cache : OpenFileCache) (i : Fin openFileCacheMax)
    (entry : OpenFileEntry) :
    (cache.put i entry).validSlots.card + (if (cache.entries i).valid then 1 else 0) =
      cache.validSlots.card + if entry.valid then 1 else 0 := by
  rw [validSlots_put]
  cases hold : (cache.entries i).valid with
  | true =>
      have hmem : i ∈ cache.validSlots := mem_validSlots.mpr hold
      have hpos : 0 < cache.validSlots.card := Finset.card_pos.mpr ⟨i, hmem⟩
      cases entry.valid with
      | true => rw [if_pos rfl, if_pos rfl, Finset.insert_eq_of_mem hmem]
      | false =>
          rw [if_neg Bool.false_ne_true, if_pos rfl, if_neg Bool.false_ne_true,
            Finset.card_erase_of_mem hmem]
          omega
  | false =>
      have hnot : i ∉ cache.validSlots := by
        rw [mem_validSlots, hold]
        exact Bool.false_ne_true
      cases entry.valid with
      | true =>
          rw [if_pos rfl, if_neg Bool.false_ne_true, if_pos rfl, Finset.card_insert_of_notMem hnot]
      | false =>
          rw [if_neg Bool.false_ne_true, if_neg Bool.false_ne_true, Finset.erase_eq_of_notMem hnot]

/-- The new entry keeps the invariant on its own, and no other valid one holds its path. -/
theorem CacheInv.replace (h : CacheInv cfg cache) {cache' : OpenFileCache}
    {i : Fin openFileCacheMax} {entry : OpenFileEntry}
    (hentries : cache'.entries = (cache.put i entry).entries)
    (hcount : cache'.count = (cache.put i entry).validSlots.card)
    (hvalid : entry.valid = true → 0 ≤ entry.fd ∧ i.val < usedMax cfg)
    (hinvalid : entry.valid = false → entry.fd = -1)
    (hpath : entry.valid = true → ∀ j, j ≠ i → (cache.entries j).valid = true →
      (cache.entries j).relativePath ≠ entry.relativePath) : CacheInv cfg cache' where
  fd_of_valid := by
    rw [hentries]
    intro j hj
    by_cases heq : j = i
    · rw [heq, put_self] at hj ⊢
      exact (hvalid hj).1
    · rw [put_of_ne cache heq] at hj ⊢
      exact h.fd_of_valid j hj
  fd_of_invalid := by
    rw [hentries]
    intro j hj
    by_cases heq : j = i
    · rw [heq, put_self] at hj ⊢
      exact hinvalid hj
    · rw [put_of_ne cache heq] at hj ⊢
      exact h.fd_of_invalid j hj
  count_eq := by
    have hslots : cache'.validSlots = (cache.put i entry).validSlots := by
      unfold OpenFileCache.validSlots
      rw [hentries]
    rw [hslots]
    exact hcount
  used := by
    rw [hentries]
    intro j hj
    by_cases heq : j = i
    · rw [heq, put_self] at hj
      rw [heq]
      exact (hvalid hj).2
    · rw [put_of_ne cache heq] at hj
      exact h.used j hj
  paths := by
    rw [hentries]
    intro j k hj hk hsame
    by_cases hji : j = i
    · by_cases hki : k = i
      · rw [hji, hki]
      · rw [hji, put_self] at hj hsame
        rw [put_of_ne cache hki] at hk hsame
        exact absurd hsame.symm (hpath hj k hki hk)
    · rw [put_of_ne cache hji] at hj hsame
      by_cases hki : k = i
      · rw [hki, put_self] at hk hsame
        exact absurd hsame (hpath hk j hji hj)
      · rw [put_of_ne cache hki] at hk hsame
        exact h.paths j k hj hk hsame

/-! ### Lookups -/

theorem lookupSlot_eq_some {relativePath : Bytes} {i : Fin openFileCacheMax}
    (h : lookupSlot cfg cache relativePath = some i) :
    i.val < usedMax cfg ∧ (cache.entries i).valid = true ∧ 0 ≤ (cache.entries i).fd ∧
      (cache.entries i).relativePath = relativePath := by
  unfold lookupSlot at h
  have hslot := mem_usedSlots.mp (List.mem_of_find?_eq_some h)
  have hfound := List.find?_some h
  rw [Bool.and_eq_true, Bool.and_eq_true, decide_eq_true_iff, decide_eq_true_iff] at hfound
  exact ⟨hslot, hfound.1.1, hfound.1.2, hfound.2⟩

/-- A valid entry is counted out. -/
theorem inv_dropped (h : CacheInv cfg cache) {i : Fin openFileCacheMax}
    (hvalid : (cache.entries i).valid = true) : CacheInv cfg (cache.dropped i) := by
  have hcard := card_validSlots_put cache i .empty
  rw [hvalid, if_pos rfl, show OpenFileEntry.empty.valid = false from rfl,
    if_neg Bool.false_ne_true] at hcard
  refine h.replace rfl ?_ (fun hfalse => Bool.noConfusion hfalse) (fun _ => rfl)
    (fun hfalse => Bool.noConfusion hfalse)
  show (if 0 < cache.count then cache.count - 1 else cache.count) = _
  rw [h.count_eq, if_pos (by omega)]
  omega

/-- Using an entry changes none of its texts. -/
theorem inv_touched (h : CacheInv cfg cache) {i : Fin openFileCacheMax}
    (hvalid : (cache.entries i).valid = true) : CacheInv cfg (cache.touched i) := by
  refine h.replace rfl ?_ (fun _ => ⟨h.fd_of_valid i hvalid, h.used i hvalid⟩)
    (fun hfalse => ?_) fun _ j hne hj hsame => hne (h.paths j i hj hvalid hsame)
  · have hcard := card_validSlots_put cache i { cache.entries i with lastUsed := cache.tick + 1 }
    show cache.count = _
    rw [h.count_eq]
    exact (Nat.add_right_cancel hcard).symm
  · rw [hvalid] at hfalse
    cases hfalse

/-- A lookup that finds no entry. -/
theorem lookup_missing {relativePath : Bytes} (io : LookupIo)
    (h : usesOpenCache cfg site relativePath = false ∨ lookupSlot cfg cache relativePath = none) :
    staticOpenCacheLookup cfg site relativePath io cache = (cache, none) := by
  unfold staticOpenCacheLookup
  split_ifs with huses
  · rfl
  · rw [Bool.not_eq_true', Bool.not_eq_false] at huses
    rcases h with h | h
    · rw [huses] at h
      cases h
    · rw [h]

/-- A lookup that finds an entry: it is dropped, or it is current. -/
theorem lookup_found {relativePath : Bytes} (io : LookupIo) {i : Fin openFileCacheMax}
    (huses : usesOpenCache cfg site relativePath = true)
    (hslot : lookupSlot cfg cache relativePath = some i) :
    (staticOpenCacheLookup cfg site relativePath io cache = (cache.dropped i, none)) ∨
    ∃ fd st, io.opened = some fd ∧ io.stat = some st ∧
      staticOpenCacheLookup cfg site relativePath io cache = (cache.touched i, some (fd, st)) := by
  unfold staticOpenCacheLookup
  rw [huses, Bool.not_true, if_neg Bool.false_ne_true, hslot]
  dsimp only
  cases hopened : io.opened with
  | none => exact Or.inl rfl
  | some fd =>
      dsimp only
      cases hcurrent : entryCurrent (cache.entries i) io.stat with
      | none => exact Or.inl rfl
      | some st =>
          unfold entryCurrent at hcurrent
          exact Or.inr ⟨fd, st, rfl, (Option.filter_eq_some_iff.mp hcurrent).1, rfl⟩

/-- **A lookup keeps the invariant**, whatever the system answers. -/
theorem inv_lookup (h : CacheInv cfg cache) (relativePath : Bytes) (io : LookupIo) :
    CacheInv cfg (staticOpenCacheLookup cfg site relativePath io cache).1 := by
  cases huses : usesOpenCache cfg site relativePath with
  | false =>
      rw [lookup_missing io (Or.inl huses)]
      exact h
  | true =>
      cases hslot : lookupSlot cfg cache relativePath with
      | none =>
          rw [lookup_missing io (Or.inr hslot)]
          exact h
      | some i =>
          have hvalid := (lookupSlot_eq_some hslot).2.1
          rcases lookup_found io huses hslot with heq | ⟨fd, st, -, -, heq⟩
          · rw [heq]
            exact inv_dropped h hvalid
          · rw [heq]
            exact inv_touched h hvalid

/-- So does closing the cache. -/
theorem inv_close (h : CacheInv cfg cache) : CacheInv cfg cache.close where
  fd_of_valid := fun _ hfalse => Bool.noConfusion hfalse
  fd_of_invalid := by
    intro i _
    show (if 0 ≤ (cache.entries i).fd then -1 else (cache.entries i).fd) = -1
    split_ifs with hfd
    · rfl
    · cases hvalid : (cache.entries i).valid with
      | true => exact absurd (h.fd_of_valid i hvalid) hfd
      | false => exact h.fd_of_invalid i hvalid
  count_eq := by
    have hnone : cache.close.validSlots = ∅ :=
      Finset.filter_false_of_mem fun _ _ hfalse => Bool.noConfusion hfalse
    rw [hnone]
    rfl
  used := fun _ hfalse => Bool.noConfusion hfalse
  paths := fun _ _ hfalse => Bool.noConfusion hfalse

/-! ### Stores -/

/-- The loop stops at this slot: it is free, or holds the path. -/
def StopsAt (cache : OpenFileCache) (relativePath : Bytes) (i : Fin openFileCacheMax) : Prop :=
  (cache.entries i).valid = false ∨ (cache.entries i).relativePath = relativePath

theorem not_stopsAt {relativePath : Bytes} {i : Fin openFileCacheMax}
    (hsame : ¬ ((cache.entries i).valid && (cache.entries i).relativePath = relativePath) = true)
    (hfree : ¬ (!(cache.entries i).valid) = true) : ¬ StopsAt cache relativePath i := by
  rw [Bool.not_eq_true', Bool.not_eq_false] at hfree
  rw [hfree, Bool.true_and, decide_eq_true_iff] at hsame
  rintro (hinvalid | hpath)
  · rw [hfree] at hinvalid
    cases hinvalid
  · exact hsame hpath

/-- The loop finds a slot at which it stops, or else the oldest entry. -/
theorem storeSearch_cases (relativePath : Bytes) (slots : List (Fin openFileCacheMax))
    (slot : Option (Fin openFileCacheMax)) (oldest : UInt64) :
    (∃ i ∈ slots, storeSearch cache.entries relativePath slots slot oldest = some i ∧
      StopsAt cache relativePath i) ∨
    ((∀ i ∈ slots, ¬ StopsAt cache relativePath i) ∧
      ((∃ i ∈ slots, storeSearch cache.entries relativePath slots slot oldest = some i ∧
        (cache.entries i).lastUsed < oldest ∧
        ∀ j ∈ slots, (cache.entries i).lastUsed ≤ (cache.entries j).lastUsed) ∨
      (storeSearch cache.entries relativePath slots slot oldest = slot ∧
        ∀ j ∈ slots, oldest ≤ (cache.entries j).lastUsed))) := by
  induction slots generalizing slot oldest with
  | nil =>
      exact Or.inr ⟨fun _ h => absurd h List.not_mem_nil,
        Or.inr ⟨rfl, fun _ h => absurd h List.not_mem_nil⟩⟩
  | cons i slots ih =>
      have hall : ∀ {p : Fin openFileCacheMax → Prop}, p i → (∀ j ∈ slots, p j) →
          ∀ j ∈ i :: slots, p j := fun hi hslots j hj => by
        rcases List.mem_cons.mp hj with rfl | hj
        · exact hi
        · exact hslots j hj
      unfold storeSearch
      split_ifs with hsame hfree hless
      · rw [Bool.and_eq_true, decide_eq_true_iff] at hsame
        exact Or.inl ⟨i, List.mem_cons_self, rfl, Or.inr hsame.2⟩
      · rw [Bool.not_eq_true'] at hfree
        exact Or.inl ⟨i, List.mem_cons_self, rfl, Or.inl hfree⟩
      · have hstay : ¬ StopsAt cache relativePath i :=
          not_stopsAt hsame hfree
        rcases ih (some i) (cache.entries i).lastUsed with ⟨j, hj, heq, hstops⟩ |
          ⟨hnone, ⟨j, hj, heq, hlt, hmin⟩ | ⟨heq, hmin⟩⟩
        · exact Or.inl ⟨j, List.mem_cons_of_mem i hj, heq, hstops⟩
        · exact Or.inr ⟨hall hstay hnone, Or.inl ⟨j, List.mem_cons_of_mem i hj, heq,
            UInt64.lt_trans hlt hless, hall (UInt64.le_of_lt hlt) hmin⟩⟩
        · exact Or.inr ⟨hall hstay hnone, Or.inl ⟨i, List.mem_cons_self, heq, hless,
            hall (UInt64.le_refl _) hmin⟩⟩
      · have hstay : ¬ StopsAt cache relativePath i :=
          not_stopsAt hsame hfree
        have hle : oldest ≤ (cache.entries i).lastUsed := UInt64.not_lt.mp hless
        rcases ih slot oldest with ⟨j, hj, heq, hstops⟩ |
          ⟨hnone, ⟨j, hj, heq, hlt, hmin⟩ | ⟨heq, hmin⟩⟩
        · exact Or.inl ⟨j, List.mem_cons_of_mem i hj, heq, hstops⟩
        · exact Or.inr ⟨hall hstay hnone, Or.inl ⟨j, List.mem_cons_of_mem i hj, heq, hlt,
            hall (UInt64.le_trans (UInt64.le_of_lt hlt) hle) hmin⟩⟩
        · exact Or.inr ⟨hall hstay hnone, Or.inr ⟨heq, hall hle hmin⟩⟩

theorem filledSlot_eq_some {relativePath : Bytes} {fd : ℤ} {st : Fstat} {i : Fin openFileCacheMax}
    (h : filledSlot cfg site relativePath fd st cache = some i) :
    i.val < usedMax cfg ∧ storeSlot cfg cache relativePath = some i := by
  unfold filledSlot at h
  split_ifs at h
  refine ⟨?_, h⟩
  unfold storeSlot at h
  rcases @storeSearch_cases cache relativePath (usedSlots cfg) none
    (UInt64.ofNat (2 ^ 64 - 1)) with ⟨j, hj, heq, -⟩ | ⟨-, ⟨j, hj, heq, -⟩ | ⟨heq, -⟩⟩
  · rw [heq] at h
    exact Option.some.inj h ▸ mem_usedSlots.mp hj
  · rw [heq] at h
    exact Option.some.inj h ▸ mem_usedSlots.mp hj
  · rw [heq] at h
    cases h

/-- A store that keeps the invariant: no other valid entry holds the key that is stored, and `dup`
does not fail when the slot is valid. -/
structure SoundStore (cache : OpenFileCache) (relativePath : Bytes) (dup : Option ℕ)
    (i : Fin openFileCacheMax) : Prop where
  key : dup.isSome = true → ∀ j, j ≠ i → (cache.entries j).valid = true →
    (cache.entries j).relativePath ≠ safeCopy 512 relativePath
  dup_or_free : dup = none → (cache.entries i).valid = false

/-- The counter behind a store. -/
theorem count_storeAt (h : CacheInv cfg cache) {i : Fin openFileCacheMax} (hi : i.val < usedMax cfg)
    (entry : OpenFileEntry) (hentry : entry.valid = true) :
    (if !(cache.entries i).valid && cache.count < usedMax cfg then cache.count + 1
      else cache.count) = (cache.put i entry).validSlots.card := by
  have hcard := card_validSlots_put cache i entry
  rw [hentry, if_pos rfl, ← h.count_eq] at hcard
  cases hvalid : (cache.entries i).valid with
  | true =>
      rw [hvalid, if_pos rfl] at hcard
      rw [Bool.not_true, Bool.false_and, if_neg Bool.false_ne_true]
      exact (Nat.add_right_cancel hcard).symm
  | false =>
      rw [hvalid, if_neg Bool.false_ne_true] at hcard
      -- the slot is free, so that not all of them are counted
      have hroom : (cache.put i entry).validSlots.card ≤ usedMax cfg := by
        apply card_le_usedMax
        intro j hj
        by_cases heq : j = i
        · rw [heq]
          exact hi
        · rw [mem_validSlots, put_of_ne cache heq] at hj
          exact h.used j hj
      rw [Bool.not_false, Bool.true_and, if_pos (decide_eq_true (by omega))]
      exact hcard.symm

/-- **Exactly when a store keeps the invariant.** -/
theorem inv_storeAt_iff (h : CacheInv cfg cache) {i : Fin openFileCacheMax}
    (hi : i.val < usedMax cfg) (relativePath : Bytes) (st : Fstat) (dup : Option ℕ) :
    CacheInv cfg (storeAt cfg cache i relativePath st dup) ↔
      SoundStore cache relativePath dup i := by
  cases dup with
  | none =>
      cases hvalid : (cache.entries i).valid with
      | false =>
          have hsame : storeAt cfg cache i relativePath st none = cache := by
            unfold storeAt
            rw [hvalid]
            rfl
          rw [hsame]
          exact iff_of_true h ⟨fun hsome => Bool.noConfusion hsome, fun _ => hvalid⟩
      | true =>
          have hput : storeAt cfg cache i relativePath st none = cache.put i .empty := by
            unfold storeAt
            rw [hvalid]
            rfl
          rw [hput]
          refine iff_of_false (fun hinv => ?_) fun hsound => ?_
          · -- the counter still counts the entry
            have hcard := card_validSlots_put cache i .empty
            have hcount : cache.count = (cache.put i .empty).validSlots.card := hinv.count_eq
            rw [hvalid, if_pos rfl, show OpenFileEntry.empty.valid = false from rfl,
              if_neg Bool.false_ne_true, ← hcount, ← h.count_eq] at hcard
            omega
          · have hfree := hsound.dup_or_free rfl
            rw [hvalid] at hfree
            cases hfree
  | some fd =>
      set entry : OpenFileEntry :=
        ⟨true, safeCopy 512 relativePath, fd, st.toCachedStat, cache.tick + 1⟩
      have hentries : (storeAt cfg cache i relativePath st (some fd)).entries =
          (cache.put i entry).entries := rfl
      constructor
      · intro hinv
        refine ⟨fun _ j hne hj hsame => hne ?_, fun hnone => absurd hnone (Option.some_ne_none _)⟩
        have hpaths := hinv.paths j i
        rw [hentries, put_self, put_of_ne cache hne] at hpaths
        exact hpaths hj rfl hsame
      · intro hsound
        refine h.replace hentries ?_ (fun _ => ⟨Int.natCast_nonneg fd, hi⟩)
          (fun hfalse => Bool.noConfusion hfalse) fun _ j hne hj => hsound.key rfl j hne hj
        exact count_storeAt h hi entry rfl

/-! ### Runs -/

/-- A call of one of the three functions, with what the system answers. -/
inductive CacheEvent where
  | lookup (relativePath : Bytes) (io : LookupIo)
  | store (relativePath : Bytes) (fd : ℤ) (st : Fstat) (dup : Option ℕ)
  | close

/-- The cache behind a call. -/
def CacheEvent.step (cfg : OpenCacheConfig) (site : Site) (cache : OpenFileCache) :
    CacheEvent → OpenFileCache
  | .lookup relativePath io => (staticOpenCacheLookup cfg site relativePath io cache).1
  | .store relativePath fd st dup => staticOpenCacheStore cfg site relativePath fd st dup cache
  | .close => cache.close

/-- A slot is used: it goes to the end. -/
def usedLast (i : Fin openFileCacheMax) (order : List (Fin openFileCacheMax)) :
    List (Fin openFileCacheMax) :=
  order.erase i ++ [i]

/-- The valid slots in the order of their last use, behind a call. -/
def CacheEvent.order (cfg : OpenCacheConfig) (site : Site) (cache : OpenFileCache)
    (order : List (Fin openFileCacheMax)) : CacheEvent → List (Fin openFileCacheMax)
  | .lookup relativePath io =>
      if usesOpenCache cfg site relativePath then
        match lookupSlot cfg cache relativePath with
        | none => order
        | some i =>
            if (staticOpenCacheLookup cfg site relativePath io cache).2.isSome then usedLast i order
            else order.erase i
      else order
  | .store relativePath fd st dup =>
      match filledSlot cfg site relativePath fd st cache with
      | none => order
      | some i => if dup.isSome then usedLast i order else order.erase i
  | .close => []

/-- A cache with the order of the last uses. -/
structure UsedCache where
  cache : OpenFileCache
  order : List (Fin openFileCacheMax)

/-- Both behind a call. -/
def UsedCache.step (cfg : OpenCacheConfig) (site : Site) (s : UsedCache) (event : CacheEvent) :
    UsedCache :=
  ⟨event.step cfg site s.cache, event.order cfg site s.cache s.order⟩

/-- A run of calls on the cache of a site. -/
def UsedCache.run (cfg : OpenCacheConfig) (site : Site) (s : UsedCache) (events : List CacheEvent) :
    UsedCache :=
  events.foldl (UsedCache.step cfg site) s

/-- The cache at the start. -/
def UsedCache.initial : UsedCache := ⟨.initial, []⟩

/-- The stamps are in the order of the last uses. -/
structure InOrder (s : UsedCache) : Prop where
  mem_iff : ∀ i, i ∈ s.order ↔ (s.cache.entries i).valid = true
  sorted : s.order.Pairwise fun i j => (s.cache.entries i).lastUsed < (s.cache.entries j).lastUsed
  le_tick : ∀ i ∈ s.order, (s.cache.entries i).lastUsed ≤ s.cache.tick

/-- A call that keeps the invariant: the condition on a store, and the clock does not wrap. -/
structure SoundCall (cfg : OpenCacheConfig) (site : Site) (cache : OpenFileCache)
    (event : CacheEvent) : Prop where
  store : ∀ relativePath fd st dup i, event = .store relativePath fd st dup →
    filledSlot cfg site relativePath fd st cache = some i → SoundStore cache relativePath dup i
  tick : cache.tick.toNat + 1 < 2 ^ 64

/-- Every call of a run is sound where it happens. -/
def SoundRun (cfg : OpenCacheConfig) (site : Site) : UsedCache → List CacheEvent → Prop
  | _, [] => True
  | s, event :: events =>
      SoundCall cfg site s.cache event ∧ SoundRun cfg site (s.step cfg site event) events

/-- **A sound call keeps the invariant.** -/
theorem cacheInv_step (h : CacheInv cfg cache) {event : CacheEvent}
    (hsound : SoundCall cfg site cache event) : CacheInv cfg (event.step cfg site cache) := by
  cases event with
  | lookup relativePath io => exact inv_lookup h relativePath io
  | store relativePath fd st dup =>
      show CacheInv cfg (staticOpenCacheStore cfg site relativePath fd st dup cache)
      unfold staticOpenCacheStore
      cases hfilled : filledSlot cfg site relativePath fd st cache with
      | none => exact h
      | some i =>
          exact (inv_storeAt_iff h (filledSlot_eq_some hfilled).1 relativePath st dup).mpr
            (hsound.store _ _ _ _ i rfl hfilled)
  | close => exact inv_close h

/-! ### The order of the last uses -/

variable {order : List (Fin openFileCacheMax)}

theorem InOrder.nodup (h : InOrder ⟨cache, order⟩) : order.Nodup :=
  h.sorted.imp fun hlt heq => absurd (heq ▸ hlt) (UInt64.lt_irrefl _)

theorem mem_erase_iff (h : InOrder ⟨cache, order⟩) (i j : Fin openFileCacheMax) :
    j ∈ order.erase i ↔ j ≠ i ∧ j ∈ order :=
  h.nodup.mem_erase_iff

/-- An entry is invalidated, or is invalid already. -/
theorem InOrder.erase (h : InOrder ⟨cache, order⟩) {cache' : OpenFileCache}
    {i : Fin openFileCacheMax} (hothers : ∀ j, j ≠ i → cache'.entries j = cache.entries j)
    (hinvalid : (cache'.entries i).valid = false) (htick : cache'.tick = cache.tick) :
    InOrder ⟨cache', order.erase i⟩ where
  mem_iff := by
    intro j
    rw [mem_erase_iff h]
    by_cases heq : j = i
    · rw [heq, hinvalid]
      exact iff_of_false (fun hne => hne.1 rfl) Bool.false_ne_true
    · rw [hothers j heq, and_iff_right heq]
      exact h.mem_iff j
  sorted := by
    refine (h.sorted.sublist List.erase_sublist).imp_of_mem fun {a b} ha hb hlt => ?_
    rw [hothers a ((mem_erase_iff h i a).mp ha).1, hothers b ((mem_erase_iff h i b).mp hb).1]
    exact hlt
  le_tick := by
    intro j hj
    obtain ⟨hne, hmem⟩ := (mem_erase_iff h i j).mp hj
    rw [hothers j hne, htick]
    exact h.le_tick j hmem

theorem lt_tick_add_one {a tick : UInt64} (h : a ≤ tick) (htick : tick.toNat + 1 < 2 ^ 64) :
    a < tick + 1 := by
  rw [UInt64.lt_iff_toNat_lt, UInt64.toNat_add]
  rw [UInt64.le_iff_toNat_le] at h
  rw [show (1 : UInt64).toNat = 1 from rfl, Nat.mod_eq_of_lt htick]
  omega

/-- An entry is used: it has the newest stamp. -/
theorem InOrder.used (h : InOrder ⟨cache, order⟩) {cache' : OpenFileCache}
    {i : Fin openFileCacheMax} (hothers : ∀ j, j ≠ i → cache'.entries j = cache.entries j)
    (hvalid : (cache'.entries i).valid = true)
    (hstamp : (cache'.entries i).lastUsed = cache.tick + 1) (htick : cache'.tick = cache.tick + 1)
    (hwrap : cache.tick.toNat + 1 < 2 ^ 64) : InOrder ⟨cache', usedLast i order⟩ where
  mem_iff := by
    intro j
    unfold usedLast
    rw [List.mem_append, mem_erase_iff h, List.mem_singleton]
    by_cases heq : j = i
    · rw [heq]
      exact iff_of_true (Or.inr rfl) hvalid
    · rw [hothers j heq, or_iff_left heq, and_iff_right heq]
      exact h.mem_iff j
  sorted := by
    unfold usedLast
    rw [List.pairwise_append]
    refine ⟨?_, List.pairwise_singleton _ _, ?_⟩
    · refine (h.sorted.sublist List.erase_sublist).imp_of_mem fun {a b} ha hb hlt => ?_
      rw [hothers a ((mem_erase_iff h i a).mp ha).1, hothers b ((mem_erase_iff h i b).mp hb).1]
      exact hlt
    · intro j hj k hk
      obtain ⟨hne, hmem⟩ := (mem_erase_iff h i j).mp hj
      rw [List.mem_singleton.mp hk, hstamp, hothers j hne]
      exact lt_tick_add_one (h.le_tick j hmem) hwrap
  le_tick := by
    intro j hj
    rw [htick]
    rcases List.mem_append.mp hj with hj | hj
    · obtain ⟨hne, hmem⟩ := (mem_erase_iff h i j).mp hj
      rw [hothers j hne]
      exact UInt64.le_of_lt (lt_tick_add_one (h.le_tick j hmem) hwrap)
    · rw [List.mem_singleton.mp hj, hstamp]
      exact UInt64.le_refl _

theorem inOrder_initial : InOrder .initial where
  mem_iff := fun _ => iff_of_false List.not_mem_nil Bool.false_ne_true
  sorted := List.Pairwise.nil
  le_tick := fun _ h => absurd h List.not_mem_nil

theorem inOrder_lookup (h : InOrder ⟨cache, order⟩) (relativePath : Bytes) (io : LookupIo)
    (htick : cache.tick.toNat + 1 < 2 ^ 64) :
    InOrder (UsedCache.step cfg site ⟨cache, order⟩ (.lookup relativePath io)) := by
  unfold UsedCache.step CacheEvent.step CacheEvent.order
  dsimp only
  cases huses : usesOpenCache cfg site relativePath with
  | false =>
      rw [lookup_missing io (Or.inl huses), if_neg Bool.false_ne_true]
      exact h
  | true =>
      rw [if_pos rfl]
      cases hslot : lookupSlot cfg cache relativePath with
      | none =>
          rw [lookup_missing io (Or.inr hslot)]
          exact h
      | some i =>
          rcases lookup_found io huses hslot with heq | ⟨fd, st, -, -, heq⟩
          · rw [heq]
            exact h.erase (fun j hne => put_of_ne cache hne _)
              (congrArg OpenFileEntry.valid (put_self cache i .empty)) rfl
          · rw [heq]
            have hself := put_self cache i { cache.entries i with lastUsed := cache.tick + 1 }
            exact h.used (fun j hne => put_of_ne cache hne _)
              ((congrArg OpenFileEntry.valid hself).trans (lookupSlot_eq_some hslot).2.1)
              (congrArg OpenFileEntry.lastUsed hself) rfl htick

theorem inOrder_store (h : InOrder ⟨cache, order⟩) (relativePath : Bytes) (fd : ℤ) (st : Fstat)
    (dup : Option ℕ) (htick : cache.tick.toNat + 1 < 2 ^ 64) :
    InOrder (UsedCache.step cfg site ⟨cache, order⟩ (.store relativePath fd st dup)) := by
  unfold UsedCache.step CacheEvent.step CacheEvent.order staticOpenCacheStore
  dsimp only
  cases hfilled : filledSlot cfg site relativePath fd st cache with
  | none => exact h
  | some i =>
      unfold storeAt
      cases dup with
      | some cached =>
          have hself := put_self cache i
            ⟨true, safeCopy 512 relativePath, cached, st.toCachedStat, cache.tick + 1⟩
          exact h.used (fun j hne => put_of_ne cache hne _) (congrArg OpenFileEntry.valid hself)
            (congrArg OpenFileEntry.lastUsed hself) rfl htick
      | none =>
          dsimp only
          cases hvalid : (cache.entries i).valid with
          | true =>
              exact h.erase (fun j hne => put_of_ne cache hne _)
                (congrArg OpenFileEntry.valid (put_self cache i .empty)) rfl
          | false => exact h.erase (fun _ _ => rfl) hvalid rfl

/-- **Every call keeps the stamps in order**, until the clock wraps. -/
theorem inOrder_step {s : UsedCache} (h : InOrder s) (event : CacheEvent)
    (htick : s.cache.tick.toNat + 1 < 2 ^ 64) : InOrder (s.step cfg site event) := by
  cases event with
  | lookup relativePath io => exact inOrder_lookup h relativePath io htick
  | store relativePath fd st dup => exact inOrder_store h relativePath fd st dup htick
  | close =>
      exact ⟨fun _ => iff_of_false List.not_mem_nil Bool.false_ne_true, List.Pairwise.nil,
        fun _ hmem => absurd hmem List.not_mem_nil⟩

/-- Both invariants hold over every run of sound calls. -/
theorem inv_run {s : UsedCache} (hinv : CacheInv cfg s.cache) (horder : InOrder s)
    {events : List CacheEvent} (hsound : SoundRun cfg site s events) :
    CacheInv cfg (s.run cfg site events).cache ∧ InOrder (s.run cfg site events) := by
  induction events generalizing s with
  | nil => exact ⟨hinv, horder⟩
  | cons event events ih =>
      obtain ⟨hcall, hrest⟩ := hsound
      exact ih (cacheInv_step hinv hcall) (inOrder_step horder event hcall.tick) hrest

/-! ### A full array -/

/-- All slots that are used are valid, and none of them holds the path. -/
def FullWithout (cfg : OpenCacheConfig) (cache : OpenFileCache) (relativePath : Bytes) : Prop :=
  ∀ i, i.val < usedMax cfg →
    (cache.entries i).valid = true ∧ (cache.entries i).relativePath ≠ relativePath

/-- The first slot in the order of the last uses is filled, and no other entry changes. -/
def EvictsOldest (cfg : OpenCacheConfig) (site : Site) (s : UsedCache) (relativePath : Bytes)
    (fd : ℤ) (st : Fstat) (dup : Option ℕ) : Prop :=
  ∃ i rest, s.order = i :: rest ∧
    ((staticOpenCacheStore cfg site relativePath fd st dup s.cache).entries i).relativePath =
      (if dup.isSome then safeCopy 512 relativePath else []) ∧
    ((staticOpenCacheStore cfg site relativePath fd st dup s.cache).entries i).valid = dup.isSome ∧
    ∀ j, j ≠ i → (staticOpenCacheStore cfg site relativePath fd st dup s.cache).entries j =
      s.cache.entries j

theorem usedMax_le_max (cfg : OpenCacheConfig) : usedMax cfg ≤ cfg.max := by
  unfold usedMax
  split_ifs with h
  · exact h.le
  · exact le_rfl

/-- The slot with the oldest stamp. -/
theorem oldestSlot {s : UsedCache} (horder : InOrder s) (htick : s.cache.tick.toNat + 1 < 2 ^ 64)
    {relativePath : Bytes} (huses : usesOpenCache cfg site relativePath = true)
    (hfull : FullWithout cfg s.cache relativePath) :
    ∃ i, i.val < usedMax cfg ∧ storeSlot cfg s.cache relativePath = some i ∧
      ∀ j, j.val < usedMax cfg → (s.cache.entries i).lastUsed ≤ (s.cache.entries j).lastUsed := by
  have hstays : ∀ i ∈ usedSlots cfg, ¬ StopsAt s.cache relativePath i := by
    intro i hi hstops
    obtain ⟨hvalid, hpath⟩ := hfull i (mem_usedSlots.mp hi)
    rcases hstops with hinvalid | hsame
    · rw [hvalid] at hinvalid
      cases hinvalid
    · exact hpath hsame
  unfold storeSlot
  rcases @storeSearch_cases s.cache relativePath (usedSlots cfg) none
    (UInt64.ofNat (2 ^ 64 - 1)) with ⟨i, hi, -, hstops⟩ | ⟨-, ⟨i, hi, heq, -, hmin⟩ | ⟨-, hmax⟩⟩
  · exact absurd hstops (hstays i hi)
  · exact ⟨i, mem_usedSlots.mp hi, heq, fun j hj => hmin j (mem_usedSlots.mpr hj)⟩
  · -- the first entry was stamped before the clock ran out
    have hpos : 0 < usedMax cfg := by
      unfold usesOpenCache at huses
      rw [Bool.and_eq_true, Bool.and_eq_true, decide_eq_true_iff] at huses
      unfold usedMax openFileCacheMax
      split_ifs <;> omega
    obtain ⟨first, hfirst⟩ : ∃ i : Fin openFileCacheMax, i.val < usedMax cfg :=
      ⟨⟨0, by decide⟩, hpos⟩
    have hstamp := horder.le_tick first ((horder.mem_iff first).mpr (hfull first hfirst).1)
    have hlast := hmax first (mem_usedSlots.mpr hfirst)
    rw [UInt64.le_iff_toNat_le] at hstamp hlast
    rw [show (UInt64.ofNat (2 ^ 64 - 1)).toNat = 2 ^ 64 - 1 from rfl] at hlast
    omega

/-- **A store of a new path in a full array gives up the oldest entry.** -/
theorem evictsOldest {s : UsedCache} (hinv : CacheInv cfg s.cache) (horder : InOrder s)
    (htick : s.cache.tick.toNat + 1 < 2 ^ 64) {relativePath : Bytes} {fd : ℤ} {st : Fstat}
    (dup : Option ℕ) (huses : usesOpenCache cfg site relativePath = true) (hfd : 0 ≤ fd)
    (hregular : st.regular = true) (hfull : FullWithout cfg s.cache relativePath) :
    EvictsOldest cfg site s relativePath fd st dup := by
  obtain ⟨i, hi, hslot, hmin⟩ := oldestSlot horder htick huses hfull
  have hfilled : filledSlot cfg site relativePath fd st s.cache = some i := by
    unfold filledSlot
    rw [huses, hregular, Bool.true_and, Bool.and_true, if_pos (decide_eq_true hfd), hslot]
  have hvalid := (hfull i hi).1
  obtain ⟨first, rest, horder'⟩ := List.exists_cons_of_ne_nil
    (List.ne_nil_of_mem ((horder.mem_iff i).mpr hvalid))
  have hfirst : first = i := by
    by_contra hne
    have hmem : i ∈ rest := by
      have hi' := (horder.mem_iff i).mpr hvalid
      rw [horder'] at hi'
      exact (List.mem_cons.mp hi').resolve_left (Ne.symm hne)
    have hsorted := horder.sorted
    rw [horder'] at hsorted
    have hlt := (List.pairwise_cons.mp hsorted).1 i hmem
    have hvalid' : (s.cache.entries first).valid = true := by
      rw [← horder.mem_iff, horder']
      exact List.mem_cons_self
    exact absurd hlt (UInt64.not_lt.mpr (hmin first (hinv.used first hvalid')))
  refine ⟨i, rest, by rw [horder', hfirst], ?_⟩
  unfold staticOpenCacheStore
  rw [hfilled]
  unfold storeAt
  cases dup with
  | none =>
      have hself := put_self s.cache i .empty
      dsimp only
      rw [hvalid, if_pos rfl]
      exact ⟨congrArg OpenFileEntry.relativePath hself, congrArg OpenFileEntry.valid hself,
        fun j hne => put_of_ne s.cache hne _⟩
  | some cached =>
      have hself := put_self s.cache i
        ⟨true, safeCopy 512 relativePath, cached, st.toCachedStat, s.cache.tick + 1⟩
      exact ⟨congrArg OpenFileEntry.relativePath hself, congrArg OpenFileEntry.valid hself,
        fun j hne => put_of_ne s.cache hne _⟩

/-- **The invariant of the open-file cache**: over every run of sound calls, and a full array gives
up the entry whose last use is the oldest. -/
theorem open_cache_invariant (cfg : OpenCacheConfig) (site : Site) {events : List CacheEvent}
    (hsound : SoundRun cfg site .initial events) :
    let s := UsedCache.initial.run cfg site events
    CacheInv cfg s.cache ∧ s.cache.count ≤ cfg.max ∧ InOrder s ∧
      ∀ relativePath fd st dup, s.cache.tick.toNat + 1 < 2 ^ 64 →
        usesOpenCache cfg site relativePath = true → 0 ≤ fd → st.regular = true →
        FullWithout cfg s.cache relativePath → EvictsOldest cfg site s relativePath fd st dup := by
  intro s
  obtain ⟨hinv, horder⟩ := inv_run (inv_initial cfg) inOrder_initial hsound
  refine ⟨hinv, hinv.count_le.trans (usedMax_le_max cfg), horder, ?_⟩
  intro relativePath fd st dup htick huses hfd hregular hfull
  exact evictsOldest hinv horder htick dup huses hfd hregular hfull

/-! ### Calls that break it -/

/-- The cache is on, with one slot. -/
def oneSlot : OpenCacheConfig := ⟨true, 1⟩

/-- A regular file. -/
def regularStat : Fstat := ⟨⟨5, 1000, 7⟩, true⟩

/-- A path is stored and used, and another one is stored over it. -/
def overwritingRun (dup : Option ℕ) : List CacheEvent :=
  [.store (ascii "a.html") 5 regularStat (some 6),
    .lookup (ascii "a.html") ⟨some 7, some regularStat⟩,
    .store (ascii "b.html") 5 regularStat dup]

/-- With one slot, no store finds its path in another one. -/
theorem soundCall_oneSlot {site : Site} {cache : OpenFileCache} (h : CacheInv oneSlot cache)
    (htick : cache.tick.toNat + 1 < 2 ^ 64) {event : CacheEvent}
    (hdup : ∀ relativePath fd st, event ≠ .store relativePath fd st none) :
    SoundCall oneSlot site cache event where
  store := by
    intro relativePath fd st dup i heq hfilled
    have hi : i.val < 1 := (filledSlot_eq_some hfilled).1
    refine ⟨fun _ j hne hj => absurd (Fin.ext ?_) hne, fun hnone => ?_⟩
    · have hj' : j.val < 1 := h.used j hj
      omega
    · rw [hnone] at heq
      exact absurd heq (hdup relativePath fd st)
  tick := htick

theorem soundRun_overwriting : SoundRun oneSlot {} .initial (overwritingRun (some 8)) := by
  have h₀ := inv_initial oneSlot
  have hcall₁ : SoundCall oneSlot {} UsedCache.initial.cache
      (.store (ascii "a.html") 5 regularStat (some 6)) :=
    soundCall_oneSlot h₀ (by decide +kernel) (by intro _ _ _ heq; cases heq)
  have h₁ := cacheInv_step h₀ hcall₁
  have hcall₂ := @soundCall_oneSlot {} _ h₁ (by decide +kernel)
    (.lookup (ascii "a.html") ⟨some 7, some regularStat⟩) (by intro _ _ _ heq; cases heq)
  have h₂ := cacheInv_step h₁ hcall₂
  have hcall₃ := @soundCall_oneSlot {} _ h₂ (by decide +kernel)
    (.store (ascii "b.html") 5 regularStat (some 8)) (by intro _ _ _ heq; cases heq)
  exact ⟨hcall₁, hcall₂, hcall₃, trivial⟩

theorem open_cache_invariant_overwriting :
    let s := UsedCache.initial.run oneSlot {} (overwritingRun (some 8))
    CacheInv oneSlot s.cache ∧ s.cache.count ≤ 1 ∧ InOrder s ∧
      ∀ relativePath fd st dup, s.cache.tick.toNat + 1 < 2 ^ 64 →
        usesOpenCache oneSlot {} relativePath = true → 0 ≤ fd → st.regular = true →
        FullWithout oneSlot s.cache relativePath →
        EvictsOldest oneSlot {} s relativePath fd st dup :=
  open_cache_invariant oneSlot {} soundRun_overwriting

/-- When `dup` fails over a valid entry, the counter is not put back. -/
theorem count_drifts :
    let s := UsedCache.initial.run oneSlot {} (overwritingRun none)
    s.cache.count = 1 ∧ s.cache.validSlots.card = 0 ∧ ¬ CacheInv oneSlot s.cache := by
  have hcount : (UsedCache.initial.run oneSlot {} (overwritingRun none)).cache.count = 1 := by
    decide +kernel
  have hcard :
      (UsedCache.initial.run oneSlot {} (overwritingRun none)).cache.validSlots.card = 0 := by
    decide +kernel
  refine ⟨hcount, hcard, fun hinv => ?_⟩
  have heq := hinv.count_eq
  rw [hcount, hcard] at heq
  cases heq

/-- The first two slots. -/
def firstSlot : Fin openFileCacheMax := ⟨0, by decide⟩

@[inherit_doc firstSlot]
def secondSlot : Fin openFileCacheMax := ⟨1, by decide⟩

/-- A path behind a slot that has become free is stored in that slot as well. -/
def doubledRun : List CacheEvent :=
  [.store (ascii "a.html") 5 regularStat (some 6), .store (ascii "b.html") 5 regularStat (some 7),
    .lookup (ascii "a.html") ⟨none, none⟩, .store (ascii "b.html") 5 regularStat (some 8)]

theorem path_held_twice :
    let s := UsedCache.initial.run ⟨true, 2⟩ {} doubledRun
    (s.cache.entries firstSlot).valid = true ∧ (s.cache.entries secondSlot).valid = true ∧
      (s.cache.entries firstSlot).relativePath = ascii "b.html" ∧
      (s.cache.entries secondSlot).relativePath = ascii "b.html" := by
  decide +kernel

/-- So is a path that the field cuts off. -/
theorem cut_path_held_twice :
    let path : Bytes := List.replicate 600 97
    let s := UsedCache.initial.run ⟨true, 2⟩ {}
      [.store path 5 regularStat (some 6), .store path 5 regularStat (some 7)]
    (s.cache.entries firstSlot).valid = true ∧ (s.cache.entries secondSlot).valid = true ∧
      (s.cache.entries firstSlot).relativePath = (s.cache.entries secondSlot).relativePath := by
  decide +kernel

end Rpsiod

import Rpsiod.Server.OpenFileCache
import Rpsiod.Server.Static

/-!
# The metadata cache of a site (`static_meta_lookup`, `static_meta_store`, `static_meta_get`)

A ring of entries, each with the first 511 bytes of the path that it was stored for, and what was
computed from the whole path.

* `RingInv`: every valid entry is what a store for its path makes.
* `staticMetaGet_direct_iff`: in every state that a run reaches, a call gives what is computed from
  its own path and file, **unless it finds the entry of a longer path**.
* `staticMetaGet_entry`: the entry is one that `MetaEntry` allows, as `serve_static` takes it.
-/

namespace Rpsiod

/-- `RPSIOD_STATIC_META_CACHE`. -/
def staticMetaCacheSize : ℕ := 128

/-- `rpsiod_static_meta_cache_entry`. -/
structure MetaSlot where
  valid : Bool
  relativePath : Bytes
  mime : Bytes
  etag : Bytes
  stat : CachedStat
  blocked : Bool
  hasBr : Bool
  hasGzip : Bool

/-- The fields `static_meta_cache` and `static_meta_clock` of a site. -/
structure MetaRing where
  entries : Fin staticMetaCacheSize → MetaSlot
  clock : ℕ

/-- `site_defaults`. -/
def MetaRing.initial : MetaRing := ⟨fun _ => ⟨false, [], [], [], ⟨0, 0, 0⟩, false, false, false⟩, 0⟩

/-- A call of `static_meta_get`, and which variants `static_meta_store_variant` would find. -/
structure MetaCall where
  relativePath : Bytes
  stat : CachedStat
  hasBr : Bool
  hasGzip : Bool

/-- A number as an `unsigned long long`. -/
def asUnsigned (n : ℤ) : ℕ := (n % 18446744073709551616).toNat

/-- The entity tag, as `static_meta_store` writes it. -/
def metaEtag (st : CachedStat) : Bytes :=
  ascii "W/\"" ++ hexadecimal st.inode ++ ascii "-" ++ hexadecimal (asUnsigned st.size) ++
    ascii "-" ++ hexadecimal (asUnsigned st.mtime) ++ ascii "\""

/-- The flag `blocked`, as `static_meta_store` sets it. -/
def metaBlocked (site : Site) (relativePath : Bytes) : Bool :=
  (47 :: relativePath).length < 4096 && blockedDirectAccess site (47 :: relativePath)

/-! ### `static_meta_get` -/

/-- An entry is replaced. -/
def MetaRing.put (ring : MetaRing) (i : Fin staticMetaCacheSize) (slot : MetaSlot) : MetaRing :=
  { ring with entries := Function.update ring.entries i slot }

/-- The entry that the loop of `static_meta_lookup` stops at. -/
def metaSlot (ring : MetaRing) (relativePath : Bytes) : Option (Fin staticMetaCacheSize) :=
  (List.finRange staticMetaCacheSize).find? fun i =>
    (ring.entries i).valid && (ring.entries i).relativePath = relativePath

/-- `static_meta_lookup`. -/
def staticMetaLookup (ring : MetaRing) (relativePath : Bytes) (st : CachedStat) :
    MetaRing × Option MetaSlot :=
  match metaSlot ring relativePath with
  | none => (ring, none)
  | some i =>
      if (ring.entries i).stat = st then (ring, some (ring.entries i))
      else (ring.put i { ring.entries i with valid := false }, none)

/-- The entry that `static_meta_store` makes. -/
def storedSlot (site : Site) (call : MetaCall) : MetaSlot where
  valid := true
  relativePath := safeCopy 512 call.relativePath
  mime := safeCopy 96 (mimeType call.relativePath)
  etag := metaEtag call.stat
  stat := call.stat
  blocked := metaBlocked site call.relativePath
  hasBr := call.hasBr
  hasGzip := call.hasGzip

/-- The slot that is written next. -/
def MetaRing.next (ring : MetaRing) : Fin staticMetaCacheSize :=
  ⟨ring.clock % staticMetaCacheSize, Nat.mod_lt _ (by decide)⟩

/-- `static_meta_store`. -/
def staticMetaStore (site : Site) (ring : MetaRing) (call : MetaCall) : MetaRing × MetaSlot :=
  ({ ring.put ring.next (storedSlot site call) with clock := ring.clock + 1 },
    storedSlot site call)

/-- `static_meta_get`. -/
def MetaRing.staticMetaGet (site : Site) (ring : MetaRing) (call : MetaCall) :
    MetaRing × MetaSlot :=
  match staticMetaLookup ring call.relativePath call.stat with
  | (ring, some slot) => (ring, slot)
  | (ring, none) => staticMetaStore site ring call

/-! ### Runs -/

/-- A ring, and for which path each of its slots was last written. -/
structure RecordedRing where
  ring : MetaRing
  stored : Fin staticMetaCacheSize → Bytes

/-- Both behind a call. -/
def RecordedRing.step (site : Site) (s : RecordedRing) (call : MetaCall) : RecordedRing where
  ring := (s.ring.staticMetaGet site call).1
  stored :=
    if (staticMetaLookup s.ring call.relativePath call.stat).2.isSome then s.stored
    else Function.update s.stored s.ring.next call.relativePath

/-- A run of calls. -/
def RecordedRing.run (site : Site) (s : RecordedRing) (calls : List MetaCall) : RecordedRing :=
  calls.foldl (RecordedRing.step site) s

/-- The ring at the start. -/
def RecordedRing.initial : RecordedRing := ⟨.initial, fun _ => []⟩

/-- Every valid entry is what a store for its path makes. -/
def RingInv (site : Site) (s : RecordedRing) : Prop :=
  ∀ i, (s.ring.entries i).valid = true →
    ∃ call, call.relativePath = s.stored i ∧ s.ring.entries i = storedSlot site call

variable {site : Site} {s : RecordedRing}

theorem ringInv_initial (site : Site) : RingInv site .initial := fun _ h => Bool.noConfusion h

theorem metaSlot_eq_some {ring : MetaRing} {relativePath : Bytes} {i : Fin staticMetaCacheSize}
    (h : metaSlot ring relativePath = some i) :
    (ring.entries i).valid = true ∧ (ring.entries i).relativePath = relativePath := by
  have hfound := List.find?_some h
  rw [Bool.and_eq_true, decide_eq_true_iff] at hfound
  exact hfound

@[simp] theorem metaRing_put_self (ring : MetaRing) (i : Fin staticMetaCacheSize)
    (slot : MetaSlot) :
    (ring.put i slot).entries i = slot := by
  unfold MetaRing.put
  exact Function.update_self i slot ring.entries

@[simp] theorem metaRing_put_of_ne (ring : MetaRing) {i j : Fin staticMetaCacheSize} (h : j ≠ i)
    (slot : MetaSlot) : (ring.put i slot).entries j = ring.entries j := by
  unfold MetaRing.put
  exact Function.update_of_ne h slot ring.entries

/-- The three ends of a lookup. -/
theorem staticMetaLookup_cases (ring : MetaRing) (relativePath : Bytes) (st : CachedStat) :
    (metaSlot ring relativePath = none ∧ staticMetaLookup ring relativePath st = (ring, none)) ∨
    ∃ i, metaSlot ring relativePath = some i ∧
      (((ring.entries i).stat = st ∧
        staticMetaLookup ring relativePath st = (ring, some (ring.entries i))) ∨
      ((ring.entries i).stat ≠ st ∧
        staticMetaLookup ring relativePath st =
          (ring.put i { ring.entries i with valid := false }, none))) := by
  unfold staticMetaLookup
  cases hslot : metaSlot ring relativePath with
  | none => exact Or.inl ⟨rfl, rfl⟩
  | some i =>
      refine Or.inr ⟨i, rfl, ?_⟩
      dsimp only
      by_cases hstat : (ring.entries i).stat = st
      · rw [if_pos hstat]
        exact Or.inl ⟨hstat, rfl⟩
      · rw [if_neg hstat]
        exact Or.inr ⟨hstat, rfl⟩

/-- An entry becomes invalid. -/
theorem ringInv_invalidated (h : RingInv site s) (i : Fin staticMetaCacheSize) :
    RingInv site ⟨s.ring.put i { s.ring.entries i with valid := false }, s.stored⟩ := by
  intro j hj
  by_cases heq : j = i
  · rw [heq, metaRing_put_self] at hj
    cases hj
  · dsimp only at hj ⊢
    rw [metaRing_put_of_ne s.ring heq] at hj ⊢
    exact h j hj

/-- An entry is stored. -/
theorem ringInv_store (h : RingInv site s) (call : MetaCall) :
    RingInv site ⟨(staticMetaStore site s.ring call).1,
      Function.update s.stored s.ring.next call.relativePath⟩ := by
  intro j hj
  by_cases heq : j = s.ring.next
  · refine ⟨call, ?_, ?_⟩
    · rw [heq]
      exact (Function.update_self s.ring.next call.relativePath s.stored).symm
    · rw [heq]
      exact metaRing_put_self s.ring _ _
  · have hsame : (staticMetaStore site s.ring call).1.entries j = s.ring.entries j :=
      metaRing_put_of_ne s.ring heq _
    dsimp only at hj ⊢
    rw [hsame] at hj ⊢
    rw [Function.update_of_ne heq]
    exact h j hj

/-- **Every call keeps the entries what stores make.** -/
theorem ringInv_step (h : RingInv site s) (call : MetaCall) : RingInv site (s.step site call) := by
  unfold RecordedRing.step MetaRing.staticMetaGet
  rcases staticMetaLookup_cases s.ring call.relativePath call.stat with
    ⟨-, heq⟩ | ⟨i, -, ⟨-, heq⟩ | ⟨-, heq⟩⟩
  · rw [heq]
    exact ringInv_store h call
  · rw [heq]
    exact h
  · rw [heq]
    exact ringInv_store (ringInv_invalidated h i) call

theorem ringInv_run (h : RingInv site s) (calls : List MetaCall) :
    RingInv site (s.run site calls) := by
  induction calls generalizing s with
  | nil => exact h
  | cons call calls ih => exact ih (ringInv_step h call)

/-! ### What a call gives -/

/-- The entity tag, the type and the flag of an entry. -/
def MetaSlot.values (slot : MetaSlot) : Bytes × Bytes × Bool := (slot.etag, slot.mime, slot.blocked)

/-- The same, computed from the path and the file of a call. -/
def MetaCall.direct (site : Site) (call : MetaCall) : Bytes × Bytes × Bool :=
  (metaEtag call.stat, mimeType call.relativePath, metaBlocked site call.relativePath)

/-- The call finds the entry of a longer path, of which it has the first 511 bytes, for a file with
the same size, time and inode; the longer path has another type, or is blocked where this one is
not. -/
def FindsCut (site : Site) (s : RecordedRing) (call : MetaCall) : Prop :=
  ∃ i, metaSlot s.ring call.relativePath = some i ∧ (s.ring.entries i).stat = call.stat ∧
    511 < (s.stored i).length ∧
    (mimeType (s.stored i) ≠ mimeType call.relativePath ∨
      metaBlocked site (s.stored i) ≠ metaBlocked site call.relativePath)

/-- No type is cut off. -/
theorem length_mimeType (path : Bytes) : (mimeType path).length < 96 := by
  unfold mimeType
  cases extension path with
  | none => decide
  | some ext =>
      dsimp only
      cases hfind : mimeTypes.find? fun known => streqCi ext known.1 with
      | none => decide
      | some known =>
          have hall : ∀ known ∈ mimeTypes, known.2.length < 96 := by decide +kernel
          exact hall known (List.mem_of_find?_eq_some hfind)

theorem storedSlot_values (site : Site) (call : MetaCall) :
    (storedSlot site call).values = call.direct site := by
  unfold MetaSlot.values storedSlot MetaCall.direct safeCopy
  dsimp only
  rw [List.take_of_length_le (Nat.le_of_lt_succ (length_mimeType call.relativePath))]

/-- **Exactly when a call gives what is computed from its own path and file.** -/
theorem direct_iff (h : RingInv site s) (call : MetaCall) :
    (s.ring.staticMetaGet site call).2.values = call.direct site ↔ ¬ FindsCut site s call := by
  -- a call that finds nothing makes its own entry
  have hmade : ∀ ring, (∀ i, metaSlot s.ring call.relativePath = some i →
      (s.ring.entries i).stat ≠ call.stat) →
      ((staticMetaStore site ring call).2.values = call.direct site ↔ ¬ FindsCut site s call) := by
    intro ring hmiss
    refine iff_of_true (storedSlot_values site call) ?_
    rintro ⟨i, hslot, hstat, -⟩
    exact hmiss i hslot hstat
  unfold MetaRing.staticMetaGet
  rcases staticMetaLookup_cases s.ring call.relativePath call.stat with
    ⟨hslot, heq⟩ | ⟨i, hslot, ⟨hstat, heq⟩ | ⟨hstat, heq⟩⟩
  · rw [heq]
    refine hmade _ fun i hslot' => ?_
    rw [hslot] at hslot'
    exact absurd hslot'.symm (Option.some_ne_none i)
  · rw [heq]
    obtain ⟨hvalid, hpath⟩ := metaSlot_eq_some hslot
    obtain ⟨first, hstored, hentry⟩ := h i hvalid
    have hcut : safeCopy 512 (s.stored i) = call.relativePath := by
      rw [hentry] at hpath
      rw [← hstored]
      exact hpath
    have hfirst : first.stat = call.stat := by
      rw [hentry] at hstat
      exact hstat
    dsimp only
    rw [hentry, storedSlot_values]
    unfold MetaCall.direct
    rw [hfirst, hstored]
    constructor
    · rintro hsame ⟨j, hslot', -, -, hdiffer⟩
      rw [hslot] at hslot'
      obtain rfl := Option.some.inj hslot'
      obtain ⟨hmime, hblocked⟩ := Prod.mk.inj (Prod.mk.inj hsame).2
      exact hdiffer.elim (fun hne => hne hmime) fun hne => hne hblocked
    · intro hnot
      by_cases hlong : 511 < (s.stored i).length
      · have hboth : mimeType (s.stored i) = mimeType call.relativePath ∧
            metaBlocked site (s.stored i) = metaBlocked site call.relativePath := by
          constructor
          · by_contra hne
            exact hnot ⟨i, hslot, hstat, hlong, Or.inl hne⟩
          · by_contra hne
            exact hnot ⟨i, hslot, hstat, hlong, Or.inr hne⟩
        rw [hboth.1, hboth.2]
      · -- a path that fits is stored whole
        have hwhole : s.stored i = call.relativePath := by
          rw [← hcut]
          exact (List.take_of_length_le (not_lt.mp hlong)).symm
        rw [hwhole]
  · rw [heq]
    refine hmade _ fun j hslot' => ?_
    rw [hslot] at hslot'
    rw [← Option.some.inj hslot']
    exact hstat

/-- **The metadata cache over every run.** -/
theorem staticMetaGet_direct_iff (site : Site) (calls : List MetaCall) (call : MetaCall) :
    let s := RecordedRing.initial.run site calls
    (s.ring.staticMetaGet site call).2.values = call.direct site ↔ ¬ FindsCut site s call :=
  direct_iff (ringInv_run (ringInv_initial site) calls) call

/-- A file with two names: one is the first 511 bytes of the other. -/
def cutName : Bytes :=
  List.replicate 200 97 ++ ascii "/" ++ List.replicate 200 98 ++ ascii "/" ++
    List.replicate 106 99 ++ ascii ".js"

theorem cut_name_takes_type :
    let st : CachedStat := ⟨5, 1000, 7⟩
    let s := RecordedRing.initial.run {} [⟨cutName ++ ascii "on", st, false, false⟩]
    (s.ring.staticMetaGet {} ⟨cutName, st, false, false⟩).2.mime =
        ascii "application/json; charset=utf-8" ∧
      mimeType cutName = ascii "application/javascript; charset=utf-8" ∧
      (s.ring.staticMetaGet {} ⟨cutName, st, false, false⟩).2.values ≠
        MetaCall.direct {} ⟨cutName, st, false, false⟩ := by
  decide +kernel

/-! ### The entry that `serve_static` takes -/

/-- What the cache keeps of a file. -/
def FileStat.cached (st : FileStat) : CachedStat := ⟨st.size, st.mtime, st.ino⟩

/-- What serving a file reads of an entry. -/
def StaticMeta.values (entry : StaticMeta) : Bytes × Bytes × Bool :=
  (entry.etag.bytes, entry.mime.bytes, entry.blocked)

theorem metaEtag_cached {st : FileStat} (hsize : st.size < 18446744073709551616)
    (hmtime : st.mtime < 18446744073709551616) : metaEtag st.cached = fileEtag st := by
  have hunsigned : ∀ n : ℕ, n < 18446744073709551616 → asUnsigned n = n := by
    intro n hn
    unfold asUnsigned
    omega
  unfold metaEtag fileEtag FileStat.cached
  dsimp only
  rw [hunsigned st.size hsize, hunsigned st.mtime hmtime]

/-- **A call gives an entry that `MetaEntry` allows**: one that was stored for this path, or for a
path of which this is the part that is kept. -/
theorem staticMetaGet_entry (site : Site) (calls : List MetaCall) (name : Bytes) {st : FileStat}
    (hsize : st.size < 18446744073709551616) (hmtime : st.mtime < 18446744073709551616)
    (hasBr hasGzip : Bool) :
    let s := RecordedRing.initial.run site calls
    let slot := (s.ring.staticMetaGet site ⟨name, st.cached, hasBr, hasGzip⟩).2
    ∃ entry : MetaEntry name, slot.values = (staticMetaGet site entry st).values ∧
      slot.hasBr = entry.hasBr ∧ slot.hasGzip = entry.hasGzip := by
  intro s slot
  have hinv : RingInv site s := ringInv_run (ringInv_initial site) calls
  have hmade : ∃ entry : MetaEntry name,
      (storedSlot site ⟨name, st.cached, hasBr, hasGzip⟩).values =
        (staticMetaGet site entry st).values ∧ hasBr = entry.hasBr ∧ hasGzip = entry.hasGzip := by
    refine ⟨⟨name, hasBr, hasGzip, Or.inl rfl⟩, (storedSlot_values site _).trans ?_, rfl, rfl⟩
    unfold MetaCall.direct StaticMeta.values
    rw [metaEtag_cached hsize hmtime]
    rfl
  unfold slot MetaRing.staticMetaGet
  rcases staticMetaLookup_cases s.ring name st.cached with
    ⟨-, heq⟩ | ⟨i, hslot, ⟨hstat, heq⟩ | ⟨-, heq⟩⟩
  · rw [heq]
    exact hmade
  · rw [heq]
    obtain ⟨hvalid, hpath⟩ := metaSlot_eq_some hslot
    obtain ⟨first, hstored, hentry⟩ := hinv i hvalid
    rw [hentry] at hpath hstat
    refine ⟨⟨first.relativePath, first.hasBr, first.hasGzip, Or.inr hpath⟩, ?_,
      congrArg MetaSlot.hasBr hentry, congrArg MetaSlot.hasGzip hentry⟩
    dsimp only
    rw [hentry, storedSlot_values]
    unfold MetaCall.direct StaticMeta.values
    rw [show first.stat = st.cached from hstat, metaEtag_cached hsize hmtime]
    rfl
  · rw [heq]
    exact hmade

end Rpsiod

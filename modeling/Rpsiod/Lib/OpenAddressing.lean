import Mathlib.Data.Fintype.Card
import Mathlib.Data.Nat.ModEq
import Mathlib.Data.Finset.Card
import Mathlib.Logic.Function.Basic

/-!
# Open addressing with linear probing

A table of `n` slots holds entries, each with a key and a value.  An entry is looked for from the
home slot of its key on, one slot after the other and round the end of the table, until it is found
or a free slot ends the search.

* `WellPlaced`: the representation invariant; every entry is reached from its home, and no key is
  there twice.
* `search_cases`: **a search finds the entry of a key, or else a free slot or a full table**.
* `insertAll_isSome_iff`: **entries can be inserted one after the other if and only if no key comes
  with two values and there are not more keys than slots**.
* `search_insertAll`: **a search in that table finds exactly these entries**, whatever slots they
  are in.
-/

namespace OpenAddressing

variable {β : Type*} {n : ℕ} [NeZero n]

/-- The slot of the `k`-th probe. -/
def slot (start k : ℕ) : Fin n := ⟨(start + k) % n, Nat.mod_lt _ (Nat.pos_of_neZero n)⟩

/-- Where a search ends. -/
inductive Probe (n : ℕ) (β : Type*) where
  | hit (e : β)
  | free (i : Fin n)
  | full

/-- The search for an entry that fits; the first number counts the probes that are left. -/
def probe (t : Fin n → Option β) (fits : β → Bool) (start : ℕ) : ℕ → ℕ → Probe n β
  | 0, _ => .full
  | left + 1, k =>
      match t (slot start k) with
      | none => .free (slot start k)
      | some e => if fits e then .hit e else probe t fits start left (k + 1)

/-- The slot is taken by an entry that does not fit. -/
def Passes (t : Fin n → Option β) (fits : β → Bool) (i : Fin n) : Prop :=
  ∃ e, t i = some e ∧ fits e = false

/-- What the end of a search says about the slots it has seen. -/
def Probe.Sound (t : Fin n → Option β) (fits : β → Bool) (start left k : ℕ) : Probe n β → Prop
  | .hit e => ∃ i, t i = some e ∧ fits e = true
  | .free i => ∃ d < left, slot start (k + d) = i ∧ t i = none ∧
      ∀ j < d, Passes t fits (slot start (k + j))
  | .full => ∀ d < left, Passes t fits (slot start (k + d))

theorem probe_sound (t : Fin n → Option β) (fits : β → Bool) (start left k : ℕ) :
    (probe t fits start left k).Sound t fits start left k := by
  induction left generalizing k with
  | zero => exact fun d hd => absurd hd (Nat.not_lt_zero d)
  | succ left ih =>
      rw [probe]
      cases hslot : t (slot start k) with
      | none =>
          exact ⟨0, Nat.succ_pos left, rfl, hslot, fun j hj => absurd hj (Nat.not_lt_zero j)⟩
      | some e =>
          by_cases hfits : fits e = true
          · simp only [hfits, if_true]
            exact ⟨_, hslot, hfits⟩
          · rw [Bool.not_eq_true] at hfits
            simp only [hfits, Bool.false_eq_true, if_false]
            have hhere : Passes t fits (slot start k) := ⟨e, hslot, hfits⟩
            have hnext := ih (k + 1)
            have hshift : ∀ d, k + 1 + d = k + (d + 1) := fun d => by omega
            have hpasses : ∀ d, (∀ j < d, Passes t fits (slot start (k + 1 + j))) →
                ∀ j < d + 1, Passes t fits (slot start (k + j)) := by
              intro d hd j hj
              cases j with
              | zero => exact hhere
              | succ j =>
                  rw [← hshift]
                  exact hd j (by omega)
            cases hprobe : probe t fits start left (k + 1) with
            | hit e' =>
                rw [hprobe] at hnext
                exact hnext
            | free i =>
                rw [hprobe] at hnext
                obtain ⟨d, hd, hi, hnone, hbefore⟩ := hnext
                refine ⟨d + 1, by omega, ?_, hnone, hpasses d hbefore⟩
                rw [← hshift]
                exact hi
            | full =>
                rw [hprobe] at hnext
                exact hpasses left hnext

/-- A search that passes the slots in front of an entry that fits finds that entry. -/
theorem probe_eq_hit {t : Fin n → Option β} {fits : β → Bool} {start left k d : ℕ} {e : β}
    (hd : d < left) (hslot : t (slot start (k + d)) = some e) (hfits : fits e = true)
    (hbefore : ∀ j < d, Passes t fits (slot start (k + j))) :
    probe t fits start left k = .hit e := by
  induction left generalizing k d with
  | zero => exact absurd hd (Nat.not_lt_zero d)
  | succ left ih =>
      rw [probe]
      cases d with
      | zero =>
          rw [Nat.add_zero] at hslot
          rw [hslot]
          exact if_pos hfits
      | succ d =>
          obtain ⟨e', he', hfits'⟩ := hbefore 0 (Nat.succ_pos d)
          rw [Nat.add_zero] at he'
          rw [he']
          simp only [hfits', Bool.false_eq_true, if_false]
          have hshift : ∀ j, k + 1 + j = k + (j + 1) := fun j => by omega
          apply ih (by omega : d < left)
          · rw [hshift]
            exact hslot
          · intro j hj
            rw [hshift]
            exact hbefore (j + 1) (by omega)

/-- Every slot is seen within `n` probes. -/
theorem exists_slot (start : ℕ) (i : Fin n) : ∃ d < n, slot start d = i := by
  refine ⟨(i.val + (n - start % n)) % n, Nat.mod_lt _ (Nat.pos_of_neZero n), Fin.ext ?_⟩
  show (start + (i.val + (n - start % n)) % n) % n = i.val
  have hstart : start % n < n := Nat.mod_lt _ (Nat.pos_of_neZero n)
  have hsplit := Nat.div_add_mod start n
  have hround : start + (i.val + (n - start % n)) = i.val + n * (start / n + 1) := by
    rw [Nat.mul_add]
    omega
  rw [Nat.add_mod_mod, hround, Nat.add_mul_mod_self_left, Nat.mod_eq_of_lt i.isLt]

/-- Probes of one round are in different slots. -/
theorem slot_inj {start d d' : ℕ} (hd : d < n) (hd' : d' < n)
    (h : (slot start d : Fin n) = slot start d') : d = d' := by
  have hmod : Nat.ModEq n (start + d) (start + d') := congrArg Fin.val h
  have hmod' : d % n = d' % n := Nat.ModEq.add_left_cancel' start hmod
  rwa [Nat.mod_eq_of_lt hd, Nat.mod_eq_of_lt hd'] at hmod'

/-! ### The representation invariant -/

variable {κ α : Type*} (home : κ → ℕ) (keyOf : β → κ) (valueOf : β → α)

/-- Every entry is reached from the home slot of its key, and no key is there twice. -/
structure WellPlaced (t : Fin n → Option β) : Prop where
  reached : ∀ i e, t i = some e →
    ∃ d < n, slot (home (keyOf e)) d = i ∧ ∀ j < d, t (slot (home (keyOf e)) j) ≠ none
  unique : ∀ i j e e', t i = some e → t j = some e' → keyOf e = keyOf e' → i = j

/-- The pairs of a key and a value in the table. -/
def Holds (t : Fin n → Option β) (key : κ) (value : α) : Prop :=
  ∃ i e, t i = some e ∧ keyOf e = key ∧ valueOf e = value

/-- The table holds exactly these entries. -/
def HoldsAll (t : Fin n → Option β) (es : List β) : Prop :=
  ∀ key value, Holds keyOf valueOf t key value ↔ ∃ e ∈ es, keyOf e = key ∧ valueOf e = value

variable {home keyOf valueOf}

omit [NeZero n] in
theorem Holds.mk {t : Fin n → Option β} {i : Fin n} {e : β} (h : t i = some e) :
    Holds keyOf valueOf t (keyOf e) (valueOf e) := ⟨i, e, h, rfl, rfl⟩

theorem wellPlaced_empty : WellPlaced home keyOf (fun _ : Fin n => none) where
  reached := nofun
  unique := nofun

omit [NeZero n] in
theorem holdsAll_empty : HoldsAll keyOf valueOf (fun _ : Fin n => none) [] := by
  intro key value
  constructor
  · rintro ⟨i, e, he, -⟩
    exact nomatch he
  · rintro ⟨e, he, -⟩
    exact absurd he List.not_mem_nil

omit [NeZero n] in
/-- A key has one value. -/
theorem Holds.unique {t : Fin n → Option β}
    (hunique : ∀ i j e e', t i = some e → t j = some e' → keyOf e = keyOf e' → i = j) {key : κ}
    {value value' : α} (h : Holds keyOf valueOf t key value)
    (h' : Holds keyOf valueOf t key value') : value = value' := by
  obtain ⟨i, e, hi, hkey, rfl⟩ := h
  obtain ⟨j, e', hj, hkey', rfl⟩ := h'
  have hij := hunique i j e e' hi hj (hkey.trans hkey'.symm)
  rw [← hij, hi] at hj
  rw [Option.some.inj hj]

variable [DecidableEq κ]

/-- The search for a key. -/
def search (home : κ → ℕ) (keyOf : β → κ) (t : Fin n → Option β) (key : κ) : Probe n β :=
  probe t (fun e => decide (keyOf e = key)) (home key) n 0

/-- **A search for a key that is there finds its entry.** -/
theorem search_eq_hit {t : Fin n → Option β} (ht : WellPlaced home keyOf t) {i : Fin n} {e : β}
    (he : t i = some e) : search home keyOf t (keyOf e) = .hit e := by
  obtain ⟨d, hd, hi, hbefore⟩ := ht.reached i e he
  apply probe_eq_hit hd
  · rw [Nat.zero_add, hi]
    exact he
  · exact decide_eq_true rfl
  · intro j hj
    rw [Nat.zero_add]
    obtain ⟨e', he'⟩ := Option.ne_none_iff_exists'.mp (hbefore j hj)
    refine ⟨e', he', decide_eq_false fun hkey => ?_⟩
    -- an entry of the same key in front would be the entry itself
    have hsame := ht.unique _ _ _ _ he' he hkey
    have hjd := slot_inj (hj.trans hd) hd (hsame.trans hi.symm)
    omega

/-- The end of a search for a key that is not there. -/
theorem search_of_not_mem {t : Fin n → Option β} {key : κ}
    (h : ∀ i e, t i = some e → keyOf e ≠ key) :
    (∃ i, search home keyOf t key = .free i ∧ t i = none ∧
        ∃ d < n, slot (home key) d = i ∧ ∀ j < d, t (slot (home key) j) ≠ none) ∨
      search home keyOf t key = .full ∧ ∀ i, t i ≠ none := by
  have hsound := probe_sound t (fun e => decide (keyOf e = key)) (home key) n 0
  unfold search
  cases hprobe : probe t (fun e => decide (keyOf e = key)) (home key) n 0 with
  | hit e =>
      rw [hprobe] at hsound
      obtain ⟨i, hi, hfits⟩ := hsound
      exact absurd (of_decide_eq_true hfits) (h i e hi)
  | free i =>
      rw [hprobe] at hsound
      obtain ⟨d, hd, hslot, hnone, hbefore⟩ := hsound
      rw [Nat.zero_add] at hslot
      refine Or.inl ⟨i, rfl, hnone, d, hd, hslot, fun j hj hempty => ?_⟩
      obtain ⟨e, he, -⟩ := hbefore j hj
      rw [Nat.zero_add, hempty] at he
      exact nomatch he
  | full =>
      rw [hprobe] at hsound
      refine Or.inr ⟨rfl, fun i hempty => ?_⟩
      obtain ⟨d, hd, rfl⟩ := exists_slot (home key) i
      obtain ⟨e, he, -⟩ := hsound d hd
      rw [Nat.zero_add, hempty] at he
      exact nomatch he

/-- **The outcome of a search**: the entry of the key, or a free slot where it could be put, or a
full table. -/
theorem search_cases {t : Fin n → Option β} (ht : WellPlaced home keyOf t) (key : κ) :
    (∃ i e, t i = some e ∧ keyOf e = key ∧ search home keyOf t key = .hit e) ∨
      (∀ i e, t i = some e → keyOf e ≠ key) ∧
        ((∃ i, search home keyOf t key = .free i ∧ t i = none ∧
            ∃ d < n, slot (home key) d = i ∧ ∀ j < d, t (slot (home key) j) ≠ none) ∨
          search home keyOf t key = .full ∧ ∀ i, t i ≠ none) := by
  by_cases h : ∃ i e, t i = some e ∧ keyOf e = key
  · obtain ⟨i, e, he, rfl⟩ := h
    exact Or.inl ⟨i, e, he, rfl, search_eq_hit ht he⟩
  · push Not at h
    exact Or.inr ⟨h, search_of_not_mem h⟩

/-! ### Inserting -/

variable [DecidableEq α]

/-- Insert an entry, unless its key has another value or there is no room. -/
def insert (home : κ → ℕ) (keyOf : β → κ) (valueOf : β → α) (t : Fin n → Option β) (e : β) :
    Option (Fin n → Option β) :=
  match search home keyOf t (keyOf e) with
  | .hit e' => if valueOf e' = valueOf e then some t else none
  | .free i => some (Function.update t i (some e))
  | .full => none

/-- Insert these entries, one after the other. -/
def insertAll (home : κ → ℕ) (keyOf : β → κ) (valueOf : β → α) (es : List β)
    (t : Fin n → Option β) : Option (Fin n → Option β) :=
  es.foldlM (insert home keyOf valueOf) t

omit [DecidableEq κ] in
/-- A new entry in the free slot that ends its search. -/
theorem WellPlaced.update {t : Fin n → Option β} (ht : WellPlaced home keyOf t) {e : β}
    (hnew : ∀ i e', t i = some e' → keyOf e' ≠ keyOf e) {i : Fin n}
    (hi : ∃ d < n, slot (home (keyOf e)) d = i ∧ ∀ j < d, t (slot (home (keyOf e)) j) ≠ none) :
    WellPlaced home keyOf (Function.update t i (some e)) where
  reached := by
    have hmore : ∀ j, t j ≠ none → Function.update t i (some e) j ≠ none := by
      intro j hj
      by_cases hji : j = i
      · rw [hji, Function.update_self]
        exact Option.some_ne_none e
      · rwa [Function.update_of_ne hji]
    intro j e' he'
    by_cases hji : j = i
    · rw [hji, Function.update_self] at he'
      obtain rfl := Option.some.inj he'
      obtain ⟨d, hd, hslot, hbefore⟩ := hi
      exact ⟨d, hd, hslot.trans hji.symm, fun k hk => hmore _ (hbefore k hk)⟩
    · rw [Function.update_of_ne hji] at he'
      obtain ⟨d, hd, hslot, hbefore⟩ := ht.reached j e' he'
      exact ⟨d, hd, hslot, fun k hk => hmore _ (hbefore k hk)⟩
  unique := by
    intro j k e₁ e₂ h₁ h₂ hkey
    by_cases hji : j = i
    · by_cases hki : k = i
      · rw [hji, hki]
      · rw [hji, Function.update_self] at h₁
        rw [Function.update_of_ne hki] at h₂
        rw [← Option.some.inj h₁] at hkey
        exact absurd hkey.symm (hnew k e₂ h₂)
    · rw [Function.update_of_ne hji] at h₁
      by_cases hki : k = i
      · rw [hki, Function.update_self] at h₂
        rw [← Option.some.inj h₂] at hkey
        exact absurd hkey (hnew j e₁ h₁)
      · rw [Function.update_of_ne hki] at h₂
        exact ht.unique j k e₁ e₂ h₁ h₂ hkey

omit [NeZero n] [DecidableEq κ] [DecidableEq α] in
theorem HoldsAll.update {t : Fin n → Option β} {done : List β} (ht : HoldsAll keyOf valueOf t done)
    {i : Fin n} (hfree : t i = none) (e : β) :
    HoldsAll keyOf valueOf (Function.update t i (some e)) (done ++ [e]) := by
  intro key value
  have hold := ht key value
  simp only [List.mem_append, List.mem_singleton, or_and_right, exists_or, exists_eq_left]
  rw [← hold]
  constructor
  · rintro ⟨j, e', hj, hkey, hvalue⟩
    by_cases hji : j = i
    · rw [hji, Function.update_self] at hj
      obtain rfl := Option.some.inj hj
      exact Or.inr ⟨hkey, hvalue⟩
    · rw [Function.update_of_ne hji] at hj
      exact Or.inl ⟨j, e', hj, hkey, hvalue⟩
  · rintro (⟨j, e', hj, hkey, hvalue⟩ | ⟨hkey, hvalue⟩)
    · refine ⟨j, e', ?_, hkey, hvalue⟩
      rw [Function.update_of_ne, hj]
      rintro rfl
      rw [hfree] at hj
      exact nomatch hj
    · exact ⟨i, e, Function.update_self .., hkey, hvalue⟩

/-- No key comes with two values. -/
def Consistent (keyOf : β → κ) (valueOf : β → α) (es : List β) : Prop :=
  ∀ e ∈ es, ∀ e' ∈ es, keyOf e = keyOf e' → valueOf e = valueOf e'

/-- The keys of these entries. -/
def keys (keyOf : β → κ) (es : List β) : Finset κ := (es.map keyOf).toFinset

theorem mem_keys {es : List β} {key : κ} : key ∈ keys keyOf es ↔ ∃ e ∈ es, keyOf e = key := by
  unfold keys
  rw [List.mem_toFinset, List.mem_map]

theorem keys_append_singleton (es : List β) (e : β) :
    keys keyOf (es ++ [e]) = Insert.insert (keyOf e) (keys keyOf es) := by
  ext key
  simp only [mem_keys, List.mem_append, List.mem_singleton, Finset.mem_insert]
  constructor
  · rintro ⟨e', he' | rfl, rfl⟩
    · exact Or.inr ⟨e', he', rfl⟩
    · exact Or.inl rfl
  · rintro (rfl | ⟨e', he', rfl⟩)
    · exact ⟨e, Or.inr rfl, rfl⟩
    · exact ⟨e', Or.inl he', rfl⟩

/-- The key in a slot. -/
def keyAt (keyOf : β → κ) (t : Fin n → Option β) (i : Fin n) : Option κ := (t i).map keyOf

omit [NeZero n] [DecidableEq α] in
/-- There are not more keys than slots. -/
theorem HoldsAll.card_le {t : Fin n → Option β} {es : List β} (ht : HoldsAll keyOf valueOf t es) :
    (keys keyOf es).card ≤ n := by
  have hsub : (keys keyOf es).image some ⊆ Finset.univ.image (keyAt keyOf t) := by
    intro key hkey
    obtain ⟨key, hmem, rfl⟩ := Finset.mem_image.mp hkey
    obtain ⟨e, he, rfl⟩ := mem_keys.mp hmem
    obtain ⟨i, e', hi, hkeys, -⟩ := (ht _ _).mpr ⟨e, he, rfl, rfl⟩
    refine Finset.mem_image.mpr ⟨i, Finset.mem_univ i, ?_⟩
    rw [keyAt, hi, Option.map_some, hkeys]
  calc (keys keyOf es).card = ((keys keyOf es).image some).card :=
        (Finset.card_image_of_injective _ (Option.some_injective κ)).symm
    _ ≤ (Finset.univ.image (keyAt keyOf t)).card := Finset.card_le_card hsub
    _ ≤ (Finset.univ : Finset (Fin n)).card := Finset.card_image_le
    _ = n := by rw [Finset.card_univ, Fintype.card_fin]

omit [DecidableEq α] in
/-- In a full table there is a key for every slot. -/
theorem HoldsAll.le_card {t : Fin n → Option β} {es : List β} (ht : HoldsAll keyOf valueOf t es)
    (hplaced : WellPlaced home keyOf t) (hfull : ∀ i, t i ≠ none) : n ≤ (keys keyOf es).card := by
  have hmaps : ∀ i ∈ Finset.univ, keyAt keyOf t i ∈ (keys keyOf es).image some := by
    intro i _
    obtain ⟨e, he⟩ := Option.ne_none_iff_exists'.mp (hfull i)
    obtain ⟨e', he', hkey, -⟩ := (ht _ _).mp (Holds.mk he)
    rw [keyAt, he, Option.map_some]
    exact Finset.mem_image_of_mem _ (mem_keys.mpr ⟨e', he', hkey⟩)
  have hinj : Set.InjOn (keyAt keyOf t) (Finset.univ : Finset (Fin n)) := by
    intro i _ j _ hij
    obtain ⟨e, he⟩ := Option.ne_none_iff_exists'.mp (hfull i)
    obtain ⟨e', he'⟩ := Option.ne_none_iff_exists'.mp (hfull j)
    rw [keyAt, keyAt, he, he', Option.map_some, Option.map_some] at hij
    exact hplaced.unique i j e e' he he' (Option.some.inj hij)
  calc n = (Finset.univ : Finset (Fin n)).card := by rw [Finset.card_univ, Fintype.card_fin]
    _ ≤ ((keys keyOf es).image some).card := Finset.card_le_card_of_injOn _ hmaps hinj
    _ = (keys keyOf es).card := Finset.card_image_of_injective _ (Option.some_injective κ)

/-- **Inserting one entry** behind those that the table holds. -/
theorem insert_spec {t : Fin n → Option β} (hplaced : WellPlaced home keyOf t) {done : List β}
    (ht : HoldsAll keyOf valueOf t done) (e : β) :
    (∃ t', insert home keyOf valueOf t e = some t' ∧ WellPlaced home keyOf t' ∧
        HoldsAll keyOf valueOf t' (done ++ [e])) ∨
      insert home keyOf valueOf t e = none ∧
        ((∃ e' ∈ done, keyOf e' = keyOf e ∧ valueOf e' ≠ valueOf e) ∨
          n < (keys keyOf (done ++ [e])).card) := by
  unfold insert
  rcases search_cases hplaced (keyOf e) with
    ⟨i, e', hi, hkey, hsearch⟩ | ⟨hnew, ⟨i, hsearch, hfree, hreach⟩ | ⟨hsearch, hfull⟩⟩
  · obtain ⟨e₀, he₀, hkey₀, hvalue₀⟩ := (ht _ _).mp (Holds.mk hi)
    rw [hsearch]
    simp only
    by_cases hvalue : valueOf e' = valueOf e
    · refine Or.inl ⟨t, if_pos hvalue, hplaced, fun key value => (ht key value).trans ?_⟩
      -- the entry is there already, so that it adds nothing
      simp only [List.mem_append, List.mem_singleton, or_and_right, exists_or, exists_eq_left]
      refine (or_iff_left_of_imp ?_).symm
      rintro ⟨rfl, rfl⟩
      exact ⟨e₀, he₀, hkey₀.trans hkey, hvalue₀.trans hvalue⟩
    · refine Or.inr ⟨if_neg hvalue, Or.inl ⟨e₀, he₀, hkey₀.trans hkey, ?_⟩⟩
      rw [hvalue₀]
      exact hvalue
  · rw [hsearch]
    exact Or.inl ⟨_, rfl, hplaced.update hnew hreach, ht.update hfree e⟩
  · rw [hsearch]
    refine Or.inr ⟨rfl, Or.inr ?_⟩
    have hnot : keyOf e ∉ keys keyOf done := by
      intro hmem
      obtain ⟨e', he', hkey⟩ := mem_keys.mp hmem
      obtain ⟨i, e'', hi, hkey'', -⟩ := (ht _ _).mpr ⟨e', he', hkey, rfl⟩
      exact hnew i e'' hi hkey''
    rw [keys_append_singleton, Finset.card_insert_of_notMem hnot]
    exact Nat.lt_succ_of_le (ht.le_card hplaced hfull)

/-- **Inserting entries** behind those that the table holds. -/
theorem insertAll_spec {t : Fin n → Option β} (hplaced : WellPlaced home keyOf t) {done : List β}
    (ht : HoldsAll keyOf valueOf t done) (es : List β) :
    (∃ t', insertAll home keyOf valueOf es t = some t' ∧ WellPlaced home keyOf t' ∧
        HoldsAll keyOf valueOf t' (done ++ es)) ∨
      insertAll home keyOf valueOf es t = none ∧
        ¬ (Consistent keyOf valueOf (done ++ es) ∧ (keys keyOf (done ++ es)).card ≤ n) := by
  unfold insertAll
  induction es generalizing t done with
  | nil =>
      rw [List.append_nil]
      exact Or.inl ⟨t, rfl, hplaced, ht⟩
  | cons e es ih =>
      have happend : done ++ e :: es = done ++ [e] ++ es := by simp
      rw [List.foldlM_cons, happend]
      rcases insert_spec hplaced ht e with ⟨t', hinsert, hplaced', ht'⟩ | ⟨hinsert, hbad⟩
      · rw [hinsert]
        exact ih hplaced' ht'
      · rw [hinsert]
        refine Or.inr ⟨rfl, ?_⟩
        rintro ⟨hconsistent, hcard⟩
        rcases hbad with ⟨e', he', hkey, hvalue⟩ | hmany
        · apply hvalue
          apply hconsistent e' _ e _ hkey
          · simp [he']
          · simp
        · have hsub : keys keyOf (done ++ [e]) ⊆ keys keyOf (done ++ [e] ++ es) := by
            intro key hkey
            obtain ⟨e', he', rfl⟩ := mem_keys.mp hkey
            exact mem_keys.mpr ⟨e', List.mem_append_left _ he', rfl⟩
          have := Finset.card_le_card hsub
          omega

omit [DecidableEq κ] [DecidableEq α] in
/-- What a table holds is consistent. -/
theorem HoldsAll.consistent {t : Fin n → Option β} (hplaced : WellPlaced home keyOf t)
    {es : List β} (ht : HoldsAll keyOf valueOf t es) : Consistent keyOf valueOf es := by
  intro e he e' he' hkey
  have h := (ht _ _).mpr ⟨e, he, rfl, rfl⟩
  have h' := (ht _ _).mpr ⟨e', he', hkey.symm, rfl⟩
  exact h.unique hplaced.unique h'

/-- The empty table. -/
def empty : Fin n → Option β := fun _ => none

/-- **Entries can be inserted** if and only if no key comes with two values and there are not more
keys than slots. -/
theorem insertAll_isSome_iff (es : List β) :
    (insertAll home keyOf valueOf es (empty : Fin n → Option β)).isSome ↔
      Consistent keyOf valueOf es ∧ (keys keyOf es).card ≤ n := by
  rcases @insertAll_spec _ n _ _ _ home keyOf valueOf _ _ empty wellPlaced_empty []
    holdsAll_empty es with ⟨t, hinsert, hplaced, ht⟩ | ⟨hinsert, hbad⟩
  · rw [List.nil_append] at ht
    rw [hinsert]
    exact iff_of_true rfl ⟨ht.consistent hplaced, ht.card_le⟩
  · rw [List.nil_append] at hbad
    rw [hinsert]
    exact iff_of_false Bool.false_ne_true hbad

/-- **A search in the table of these entries** finds the entry of a key, whatever slot it is in, or
finds none if there is none. -/
theorem search_insertAll {es : List β} {t : Fin n → Option β}
    (h : insertAll home keyOf valueOf es empty = some t) (key : κ) :
    (∃ e, search home keyOf t key = .hit e ∧ keyOf e = key ∧
        ∃ e' ∈ es, keyOf e' = key ∧ valueOf e' = valueOf e) ∨
      (∀ e ∈ es, keyOf e ≠ key) ∧ ∀ e, search home keyOf t key ≠ .hit e := by
  rcases @insertAll_spec _ n _ _ _ home keyOf valueOf _ _ empty wellPlaced_empty []
    holdsAll_empty es with ⟨t', hinsert, hplaced, ht⟩ | ⟨hinsert, -⟩
  · rw [List.nil_append] at ht
    obtain rfl := Option.some.inj (h.symm.trans hinsert)
    rcases search_cases hplaced key with ⟨i, e, hi, hkey, hsearch⟩ | ⟨hnew, hmiss⟩
    · obtain ⟨e', he', hkey', hvalue⟩ := (ht _ _).mp (Holds.mk hi)
      exact Or.inl ⟨e, hsearch, hkey, e', he', hkey'.trans hkey, hvalue⟩
    · refine Or.inr ⟨fun e he hkey => ?_, fun e hhit => ?_⟩
      · obtain ⟨i, e', hi, hkey', -⟩ := (ht _ _).mpr ⟨e, he, hkey, rfl⟩
        exact hnew i e' hi hkey'
      · rcases hmiss with ⟨i, hfree, -⟩ | ⟨hfull, -⟩
        · exact nomatch hhit.symm.trans hfree
        · exact nomatch hhit.symm.trans hfull
  · rw [hinsert] at h
    exact nomatch h

end OpenAddressing

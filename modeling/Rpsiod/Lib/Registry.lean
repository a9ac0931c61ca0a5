import Mathlib.Data.List.Nodup

/-!
# A registry of objects under names

A registry holds objects, each under a name; no two have the same name.  Every object that is
registered gets a handle of its own, which is never given to another one, so that a handle that
was kept for later use is either that of an object that is still there or *stale*.

* `opened`, `closed`, `updated`: registering an object unless its name is taken, removing the
  object of a name, changing the objects.
* `Evolves`: what these operations do one after the other, with the names that are closed.
* `Evolves.live_iff`: **a handle is still that of an object if and only if its name was not
  closed**.
-/

namespace NamedObjects

/-- An object, with its name and its handle. -/
structure Entry (ν α : Type*) where
  handle : ℕ
  name : ν
  value : α

/-- A registry. -/
structure Registry (ν α : Type*) where
  entries : List (Entry ν α)
  /-- The next handle. -/
  next : ℕ
  names_nodup : (entries.map Entry.name).Nodup
  handles_lt : ∀ e ∈ entries, e.handle < next
  handles_nodup : (entries.map Entry.handle).Nodup

variable {ν α : Type*}

/-- No objects. -/
def Registry.empty : Registry ν α := ⟨[], 0, List.nodup_nil, nofun, List.nodup_nil⟩

/-- An object has this handle. -/
def Registry.Live (r : Registry ν α) (handle : ℕ) : Prop := ∃ e ∈ r.entries, e.handle = handle

/-- The object with this handle has this name. -/
def Registry.Holds (r : Registry ν α) (handle : ℕ) (name : ν) : Prop :=
  ∃ e ∈ r.entries, e.handle = handle ∧ e.name = name

theorem Registry.Holds.live {r : Registry ν α} {handle : ℕ} {name : ν}
    (h : r.Holds handle name) : r.Live handle := by
  obtain ⟨e, he, hhandle, -⟩ := h
  exact ⟨e, he, hhandle⟩

variable [DecidableEq ν]

/-- The object of a name. -/
def Registry.find (r : Registry ν α) (name : ν) : Option (Entry ν α) :=
  r.entries.find? fun e => e.name = name

/-! ### Operations -/

/-- A new object, unless the name is taken. -/
def Registry.opened (r : Registry ν α) (name : ν) (value : α) : Registry ν α :=
  if h : name ∈ r.entries.map Entry.name then r
  else
    { entries := ⟨r.next, name, value⟩ :: r.entries
      next := r.next + 1
      names_nodup := List.nodup_cons.mpr ⟨h, r.names_nodup⟩
      handles_lt := by
        intro e he
        rcases List.mem_cons.mp he with rfl | he
        · exact Nat.lt_succ_self _
        · exact Nat.lt_succ_of_lt (r.handles_lt e he)
      handles_nodup := by
        refine List.nodup_cons.mpr ⟨fun hmem => ?_, r.handles_nodup⟩
        obtain ⟨e, he, heq⟩ := List.mem_map.mp hmem
        exact absurd heq (Nat.ne_of_lt (r.handles_lt e he)) }

/-- Without the first object of this name. -/
def Registry.closed (r : Registry ν α) (name : ν) : Registry ν α where
  entries := r.entries.eraseP fun e => e.name = name
  next := r.next
  names_nodup := r.names_nodup.sublist (List.eraseP_sublist.map _)
  handles_lt := fun e he => r.handles_lt e (List.mem_of_mem_eraseP he)
  handles_nodup := r.handles_nodup.sublist (List.eraseP_sublist.map _)

/-- With other values. -/
def Registry.updated (r : Registry ν α) (f : Entry ν α → α) : Registry ν α where
  entries := r.entries.map fun e => { e with value := f e }
  next := r.next
  names_nodup := by
    rw [List.map_map]
    exact r.names_nodup
  handles_lt := by
    intro e he
    obtain ⟨e', he', rfl⟩ := List.mem_map.mp he
    exact r.handles_lt e' he'
  handles_nodup := by
    rw [List.map_map]
    exact r.handles_nodup

/-- With another value for the object of this handle. -/
def Registry.adjusted (r : Registry ν α) (handle : ℕ) (f : α → α) : Registry ν α :=
  r.updated fun e => if e.handle = handle then f e.value else e.value

/-- The first object of a name is the only one. -/
theorem eraseP_eq_filter {entries : List (Entry ν α)} (h : (entries.map Entry.name).Nodup)
    (name : ν) :
    (entries.eraseP fun e => e.name = name) = entries.filter fun e => e.name ≠ name := by
  induction entries with
  | nil => rfl
  | cons e entries ih =>
      rw [List.map_cons, List.nodup_cons] at h
      by_cases he : e.name = name
      · have hothers : ∀ e' ∈ entries, decide (e'.name ≠ name) = true := by
          intro e' he'
          rw [decide_eq_true_iff]
          intro heq
          apply h.1
          rw [he, ← heq]
          exact List.mem_map_of_mem he'
        rw [List.filter_cons_of_neg (by simpa using he),
          List.eraseP_cons_of_pos (by simpa using he), List.filter_eq_self.mpr hothers]
      · rw [List.filter_cons_of_pos (by simpa using he),
          List.eraseP_cons_of_neg (by simpa using he), ih h.2]

theorem mem_closed {r : Registry ν α} {name : ν} {e : Entry ν α} :
    e ∈ (r.closed name).entries ↔ e ∈ r.entries ∧ e.name ≠ name := by
  show e ∈ r.entries.eraseP (fun e => e.name = name) ↔ _
  rw [eraseP_eq_filter r.names_nodup, List.mem_filter, decide_eq_true_iff]

/-- There is nothing to remove. -/
theorem closed_eq_self {r : Registry ν α} {name : ν} (h : r.find name = none) :
    r.closed name = r := by
  have hentries : r.entries.eraseP (fun e => e.name = name) = r.entries := by
    rw [List.eraseP_of_forall_not]
    exact List.find?_eq_none.mp h
  obtain ⟨entries, next, hnames, hlt, hhandles⟩ := r
  unfold Registry.closed
  simp only at hentries
  simp only [hentries]

omit [DecidableEq ν] in
/-- What is in a registry when one object has changed. -/
theorem mem_adjusted {r : Registry ν α} {handle : ℕ} {f : α → α} {e : Entry ν α} :
    e ∈ (r.adjusted handle f).entries ↔
      ∃ e₀ ∈ r.entries, (if e₀.handle = handle then { e₀ with value := f e₀.value } else e₀) = e := by
  show e ∈ r.entries.map _ ↔ _
  rw [List.mem_map]
  refine exists_congr fun e₀ => and_congr_right fun _ => ?_
  by_cases hhandle : e₀.handle = handle
  · simp only [if_pos hhandle]
  · simp only [if_neg hhandle]

omit [DecidableEq ν] in
/-- How many objects satisfy a condition, when one of them has changed. -/
theorem countP_adjusted {r : Registry ν α} {e : Entry ν α} (he : e ∈ r.entries) (f : α → α)
    (p : α → Bool) :
    ((r.adjusted e.handle f).entries.countP fun e => p e.value) + (p e.value).toNat =
      (r.entries.countP fun e => p e.value) + (p (f e.value)).toNat := by
  have hcount : ∀ entries : List (Entry ν α), (entries.map Entry.handle).Nodup → e ∈ entries →
      ((entries.map fun e' =>
        { e' with value := if e'.handle = e.handle then f e'.value else e'.value }).countP
          fun e => p e.value) + (p e.value).toNat =
      (entries.countP fun e => p e.value) + (p (f e.value)).toNat := by
    intro entries hnodup hmem
    induction entries with
    | nil => exact absurd hmem List.not_mem_nil
    | cons e' entries ih =>
        rw [List.map_cons, List.nodup_cons] at hnodup
        rw [List.map_cons, List.countP_cons, List.countP_cons]
        rcases List.mem_cons.mp hmem with rfl | hmem
        · have hothers : (entries.map fun e' =>
              { e' with value := if e'.handle = e.handle then f e'.value else e'.value }) =
                entries := by
            refine (List.map_congr_left fun e' he' => ?_).trans (List.map_id _)
            rw [if_neg]
            · rfl
            · intro heq
              apply hnodup.1
              rw [← heq]
              exact List.mem_map_of_mem he'
          rw [hothers, if_pos rfl]
          cases p e.value <;> cases p (f e.value) <;> simp
        · have hne : e'.handle ≠ e.handle := by
            intro heq
            apply hnodup.1
            rw [heq]
            exact List.mem_map_of_mem hmem
          have hrest := ih hnodup.2 hmem
          simp only [if_neg hne]
          omega
  exact hcount r.entries r.handles_nodup he

/-- How many objects satisfy a condition, when one of them is gone. -/
theorem countP_closed {r : Registry ν α} {name : ν} {e : Entry ν α} (h : r.find name = some e)
    (p : α → Bool) :
    ((r.closed name).entries.countP fun e => p e.value) + (p e.value).toNat =
      r.entries.countP fun e => p e.value := by
  have hcount : ∀ entries : List (Entry ν α),
      (entries.find? fun e => e.name = name) = some e →
      ((entries.eraseP fun e => e.name = name).countP fun e => p e.value) + (p e.value).toNat =
        entries.countP fun e => p e.value := by
    intro entries hfind
    induction entries with
    | nil => exact nomatch hfind
    | cons e' entries ih =>
        by_cases hname : e'.name = name
        · rw [List.find?_cons_of_pos (by simpa using hname)] at hfind
          obtain rfl := Option.some.inj hfind
          rw [List.eraseP_cons_of_pos (by simpa using hname), List.countP_cons]
          cases p e'.value <;> simp
        · rw [List.find?_cons_of_neg (by simpa using hname)] at hfind
          have hrest := ih hfind
          rw [List.eraseP_cons_of_neg (by simpa using hname), List.countP_cons, List.countP_cons]
          omega
  exact hcount r.entries h

/-! ### Runs of operations -/

/-- The second registry comes from the first by opening, changing and closing; these are the names
that were closed. -/
inductive Evolves : List ν → Registry ν α → Registry ν α → Prop
  | refl (r : Registry ν α) : Evolves [] r r
  | opened (r : Registry ν α) (name : ν) (value : α) : Evolves [] r (r.opened name value)
  | closed (r : Registry ν α) (name : ν) : Evolves [name] r (r.closed name)
  | updated (r : Registry ν α) (f : Entry ν α → α) : Evolves [] r (r.updated f)
  | trans {names names' : List ν} {r r' r'' : Registry ν α} (first : Evolves names r r')
      (second : Evolves names' r' r'') : Evolves (names ++ names') r r''

theorem Evolves.adjusted (r : Registry ν α) (handle : ℕ) (f : α → α) :
    Evolves [] r (r.adjusted handle f) := .updated r _

/-- Two quiet runs are one. -/
theorem Evolves.andThen {r r' r'' : Registry ν α} (first : Evolves [] r r')
    (second : Evolves [] r' r'') : Evolves [] r r'' := .trans first second

theorem holds_opened {r : Registry ν α} {handle : ℕ} {name : ν} (h : r.Holds handle name)
    (other : ν) (value : α) : (r.opened other value).Holds handle name := by
  obtain ⟨e, he, hkey⟩ := h
  unfold Registry.opened
  split_ifs
  · exact ⟨e, he, hkey⟩
  · exact ⟨e, List.mem_cons_of_mem _ he, hkey⟩

theorem holds_closed {r : Registry ν α} {handle : ℕ} {name other : ν} (h : r.Holds handle name)
    (hne : name ≠ other) : (r.closed other).Holds handle name := by
  obtain ⟨e, he, hhandle, rfl⟩ := h
  exact ⟨e, mem_closed.mpr ⟨he, hne⟩, hhandle, rfl⟩

omit [DecidableEq ν] in
theorem holds_updated {r : Registry ν α} {handle : ℕ} {name : ν} (h : r.Holds handle name)
    (f : Entry ν α → α) : (r.updated f).Holds handle name := by
  obtain ⟨e, he, hkey⟩ := h
  exact ⟨_, List.mem_map_of_mem he, hkey⟩

/-- An object whose name is not closed stays. -/
theorem Evolves.holds {names : List ν} {r r' : Registry ν α} (h : Evolves names r r')
    {handle : ℕ} {name : ν} (hholds : r.Holds handle name) (hname : name ∉ names) :
    r'.Holds handle name := by
  induction h with
  | refl r => exact hholds
  | opened r other value => exact holds_opened hholds other value
  | closed r other => exact holds_closed hholds (List.ne_of_not_mem_cons hname)
  | updated r f => exact holds_updated hholds f
  | trans first second ih ih' =>
      rw [List.mem_append, not_or] at hname
      exact ih' (ih hholds hname.1) hname.2

/-- A handle that has been given out and is that of no object. -/
def Registry.Stale (r : Registry ν α) (handle : ℕ) : Prop := handle < r.next ∧ ¬ r.Live handle

theorem stale_opened {r : Registry ν α} {handle : ℕ} (h : r.Stale handle) (name : ν) (value : α) :
    (r.opened name value).Stale handle := by
  unfold Registry.opened
  split_ifs
  · exact h
  · refine ⟨Nat.lt_succ_of_lt h.1, ?_⟩
    rintro ⟨e, he, hhandle⟩
    rcases List.mem_cons.mp he with rfl | he
    · exact absurd h.1 (by rw [← hhandle]; exact Nat.lt_irrefl _)
    · exact h.2 ⟨e, he, hhandle⟩

theorem stale_closed {r : Registry ν α} {handle : ℕ} (h : r.Stale handle) (name : ν) :
    (r.closed name).Stale handle := by
  refine ⟨h.1, ?_⟩
  rintro ⟨e, he, hhandle⟩
  exact h.2 ⟨e, (mem_closed.mp he).1, hhandle⟩

omit [DecidableEq ν] in
theorem stale_updated {r : Registry ν α} {handle : ℕ} (h : r.Stale handle)
    (f : Entry ν α → α) : (r.updated f).Stale handle := by
  refine ⟨h.1, ?_⟩
  rintro ⟨e, he, hhandle⟩
  obtain ⟨e', he', rfl⟩ := List.mem_map.mp he
  exact h.2 ⟨e', he', hhandle⟩

/-- A stale handle stays stale. -/
theorem Evolves.stale {names : List ν} {r r' : Registry ν α} (h : Evolves names r r')
    {handle : ℕ} (hstale : r.Stale handle) : r'.Stale handle := by
  induction h with
  | refl r => exact hstale
  | opened r name value => exact stale_opened hstale name value
  | closed r name => exact stale_closed hstale name
  | updated r f => exact stale_updated hstale f
  | trans first second ih ih' => exact ih' (ih hstale)

/-- Closing a name makes the handle of its object stale. -/
theorem stale_of_closed {r : Registry ν α} {handle : ℕ} {name : ν} (h : r.Holds handle name) :
    (r.closed name).Stale handle := by
  obtain ⟨e, he, rfl, rfl⟩ := h
  refine ⟨r.handles_lt e he, ?_⟩
  rintro ⟨e', he', hhandle⟩
  obtain ⟨hmem, hname⟩ := mem_closed.mp he'
  have hsame : e' = e := List.inj_on_of_nodup_map r.handles_nodup hmem he hhandle
  rw [hsame] at hname
  exact hname rfl

theorem Evolves.stale_of_mem {names : List ν} {r r' : Registry ν α} (h : Evolves names r r')
    {handle : ℕ} {name : ν} (hholds : r.Holds handle name) (hname : name ∈ names) :
    r'.Stale handle := by
  induction h with
  | refl r => exact absurd hname List.not_mem_nil
  | opened r other value => exact absurd hname List.not_mem_nil
  | closed r other =>
      obtain rfl := List.mem_singleton.mp hname
      exact stale_of_closed hholds
  | updated r f => exact absurd hname List.not_mem_nil
  | @trans names names' r r' r'' first second ih ih' =>
      by_cases hfirst : name ∈ names
      · exact second.stale (ih hholds hfirst)
      · have hsecond := (List.mem_append.mp hname).resolve_left hfirst
        exact ih' (first.holds hholds hfirst) hsecond

/-- **A handle stays that of its object, exactly if the name of the object is not closed.** -/
theorem Evolves.live_iff {names : List ν} {r r' : Registry ν α} (h : Evolves names r r')
    {handle : ℕ} {name : ν} (hholds : r.Holds handle name) :
    r'.Live handle ↔ name ∉ names := by
  constructor
  · intro hlive hname
    exact (h.stale_of_mem hholds hname).2 hlive
  · intro hname
    exact (h.holds hholds hname).live

end NamedObjects

import Mathlib.Data.List.Basic

/-!
# Trees that are written with indentation

A text whose lines are indented is a tree: what is indented below a line belongs to it.  A reader
that takes line after line and keeps one key for each level gets the tree back.

* `Outline.lines`: the lines of a tree; `Outline.places`: its labels, each with those above it.
* `readLine`: a reader that keeps the keys in force, and sees those up to the level of its line.
* `foldlM_lines`: **at every line of a tree it sees the keys above it**, and the one of the line in
  front of it at its level, and nothing else.
-/

/-- Labels, each with those below it: empty, or a first label and the others. -/
inductive Outline (α : Type*) where
  | nil
  | item (label : α) (below rest : Outline α)

namespace Outline

variable {α κ ε σ : Type*}

/-- The labels in the order of their lines, each with its level. -/
def lines : Outline α → ℕ → List (ℕ × α)
  | nil, _ => []
  | item label below rest, level =>
      (level, label) :: (below.lines (level + 1) ++ rest.lines level)

/-- Where a label stands: below these, and behind this one. -/
structure Place (α : Type*) where
  above : List α
  before : Option α

/-- The labels in the order of their lines, each with its place. -/
def places : Outline α → List α → Option α → List (Place α × α)
  | nil, _, _ => []
  | item label below rest, above, before =>
      (⟨above, before⟩, label) ::
        (below.places (above ++ [label]) none ++ rest.places above (some label))

/-- The labels that a reader finds in force. -/
def Place.inForce (p : Place α) : List α := p.above ++ p.before.toList

theorem length_places (o : Outline α) (above : List α) (before : Option α) (level : ℕ) :
    (o.places above before).length = (o.lines level).length := by
  induction o generalizing above before level with
  | nil => rfl
  | item label below rest ihBelow ihRest =>
      unfold places lines
      rw [List.length_cons, List.length_cons, List.length_append, List.length_append,
        ihBelow _ _ (level + 1), ihRest _ _ level]

/-- What is in front of a label at its level has a place of its own. -/
theorem exists_place_before {o : Outline α} {above : List α} {before : Option α} {p : Place α}
    {label b : α} (h : (p, label) ∈ o.places above before) (hb : p.before = some b) :
    (p.above = above ∧ before = some b) ∨
      ∃ before', (⟨p.above, before'⟩, b) ∈ o.places above before := by
  induction o generalizing above before with
  | nil => exact absurd h List.not_mem_nil
  | item first below rest ihBelow ihRest =>
      unfold places at h ⊢
      rcases List.mem_cons.mp h with heq | h
      · obtain ⟨rfl, -⟩ := Prod.mk.inj heq
        exact .inl ⟨rfl, hb⟩
      rcases List.mem_append.mp h with h | h
      · rcases ihBelow h with ⟨-, hnone⟩ | ⟨before', hmem⟩
        · cases hnone
        · exact .inr ⟨before', List.mem_cons_of_mem _ (List.mem_append_left _ hmem)⟩
      · rcases ihRest h with ⟨habove, hsome⟩ | ⟨before', hmem⟩
        · obtain rfl := Option.some.inj hsome
          exact .inr ⟨before, habove ▸ List.mem_cons_self⟩
        · exact .inr ⟨before', List.mem_cons_of_mem _ (List.mem_append_right _ hmem)⟩

/-- Every line has its place. -/
theorem exists_place_of_mem_lines {o : Outline α} {above : List α} (before : Option α)
    {line : ℕ × α} (h : line ∈ o.lines above.length) :
    ∃ p, (p, line.2) ∈ o.places above before ∧ p.above.length = line.1 := by
  induction o generalizing above before with
  | nil => exact absurd h List.not_mem_nil
  | item first below rest ihBelow ihRest =>
      unfold lines at h
      unfold places
      rcases List.mem_cons.mp h with rfl | h
      · exact ⟨_, List.mem_cons_self, rfl⟩
      rcases List.mem_append.mp h with h | h
      · have hlength : (above ++ [first]).length = above.length + 1 := List.length_append
        rw [← hlength] at h
        obtain ⟨p, hmem, hlevel⟩ := ihBelow none h
        exact ⟨p, List.mem_cons_of_mem _ (List.mem_append_left _ hmem), hlevel⟩
      · obtain ⟨p, hmem, hlevel⟩ := ihRest (some first) h
        exact ⟨p, List.mem_cons_of_mem _ (List.mem_append_right _ hmem), hlevel⟩

/-! ### Reading -/

variable (key : α → κ) (step : ℕ → List κ → ℕ → α → σ → Except ε σ)

/-- A reader on a line with its number: it sees the keys in force up to the level of the line, and
then the key of the line is in force and what is deeper is forgotten. -/
def readLine (state : List κ × σ) (line : (ℕ × α) × ℕ) : Except ε (List κ × σ) :=
  (step line.2 (state.1.take (line.1.1 + 1)) line.1.1 line.1.2 state.2).map fun s =>
    (state.1.take line.1.1 ++ [key line.1.2], s)

/-- The same at a place of a tree. -/
def visit (s : σ) (entry : (Place α × α) × ℕ) : Except ε σ :=
  step entry.2 (entry.1.1.inForce.map key) entry.1.1.above.length entry.1.2 s

variable {key step}

/-- The keys in force up to a level are those above it. -/
theorem take_above {above : List α} {before : Option α} {stack : List κ}
    (h : stack.take (above.length + 1) = (above ++ before.toList).map key) :
    stack.take above.length = above.map key := by
  have htake := congrArg (List.take above.length) h
  rw [List.take_take, Nat.min_eq_left (Nat.le_succ _), List.map_append] at htake
  rw [htake]
  exact List.take_left' (List.length_map _)

theorem length_le_of_take {above : List α} {before : Option α} {stack : List κ}
    (h : stack.take (above.length + 1) = (above ++ before.toList).map key) :
    above.length ≤ stack.length := by
  have hlength := congrArg List.length (take_above h)
  rw [List.length_take, List.length_map] at hlength
  exact hlength ▸ Nat.min_le_right _ _

/-- **Reading the lines of a tree is visiting its places**, for a program that does with good lines
what the reader does, as long as no level is left out. -/
theorem foldlM_lines_from {read : List κ × σ → (ℕ × α) × ℕ → Except ε (List κ × σ)}
    {Good : ℕ → α → Prop}
    (hread : ∀ stack s level label n, Good level label → level ≤ stack.length →
      read (stack, s) ((level, label), n) = readLine key step (stack, s) ((level, label), n))
    (o : Outline α) {above : List α} {before : Option α} {stack : List κ}
    (hgood : ∀ line ∈ o.lines above.length, Good line.1 line.2)
    (h : stack.take (above.length + 1) = (above ++ before.toList).map key) (n : ℕ) (s : σ) :
    ∃ stack', stack'.take above.length = above.map key ∧
      ((o.lines above.length).zipIdx n).foldlM read (stack, s) =
        (((o.places above before).zipIdx n).foldlM (visit key step) s).map fun s => (stack', s) := by
  induction o generalizing above before stack n s with
  | nil => exact ⟨stack, take_above h, rfl⟩
  | item label below rest ihBelow ihRest =>
      unfold lines at hgood
      obtain ⟨hlabel, hgood⟩ := List.forall_mem_cons.mp hgood
      have hbelowGood := fun line hline => hgood line (List.mem_append_left _ hline)
      have hrestGood := fun line hline => hgood line (List.mem_append_right _ hline)
      unfold lines places
      rw [List.zipIdx_cons, List.zipIdx_cons, List.foldlM_cons, List.foldlM_cons]
      -- the reader sees what is in force at this place
      have hfirst : read (stack, s) ((above.length, label), n) =
          (visit key step s ((⟨above, before⟩, label), n)).map fun s =>
            ((above ++ [label]).map key, s) := by
        rw [hread stack s above.length label n hlabel (length_le_of_take h)]
        unfold readLine visit Place.inForce
        dsimp only
        rw [h, take_above h, @List.map_append _ _ key above [label], List.map_singleton]
      rw [hfirst]
      cases visit key step s ((⟨above, before⟩, label), n) with
      | error e => exact ⟨stack, take_above h, rfl⟩
      | ok s₁ =>
          have hlength : (above ++ [label]).length = above.length + 1 := List.length_append
          have hbelow := @ihBelow (above ++ [label]) none ((above ++ [label]).map key)
            (by rw [hlength]; exact hbelowGood)
            (by rw [Option.toList_none, List.append_nil]
                exact List.take_of_length_le (by rw [List.length_map]; exact Nat.le_succ _))
            (n + 1) s₁
          obtain ⟨stack₂, htake, hbelow⟩ := hbelow
          rw [hlength] at htake hbelow
          have hplaces := length_places below (above ++ [label]) none (above.length + 1)
          rw [List.zipIdx_append, List.zipIdx_append, hplaces]
          dsimp only [bind, Except.bind, Except.map]
          rw [List.foldlM_append, List.foldlM_append, hbelow]
          cases ((below.places (above ++ [label]) none).zipIdx (n + 1)).foldlM
              (visit key step) s₁ with
          | error e => exact ⟨stack, take_above h, rfl⟩
          | ok s₂ => exact @ihRest above (some label) stack₂ hrestGood htake _ s₂

/-- **From the first line on.** -/
theorem foldlM_lines {read : List κ × σ → (ℕ × α) × ℕ → Except ε (List κ × σ)}
    {Good : ℕ → α → Prop}
    (hread : ∀ stack s level label n, Good level label → level ≤ stack.length →
      read (stack, s) ((level, label), n) = readLine key step (stack, s) ((level, label), n))
    (o : Outline α) (hgood : ∀ line ∈ o.lines 0, Good line.1 line.2) (n : ℕ) (s : σ) :
    (((o.lines 0).zipIdx n).foldlM read ([], s)).map Prod.snd =
      ((o.places [] none).zipIdx n).foldlM (visit key step) s := by
  obtain ⟨stack, -, hall⟩ := @foldlM_lines_from α κ ε σ key step read Good hread o [] none [] hgood
    rfl n s
  rw [List.length_nil] at hall
  rw [hall]
  cases ((o.places [] none).zipIdx n).foldlM (visit key step) s with
  | error e => rfl
  | ok s => rfl

end Outline

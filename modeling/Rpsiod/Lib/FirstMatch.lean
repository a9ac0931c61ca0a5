import Mathlib.Data.Finset.Card

/-!
# The first rule that matches

A rule asks for some names and applies where all of them are in force; of a list of rules, the first
that applies is taken.

* `chosen`: the place of the rule that is taken.
* `Settled`: no rule that is passed over can be completed by so many names.
* `Settled.chosen_eq`: **the rule that is taken stays the same**, whatever these names are.
* `exists_of_not_settled`, `chosen_ne_of_applies`: otherwise a rule that is passed over can be
  completed, and then it or an earlier one is taken.
-/

namespace FirstMatch

variable {ν : Type*} [DecidableEq ν]

/-- The rule applies with these names in force; `none` is one that never does. -/
def Applies (scope : Finset ν) : Option (Finset ν) → Prop
  | none => False
  | some names => names ⊆ scope

instance (scope : Finset ν) : (rule : Option (Finset ν)) → Decidable (Applies scope rule)
  | none => inferInstanceAs (Decidable False)
  | some names => inferInstanceAs (Decidable (names ⊆ scope))

/-- The place of the rule that is taken, behind the end if there is none. -/
def chosen (rules : List (Option (Finset ν))) (scope : Finset ν) : ℕ :=
  rules.findIdx fun rule => Applies scope rule

/-- The rules in front of the one that is taken. -/
def passedOver (rules : List (Option (Finset ν))) (scope : Finset ν) : List (Option (Finset ν)) :=
  rules.takeWhile fun rule => ¬ Applies scope rule

/-- The rule lacks more than `n` of its names. -/
def Lacks (n : ℕ) (scope : Finset ν) : Option (Finset ν) → Prop
  | none => True
  | some names => n < (names \ scope).card

instance (n : ℕ) (scope : Finset ν) :
    (rule : Option (Finset ν)) → Decidable (Lacks n scope rule)
  | none => inferInstanceAs (Decidable True)
  | some names => inferInstanceAs (Decidable (n < (names \ scope).card))

/-- What is passed over below `own` names lacks more than `n` others, next to those that are known
to be in force. -/
def Settled (n : ℕ) (rules : List (Option (Finset ν))) (own known : Finset ν) : Prop :=
  ∀ rule ∈ passedOver rules own, Lacks n known rule

instance (n : ℕ) (rules : List (Option (Finset ν))) (own known : Finset ν) :
    Decidable (Settled n rules own known) :=
  inferInstanceAs (Decidable (∀ rule ∈ passedOver rules own, Lacks n known rule))

omit [DecidableEq ν] in
/-- A rule that is for some cases only. -/
theorem applies_if {c : Prop} [Decidable c] {scope names : Finset ν} :
    Applies scope (if c then some names else none) ↔ c ∧ names ⊆ scope := by
  by_cases h : c
  · rw [if_pos h]
    exact ⟨fun hsub => ⟨h, hsub⟩, fun hboth => hboth.2⟩
  · rw [if_neg h]
    exact ⟨fun hnever => absurd hnever id, fun hboth => h hboth.1⟩

omit [DecidableEq ν] in
theorem Applies.mono {scope scope' : Finset ν} (h : scope ⊆ scope') :
    ∀ {rule : Option (Finset ν)}, Applies scope rule → Applies scope' rule
  | none => id
  | some _ => fun happlies => happlies.trans h

/-- With so many more names in force, a rule that lacks more does not apply. -/
theorem Lacks.not_applies {n : ℕ} {scope known more : Finset ν} (hscope : scope ⊆ known ∪ more)
    (hmore : more.card ≤ n) : ∀ {rule : Option (Finset ν)}, Lacks n known rule →
      ¬ Applies scope rule
  | none => fun _ h => h
  | some names => fun hlacks happlies => by
      have hmissing : names \ known ⊆ more := by
        intro name hname
        obtain ⟨hin, hout⟩ := Finset.mem_sdiff.mp hname
        exact (Finset.mem_union.mp (hscope (happlies hin))).resolve_left hout
      exact absurd (Nat.lt_of_lt_of_le hlacks (Finset.card_le_card hmissing)) (by omega)

theorem chosen_cons (rule : Option (Finset ν)) (rules : List (Option (Finset ν)))
    (scope : Finset ν) :
    chosen (rule :: rules) scope = if Applies scope rule then 0 else chosen rules scope + 1 := by
  unfold chosen
  rw [List.findIdx_cons]
  by_cases h : Applies scope rule
  · simp [h]
  · simp [h]

theorem passedOver_cons (rule : Option (Finset ν)) (rules : List (Option (Finset ν)))
    (scope : Finset ν) :
    passedOver (rule :: rules) scope =
      if Applies scope rule then [] else rule :: passedOver rules scope := by
  unfold passedOver
  rw [List.takeWhile_cons]
  by_cases h : Applies scope rule
  · simp [h]
  · simp [h]

/-- **The rule that is taken stays the same** with `n` more names in force, whatever they are. -/
theorem Settled.chosen_eq {n : ℕ} {rules : List (Option (Finset ν))}
    {own scope known more : Finset ν} (h : Settled n rules own known) (hown : own ⊆ scope)
    (hscope : scope ⊆ known ∪ more) (hmore : more.card ≤ n) :
    chosen rules scope = chosen rules own := by
  induction rules with
  | nil => rfl
  | cons rule rules ih =>
      unfold Settled at h ih
      rw [passedOver_cons] at h
      rw [chosen_cons, chosen_cons]
      by_cases happlies : Applies own rule
      · rw [if_pos happlies, if_pos (happlies.mono hown)]
      · rw [if_neg happlies] at h
        have hnot : ¬ Applies scope rule :=
          (h rule List.mem_cons_self).not_applies hscope hmore
        rw [if_neg happlies, if_neg hnot, ih fun r hr => h r (List.mem_cons_of_mem _ hr)]

/-- Otherwise few enough names complete a rule that is passed over. -/
theorem exists_of_not_settled {n : ℕ} {rules : List (Option (Finset ν))} {own known : Finset ν}
    (h : ¬ Settled n rules own known) :
    ∃ names, some names ∈ passedOver rules own ∧ (names \ known).card ≤ n := by
  unfold Settled at h
  simp only [not_forall] at h
  obtain ⟨rule, hrule, hlacks⟩ := h
  cases rule with
  | none => exact absurd trivial hlacks
  | some names => exact ⟨names, hrule, not_lt.mp hlacks⟩

theorem mem_of_mem_passedOver {rules : List (Option (Finset ν))} {scope : Finset ν}
    {rule : Option (Finset ν)} (h : rule ∈ passedOver rules scope) : rule ∈ rules :=
  (List.takeWhile_prefix _).subset h

/-- A rule that was passed over and applies after all: another rule is taken. -/
theorem chosen_ne_of_applies {rules : List (Option (Finset ν))} {own scope : Finset ν}
    {rule : Option (Finset ν)} (hrule : rule ∈ passedOver rules own)
    (happlies : Applies scope rule) : chosen rules scope ≠ chosen rules own := by
  induction rules with
  | nil => cases hrule
  | cons first rules ih =>
      rw [passedOver_cons] at hrule
      rw [chosen_cons, chosen_cons]
      by_cases hfirst : Applies own first
      · rw [if_pos hfirst] at hrule
        cases hrule
      · rw [if_neg hfirst] at hrule
        rw [if_neg hfirst]
        by_cases hscope : Applies scope first
        · rw [if_pos hscope]
          exact (Nat.succ_ne_zero _).symm
        · rw [if_neg hscope]
          rcases List.mem_cons.mp hrule with rfl | hrest
          · exact absurd happlies hscope
          · exact fun heq => ih hrest (Nat.succ.inj heq)

end FirstMatch

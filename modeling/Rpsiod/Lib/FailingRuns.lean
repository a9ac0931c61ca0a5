import Mathlib.Data.List.Forall2

/-!
# Runs that can fail

Steps that return a state or an error, one behind the other.

* `exists_of_foldlM_cons`: a run that gets through has got through its first step.
* `foldlM_invariant`: what every step keeps holds at the end.
* `foldlM_congr`: steps that are the same make the same run.
* `foldlM_eq_error_iff`: **the error of a run is that of the first step that fails**.
* `foldlM_project`: **what every step does to a part of the state**, the run does as a fold.
* `forall₂_of_mapM`: the results, element by element.
-/

namespace FailingRun

/-- Both parts have gone through. -/
theorem bind_eq_ok {ε : Type*} {α β : Type _} {x : Except ε α} {f : α → Except ε β} {b : β}
    (h : x >>= f = .ok b) : ∃ a, x = .ok a ∧ f a = .ok b := by
  cases x with
  | error e => exact nomatch h
  | ok a => exact ⟨a, rfl, h⟩

variable {ε α σ : Type*} {step : σ → α → Except ε σ}

/-- The first step, and the others. -/
theorem exists_of_foldlM_cons {a : α} {as : List α} {s final : σ}
    (h : (a :: as).foldlM step s = .ok final) :
    ∃ mid, step s a = .ok mid ∧ as.foldlM step mid = .ok final := by
  rw [List.foldlM_cons] at h
  exact bind_eq_ok h

/-- What every step keeps. -/
theorem foldlM_invariant {P : σ → Prop} {as : List α} {s final : σ}
    (hstep : ∀ a ∈ as, ∀ s s', P s → step s a = .ok s' → P s') (hs : P s)
    (h : as.foldlM step s = .ok final) : P final := by
  induction as generalizing s with
  | nil => exact Except.ok.inj h ▸ hs
  | cons a as ih =>
      obtain ⟨mid, hfirst, hrest⟩ := exists_of_foldlM_cons h
      have hmid := hstep a List.mem_cons_self s mid hs hfirst
      exact ih (fun b hb => hstep b (List.mem_cons_of_mem a hb)) hmid hrest

/-- Steps that are the same on these inputs. -/
theorem foldlM_congr {step' : σ → α → Except ε σ} {as : List α}
    (h : ∀ a ∈ as, ∀ s, step s a = step' s a) (s : σ) : as.foldlM step s = as.foldlM step' s := by
  induction as generalizing s with
  | nil => rfl
  | cons a as ih =>
      rw [List.foldlM_cons, List.foldlM_cons, h a List.mem_cons_self s]
      cases step' s a with
      | error e => rfl
      | ok mid => exact ih (fun b hb => h b (List.mem_cons_of_mem a hb)) mid

/-- **The first step that fails.** -/
theorem foldlM_eq_error_iff {as : List α} {s : σ} {e : ε} :
    as.foldlM step s = .error e ↔
      ∃ front a back mid, as = front ++ a :: back ∧ front.foldlM step s = .ok mid ∧
        step mid a = .error e := by
  constructor
  · intro h
    induction as generalizing s with
    | nil => cases h
    | cons a as ih =>
        rw [List.foldlM_cons] at h
        cases hfirst : step s a with
        | error e' =>
            rw [hfirst] at h
            have hsame : e' = e := Except.error.inj h
            exact ⟨[], a, as, s, rfl, rfl, hfirst.trans (congrArg Except.error hsame)⟩
        | ok mid =>
            rw [hfirst] at h
            obtain ⟨front, b, back, last, rfl, hfront, hb⟩ := ih h
            refine ⟨a :: front, b, back, last, rfl, ?_, hb⟩
            rw [List.foldlM_cons, hfirst]
            exact hfront
  · rintro ⟨front, a, back, mid, rfl, hfront, ha⟩
    rw [List.foldlM_append, hfront]
    show (a :: back).foldlM step mid = .error e
    rw [List.foldlM_cons, ha]
    rfl

/-- **A part of the state.** -/
theorem foldlM_project {β : Type*} {proj : σ → β} {g : β → α → β} {as : List α} {s final : σ}
    (hstep : ∀ a ∈ as, ∀ s s', step s a = .ok s' → proj s' = g (proj s) a)
    (h : as.foldlM step s = .ok final) : proj final = as.foldl g (proj s) := by
  induction as generalizing s with
  | nil => exact congrArg proj (Except.ok.inj h).symm
  | cons a as ih =>
      obtain ⟨mid, hfirst, hrest⟩ := exists_of_foldlM_cons h
      rw [List.foldl_cons, ← hstep a List.mem_cons_self s mid hfirst]
      exact ih (fun b hb => hstep b (List.mem_cons_of_mem a hb)) hrest

/-- One result for each element. -/
theorem forall₂_of_mapM {β : Type _} {f : α → Except ε β} {as : List α} {bs : List β}
    (h : as.mapM f = .ok bs) : List.Forall₂ (fun a b => f a = .ok b) as bs := by
  induction as generalizing bs with
  | nil =>
      obtain rfl := Except.ok.inj h
      exact .nil
  | cons a as ih =>
      rw [List.mapM_cons] at h
      obtain ⟨b, hb, h⟩ := bind_eq_ok h
      obtain ⟨bs', hbs, h⟩ := bind_eq_ok h
      obtain rfl := Except.ok.inj h
      exact .cons hb (ih hbs)

end FailingRun

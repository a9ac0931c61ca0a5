import Mathlib.Logic.Basic
import Mathlib.Data.Int.Notation
import Mathlib.Tactic.SplitIfs

/-!
# Functions that return 0 or -1

A function takes a state to a state and returns a code: 0 for success and -1 for failure.
`Yields P f Q R` says that from every state with `P` it succeeds in a state with `Q`, or fails in one
with `R`.

* `Yields.bind`: a part that depends on the code of the part in front of it.
* `Yields.andThen`: a part that only follows a success.
-/

namespace ReturnCode

variable {σ : Type*} {P P' Q Q' Q'' R R' : σ → Prop} {f g : σ → σ × ℤ}

/-- A run has succeeded with `Q`, or failed with `R`. -/
def Returns (Q R : σ → Prop) (r : σ × ℤ) : Prop := r.2 = 0 ∧ Q r.1 ∨ r.2 = -1 ∧ R r.1

/-- From every state with `P`, the function succeeds with `Q` or fails with `R`. -/
def Yields (P : σ → Prop) (f : σ → σ × ℤ) (Q R : σ → Prop) : Prop := ∀ s, P s → Returns Q R (f s)

theorem Returns.mono {r : σ × ℤ} (h : Returns Q R r) (hQ : ∀ s, Q s → Q' s)
    (hR : ∀ s, R s → R' s) : Returns Q' R' r := by
  rcases h with ⟨hcode, h⟩ | ⟨hcode, h⟩
  · exact Or.inl ⟨hcode, hQ _ h⟩
  · exact Or.inr ⟨hcode, hR _ h⟩

namespace Yields

/-- The rule of consequence. -/
theorem mono (h : Yields P f Q R) (hP : ∀ s, P' s → P s) (hQ : ∀ s, Q s → Q' s)
    (hR : ∀ s, R s → R' s) : Yields P' f Q' R' := fun s hs => (h s (hP s hs)).mono hQ hR

theorem succeed (h : ∀ s, P s → Q s) : Yields P (fun s => (s, 0)) Q R := fun s hs =>
  Or.inl ⟨rfl, h s hs⟩

theorem fail (h : ∀ s, P s → R s) : Yields P (fun s => (s, -1)) Q R := fun s hs =>
  Or.inr ⟨rfl, h s hs⟩

theorem ite {p : Prop} [Decidable p] (hf : p → Yields P f Q R) (hg : ¬p → Yields P g Q R) :
    Yields P (fun s => if p then f s else g s) Q R := by
  intro s hs
  dsimp only
  split_ifs with h
  · exact hf h s hs
  · exact hg h s hs

/-- Two parts one behind the other, where the second may depend on the code of the first. -/
theorem bind {k : σ × ℤ → σ × ℤ} (hf : Yields P f Q R)
    (hzero : Yields Q (fun s => k (s, 0)) Q' R') (hneg : Yields R (fun s => k (s, -1)) Q' R') :
    Yields P (fun s => k (f s)) Q' R' := by
  intro s hs
  rcases hf s hs with ⟨hcode, h⟩ | ⟨hcode, h⟩
  · have hnext := hzero _ h
    rw [← hcode] at hnext
    exact hnext
  · have hnext := hneg _ h
    rw [← hcode] at hnext
    exact hnext

/-- `if (step < 0) return -1;` between two parts. -/
theorem andThen (hf : Yields P f Q R) (hg : Yields Q g Q' R') (hR : ∀ s, R s → R' s) :
    Yields P (fun s => if (f s).2 < 0 then ((f s).1, -1) else g (f s).1) Q' R' :=
  hf.bind (k := fun r => if r.2 < 0 then (r.1, -1) else g r.1) hg (fail hR)

end Yields

end ReturnCode

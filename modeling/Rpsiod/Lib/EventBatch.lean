import Mathlib.Data.List.Nodup

/-!
# Runs of a loop that harvests events

A loop waits, gets a batch of events, and handles them one after the other.  Each event names the
object it is about, and handling it may take that object away.  A step that finds its object gone is
an error.

* `Behind`: what holds of the state behind a step, if the step goes through.
* `Along`: what the outside does is possible where it happens.
* `exists_batch`: **a run over a batch that names distinct live objects**, of steps that simulate the
  steps of an abstract state and take away at most the object they are about.
-/

namespace EventBatch

variable {σ ε : Type*}

/-- This holds of the result, if there is one. -/
def Behind (result : Option σ) (P : σ → Prop) : Prop := ∀ s, result = some s → P s

instance (P : σ → Prop) [DecidablePred P] : (result : Option σ) → Decidable (Behind result P)
  | none => isTrue fun s h => absurd h.symm (Option.some_ne_none s)
  | some s => decidable_of_iff (P s) ⟨fun h _ hs => Option.some.inj hs ▸ h, fun h => h s rfl⟩

/-- Every event of a run is possible in the state in which it is handled. -/
def Along (possible : σ → ε → Prop) (step : σ → ε → Option σ) : σ → List ε → Prop
  | _, [] => True
  | s, e :: es => possible s e ∧ Behind (step s e) fun s' => Along possible step s' es

instance decidableAlong (possible : σ → ε → Prop) (step : σ → ε → Option σ)
    [∀ s e, Decidable (possible s e)] :
    (s : σ) → (es : List ε) → Decidable (Along possible step s es)
  | _, [] => isTrue trivial
  | s, e :: es =>
      have : DecidablePred fun s' => Along possible step s' es :=
        fun s' => decidableAlong possible step s' es
      inferInstanceAs (Decidable (possible s e ∧
        Behind (step s e) fun s' => Along possible step s' es))

variable {possible : σ → ε → Prop} {step : σ → ε → Option σ}

/-- The first step, and the others. -/
theorem foldlM_cons_of_eq {s s' : σ} {e : ε} (h : step s e = some s') (es : List ε) :
    (e :: es).foldlM step s = es.foldlM step s' := by
  rw [List.foldlM_cons, h, Option.bind_eq_bind, Option.bind_some]

variable {γ τ : Type*} {R : σ → γ → Prop} {apply : γ → ε → γ} {live : γ → τ → Prop}
  {target : ε → τ}

/-- **A batch of events about distinct objects.**  All of them are there when the batch is harvested;
a step is only taken while its object is there, and leaves all other objects. -/
theorem exists_batch
    (hstep : ∀ s c e, R s c → live c (target e) → possible s e →
      ∃ s', step s e = some s' ∧ R s' (apply c e))
    (hkeeps : ∀ c e t, t ≠ target e → live c t → live (apply c e) t)
    {es : List ε} {s : σ} {c : γ} (hR : R s c) (hdistinct : (es.map target).Nodup)
    (hlive : ∀ e ∈ es, live c (target e)) (halong : Along possible step s es) :
    ∃ s', es.foldlM step s = some s' ∧ R s' (es.foldl apply c) := by
  induction es generalizing s c with
  | nil => exact ⟨s, rfl, hR⟩
  | cons e es ih =>
      obtain ⟨hpossible, hrest⟩ := halong
      rw [List.map_cons, List.nodup_cons] at hdistinct
      obtain ⟨hnew, hdistinct⟩ := hdistinct
      obtain ⟨s₁, hs₁, hR₁⟩ := hstep s c e hR (hlive e List.mem_cons_self) hpossible
      have hlive₁ : ∀ other ∈ es, live (apply c e) (target other) := by
        intro other hother
        apply hkeeps
        · intro hsame
          exact hnew (hsame ▸ List.mem_map_of_mem hother)
        · exact hlive other (List.mem_cons_of_mem e hother)
      obtain ⟨s', hs', hR'⟩ := ih hR₁ hdistinct hlive₁ (hrest s₁ hs₁)
      exact ⟨s', by rw [foldlM_cons_of_eq hs₁, hs'], hR'⟩

end EventBatch

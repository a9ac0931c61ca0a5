import Mathlib.Data.List.Basic

/-!
# Fixed windows

A limiter for one client.  The first call opens a window; until its span is over, at most `limit`
calls are admitted; the first call behind it opens the next window.

* `decisions_in_window`: how many calls are admitted in the rest of a window.
* `admitted_le`: **no window admits more calls than its limit**.
* `call_refused_iff`: a call is refused in a window that has nothing left.
-/

namespace FixedWindow

/-- A window that was opened, and the calls it has admitted. -/
structure Window where
  start : ℕ
  count : ℕ
  deriving DecidableEq

/-- A call: whether it is admitted, and the window behind it. -/
def call (limit span : ℕ) (w : Option Window) (now : ℕ) : Bool × Option Window :=
  match w with
  | none => (true, some ⟨now, 1⟩)
  | some w =>
      if w.start + span ≤ now then (true, some ⟨now, 1⟩)
      else if limit ≤ w.count then (false, some w)
      else (true, some ⟨w.start, w.count + 1⟩)

/-- Which of these calls are admitted. -/
def decisions (limit span : ℕ) : List ℕ → Option Window → List Bool
  | [], _ => []
  | now :: times, w =>
      (call limit span w now).1 :: decisions limit span times (call limit span w now).2

variable {limit span start count : ℕ}

/-- A call within a window. -/
theorem call_in_window {now : ℕ} (h : now < start + span) :
    call limit span (some ⟨start, count⟩) now =
      if limit ≤ count then (false, some ⟨start, count⟩)
      else (true, some ⟨start, count + 1⟩) := by
  have hopen : ¬ start + span ≤ now := Nat.not_le.mpr h
  exact if_neg hopen

/-- **A window admits as many calls as are left of its limit.** -/
theorem decisions_in_window (hcount : count ≤ limit) {times : List ℕ}
    (h : ∀ now ∈ times, now < start + span) :
    (decisions limit span times (some ⟨start, count⟩)).count true =
      min times.length (limit - count) := by
  induction times generalizing count with
  | nil => exact (Nat.zero_min _).symm
  | cons now times ih =>
      obtain ⟨hnow, hrest⟩ := List.forall_mem_cons.mp h
      rw [decisions, call_in_window hnow, List.length_cons]
      by_cases hfull : limit ≤ count
      · simp only [if_pos hfull, List.count_cons]
        rw [ih hcount hrest]
        simp
        omega
      · simp only [if_neg hfull, List.count_cons]
        rw [ih (by omega) hrest]
        simp
        omega

/-- A call at this time opens a window: there is none, or its span is over. -/
def Opens (span : ℕ) (w : Option Window) (now : ℕ) : Prop :=
  ∀ old ∈ w, old.start + span ≤ now

theorem call_of_opens {w : Option Window} {now : ℕ} (h : Opens span w now) :
    call limit span w now = (true, some ⟨now, 1⟩) := by
  cases w with
  | none => rfl
  | some w => exact if_pos (h w rfl)

/-- **No window admits more calls than its limit**, the one that opens it included. -/
theorem admitted_le {w : Option Window} {now : ℕ} (hlimit : 0 < limit) (hopens : Opens span w now)
    {times : List ℕ} (h : ∀ later ∈ times, later < now + span) :
    (decisions limit span (now :: times) w).count true ≤ limit := by
  have hrest := @decisions_in_window limit span now 1 hlimit times h
  rw [decisions, call_of_opens hopens, List.count_cons_self, hrest]
  omega

/-- **A call is refused** in a window that is not over and has nothing left. -/
theorem call_refused_iff {w : Option Window} {now : ℕ} :
    (call limit span w now).1 = false ↔
      ∃ old, w = some old ∧ now < old.start + span ∧ limit ≤ old.count := by
  cases w with
  | none => exact iff_of_false (fun h => nomatch h) nofun
  | some old =>
      unfold call
      dsimp only
      split_ifs with hover hfull
      · refine iff_of_false (by decide) ?_
        rintro ⟨_, ⟨⟩, hbefore, -⟩
        omega
      · exact iff_of_true rfl ⟨old, rfl, by omega, hfull⟩
      · refine iff_of_false (by decide) ?_
        rintro ⟨_, ⟨⟩, -, hfull'⟩
        exact hfull hfull'

/-- A refused call leaves the window as it is. -/
theorem call_of_refused {w : Option Window} {now : ℕ} (h : (call limit span w now).1 = false) :
    (call limit span w now).2 = w := by
  obtain ⟨old, rfl, hbefore, hfull⟩ := call_refused_iff.mp h
  rw [call_in_window hbefore, if_pos hfull]

/-- A window does not start behind the last call. -/
theorem start_of_call {w : Option Window} {now : ℕ} (h : ∀ old ∈ w, old.start ≤ now) :
    ∀ new ∈ (call limit span w now).2, new.start ≤ now := by
  cases w with
  | none =>
      rintro new hnew
      obtain rfl := Option.some.inj hnew
      exact Nat.le_refl now
  | some old =>
      intro new hnew
      have hold := h old rfl
      unfold call at hnew
      dsimp only at hnew
      split_ifs at hnew
      · obtain rfl := Option.some.inj hnew
        exact Nat.le_refl now
      · rw [← Option.some.inj hnew]
        exact hold
      · rw [← Option.some.inj hnew]
        exact hold

end FixedWindow

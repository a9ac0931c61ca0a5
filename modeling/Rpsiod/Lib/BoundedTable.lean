import Mathlib.Data.List.ReduceOption
import Rpsiod.Lib.FailingRuns

/-!
# Tables of fixed size

A table takes entries at its end as long as there is room, and then none.

* `append`: an entry at the end, if there is room.
* `contributions`: what each of some offers adds to a table that is filled with them in order.
* `foldl_append_eq`: the table is what they add, one behind the other.
* `getElem_contributions`: an offer adds its entry exactly if there is room behind those in front.
* `keeps_iff`: when everything that is claimed of the offers is in the table.
-/

namespace BoundedTable

variable {α β : Type*}

/-- An entry at the end, if there is room. -/
def append (room : ℕ) (table : List β) (b : β) : List β :=
  if table.length < room then table ++ [b] else table

/-- What an offer adds, if it is an entry. -/
def offer (room : ℕ) (entry : α → Option β) (table : List β) (a : α) : List β :=
  match entry a with
  | none => table
  | some b => append room table b

variable {room : ℕ} {entry : α → Option β}

/-- A run that can fail and offers to a table step by step. -/
theorem foldlM_table {ε σ : Type*} {step : σ → α → Except ε σ} {table : σ → List β}
    (hstep : ∀ s a s', step s a = .ok s' → table s' = offer room entry (table s) a)
    {as : List α} {s final : σ} (h : as.foldlM step s = .ok final) :
    table final = as.foldl (offer room entry) (table s) :=
  FailingRun.foldlM_project (fun a _ s s' hok => hstep s a s' hok) h

/-- **The table in one go**: the entries of the offers, as many as there is room for. -/
theorem foldl_offer (as : List α) (table : List β) :
    as.foldl (offer room entry) table =
      table ++ (as.filterMap entry).take (room - table.length) := by
  induction as generalizing table with
  | nil => rw [List.filterMap_nil, List.take_nil]; exact (List.append_nil table).symm
  | cons a as ih =>
      rw [List.foldl_cons, ih, List.filterMap_cons]
      unfold offer append
      cases entry a with
      | none => rfl
      | some b =>
          dsimp only
          split_ifs with hroom
          · obtain ⟨left, hleft⟩ : ∃ left, room - table.length = left + 1 :=
              ⟨room - table.length - 1, by omega⟩
            have hbehind : room - (table ++ [b]).length = left := by
              rw [List.length_append, List.length_singleton]
              omega
            rw [hbehind, hleft, List.take_succ_cons, List.append_assoc]
            rfl
          · have hfull : room - table.length = 0 := by omega
            rw [hfull, List.take_zero, List.take_zero]

/-! ### What each offer adds -/

/-- What each of the offers adds, when so many entries are in the table. -/
def contributions (room : ℕ) (entry : α → Option β) : ℕ → List α → List (Option β)
  | _, [] => []
  | used, a :: as =>
      match entry a with
      | none => none :: contributions room entry used as
      | some b =>
          if used < room then some b :: contributions room entry (used + 1) as
          else none :: contributions room entry used as

/-- **The table is what the offers add**, in order. -/
theorem foldl_append_eq (as : List α) (table : List β) :
    as.foldl (offer room entry) table =
      table ++ (contributions room entry table.length as).reduceOption := by
  induction as generalizing table with
  | nil => exact (List.append_nil table).symm
  | cons a as ih =>
      rw [List.foldl_cons, ih, contributions]
      unfold offer append
      cases entry a with
      | none => rfl
      | some b =>
          dsimp only
          split_ifs with hroom
          · rw [List.length_append, List.length_singleton, List.append_assoc,
              List.reduceOption_cons_of_some]
            rfl
          · rw [List.reduceOption_cons_of_none]

/-- **An offer adds its entry** exactly if there is room behind the entries in front of it. -/
theorem getElem_contributions {as : List α} {i : ℕ} {a : α} (hi : as[i]? = some a) (used : ℕ)
    (b : β) :
    (contributions room entry used as)[i]? = some (some b) ↔
      entry a = some b ∧ used + (as.take i).countP (fun a => (entry a).isSome) < room := by
  induction as generalizing i used with
  | nil => exact nomatch hi
  | cons first as ih =>
      rw [contributions]
      cases i with
      | zero =>
          rw [List.getElem?_cons_zero, Option.some.injEq] at hi
          subst hi
          rw [List.take_zero, List.countP_nil, Nat.add_zero]
          cases entry first with
          | none => simp
          | some c =>
              dsimp only
              by_cases hroom : used < room
              · simp [hroom]
              · simp [hroom]
      | succ i =>
          rw [List.getElem?_cons_succ] at hi
          rw [List.take_succ_cons, List.countP_cons]
          cases hentry : entry first with
          | none =>
              rw [List.getElem?_cons_succ, ih hi used]
              simp
          | some c =>
              dsimp only
              by_cases hroom : used < room
              · rw [if_pos hroom, List.getElem?_cons_succ, ih hi (used + 1)]
                simp only [Option.isSome_some, if_true]
                rw [Nat.add_assoc used 1, Nat.add_comm 1]
              · rw [if_neg hroom, List.getElem?_cons_succ, ih hi used]
                simp only [Option.isSome_some, if_true]
                constructor
                · rintro ⟨_, hlt⟩
                  omega
                · rintro ⟨_, hlt⟩
                  omega

/-! ### Nothing is lost -/

/-- Every offer of which something is claimed adds just that. -/
def Keeps (room : ℕ) (entry claim : α → Option β) (used : ℕ) (as : List α) : Prop :=
  ∀ (i : ℕ) (a : α) (b : β), as[i]? = some a → claim a = some b →
    (contributions room entry used as)[i]? = some (some b)

/-- What is claimed of an offer is what it offers, and there is room for it. -/
def Fits (room : ℕ) (entry claim : α → Option β) (used : ℕ) (as : List α) : Prop :=
  ∀ (i : ℕ) (a : α) (b : β), as[i]? = some a → claim a = some b →
    entry a = some b ∧ used + (as.take i).countP (fun a => (entry a).isSome) < room

theorem keeps_iff {claim : α → Option β} {used : ℕ} {as : List α} :
    Keeps room entry claim used as ↔ Fits room entry claim used as := by
  unfold Keeps Fits
  constructor
  · intro h i a b hi hclaim
    exact (getElem_contributions hi used b).mp (h i a b hi hclaim)
  · intro h i a b hi hclaim
    exact (getElem_contributions hi used b).mpr (h i a b hi hclaim)

end BoundedTable

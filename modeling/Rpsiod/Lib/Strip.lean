import Mathlib.Data.List.DropRight

/-!
# Stripping both ends of a list

* `strip p l`: `l` without the elements with `p` at its two ends.
* `exists_strip`: what is stripped off has `p`.
* `strip_append`: such elements may be added at both ends.
* `strip_strip`: stripping less first changes nothing.
* `strip_eq_self_iff`: nothing is stripped off exactly if neither end has `p`.
-/

namespace ListStrip

variable {α : Type*} {p q : α → Bool}

/-- A list without the elements with `p` at its ends. -/
def strip (p : α → Bool) (l : List α) : List α := (l.dropWhile p).rdropWhile p

/-- What is stripped off has `p`. -/
theorem exists_strip (p : α → Bool) (l : List α) :
    ∃ a b, l = a ++ strip p l ++ b ∧ (∀ x ∈ a, p x = true) ∧ ∀ x ∈ b, p x = true := by
  refine ⟨l.takeWhile p, (l.dropWhile p).rtakeWhile p, ?_, ?_, ?_⟩
  · unfold strip
    rw [List.append_assoc, List.rdropWhile_append_rtakeWhile, List.takeWhile_append_dropWhile]
  · exact fun x hx => List.mem_takeWhile_imp hx
  · exact fun x hx => List.mem_rtakeWhile_imp hx

theorem length_strip_le (p : α → Bool) (l : List α) : (strip p l).length ≤ l.length := by
  obtain ⟨a, b, hl, -⟩ := exists_strip p l
  have := congrArg List.length hl
  simp only [List.length_append] at this
  omega

/-- A list that is not shorter when it is stripped is the same. -/
theorem strip_eq_self_of_length {l : List α} (h : l.length ≤ (strip p l).length) :
    strip p l = l := by
  obtain ⟨a, b, hl, -⟩ := exists_strip p l
  have hlength := congrArg List.length hl
  simp only [List.length_append] at hlength
  have ha : a = [] := List.length_eq_zero_iff.mp (by omega)
  have hb : b = [] := List.length_eq_zero_iff.mp (by omega)
  rw [ha, hb, List.nil_append, List.append_nil] at hl
  exact hl.symm

theorem mem_of_mem_strip {l : List α} {x : α} (h : x ∈ strip p l) : x ∈ l := by
  obtain ⟨a, b, hl, -⟩ := exists_strip p l
  rw [hl]
  exact List.mem_append_left b (List.mem_append_right a h)

/-- What would be stripped off may be added. -/
theorem strip_append {a b : List α} (ha : ∀ x ∈ a, p x = true) (hb : ∀ x ∈ b, p x = true)
    (l : List α) : strip p (a ++ l ++ b) = strip p l := by
  have hback : ∀ m : List α, (m ++ b).rdropWhile p = m.rdropWhile p := by
    intro m
    unfold List.rdropWhile
    rw [List.reverse_append, List.dropWhile_append_of_pos fun x hx => hb x (List.mem_reverse.mp hx)]
  unfold strip
  rw [List.append_assoc, List.dropWhile_append_of_pos ha, List.dropWhile_append]
  split_ifs with hnil
  · have hl : l.dropWhile p = [] := List.isEmpty_iff.mp hnil
    have hall : b.dropWhile p = [] := List.dropWhile_eq_nil_iff.mpr hb
    rw [hl, hall]
  · exact hback _

/-- Stripping off less first changes nothing. -/
theorem strip_strip (h : ∀ x, p x = true → q x = true) (l : List α) :
    strip q (strip p l) = strip q l := by
  obtain ⟨a, b, hl, ha, hb⟩ := exists_strip p l
  have := strip_append (fun x hx => h x (ha x hx)) (fun x hx => h x (hb x hx)) (strip p l)
  rw [← hl] at this
  exact this.symm

theorem strip_eq_self_iff {l : List α} :
    strip p l = l ↔ (∀ x ∈ l.head?, p x = false) ∧ ∀ x ∈ l.getLast?, p x = false := by
  constructor
  · intro h
    constructor
    · intro x hx
      by_contra hp
      rw [Bool.not_eq_false] at hp
      obtain ⟨m, rfl⟩ : ∃ m, l = x :: m := ⟨l.tail, (List.cons_head?_tail hx).symm⟩
      have hshort := length_strip_le p m
      have hsame : strip p (x :: m) = strip p m := by
        unfold strip
        rw [List.dropWhile_cons_of_pos hp]
      rw [← hsame, h, List.length_cons] at hshort
      omega
    · intro x hx
      by_contra hp
      rw [Bool.not_eq_false] at hp
      obtain ⟨m, rfl⟩ : ∃ m, l = m ++ [x] :=
        ⟨l.dropLast, (List.dropLast_append_getLast? x hx).symm⟩
      have hshort := length_strip_le p m
      have hsame := @strip_append α p [] [x] (fun y hy => absurd hy List.not_mem_nil)
        (fun y hy => by rw [List.mem_singleton.mp hy]; exact hp) m
      rw [List.nil_append] at hsame
      rw [← hsame, h, List.length_append, List.length_singleton] at hshort
      omega
  · rintro ⟨hfirst, hlast⟩
    have hfront : l.dropWhile p = l := by
      cases l with
      | nil => rfl
      | cons x l =>
          rw [List.dropWhile_cons_of_neg]
          rw [hfirst x rfl]
          exact Bool.false_ne_true
    unfold strip
    rw [hfront, List.rdropWhile_eq_self_iff]
    intro hne
    rw [hlast _ (List.getLast?_eq_some_getLast hne)]
    exact Bool.false_ne_true

theorem strip_idempotent (p : α → Bool) (l : List α) : strip p (strip p l) = strip p l :=
  strip_strip (fun _ h => h) l

end ListStrip

import Rpsiod.Lib.Search

/-!
# Collecting a delimited head in a buffer of fixed size

A stream comes in segments.  Until its first delimiter is there the segments are collected in a
buffer, each as a whole, so the segment that brings the delimiter has to fit too, with all that
follows the delimiter in it.

* `collect`: the buffer with the delimiter and the segments behind it; or the buffer is full; or
  the segments end before there is a delimiter.
* `Fits`: the segments that come while there is no delimiter yet fit the buffer.
* `collect_found`: what is found is the front of the stream.
* `collect_found_or_full`: **with a delimiter in the stream, it is found if the segments fit, and
  the buffer is full if they do not**.
-/

namespace Collect

open ListSearch

variable {α : Type*} [DecidableEq α]

/-- What becomes of collecting. -/
inductive Collected (α : Type*) where
  | found (buffer : List α) (stop : ℕ) (rest : List (List α))
  | full
  | short (buffer : List α)

/-- Collecting behind what is in the buffer already. -/
def collect (delimiter : List α) (size : ℕ) : List α → List (List α) → Collected α
  | buffer, [] => .short buffer
  | buffer, segment :: rest =>
      if size - buffer.length < segment.length then .full
      else
        match indexOfSub delimiter (buffer ++ segment) with
        | none => collect delimiter size (buffer ++ segment) rest
        | some stop => .found (buffer ++ segment) stop rest

/-- The segments that come while there is no delimiter yet fit behind the buffer. -/
def Fits (delimiter : List α) (size : ℕ) (buffer : List α) (segments : List (List α)) : Prop :=
  ∀ front segment back, segments = front ++ segment :: back →
    indexOfSub delimiter (buffer ++ front.flatten) = none →
      (buffer ++ (front ++ [segment]).flatten).length ≤ size

variable {delimiter : List α} {size : ℕ}

theorem fits_nil (buffer : List α) : Fits delimiter size buffer [] := by
  intro front segment back h
  exact absurd h (List.append_ne_nil_of_right_ne_nil front (List.cons_ne_nil segment back)).symm

/-- The first of the segments, and the others. -/
theorem fits_cons {buffer segment : List α} {rest : List (List α)}
    (h : indexOfSub delimiter buffer = none) :
    Fits delimiter size buffer (segment :: rest) ↔
      (buffer ++ segment).length ≤ size ∧
        (indexOfSub delimiter (buffer ++ segment) = none →
          Fits delimiter size (buffer ++ segment) rest) := by
  constructor
  · intro hfits
    refine ⟨?_, fun _ front more back hrest hnone => ?_⟩
    · have := hfits [] segment rest rfl (by simpa using h)
      simpa using this
    · have := hfits (segment :: front) more back (by rw [hrest]; rfl)
        (by rwa [List.flatten_cons, ← List.append_assoc])
      rwa [List.cons_append, List.flatten_cons, ← List.append_assoc] at this
  · rintro ⟨hlen, hrest⟩ front more back hsegments hnone
    cases front with
    | nil =>
        obtain ⟨rfl, -⟩ := List.cons_eq_cons.mp hsegments
        simpa using hlen
    | cons x front =>
        obtain ⟨rfl, hback⟩ := List.cons_eq_cons.mp hsegments
        rw [List.flatten_cons, ← List.append_assoc] at hnone
        have := hrest (indexOfSub_eq_none_of_append hnone) front more back hback hnone
        rwa [List.cons_append, List.flatten_cons, ← List.append_assoc]

/-- What is found: the front of the stream, up to the end of the segment with the delimiter. -/
theorem collect_found {buffer found : List α} {stop : ℕ} {segments rest : List (List α)}
    (h : collect delimiter size buffer segments = .found found stop rest) :
    buffer ++ segments.flatten = found ++ rest.flatten ∧
      indexOfSub delimiter found = some stop ∧ ∃ front, segments = front ++ rest := by
  induction segments generalizing buffer with
  | nil => exact nomatch h
  | cons segment segments ih =>
      rw [collect] at h
      split_ifs at h
      cases hindex : indexOfSub delimiter (buffer ++ segment) with
      | none =>
          rw [hindex] at h
          obtain ⟨hflat, hfound, front, hfront⟩ := ih h
          refine ⟨?_, hfound, segment :: front, ?_⟩
          · rw [List.flatten_cons, ← List.append_assoc, hflat]
          · rw [hfront, List.cons_append]
      | some i =>
          rw [hindex, Collected.found.injEq] at h
          obtain ⟨rfl, rfl, rfl⟩ := h
          exact ⟨by rw [List.flatten_cons, List.append_assoc], hindex, [segment], rfl⟩

/-- If the segments end first, the buffer holds the stream, without a delimiter. -/
theorem collect_short {buffer all : List α} {segments : List (List α)}
    (hnone : indexOfSub delimiter buffer = none)
    (h : collect delimiter size buffer segments = .short all) :
    all = buffer ++ segments.flatten ∧ indexOfSub delimiter all = none := by
  induction segments generalizing buffer with
  | nil =>
      obtain rfl : buffer = all := Collected.short.inj h
      exact ⟨by simp, hnone⟩
  | cons segment segments ih =>
      rw [collect] at h
      split_ifs at h
      cases hindex : indexOfSub delimiter (buffer ++ segment) with
      | none =>
          rw [hindex] at h
          obtain ⟨rfl, hall⟩ := ih hindex h
          exact ⟨by rw [List.flatten_cons, List.append_assoc], hall⟩
      | some i =>
          rw [hindex] at h
          exact nomatch h

/-- The buffer is full if and only if the segments do not fit. -/
theorem collect_full_iff {buffer : List α} {segments : List (List α)}
    (hbuffer : buffer.length ≤ size) (hnone : indexOfSub delimiter buffer = none) :
    collect delimiter size buffer segments = .full ↔ ¬ Fits delimiter size buffer segments := by
  induction segments generalizing buffer with
  | nil => exact iff_of_false nofun (not_not.mpr (fits_nil buffer))
  | cons segment segments ih =>
      have hlength : (buffer ++ segment).length = buffer.length + segment.length :=
        List.length_append
      rw [fits_cons hnone, collect]
      by_cases hlen : (buffer ++ segment).length ≤ size
      · rw [if_neg (by omega)]
        cases hindex : indexOfSub delimiter (buffer ++ segment) with
        | none =>
            simp only [ih hlen hindex, hlen, true_and, forall_const]
        | some i =>
            refine iff_of_false nofun (not_not.mpr ⟨hlen, fun h => ?_⟩)
            exact nomatch h
      · rw [if_pos (by omega)]
        exact iff_of_true rfl fun hfits => hlen hfits.1

/-- **A delimiter in the stream is found, or the buffer is full.** -/
theorem collect_found_or_full {buffer : List α} {segments : List (List α)} {stop : ℕ}
    (hbuffer : buffer.length ≤ size) (hnone : indexOfSub delimiter buffer = none)
    (hstop : indexOfSub delimiter (buffer ++ segments.flatten) = some stop) :
    (Fits delimiter size buffer segments ∧
        ∃ all rest, collect delimiter size buffer segments = .found all stop rest) ∨
      (¬ Fits delimiter size buffer segments ∧
        collect delimiter size buffer segments = .full) := by
  have hfull := @collect_full_iff α _ delimiter size buffer segments hbuffer hnone
  cases hcollect : collect delimiter size buffer segments with
  | found all i rest =>
      left
      rw [hcollect] at hfull
      obtain ⟨hflat, hindex, -⟩ := collect_found hcollect
      rw [hflat, indexOfSub_append hindex, Option.some.injEq] at hstop
      refine ⟨?_, all, rest, by rw [hstop]⟩
      by_contra hfits
      exact nomatch hfull.mpr hfits
  | full => exact Or.inr ⟨hfull.mp hcollect, rfl⟩
  | short all =>
      obtain ⟨rfl, hall⟩ := collect_short hnone hcollect
      rw [hall] at hstop
      exact nomatch hstop

end Collect

import Mathlib.Data.List.TakeWhile
import Mathlib.Order.Basic
import Rpsiod.Lib.Segments

/-!
# URI references and their resolution

A reference is cut into its components, and resolved against a base, as the generic syntax of URIs
says.  `47` is the slash, `46` the dot, `58` the colon, `63` the question mark, `35` the number
sign.

* `parse`: the components of a reference.
* `resolve`: the target of a reference.
* `removeDotSegments_eq_self`: a path without dot segments stays as it is.
-/

namespace UriReference

open Segments

/-- The text of a reference, or of a component. -/
abbrev Text := List UInt8

/-- The components of a reference, or of a URI. -/
structure Reference where
  scheme : Option Text := none
  authority : Option Text := none
  path : Text := []
  query : Option Text := none
  fragment : Option Text := none
  deriving DecidableEq

/-! ### Components -/

/-- The path at the start of a text, and what follows it. -/
def pathPart (s : Text) : Text := s.takeWhile fun c => c ≠ 63 && c ≠ 35

def behindPath (s : Text) : Text := s.dropWhile fun c => c ≠ 63 && c ≠ 35

/-- The components behind the authority. -/
def parsePath (scheme authority : Option Text) (s : Text) : Reference where
  scheme := scheme
  authority := authority
  path := pathPart s
  query :=
    if (behindPath s).head? = some 63 then some ((behindPath s).tail.takeWhile (· ≠ 35)) else none
  fragment := if 35 ∈ s then some (s.dropWhile (· ≠ 35)).tail else none

/-- The components behind the scheme. -/
def parseHier (scheme : Option Text) (s : Text) : Reference :=
  match s with
  | 47 :: 47 :: rest =>
      parsePath scheme (some (rest.takeWhile fun c => c ≠ 47 && c ≠ 63 && c ≠ 35))
        (rest.dropWhile fun c => c ≠ 47 && c ≠ 63 && c ≠ 35)
  | s => parsePath scheme none s

/-- What may stand in front of the colon of a scheme. -/
def schemePart (s : Text) : Text := s.takeWhile fun c => c ≠ 58 && c ≠ 47 && c ≠ 63 && c ≠ 35

/-- The components of a reference. -/
def parse (s : Text) : Reference :=
  if schemePart s ≠ [] ∧ (s.drop (schemePart s).length).head? = some 58 then
    parseHier (some (schemePart s)) (s.drop ((schemePart s).length + 1))
  else parseHier none s

/-- A reference that begins with two slashes names an authority, and no scheme. -/
def IsNetworkPath (s : Text) : Prop := (parse s).scheme = none ∧ (parse s).authority ≠ none

instance (s : Text) : Decidable (IsNetworkPath s) := inferInstanceAs (Decidable (_ ∧ _))

/-! ### Resolution -/

/-- Without the last segment, and the slash in front of it. -/
def dropLastSegment (out : Text) : Text := (out.reverse.dropWhile (· ≠ 47)).tail.reverse

/-- The loop that moves the segments of a path to the output; each round makes the input shorter. -/
def removeDots : ℕ → Text → Text → Text
  | 0, _, out => out
  | fuel + 1, s, out =>
      if s = [] then out
      else if [46, 46, 47] <+: s then removeDots fuel (s.drop 3) out
      else if [46, 47] <+: s then removeDots fuel (s.drop 2) out
      else if [47, 46, 47] <+: s then removeDots fuel (s.drop 2) out
      else if s = [47, 46] then removeDots fuel [47] out
      else if [47, 46, 46, 47] <+: s then removeDots fuel (s.drop 3) (dropLastSegment out)
      else if s = [47, 46, 46] then removeDots fuel [47] (dropLastSegment out)
      else if s = [46] ∨ s = [46, 46] then out
      else
        removeDots fuel (s.tail.dropWhile (· ≠ 47)) (out ++ s.take 1 ++ s.tail.takeWhile (· ≠ 47))

/-- The path without its dot segments. -/
def removeDotSegments (path : Text) : Text := removeDots path.length path []

/-- A relative path behind the directory of the base. -/
def merge (base : Reference) (path : Text) : Text :=
  if base.authority ≠ none ∧ base.path = [] then 47 :: path
  else (base.path.reverse.dropWhile (· ≠ 47)).reverse ++ path

/-- The target of a reference. -/
def resolve (base r : Reference) : Reference :=
  if r.scheme ≠ none then { r with path := removeDotSegments r.path }
  else if r.authority ≠ none then
    { r with scheme := base.scheme, path := removeDotSegments r.path }
  else if r.path = [] then
    { r with
      scheme := base.scheme
      authority := base.authority
      path := base.path
      query := if r.query ≠ none then r.query else base.query }
  else
    { r with
      scheme := base.scheme
      authority := base.authority
      path := removeDotSegments
        (if r.path.head? = some 47 then r.path else merge base r.path) }

/-! ### Dot segments -/

/-- The path has no segment that is a dot or two dots. -/
def NoDotSegments (path : Text) : Prop := [46] ∉ segments 47 path ∧ [46, 46] ∉ segments 47 path

/-- The first segment behind a slash. -/
theorem between_first (s : Text) :
    Between 47 [47] (s.takeWhile (· ≠ 47)) (s.dropWhile (· ≠ 47)) where
  left := Or.inr rfl
  right := by
    induction s with
    | nil => exact Or.inl rfl
    | cons c s ih =>
        by_cases hc : c = 47
        · right
          rw [hc]
          rfl
        · rw [List.dropWhile_cons_of_pos (by simpa using hc)]
          exact ih
  inside := fun hmem => by simpa using List.mem_takeWhile_imp hmem

theorem mem_first {s part : Text} (hpart : part = s.takeWhile (· ≠ 47)) (hne : part ≠ []) :
    part ∈ segments 47 (47 :: s) := by
  subst hpart
  have := mem_segments_of_between (between_first s) hne
  rwa [List.append_assoc, List.takeWhile_append_dropWhile] at this

theorem NoDotSegments.behind {s : Text} (h : NoDotSegments (47 :: s)) :
    NoDotSegments (s.dropWhile (· ≠ 47)) := by
  have hmem : ∀ {part : Text}, part ∈ segments 47 (s.dropWhile (· ≠ 47)) →
      part ∈ segments 47 (47 :: s) := by
    intro part hpart
    have hwhole : part ∈ segments 47 ((47 :: s.takeWhile (· ≠ 47)) ++ s.dropWhile (· ≠ 47)) :=
      mem_segments_append (between_first s).right hpart
    rwa [List.cons_append, List.takeWhile_append_dropWhile] at hwhole
  exact ⟨fun hdot => h.1 (hmem hdot), fun hdots => h.2 (hmem hdots)⟩

/-- **A path without dot segments is moved as it is.** -/
theorem removeDots_eq {fuel : ℕ} {s out : Text} (hstart : s = [] ∨ s.head? = some 47)
    (h : NoDotSegments s) (hfuel : s.length ≤ fuel) : removeDots fuel s out = out ++ s := by
  induction fuel generalizing s out with
  | zero =>
      rw [List.length_eq_zero_iff.mp (Nat.le_zero.mp hfuel), List.append_nil]
      rfl
  | succ fuel ih =>
      rcases hstart with rfl | hhead
      · rw [removeDots, if_pos rfl, List.append_nil]
      · obtain ⟨s, rfl⟩ : ∃ t, s = 47 :: t := by
          cases s with
          | nil => exact absurd hhead nofun
          | cons c t => exact ⟨t, by rw [Option.some.inj hhead]⟩
        have hdot : s.takeWhile (· ≠ 47) ≠ [46] := fun heq => h.1 (mem_first heq.symm nofun)
        have hdots : s.takeWhile (· ≠ 47) ≠ [46, 46] := fun heq => h.2 (mem_first heq.symm nofun)
        rw [removeDots, if_neg nofun, if_neg (by simp), if_neg (by simp), if_neg, if_neg, if_neg,
          if_neg, if_neg (by simp)]
        · rw [List.tail_cons, ih (between_first s).right h.behind, List.append_assoc,
            List.append_assoc, List.takeWhile_append_dropWhile]
          · rfl
          · have := (List.dropWhile_sublist (fun c : UInt8 => decide (c ≠ 47)) (l := s)).length_le
            rw [List.length_cons] at hfuel
            omega
        · rintro heq
          rw [List.cons.inj heq |>.2] at hdots
          exact hdots rfl
        · rintro ⟨t, ht⟩
          rw [← (List.cons.inj ht).2] at hdots
          exact hdots rfl
        · intro heq
          rw [List.cons.inj heq |>.2] at hdot
          exact hdot rfl
        · rintro ⟨t, ht⟩
          rw [← (List.cons.inj ht).2] at hdot
          exact hdot rfl

theorem removeDotSegments_eq_self {path : Text} (hstart : path = [] ∨ path.head? = some 47)
    (h : NoDotSegments path) : removeDotSegments path = path :=
  removeDots_eq hstart h le_rfl

theorem length_dropLastSegment_le (out : Text) : (dropLastSegment out).length ≤ out.length := by
  unfold dropLastSegment
  rw [List.length_reverse, List.length_tail]
  have := (List.dropWhile_sublist (fun c : UInt8 => decide (c ≠ 47)) (l := out.reverse)).length_le
  rw [List.length_reverse] at this
  omega

/-- The loop makes nothing longer. -/
theorem length_removeDots_le (fuel : ℕ) (s out : Text) :
    (removeDots fuel s out).length ≤ out.length + s.length := by
  induction fuel generalizing s out with
  | zero => exact Nat.le_add_right _ _
  | succ fuel ih =>
      rw [removeDots]
      have hout := length_dropLastSegment_le out
      split_ifs with hnil
      · exact Nat.le_add_right _ _
      · exact (ih _ _).trans (by rw [List.length_drop]; omega)
      · exact (ih _ _).trans (by rw [List.length_drop]; omega)
      · exact (ih _ _).trans (by rw [List.length_drop]; omega)
      · next heq => exact (ih _ _).trans (by rw [heq]; simp)
      · exact (ih _ _).trans (by rw [List.length_drop]; omega)
      · next heq => exact (ih _ _).trans (by rw [heq]; simp; omega)
      · exact Nat.le_add_right _ _
      · refine (ih _ _).trans ?_
        obtain ⟨c, t, rfl⟩ := List.exists_cons_of_ne_nil hnil
        have hsum := congrArg List.length
          (List.takeWhile_append_dropWhile (p := fun c : UInt8 => decide (c ≠ 47)) (l := t))
        rw [List.length_append] at hsum
        simp only [List.tail_cons, List.length_append, List.take_succ_cons, List.take_zero,
          List.length_cons, List.length_nil]
        omega

theorem length_removeDotSegments_le (path : Text) :
    (removeDotSegments path).length ≤ path.length :=
  (length_removeDots_le path.length path []).trans (by simp)

end UriReference

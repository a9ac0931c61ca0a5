import Rpsiod.Lib.Segments

/-!
# Resolving a path by its text

`.` and empty segments are left out, and `..` takes the name in front of it away.

* `resolve`: the names of an absolute path; `..` at the root stays there.
* `climb`: how far a relative path goes up, and the names it goes down from there.
* `inside_iff`: **a path behind a directory stays inside it exactly if** it does not climb above it,
  or goes back down the same names.
-/

namespace LexicalPath

open Segments

/-- The names behind one more segment. -/
def step (names : List (List UInt8)) (segment : List UInt8) : List (List UInt8) :=
  if segment = [46] then names
  else if segment = [46, 46] then names.dropLast
  else names ++ [segment]

/-- The names of an absolute path. -/
def resolve (path : List UInt8) : List (List UInt8) := (segments 47 path).foldl step []

/-- A path is that of the directory, or of something below it. -/
def Inside (directory path : List UInt8) : Prop := resolve directory <+: resolve path

instance (directory path : List UInt8) : Decidable (Inside directory path) :=
  inferInstanceAs (Decidable (_ <+: _))

/-- A way through a tree: levels up, and then names down. -/
structure Climb where
  ups : ℕ := 0
  downs : List (List UInt8) := []
  deriving DecidableEq

/-- The way behind one more segment. -/
def Climb.step (c : Climb) (segment : List UInt8) : Climb :=
  if segment = [46] then c
  else if segment = [46, 46] then
    if c.downs = [] then { c with ups := c.ups + 1 } else { c with downs := c.downs.dropLast }
  else { c with downs := c.downs ++ [segment] }

/-- The way of a relative path. -/
def climb (path : List UInt8) : Climb := (segments 47 path).foldl Climb.step {}

/-- Where the way leads from a directory. -/
def Climb.goFrom (base : List (List UInt8)) (c : Climb) : List (List UInt8) :=
  base.take (base.length - c.ups) ++ c.downs

theorem goFrom_step (base : List (List UInt8)) (c : Climb) (segment : List UInt8) :
    step (c.goFrom base) segment = (c.step segment).goFrom base := by
  unfold step Climb.step
  split_ifs with hdot hup hdowns
  · rfl
  · unfold Climb.goFrom
    rw [hdowns, List.append_nil, List.append_nil, List.dropLast_eq_take, List.take_take,
      List.length_take]
    dsimp only
    congr 1
    omega
  · unfold Climb.goFrom
    exact List.dropLast_append_of_ne_nil hdowns
  · unfold Climb.goFrom
    exact List.append_assoc _ _ _

/-- **Segments behind a directory** lead where their way leads. -/
theorem foldl_step (base : List (List UInt8)) (c : Climb) (parts : List (List UInt8)) :
    parts.foldl step (c.goFrom base) = (parts.foldl Climb.step c).goFrom base := by
  induction parts generalizing c with
  | nil => rfl
  | cons segment parts ih => rw [List.foldl_cons, List.foldl_cons, goFrom_step, ih]

theorem resolve_append (directory rest : List UInt8) :
    resolve (directory ++ 47 :: rest) = (climb rest).goFrom (resolve directory) := by
  have hstart : ({} : Climb).goFrom (resolve directory) = resolve directory := by
    unfold Climb.goFrom
    rw [List.append_nil, Nat.sub_zero, List.take_length]
  have hrun := foldl_step (resolve directory) {} (segments 47 rest)
  rw [hstart] at hrun
  unfold climb
  rw [← hrun]
  unfold resolve
  rw [segments_append_cons, List.foldl_append]

/-- What is behind a directory leads back into it. -/
def StaysIn (directory rest : List UInt8) : Prop :=
  (resolve directory).drop ((resolve directory).length - (climb rest).ups) <+: (climb rest).downs

instance (directory rest : List UInt8) : Decidable (StaysIn directory rest) :=
  inferInstanceAs (Decidable (_ <+: _))

/-- **A path behind a directory is inside it exactly if** its way goes down all names that it has
gone up. -/
theorem inside_iff (directory rest : List UInt8) :
    Inside directory (directory ++ 47 :: rest) ↔ StaysIn directory rest := by
  unfold Inside StaysIn
  rw [resolve_append]
  unfold Climb.goFrom
  set base := resolve directory
  set n := base.length - (climb rest).ups
  calc base <+: base.take n ++ (climb rest).downs
      ↔ base.take n ++ base.drop n <+: base.take n ++ (climb rest).downs := by
        rw [List.take_append_drop]
    _ ↔ base.drop n <+: (climb rest).downs := List.prefix_append_right_inj _

theorem ups_of_plain {parts : List (List UInt8)} (h : [46, 46] ∉ parts) (c : Climb) :
    (parts.foldl Climb.step c).ups = c.ups := by
  induction parts generalizing c with
  | nil => rfl
  | cons segment parts ih =>
      rw [List.mem_cons, not_or] at h
      rw [List.foldl_cons, ih h.2]
      unfold Climb.step
      split_ifs with hdot hup
      · rfl
      · exact absurd hup.symm h.1
      · exact absurd hup.symm h.1
      · rfl

/-- A path without `..` stays inside. -/
theorem staysIn_of_plain (directory : List UInt8) {rest : List UInt8}
    (h : [46, 46] ∉ segments 47 rest) : StaysIn directory rest := by
  have hups : (climb rest).ups = 0 := ups_of_plain h {}
  unfold StaysIn
  rw [hups, Nat.sub_zero, List.drop_length]
  exact List.nil_prefix

end LexicalPath

import Rpsiod.Lib.Search

/-!
# Text made of CRLF-terminated lines

Byte strings read as lines, the way line-oriented network protocols read them; no protocol
and no program is named here.

* `lines b` are the segments of `b` between its CRLF pairs (a string without CRLF is one
  segment); `unlines ls` writes each line followed by CRLF.
* `lines_of_indexOfSub_some` / `lines_of_indexOfSub_none`: one step of a scanner that looks for
  the next CRLF with a first-occurrence search.
* `splitHead b` reads a head: the lines before the first blank line, and what follows it.
  **`splitHead_unlines`** is the round trip: lines without LF, none of them empty, are read
  back exactly as written, whatever follows the blank line.
* `lines_tail_ne_nil`: in front of the first CRLFCRLF no line but the first can be empty.
-/

namespace Crlf

open ListSearch

/-- The line terminator. -/
abbrev crlf : List UInt8 := [13, 10]

/-- A line terminator followed by a blank line: the end of a head. -/
abbrev crlfcrlf : List UInt8 := [13, 10, 13, 10]

/-- Put a byte in front of the first segment. -/
def consHead (a : UInt8) : List (List UInt8) → List (List UInt8)
  | [] => [[a]]
  | s :: ss => (a :: s) :: ss

/-- The segments between the CRLF pairs of a byte string. -/
def lines : List UInt8 → List (List UInt8)
  | [] => [[]]
  | 13 :: 10 :: l => [] :: lines l
  | a :: l => consHead a (lines l)

/-- Every line followed by its terminator. -/
def unlines (ls : List (List UInt8)) : List UInt8 :=
  ls.flatMap (· ++ crlf)

@[simp] theorem unlines_nil : unlines [] = [] := rfl

@[simp] theorem unlines_cons (l : List UInt8) (ls : List (List UInt8)) :
    unlines (l :: ls) = l ++ crlf ++ unlines ls := by
  simp [unlines]

@[simp] theorem unlines_append (ls ms : List (List UInt8)) :
    unlines (ls ++ ms) = unlines ls ++ unlines ms := by
  simp [unlines]

@[simp] theorem lines_nil : lines [] = [[]] := rfl

@[simp] theorem lines_crlf (l : List UInt8) : lines (13 :: 10 :: l) = [] :: lines l := by
  rw [lines]

/-- A byte that does not start a CRLF pair belongs to the first segment. -/
theorem lines_cons {a : UInt8} {l : List UInt8} (h : ¬ crlf <+: a :: l) :
    lines (a :: l) = consHead a (lines l) := by
  rw [lines]
  rintro l' rfl rfl
  exact h ⟨l', rfl⟩

theorem lines_ne_nil (b : List UInt8) : lines b ≠ [] := by
  induction b using lines.induct with
  | case1 => simp
  | case2 l ih => simp
  | case3 a l h ih =>
      rw [lines_cons (by rintro ⟨t, ht⟩; cases ht; exact h t rfl rfl)]
      cases lines l <;> simp [consHead]

/-- A CRLF pair cannot start at a byte whose successor is not LF. -/
theorem not_crlf_prefix_of_not_mem {a : UInt8} {l : List UInt8} (hl : 10 ∉ l)
    (r : List UInt8) : ¬ crlf <+: a :: (l ++ 13 :: r) := by
  rintro ⟨t, ht⟩
  cases l with
  | nil => simp at ht
  | cons x l =>
      simp only [List.cons_append, List.nil_append, List.cons.injEq] at ht
      exact hl (by simp [← ht.2.1])

/-- A string without LF is one line. -/
theorem lines_of_not_mem {b : List UInt8} (h : 10 ∉ b) : lines b = [b] := by
  induction b with
  | nil => rfl
  | cons a l ih =>
      have hl : 10 ∉ l := fun hm => h (List.mem_cons_of_mem a hm)
      have hp : ¬ crlf <+: a :: l := by
        rintro ⟨t, ht⟩
        simp only [List.cons_append, List.nil_append, List.cons.injEq] at ht
        exact hl (by simp [← ht.2])
      rw [lines_cons hp, ih hl, consHead]

/-- A terminator cuts a string in two whatever stands around it. -/
theorem lines_append_append (a r : List UInt8) :
    lines (a ++ 13 :: 10 :: r) = lines a ++ lines r := by
  induction a using lines.induct with
  | case1 => simp
  | case2 l ih => simp [ih]
  | case3 a l h ih =>
      have hp : ¬ crlf <+: a :: l := by
        rintro ⟨t, ht⟩
        cases ht
        exact h t rfl rfl
      have hp' : ¬ crlf <+: a :: (l ++ 13 :: 10 :: r) := by
        rintro ⟨t, ht⟩
        cases l with
        | nil => simp at ht
        | cons x l =>
            simp only [List.cons_append, List.nil_append, List.cons.injEq] at ht
            exact hp ⟨l, by simp [ht.1, ht.2.1]⟩
      rw [List.cons_append, lines_cons hp', lines_cons hp, ih]
      cases hl : lines l with
      | nil => exact absurd hl (lines_ne_nil l)
      | cons s ss => simp [consHead]

/-- A line without LF, its terminator, and the lines of what follows. -/
theorem lines_append_crlf {a : List UInt8} (h : 10 ∉ a) (r : List UInt8) :
    lines (a ++ 13 :: 10 :: r) = a :: lines r := by
  rw [lines_append_append, lines_of_not_mem h, List.singleton_append]

/-- Writing the segments back, each with a terminator. -/
theorem unlines_lines (b : List UInt8) : unlines (lines b) = b ++ crlf := by
  induction b using lines.induct with
  | case1 => simp
  | case2 l ih => simp [ih]
  | case3 a l h ih =>
      have hp : ¬ crlf <+: a :: l := by
        rintro ⟨t, ht⟩
        cases ht
        exact h t rfl rfl
      rw [lines_cons hp]
      cases hl : lines l with
      | nil => exact absurd hl (lines_ne_nil l)
      | cons s ss =>
          rw [hl, unlines_cons] at ih
          simp only [consHead, unlines_cons, List.cons_append, ih]

/-! ### One step of a CRLF scanner -/

/-- No further CRLF: what is left is the last segment. -/
theorem lines_of_indexOfSub_none {b : List UInt8} (h : indexOfSub crlf b = none) :
    lines b = [b] := by
  induction b with
  | nil => rfl
  | cons a l ih =>
      have hp : ¬ crlf <+: a :: l := by
        simpa using indexOfSub_eq_none_iff.mp h 0 (Nat.zero_le _)
      rw [indexOfSub_cons_of_not_start hp, Option.map_eq_none_iff] at h
      rw [lines_cons hp, ih h, consHead]

/-- The next CRLF at `i`: the segment before it, and the segments behind it. -/
theorem lines_of_indexOfSub_some {b : List UInt8} {i : ℕ} (h : indexOfSub crlf b = some i) :
    lines b = b.take i :: lines (b.drop (i + 2)) := by
  induction b generalizing i with
  | nil => simp [indexOfSub] at h
  | cons a l ih =>
      by_cases hp : crlf <+: a :: l
      · rw [indexOfSub_cons_of_start hp, Option.some.injEq] at h
        obtain ⟨t, ht⟩ := hp
        rw [← h, ← ht]
        simp
      · rw [indexOfSub_cons_of_not_start hp, Option.map_eq_some_iff] at h
        obtain ⟨k, hk, rfl⟩ := h
        rw [lines_cons hp, ih hk, consHead]
        simp

/-- The first CRLF behind a line without LF. -/
theorem indexOfSub_crlf {a : List UInt8} (h : 10 ∉ a) (r : List UInt8) :
    indexOfSub crlf (a ++ 13 :: 10 :: r) = some a.length := by
  induction a with
  | nil => exact indexOfSub_cons_of_start ⟨r, rfl⟩
  | cons x a ih =>
      have ha : 10 ∉ a := fun hm => h (List.mem_cons_of_mem x hm)
      rw [List.cons_append, indexOfSub_cons_of_not_start (not_crlf_prefix_of_not_mem ha _),
        ih ha]
      simp

/-! ### The first blank line -/

/-- Behind a line without LF, the search for CRLFCRLF stops at its terminator or goes on in
what follows. -/
theorem indexOfSub_crlfcrlf {a : List UInt8} (h : 10 ∉ a) (r : List UInt8) :
    indexOfSub crlfcrlf (a ++ 13 :: 10 :: r) =
      if crlf <+: r then some a.length
      else (indexOfSub crlfcrlf r).map (· + (a.length + 2)) := by
  induction a with
  | nil =>
      by_cases hr : crlf <+: r
      · obtain ⟨t, rfl⟩ := hr
        rw [if_pos ⟨t, rfl⟩]
        exact indexOfSub_cons_of_start ⟨t, rfl⟩
      · have h1 : ¬ crlfcrlf <+: 13 :: 10 :: r := by
          rintro ⟨t, ht⟩
          exact hr ⟨t, by simpa using ht⟩
        have h2 : ¬ crlfcrlf <+: 10 :: r := by
          rintro ⟨t, ht⟩
          simp at ht
        rw [if_neg hr, List.nil_append, indexOfSub_cons_of_not_start h1,
          indexOfSub_cons_of_not_start h2, Option.map_map]
        rfl
  | cons x a ih =>
      have ha : 10 ∉ a := fun hm => h (List.mem_cons_of_mem x hm)
      have hx : ¬ crlfcrlf <+: x :: (a ++ 13 :: 10 :: r) := fun hp =>
        not_crlf_prefix_of_not_mem ha (10 :: r) ((List.prefix_append crlf crlf).trans hp)
      rw [List.cons_append, indexOfSub_cons_of_not_start hx, ih ha]
      by_cases hr : crlf <+: r
      · simp [if_pos hr]
      · rw [if_neg hr, if_neg hr, Option.map_map]
        rfl

/-- Lines, none of them empty, do not start with a terminator. -/
theorem not_crlf_prefix_unlines {l : List UInt8} (hne : l ≠ []) (hlf : 10 ∉ l)
    (r : List UInt8) : ¬ crlf <+: l ++ 13 :: 10 :: r := by
  cases l with
  | nil => exact absurd rfl hne
  | cons x l =>
      have hl : 10 ∉ l := fun hm => hlf (List.mem_cons_of_mem x hm)
      exact not_crlf_prefix_of_not_mem hl (10 :: r)

/-- The lines in front of the first blank line, and what follows it. -/
def splitHead (b : List UInt8) : Option (List (List UInt8) × List UInt8) :=
  (indexOfSub crlfcrlf b).map fun i => (lines (b.take i), b.drop (i + 4))

/-- **What follows a head** is not looked at. -/
theorem splitHead_append {b rest : List UInt8} {ls : List (List UInt8)}
    (h : splitHead b = some (ls, rest)) (e : List UInt8) :
    splitHead (b ++ e) = some (ls, rest ++ e) := by
  obtain ⟨stop, hstop, hparts⟩ := Option.map_eq_some_iff.mp h
  obtain ⟨hlines, hrest⟩ := Prod.mk.inj hparts
  have hfits : stop + 4 ≤ b.length := indexOfSub_add_length_le hstop
  unfold splitHead
  rw [indexOfSub_append hstop, Option.map_some, List.take_append_of_le_length (by omega),
    List.drop_append_of_le_length hfits, hlines, hrest]

/-- Lines with a blank line behind them make a head. -/
theorem splitHead_unlines_isSome {ls : List (List UInt8)} (hne : ls ≠ []) :
    (splitHead (unlines ls ++ crlf)).isSome := by
  obtain ⟨front, last, rfl⟩ : ∃ front last, ls = front ++ [last] :=
    ⟨_, _, (List.dropLast_append_getLast hne).symm⟩
  have hend : unlines (front ++ [last]) ++ crlf = (unlines front ++ last) ++ crlfcrlf := by
    rw [unlines_append, unlines_cons, unlines_nil, List.append_nil]
    simp only [List.append_assoc]
    rfl
  have hfound : indexOfSub crlfcrlf
      ((unlines front ++ last ++ crlfcrlf).drop (unlines front ++ last).length) = some 0 := by
    rw [List.drop_left]
    rfl
  unfold splitHead
  rw [Option.isSome_map, hend, Option.isSome_iff_ne_none]
  exact indexOfSub_ne_none_of_drop hfound

/-- A head with nothing behind it has its only blank line at its end. -/
theorem crlfcrlf_prefix_drop_iff {b : List UInt8} {ls : List (List UInt8)}
    (h : splitHead b = some (ls, [])) (i : ℕ) : crlfcrlf <+: b.drop i ↔ i + 4 = b.length := by
  obtain ⟨stop, hstop, hparts⟩ := Option.map_eq_some_iff.mp h
  obtain ⟨hpre, hmin⟩ := isFirst_of_indexOfSub hstop
  have hrest : b.length ≤ stop + 4 := List.drop_eq_nil_iff.mp (Prod.mk.inj hparts).2
  have hfits : stop + 4 ≤ b.length := indexOfSub_add_length_le hstop
  constructor
  · intro hat
    have hlen : 4 ≤ (b.drop i).length := hat.length_le
    rw [List.length_drop] at hlen
    have hfirst : stop ≤ i := by
      by_contra hlt
      exact hmin i (by omega) hat
    omega
  · intro hend
    obtain rfl : i = stop := by omega
    exact hpre

/-- A start of a head is not a head itself. -/
theorem eq_of_prefix_of_splitHead {a b : List UInt8} {ls ms : List (List UInt8)} (h : a <+: b)
    (ha : splitHead a = some (ls, [])) (hb : splitHead b = some (ms, [])) : a = b := by
  obtain ⟨stop, hstop, hparts⟩ := Option.map_eq_some_iff.mp ha
  have hpre := (isFirst_of_indexOfSub hstop).1
  have hfits : stop + 4 ≤ a.length := indexOfSub_add_length_le hstop
  have hend : stop + 4 = a.length := (crlfcrlf_prefix_drop_iff ha stop).mp hpre
  obtain ⟨rest, rfl⟩ := h
  have hlonger : crlfcrlf <+: (a ++ rest).drop stop := by
    rw [List.drop_append_of_le_length (by omega)]
    exact hpre.trans (List.prefix_append _ _)
  have hsame := (crlfcrlf_prefix_drop_iff hb stop).mp hlonger
  rw [List.length_append] at hsame
  rw [List.eq_nil_of_length_eq_zero (by omega : rest.length = 0), List.append_nil]

/-- **Round trip**: a head written line by line is read back line by line, and what follows
the blank line is untouched. -/
theorem splitHead_unlines {ls : List (List UInt8)} (hne : ls ≠ [])
    (h : ∀ l ∈ ls, l ≠ [] ∧ 10 ∉ l) (body : List UInt8) :
    splitHead (unlines ls ++ crlf ++ body) = some (ls, body) := by
  induction ls with
  | nil => exact absurd rfl hne
  | cons a ls ih =>
      obtain ⟨-, half⟩ := h a List.mem_cons_self
      have hls : ∀ l ∈ ls, l ≠ [] ∧ 10 ∉ l := fun m hm => h m (List.mem_cons_of_mem a hm)
      cases ls with
      | nil =>
          have hi := indexOfSub_crlfcrlf half (crlf ++ body)
          rw [if_pos (List.prefix_append _ _)] at hi
          have hsplit : unlines [a] ++ crlf ++ body = a ++ 13 :: 10 :: (crlf ++ body) := by simp
          rw [hsplit, splitHead, hi]
          simp [lines_of_not_mem half, List.drop_append]
      | cons b ls =>
          obtain ⟨hbne, hblf⟩ := hls b List.mem_cons_self
          set rest := unlines (b :: ls) ++ crlf ++ body with hrest
          have hnp : ¬ crlf <+: rest := by
            have := not_crlf_prefix_unlines hbne hblf (unlines ls ++ crlf ++ body)
            rwa [hrest, unlines_cons, List.append_assoc, List.append_assoc, List.append_assoc,
              List.cons_append, List.cons_append, List.nil_append, ← List.append_assoc]
          have hi := indexOfSub_crlfcrlf half rest
          rw [if_neg hnp] at hi
          have hih := ih (List.cons_ne_nil b ls) hls
          rw [splitHead, Option.map_eq_some_iff] at hih
          obtain ⟨k, hk, hpair⟩ := hih
          rw [hk] at hi
          have hsplit : unlines (a :: b :: ls) ++ crlf ++ body = a ++ 13 :: 10 :: rest := by
            rw [hrest, unlines_cons a]
            simp
          have htake : (a ++ 13 :: 10 :: rest).take (k + (a.length + 2)) =
              a ++ 13 :: 10 :: rest.take k := by
            rw [Nat.add_comm k, Nat.add_assoc, List.take_length_add_append]
            simp [Nat.add_comm 2 k]
          have hdrop : (a ++ 13 :: 10 :: rest).drop (k + (a.length + 2) + 4) =
              rest.drop (k + 4) := by
            rw [show k + (a.length + 2) + 4 = a.length + (k + 4 + 2) by omega,
              List.drop_length_add_append]
            simp
          rw [hsplit, splitHead, hi]
          simp only [Option.map_some, Option.some.injEq, Prod.mk.injEq] at hpair ⊢
          rw [htake, hdrop, lines_append_crlf half, hpair.1, hpair.2]
          exact ⟨rfl, rfl⟩

/-- The first segment is empty only if the string is empty or starts with a terminator. -/
theorem nil_cons_eq_lines {b : List UInt8} {ls : List (List UInt8)} (h : lines b = [] :: ls) :
    b = [] ∨ crlf <+: b := by
  by_contra hc
  rw [not_or] at hc
  cases b with
  | nil => exact hc.1 rfl
  | cons a l =>
      rw [lines_cons hc.2] at h
      cases hl : lines l with
      | nil => exact lines_ne_nil l hl
      | cons s ss => simp [hl, consHead] at h

/-- In front of the first CRLFCRLF no line but the first is empty. -/
theorem lines_tail_ne_nil {b : List UInt8} (h : IsFirst crlfcrlf (b ++ crlfcrlf) b.length) :
    ∀ l ∈ (lines b).tail, l ≠ [] := by
  induction hn : b.length using Nat.strongRecOn generalizing b with
  | _ n ih =>
    cases hs : indexOfSub crlf b with
    | none =>
        rw [lines_of_indexOfSub_none hs]
        simp
    | some k =>
        have hk : k + 2 ≤ b.length := indexOfSub_add_length_le hs
        set r := b.drop (k + 2) with hr
        have hb : b.drop k = 13 :: 10 :: r := by
          obtain ⟨t, ht⟩ := (isFirst_of_indexOfSub hs).1
          rw [hr, ← List.drop_drop, ← ht]
          rfl
        have hdrop : ∀ j, (r ++ crlfcrlf).drop j = (b ++ crlfcrlf).drop (k + 2 + j) := by
          intro j
          rw [hr, ← List.drop_append_of_le_length hk, List.drop_drop]
        have hfirst : IsFirst crlfcrlf (r ++ crlfcrlf) r.length := by
          refine ⟨by simp, fun j hj => ?_⟩
          rw [hdrop j]
          refine h.2 _ ?_
          have : r.length = b.length - (k + 2) := by rw [hr, List.length_drop]
          omega
        have hrlen : r.length < n := by
          rw [hr, List.length_drop]
          omega
        have htail := ih r.length hrlen hfirst rfl
        rw [lines_of_indexOfSub_some hs, ← hr, List.tail_cons]
        intro l hl
        cases hlr : lines r with
        | nil => exact absurd hlr (lines_ne_nil r)
        | cons s ss =>
            rw [hlr] at hl htail
            rcases List.mem_cons.mp hl with rfl | hl
            · -- an empty segment here would put a CRLFCRLF at offset `k`
              rintro rfl
              refine h.2 k (by omega) ?_
              rw [List.drop_append_of_le_length (by omega), hb]
              rcases nil_cons_eq_lines hlr with hr0 | ⟨t, ht⟩
              · rw [hr0]
                exact ⟨crlf, rfl⟩
              · rw [← ht]
                exact ⟨t ++ crlfcrlf, by simp⟩
            · exact htail l hl

end Crlf

import Rpsiod.Config.SiteBranches
import Rpsiod.Http.Trim

/-!
# The items of a sites file

The lines of a site can be cut out of a file and put behind others: `fgets` gives the same lines
again, and they are those of a site again.

* `fgetsPieces_flatten`: **pieces that stand next to each other in a file** are the pieces of the
  text that they make.
* `IsItem`, `item_of_mem_siteLines`: the lines of a site, and where in the file they stand.
* `siteLines_below`: **the item below any section names**, one in force at each level.
-/

namespace Rpsiod

/-! ### Pieces of a file -/

theorem fgetsFrom_eq_cons {size room : ℕ} {piece file first : Bytes} {others : List Bytes}
    (h : fgetsFrom size room piece file = first :: others) :
    ∃ used rest, file = used ++ rest ∧ first = piece ++ used ∧
      others = fgetsFrom size size [] rest ∧
      (rest ≠ [] → ∀ text, fgetsFrom size room piece (used ++ text) =
        first :: fgetsFrom size size [] text) := by
  induction file generalizing piece room with
  | nil =>
      unfold fgetsFrom at h
      split_ifs at h
      obtain ⟨rfl, rfl⟩ := List.cons.inj h
      exact ⟨[], [], rfl, (List.append_nil _).symm, rfl, fun hrest => absurd rfl hrest⟩
  | cons c file ih =>
      rw [fgetsFrom] at h
      by_cases hends : c = 10 ∨ room ≤ 1
      · -- the piece ends with this byte
        rw [if_pos hends] at h
        obtain ⟨rfl, rfl⟩ := List.cons.inj h
        refine ⟨[c], file, rfl, rfl, rfl, fun _ text => ?_⟩
        rw [List.singleton_append, fgetsFrom, if_pos hends]
      · rw [if_neg hends] at h
        obtain ⟨used, rest, rfl, hfirst, hothers, hagain⟩ := ih h
        refine ⟨c :: used, rest, rfl, ?_, hothers, fun hrest text => ?_⟩
        · rw [hfirst, List.append_assoc]
          rfl
        · rw [List.cons_append, fgetsFrom, if_neg hends]
          exact hagain hrest text

/-- The first piece of a file, and what makes it one. -/
theorem fgetsPieces_eq_cons {file first : Bytes} {others : List Bytes}
    (h : fgetsPieces file = first :: others) :
    ∃ rest, file = first ++ rest ∧ fgetsPieces rest = others ∧
      (rest ≠ [] → ∀ text, fgetsPieces (first ++ text) = first :: fgetsPieces text) := by
  obtain ⟨used, rest, hfile, hfirst, hothers, hagain⟩ := fgetsFrom_eq_cons h
  rw [List.nil_append] at hfirst
  subst hfirst
  exact ⟨rest, hfile, hothers.symm, hagain⟩

theorem fgetsPieces_drop {file : Bytes} {front pieces : List Bytes}
    (h : fgetsPieces file = front ++ pieces) : ∃ rest, fgetsPieces rest = pieces := by
  induction front generalizing file with
  | nil => exact ⟨file, h⟩
  | cons first front ih =>
      obtain ⟨rest, -, hrest, -⟩ := fgetsPieces_eq_cons h
      exact ih hrest

theorem fgetsPieces_take {file : Bytes} {pieces back : List Bytes}
    (h : fgetsPieces file = pieces ++ back) : fgetsPieces pieces.flatten = pieces := by
  induction pieces generalizing file with
  | nil => rfl
  | cons first pieces ih =>
      obtain ⟨rest, hfile, hrest, hagain⟩ := fgetsPieces_eq_cons h
      by_cases hend : rest = []
      · -- the last piece of the file
        subst hend
        obtain ⟨rfl, rfl⟩ := List.append_eq_nil_iff.mp hrest.symm
        rw [List.append_nil] at hfile
        subst hfile
        rw [List.flatten_singleton]
        exact h
      · rw [List.flatten_cons, hagain hend, ih hrest]

/-- **Pieces next to each other** are those of the text that they make. -/
theorem fgetsPieces_flatten {file : Bytes} {front pieces back : List Bytes}
    (h : fgetsPieces file = front ++ (pieces ++ back)) : fgetsPieces pieces.flatten = pieces := by
  obtain ⟨rest, hrest⟩ := fgetsPieces_drop h
  exact fgetsPieces_take hrest

/-! ### Lines with the keys in force -/

/-- The keys in force behind some lines. -/
def stackAfter (stack : YamlStack) (lines : List SitesLine) : YamlStack :=
  lines.foldl (fun stack line => PlacedLine.stackBehind ⟨stack, line⟩) stack

theorem map_line_placeLines (stack : YamlStack) (lines : List SitesLine) :
    (placeLines stack lines).map PlacedLine.line = lines := by
  induction lines generalizing stack with
  | nil => rfl
  | cons line lines ih => rw [placeLines, List.map_cons, ih]

theorem placeLines_append (stack : YamlStack) (front lines : List SitesLine) :
    placeLines stack (front ++ lines) =
      placeLines stack front ++ placeLines (stackAfter stack front) lines := by
  induction front generalizing stack with
  | nil => rfl
  | cons line front ih =>
      rw [List.cons_append, placeLines, ih, placeLines]
      rfl

/-- Placed lines next to each other are placed themselves. -/
theorem exists_placeLines {stack : YamlStack} {lines : List SitesLine}
    {front ps back : List PlacedLine} (h : placeLines stack lines = front ++ (ps ++ back)) :
    ∃ found, ps = placeLines found (ps.map PlacedLine.line) := by
  have hlines := congrArg (List.map PlacedLine.line) h
  rw [map_line_placeLines, List.map_append, List.map_append] at hlines
  rw [hlines, placeLines_append, placeLines_append] at h
  have hlength : ∀ (stack : YamlStack) (qs : List PlacedLine),
      (placeLines stack (qs.map PlacedLine.line)).length = qs.length := by
    intro stack qs
    have hmap := congrArg List.length (map_line_placeLines stack (qs.map PlacedLine.line))
    rwa [List.length_map, List.length_map] at hmap
  obtain ⟨-, hrest⟩ := List.append_inj h (hlength _ _)
  obtain ⟨hps, -⟩ := List.append_inj hrest (hlength _ _)
  exact ⟨_, hps.symm⟩

/-! ### Items -/

/-- The lines of one site: its dash at the first level, and no other. -/
inductive IsItem : List SitesLine → Prop
  | intro {first : SitesLine} {rest : List SitesLine} (hfirst : first.isItem && first.level = 1)
      (hrest : ∀ line ∈ rest, (line.isItem && line.level = 1) = false) : IsItem (first :: rest)

theorem splitSites_flatten (ps : List PlacedLine) :
    (splitSites ps).1 ++ (splitSites ps).2.flatten = ps := by
  induction ps with
  | nil => rfl
  | cons p ps ih =>
      rw [splitSites]
      by_cases hstart : p.startsSite = true
      · rw [if_pos hstart, List.flatten_cons, List.nil_append, List.cons_append, ih]
      · rw [if_neg hstart, List.cons_append, ih]

/-- What is in front of the first site starts none. -/
theorem startsSite_splitSites_fst (ps : List PlacedLine) :
    ∀ p ∈ (splitSites ps).1, p.startsSite = false := by
  induction ps with
  | nil => exact fun p hp => absurd hp List.not_mem_nil
  | cons p ps ih =>
      rw [splitSites]
      by_cases hstart : p.startsSite = true
      · rw [if_pos hstart]
        exact fun q hq => absurd hq List.not_mem_nil
      · rw [if_neg hstart]
        exact List.forall_mem_cons.mpr ⟨Bool.eq_false_of_not_eq_true hstart, ih⟩

theorem isItem_of_mem_splitSites {ps item : List PlacedLine} (h : item ∈ (splitSites ps).2) :
    IsItem (item.map PlacedLine.line) := by
  induction ps with
  | nil => cases h
  | cons p ps ih =>
      rw [splitSites] at h
      by_cases hstart : p.startsSite = true
      · rw [if_pos hstart] at h
        rcases List.mem_cons.mp h with rfl | hrest
        · refine .intro hstart fun line hline => ?_
          obtain ⟨q, hq, rfl⟩ := List.mem_map.mp hline
          exact startsSite_splitSites_fst ps q hq
        · exact ih hrest
      · rw [if_neg hstart] at h
        exact ih h

/-- Lines that start no site stand in front of the first one. -/
theorem splitSites_append {front : List PlacedLine} (h : ∀ p ∈ front, p.startsSite = false)
    (ps : List PlacedLine) :
    splitSites (front ++ ps) = (front ++ (splitSites ps).1, (splitSites ps).2) := by
  induction front with
  | nil => rfl
  | cons p front ih =>
      obtain ⟨hfirst, hfront⟩ := List.forall_mem_cons.mp h
      rw [List.cons_append, splitSites, if_neg (Bool.not_eq_true _ ▸ hfirst), ih hfront]
      rfl

theorem splitSites_item {stack : YamlStack} {lines : List SitesLine} (h : IsItem lines) :
    splitSites (placeLines stack lines) = ([], [placeLines stack lines]) := by
  cases h with
  | @intro first rest hfirst hrest =>
      have hnone : ∀ p ∈ placeLines (PlacedLine.stackBehind ⟨stack, first⟩) rest,
          p.startsSite = false := by
        intro p hp
        have hline := List.mem_map_of_mem (f := PlacedLine.line) hp
        rw [map_line_placeLines] at hline
        exact hrest p.line hline
      have hsplit := splitSites_append hnone []
      rw [List.append_nil] at hsplit
      rw [placeLines, splitSites, if_pos (show PlacedLine.startsSite ⟨stack, first⟩ = true from
        hfirst), hsplit]
      simp [splitSites]

/-- Where the lines of a site stand. -/
theorem item_of_mem_siteLines {file : Bytes} {ps : List PlacedLine} (h : ps ∈ siteLines file) :
    IsItem (ps.map PlacedLine.line) ∧
      (∃ found, ps = placeLines found (ps.map PlacedLine.line)) ∧
      ∃ front pieces back, fgetsPieces file = front ++ (pieces ++ back) ∧
        pieces.map sitesLine = ps.map PlacedLine.line := by
  refine ⟨isItem_of_mem_splitSites h, ?_⟩
  unfold siteLines at h
  obtain ⟨earlier, later, hsites⟩ := List.append_of_mem h
  have hfile := splitSites_flatten (placeLines [] ((fgetsPieces file).map sitesLine))
  rw [hsites, List.flatten_append, List.flatten_cons, ← List.append_assoc] at hfile
  refine ⟨exists_placeLines hfile.symm, ?_⟩
  have hlines := congrArg (List.map PlacedLine.line) hfile
  rw [map_line_placeLines, List.map_append, List.map_append] at hlines
  obtain ⟨front, rest, hpieces, -, hrest⟩ := List.map_eq_append_iff.mp hlines.symm
  rw [List.map_append] at hrest
  obtain ⟨pieces, back, rfl, hown, -⟩ := List.map_eq_append_iff.mp hrest
  exact ⟨front, pieces, back, hpieces, hown⟩

/-! ### Section names in front of an item -/

/-- A section name, at its level of indentation. -/
def sectionLine (level : ℕ) (name : Bytes) : Bytes := List.replicate (4 * level) 32 ++ (name ++ [58])

/-- The lines that put these names in force, the first at the outermost level. -/
def sectionLines (names : List Bytes) : List Bytes :=
  names.zipIdx.map fun name => sectionLine name.2 name.1

/-- A byte without a meaning of its own. -/
theorem IsWord.ne {name : Bytes} (h : IsWord name) {c : UInt8} (hc : c < 65) : c ∉ name :=
  fun hmem => absurd (h.2.2 c hmem).1 (UInt8.not_le.mpr hc)

theorem IsWord.isspace {name : Bytes} (h : IsWord name) : ∀ c ∈ name, isspace c = false := by
  intro c hc
  have hspace : c ≠ 32 ∧ ¬ c ≤ 13 := by
    have hletter := (h.2.2 c hc).1
    exact ⟨fun heq => absurd hc (heq ▸ h.ne (by decide)),
      fun hle => absurd (UInt8.le_trans hletter hle) (by decide)⟩
  unfold Rpsiod.isspace
  simp [hspace.1, hspace.2]

theorem plain_of_word {name : Bytes} (h : IsWord name) : Plain name ∧ Plain (name ++ [58]) := by
  obtain ⟨c, cs, rfl⟩ := List.exists_cons_of_ne_nil h.1
  have hquote : ∀ quote : UInt8, quote < 65 → ∀ text, isQuoted quote (c :: text) = false := by
    intro quote hlt text
    have hne : c ≠ quote := fun heq => h.ne hlt (heq ▸ List.mem_cons_self)
    unfold isQuoted
    simp [hne]
  have hfirst : ∀ c' ∈ some c, isspace c' = false :=
    fun c' hc' => Option.some.inj hc' ▸ h.isspace c List.mem_cons_self
  constructor
  · exact ⟨hfirst, fun c' hc' => h.isspace c' (List.mem_of_getLast? hc'),
      hquote 34 (by decide) _, hquote 39 (by decide) _⟩
  · refine ⟨hfirst, fun c' hc' => ?_, hquote 34 (by decide) _, hquote 39 (by decide) _⟩
    rw [List.getLast?_concat] at hc'
    obtain rfl := Option.some.inj hc'
    rfl

/-- Without quotes and number signs nothing is a comment. -/
theorem stripCommentLoop_eq_self {line : Bytes} (h : ∀ c ∈ line, c ≠ 34 ∧ c ≠ 39 ∧ c ≠ 35)
    (before : Option UInt8) : stripCommentLoop before none line = line := by
  induction line generalizing before with
  | nil => rfl
  | cons c line ih =>
      obtain ⟨⟨hdouble, hsingle, hsign⟩, hline⟩ := List.forall_mem_cons.mp h
      unfold stripCommentLoop
      simp only [hdouble, hsingle, hsign, false_or, false_and, if_false]
      rw [ih hline]

theorem trim_sectionName {name : Bytes} (h : IsWord name) :
    trim (name ++ [58, 10]) = name ++ [58] := by
  refine trim_of_plain ?_ (plain_of_word h).2
  have hstrip := @ListStrip.strip_append _ isspace [] [10] (by simp)
    (by decide +kernel) (name ++ [58])
  rw [List.nil_append, List.append_assoc] at hstrip
  exact hstrip

/-- **What is read of such a line.** -/
theorem sitesLine_sectionLine {name : Bytes} (h : IsWord name) (level : ℕ) :
    sitesLine (sectionLine level name ++ [10]) = ⟨level, name ++ [58, 10]⟩ := by
  have hline : sectionLine level name ++ [10] =
      List.replicate (4 * level) 32 ++ (name ++ [58, 10]) := by
    unfold sectionLine
    rw [List.append_assoc, List.append_assoc]
    rfl
  have hbytes : ∀ c ∈ List.replicate (4 * level) 32 ++ (name ++ [58, 10]),
      c = 32 ∨ c ∈ name ∨ c = 58 ∨ c = 10 := by
    intro c hc
    rcases List.mem_append.mp hc with hspace | hrest
    · exact .inl (List.eq_of_mem_replicate hspace)
    · simpa [or_assoc] using Or.inr hrest
  have hplain : ∀ c ∈ List.replicate (4 * level) 32 ++ (name ++ [58, 10]),
      c ≠ 0 ∧ c ≠ 34 ∧ c ≠ 39 ∧ c ≠ 35 := by
    intro c hc
    rcases hbytes c hc with rfl | hname | rfl | rfl
    · decide
    · exact ⟨fun heq => h.ne (by decide) (heq ▸ hname), fun heq => h.ne (by decide) (heq ▸ hname),
        fun heq => h.ne (by decide) (heq ▸ hname), fun heq => h.ne (by decide) (heq ▸ hname)⟩
    · decide
    · decide
  have hfirst : ∀ p : UInt8 → Bool, (∀ c ∈ name, p c = false) →
      (name ++ [58, 10]).takeWhile p = [] ∧
        (name ++ [58, 10]).dropWhile p = name ++ [58, 10] := by
    intro p hp
    obtain ⟨c, cs, rfl⟩ := List.exists_cons_of_ne_nil h.1
    have hc := hp c List.mem_cons_self
    exact ⟨by rw [List.cons_append, List.takeWhile_cons, if_neg (Bool.not_eq_true _ ▸ hc)],
      by rw [List.cons_append, List.dropWhile_cons, if_neg (Bool.not_eq_true _ ▸ hc)]⟩
  have hblank : ∀ c ∈ name, decide (c = 32) = false := fun c hc =>
    decide_eq_false fun heq => h.ne (by decide) (heq ▸ hc)
  obtain ⟨htake, hdrop⟩ := hfirst _ hblank
  unfold sitesLine
  dsimp only
  rw [hline, List.takeWhile_eq_self_iff.mpr fun c hc => decide_eq_true (hplain c hc).1]
  unfold stripComment
  rw [stripCommentLoop_eq_self fun c hc => (hplain c hc).2]
  have hspaces : ∀ c ∈ List.replicate (4 * level) (32 : UInt8), decide (c = 32) = true :=
    fun c hc => decide_eq_true (List.eq_of_mem_replicate hc)
  unfold indentLevel
  rw [List.takeWhile_append_of_pos hspaces, List.dropWhile_append_of_pos hspaces, htake, hdrop,
    List.append_nil, List.length_replicate, Nat.mul_div_cancel_left _ (by decide)]

/-- The line as it is read. -/
def sectionRead (name : Bytes × ℕ) : SitesLine := ⟨name.2, name.1 ++ [58, 10]⟩

theorem text_sectionRead {name : Bytes × ℕ} (h : IsWord name.1) :
    (sectionRead name).text = name.1 ++ [58] := trim_sectionName h

theorem isItem_sectionRead {name : Bytes × ℕ} (h : IsWord name.1) :
    (sectionRead name).isItem = false := by
  obtain ⟨c, cs, hname⟩ := List.exists_cons_of_ne_nil h.1
  have hc : c ≠ 45 := fun heq => h.ne (by decide) (heq ▸ hname ▸ List.mem_cons_self)
  unfold SitesLine.isItem
  rw [text_sectionRead h, hname]
  simp [hc]

theorem keyValue_sectionRead {name : Bytes × ℕ} (h : IsWord name.1) :
    (sectionRead name).keyValue = some (name.1, []) := by
  have hsplit : ListSearch.splitFirst 58 (name.1 ++ [58]) = some (name.1, []) :=
    ListSearch.splitFirst_eq_some_iff.mpr ⟨rfl, h.ne (by decide)⟩
  have hcopy : safeCopy 128 name.1 = name.1 := List.take_of_length_le (by have := h.2.1; omega)
  unfold SitesLine.keyValue splitKeyValue
  rw [text_sectionRead h, hsplit]
  dsimp only
  rw [hcopy, trim_of_plain rfl (plain_of_word h).1, if_neg h.1]
  rfl

/-- The line puts its name in force. -/
theorem stackBehind_sectionRead {name : Bytes × ℕ} (h : IsWord name.1) (stack : YamlStack) :
    PlacedLine.stackBehind ⟨stack, sectionRead name⟩ = stackSet stack name.2 name.1 := by
  have hblank : (sectionRead name).text ≠ [] := by
    rw [text_sectionRead h]
    exact List.append_ne_nil_of_right_ne_nil _ (List.cons_ne_nil _ _)
  have hother : ¬((sectionRead name).text = [] ∨ (sectionRead name).isItem = true) := by
    rw [isItem_sectionRead h]
    exact fun hor => hor.elim hblank Bool.false_ne_true
  unfold PlacedLine.stackBehind
  dsimp only
  rw [if_neg hother, keyValue_sectionRead h]
  rfl

theorem stackSet_length {stack : YamlStack} {name : Bytes} (hname : IsWord name)
    (h : stack.length < 32) : stackSet stack stack.length name = stack ++ [name] := by
  have hcopy : safeCopy 64 name = name := List.take_of_length_le (by have := hname.2.1; omega)
  unfold stackSet
  rw [if_neg (by omega), hcopy]
  congr 1
  refine List.ext_getElem (by simp) fun i hi hi' => ?_
  simp [hi']

/-- The lines leave these names in force, one at each level. -/
theorem stackAfter_sectionReads {names : List Bytes} (hnames : ∀ name ∈ names, IsWord name)
    (stack : YamlStack) (hlength : stack.length + names.length ≤ 32) :
    stackAfter stack ((names.zipIdx stack.length).map sectionRead) = stack ++ names := by
  induction names generalizing stack with
  | nil => exact (List.append_nil stack).symm
  | cons name names ih =>
      obtain ⟨hfirst, hrest⟩ := List.forall_mem_cons.mp hnames
      rw [List.length_cons] at hlength
      have hset := stackSet_length hfirst (show stack.length < 32 by omega)
      have hbehind : PlacedLine.stackBehind ⟨stack, sectionRead (name, stack.length)⟩ =
          stack ++ [name] := (stackBehind_sectionRead hfirst stack).trans hset
      have hnext := ih hrest (stack ++ [name]) (by simp; omega)
      rw [List.length_append, List.length_singleton, List.append_assoc] at hnext
      rw [List.zipIdx_cons, List.map_cons]
      unfold stackAfter at hnext ⊢
      rw [List.foldl_cons, hbehind]
      exact hnext

/-- **The item below any section names**, and nothing else in the file. -/
theorem siteLines_below {names pieces : List Bytes} (hnames : ∀ name ∈ names, IsWord name)
    (hlength : names.length ≤ 32) (hpieces : fgetsPieces pieces.flatten = pieces)
    (hitem : IsItem (pieces.map sitesLine)) :
    siteLines (((sectionLines names).flatMap fun line => line ++ [10]) ++ pieces.flatten) =
      [placeLines names (pieces.map sitesLine)] := by
  have hshort : ∀ line ∈ sectionLines names, 10 ∉ line ∧ line.length < 4095 := by
    intro line hline
    obtain ⟨⟨name, level⟩, hmem, rfl⟩ := List.mem_map.mp hline
    obtain ⟨-, hlevel, hname⟩ := List.mem_zipIdx hmem
    have hword : IsWord name := hname ▸ hnames _ (List.getElem_mem _)
    unfold sectionLine
    constructor
    · intro hlf
      rcases List.mem_append.mp hlf with hspace | hrest
      · exact absurd (List.eq_of_mem_replicate hspace) (by decide)
      · rcases List.mem_append.mp hrest with hin | hcolon
        · exact hword.ne (by decide) hin
        · exact absurd hcolon (by decide)
    · have := hword.2.1
      simp only [List.length_append, List.length_replicate, List.length_singleton]
      omega
  have hread : ((sectionLines names).map fun line => line ++ [10]).map sitesLine =
      names.zipIdx.map sectionRead := by
    unfold sectionLines
    rw [List.map_map, List.map_map]
    refine List.map_congr_left fun name hmem => ?_
    obtain ⟨-, -, hname⟩ := List.mem_zipIdx hmem
    have hword : IsWord name.1 := hname ▸ hnames _ (List.getElem_mem _)
    exact sitesLine_sectionLine hword name.2
  have hstack := stackAfter_sectionReads hnames [] (by simpa using hlength)
  have hnone : ∀ p ∈ placeLines [] (names.zipIdx.map sectionRead), p.startsSite = false := by
    intro p hp
    have hline := List.mem_map_of_mem (f := PlacedLine.line) hp
    rw [map_line_placeLines] at hline
    obtain ⟨name, hmem, hread⟩ := List.mem_map.mp hline
    obtain ⟨-, -, hname⟩ := List.mem_zipIdx hmem
    have hword : IsWord name.1 := hname ▸ hnames _ (List.getElem_mem _)
    unfold PlacedLine.startsSite
    rw [← hread, isItem_sectionRead hword, Bool.false_and]
  unfold siteLines
  rw [fgetsPieces_lines_append hshort, hpieces, List.map_append, hread, placeLines_append,
    splitSites_append hnone]
  have hafter : stackAfter [] (names.zipIdx.map sectionRead) = names := hstack
  rw [hafter, splitSites_item hitem]

end Rpsiod

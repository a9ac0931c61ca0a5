import Mathlib.Data.List.Find
import Rpsiod.Config.ServerFile
import Rpsiod.Config.SiteItems
import Rpsiod.Lib.Outline

/-!
# The server file as it is documented

`apply_server_value` looks for a section anywhere above a line, and also at the last line of the same
level; many keys are taken wherever they stand.  In a file that is laid out like `server.yml` every
line sets its own setting all the same.

* `ServerEntry`, `outlineText`: a file with sections and settings, and its bytes.
* `serverPlaces`: the section in which each setting is documented.
* `applyServerValue_documented`: **in its section, no branch but its own takes a setting**, whatever
  documented line is in front of it.
* `parseServerFile_outline`: **reading a documented file is setting its settings one by one**, in any
  order, and the first bad value is the error, with its line.
-/

namespace Rpsiod

open ListStrip ListSearch

/-! ### Lines -/

/-- A line: a key, and its value, which is empty for a section. -/
abbrev ServerEntry := Bytes × Bytes

/-- What is behind the colon. -/
def entryTail (value : Bytes) : Bytes := if value = [] then [] else 32 :: value

/-- The line at its level of indentation. -/
def entryLine (line : ℕ × ServerEntry) : Bytes :=
  List.replicate (4 * line.1) 32 ++ (line.2.1 ++ 58 :: entryTail line.2.2)

/-- The file. -/
def outlineText (o : Outline ServerEntry) : Bytes :=
  (o.lines 0).flatMap fun line => entryLine line ++ [10]

/-- A value that is read as it is written. -/
structure Settable (value : Bytes) : Prop where
  plain : Plain value
  fits : value.length < 1023
  bytes : ∀ c ∈ value, c ≠ 0 ∧ c ≠ 10 ∧ c ≠ 34 ∧ c ≠ 39 ∧ c ≠ 35

/-- A line that is read as it is written. -/
structure GoodEntry (level : ℕ) (e : ServerEntry) : Prop where
  level : level < 32
  key : IsWord e.1
  value : Settable e.2

section

variable {level : ℕ} {e : ServerEntry} (h : GoodEntry level e)
include h

/-- None of its bytes has a meaning of its own but the colon. -/
theorem GoodEntry.bytes :
    ∀ c ∈ entryLine (level, e), c ≠ 0 ∧ c ≠ 10 ∧ c ≠ 34 ∧ c ≠ 39 ∧ c ≠ 35 := by
  intro c hc
  unfold entryLine entryTail at hc
  rcases List.mem_append.mp hc with hspace | hc
  · rw [List.eq_of_mem_replicate hspace]
    decide
  rcases List.mem_append.mp hc with hkey | hc
  · have hne : ∀ d : UInt8, d < 65 → c ≠ d := fun d hd heq => h.key.ne hd (heq ▸ hkey)
    exact ⟨hne 0 (by decide), hne 10 (by decide), hne 34 (by decide), hne 39 (by decide),
      hne 35 (by decide)⟩
  rcases List.mem_cons.mp hc with rfl | hc
  · decide
  split_ifs at hc with hnil
  · exact absurd hc List.not_mem_nil
  rcases List.mem_cons.mp hc with rfl | hc
  · decide
  · exact h.value.bytes c hc

theorem GoodEntry.short : 10 ∉ entryLine (level, e) ∧ (entryLine (level, e)).length < 4095 := by
  refine ⟨fun hlf => (h.bytes 10 hlf).2.1 rfl, ?_⟩
  have hlevel := h.level
  have hkey := h.key.2.1
  have hvalue := h.value.fits
  unfold entryLine entryTail
  split_ifs
  · simp only [List.length_append, List.length_replicate, List.length_cons, List.length_nil]
    omega
  · simp only [List.length_append, List.length_replicate, List.length_cons]
    omega

/-- The line without its indentation is plain. -/
theorem GoodEntry.plain : Plain (e.1 ++ 58 :: entryTail e.2) := by
  have hkey := (plain_of_word h.key).1
  obtain ⟨c, cs, hcons⟩ := List.exists_cons_of_ne_nil h.key.1
  have hc : c ∈ e.1 := hcons ▸ List.mem_cons_self
  have hquote : ∀ quote : UInt8, quote < 65 → ∀ text, isQuoted quote (c :: text) = false := by
    intro quote hlt text
    have hne : c ≠ quote := fun heq => h.key.ne hlt (heq ▸ hc)
    unfold isQuoted
    simp [hne]
  refine ⟨?_, ?_, ?_⟩
  · rw [hcons]
    intro c' hc'
    exact Option.some.inj hc' ▸ h.key.isspace c hc
  · intro c' hc'
    rw [List.getLast?_append_of_ne_nil _ (List.cons_ne_nil _ _)] at hc'
    unfold entryTail at hc'
    split_ifs at hc' with hnil
    · rw [← Option.some.inj hc']
      decide
    · have hlast : (58 :: 32 :: e.2 : Bytes).getLast? = e.2.getLast? := by
        obtain ⟨d, ds, hds⟩ := List.exists_cons_of_ne_nil hnil
        rw [hds, List.getLast?_cons_cons, List.getLast?_cons_cons]
      rw [hlast] at hc'
      exact h.value.plain.last c' hc'
  · rw [hcons]
    exact ⟨hquote 34 (by decide) _, hquote 39 (by decide) _⟩

/-- **What is read of a line.** -/
theorem GoodEntry.sitesLine_eq :
    sitesLine (entryLine (level, e) ++ [10]) = ⟨level, e.1 ++ 58 :: entryTail e.2 ++ [10]⟩ := by
  have hbytes : ∀ c ∈ entryLine (level, e) ++ [10], c ≠ 0 ∧ c ≠ 34 ∧ c ≠ 39 ∧ c ≠ 35 := by
    intro c hc
    rcases List.mem_append.mp hc with hc | hc
    · obtain ⟨hzero, -, hrest⟩ := h.bytes c hc
      exact ⟨hzero, hrest⟩
    · rw [List.mem_singleton.mp hc]
      decide
  obtain ⟨c, cs, hcons⟩ := List.exists_cons_of_ne_nil h.key.1
  have hblank : c ≠ 32 := fun heq => h.key.ne (by decide) (heq ▸ hcons ▸ List.mem_cons_self)
  have hline : entryLine (level, e) ++ [10] =
      List.replicate (4 * level) 32 ++ (c :: (cs ++ 58 :: entryTail e.2 ++ [10])) := by
    unfold entryLine
    rw [hcons]
    simp
  have hspaces : ∀ d ∈ List.replicate (4 * level) (32 : UInt8), decide (d = 32) = true :=
    fun d hd => decide_eq_true (List.eq_of_mem_replicate hd)
  unfold sitesLine
  dsimp only
  rw [List.takeWhile_eq_self_iff.mpr fun c hc => decide_eq_true (hbytes c hc).1]
  unfold stripComment
  rw [stripCommentLoop_eq_self fun c hc => (hbytes c hc).2]
  unfold indentLevel
  rw [hline, List.takeWhile_append_of_pos hspaces, List.dropWhile_append_of_pos hspaces,
    List.takeWhile_cons_of_neg (by simpa using hblank),
    List.dropWhile_cons_of_neg (by simpa using hblank), List.append_nil, List.length_replicate,
    Nat.mul_div_cancel_left _ (by decide), hcons]
  simp

/-- Its text. -/
theorem GoodEntry.text_eq :
    SitesLine.text ⟨level, e.1 ++ 58 :: entryTail e.2 ++ [10]⟩ = e.1 ++ 58 :: entryTail e.2 := by
  refine trim_of_plain ?_ h.plain
  have hstrip := @strip_append _ isspace [] [10] (by simp) (by decide +kernel)
    (e.1 ++ 58 :: entryTail e.2)
  rwa [List.nil_append] at hstrip

/-- Its key and value. -/
theorem GoodEntry.keyValue_eq :
    SitesLine.keyValue ⟨level, e.1 ++ 58 :: entryTail e.2 ++ [10]⟩ = some (e.1, e.2) := by
  have hsplit : splitFirst 58 (e.1 ++ 58 :: entryTail e.2) = some (e.1, entryTail e.2) :=
    splitFirst_eq_some_iff.mpr ⟨rfl, h.key.ne (by decide)⟩
  have hkey : trim (safeCopy 128 e.1) = e.1 := by
    have hcopy : safeCopy 128 e.1 = e.1 :=
      List.take_of_length_le (by have := h.key.2.1; omega)
    rw [hcopy, trim_of_plain rfl (plain_of_word h.key).1]
  have hvalue : trim (safeCopy 1024 (entryTail e.2)) = e.2 := by
    unfold entryTail safeCopy
    split_ifs with hnil
    · rw [hnil]
      rfl
    · have hfits := h.value.fits
      rw [List.take_of_length_le (by rw [List.length_cons]; omega)]
      refine trim_of_plain ?_ h.value.plain
      have hstrip := @strip_append _ isspace [32] [] (by decide +kernel) (by simp) e.2
      rwa [List.append_nil] at hstrip
  unfold SitesLine.keyValue splitKeyValue
  rw [h.text_eq, hsplit]
  dsimp only
  rw [hkey, hvalue, if_neg h.key.1]

end

/-! ### Where the settings are documented -/

/-- A path of sections. -/
def sectionPath (names : List String) : List Bytes := names.map ascii

/-- The sections of `server.yml`, and the top of the file. -/
def serverSections : List (List Bytes) :=
  [sectionPath [], sectionPath ["server"], sectionPath ["server", "linux"],
    sectionPath ["server", "linux", "sockets"], sectionPath ["server", "linux", "limits"],
    sectionPath ["server", "performance"], sectionPath ["server", "performance", "keepAlive"],
    sectionPath ["server", "performance", "buffers"],
    sectionPath ["server", "performance", "staticFiles"],
    sectionPath ["server", "performance", "openFileCache"], sectionPath ["server", "security"],
    sectionPath ["server", "security", "chroot"], sectionPath ["server", "logging"],
    sectionPath ["server", "logging", "access"], sectionPath ["server", "logging", "error"],
    sectionPath ["server", "benchmarks"], sectionPath ["server", "benchmarks", "listen"],
    sectionPath ["server", "benchmarks", "storage"],
    sectionPath ["server", "benchmarks", "default"], sectionPath ["server", "config"]]

/-- The sections of the settings, in the order of `serverRules`. -/
def settingSections : List (List Bytes) :=
  [sectionPath ["server"], sectionPath ["server"], sectionPath ["server", "linux"],
    sectionPath ["server", "linux"], sectionPath ["server", "linux"],
    sectionPath ["server", "linux", "sockets"], sectionPath ["server", "linux", "sockets"],
    sectionPath ["server", "linux", "sockets"], sectionPath ["server", "linux", "limits"],
    sectionPath ["server", "linux", "limits"], sectionPath ["server", "performance"],
    sectionPath ["server", "performance"], sectionPath ["server", "performance", "keepAlive"],
    sectionPath ["server", "performance", "keepAlive"],
    sectionPath ["server", "performance", "keepAlive"],
    sectionPath ["server", "performance", "buffers"],
    sectionPath ["server", "performance", "buffers"],
    sectionPath ["server", "performance", "staticFiles"],
    sectionPath ["server", "performance", "staticFiles"],
    sectionPath ["server", "performance", "openFileCache"],
    sectionPath ["server", "performance", "openFileCache"], sectionPath ["server", "security"],
    sectionPath ["server", "security"], sectionPath ["server", "security"],
    sectionPath ["server", "security", "chroot"], sectionPath ["server", "security", "chroot"],
    sectionPath ["server", "logging"], sectionPath ["server", "logging"],
    sectionPath ["server", "logging", "access"], sectionPath ["server", "logging", "access"],
    sectionPath ["server", "logging", "error"], sectionPath ["server", "logging", "error"],
    sectionPath ["server", "benchmarks"], sectionPath ["server", "benchmarks", "listen"],
    sectionPath ["server", "benchmarks", "listen"], sectionPath ["server", "benchmarks", "storage"],
    sectionPath ["server", "config"]]

/-- The branches with their sections. -/
def serverPlaces : List (ServerRule × List Bytes) := serverRules.zip settingSections

/-- The branch whose setting is documented there. -/
def isPlaceOf (above : List Bytes) (key : Bytes) (place : ServerRule × List Bytes) : Bool :=
  place.2 = above && place.1.keys.any fun k => key = ascii k

/-- The keys of the settings of a section, those that `rpsiod` does not know included. -/
def settingKeys (above : List Bytes) : List Bytes :=
  (serverPlaces.filter fun place => place.2 = above).flatMap (fun place => place.1.keys.map ascii) ++
    if above = sectionPath ["server", "benchmarks", "default"] then
      [ascii "duration", ascii "connections", ascii "threads"]
    else []

/-- The names of the sections in a section. -/
def sectionNames (above : List Bytes) : List Bytes :=
  serverSections.filterMap fun section' =>
    if section'.dropLast = above then section'.getLast? else none

/-- A line with this key may stand in a section. -/
def keysOf (above : List Bytes) : List Bytes := settingKeys above ++ sectionNames above

set_option maxRecDepth 20000 in
/-- **No branch but its own takes a setting**, whatever line of its section is in front of it. -/
theorem findIdx_takes : ∀ above ∈ serverSections, ∀ before ∈ none :: (keysOf above).map some,
    ∀ key ∈ settingKeys above,
      serverRules.findIdx? (fun rule => rule.takes (above ++ before.toList) above.length key) =
        serverPlaces.findIdx? (isPlaceOf above key) := by
  decide +kernel

theorem isWord_keysOf : ∀ above ∈ serverSections, ∀ key ∈ keysOf above, IsWord key := by
  decide +kernel

theorem length_sections : ∀ above ∈ serverSections, above.length < 32 := by decide

/-! ### A line in its section -/

theorem getD_take {stack : YamlStack} {n i : ℕ} (h : i < n) :
    (stack.take n).getD i [] = stack.getD i [] := by
  rw [List.getD_eq_getElem?_getD, List.getD_eq_getElem?_getD, List.getElem?_take_of_lt h]

theorem pathHas_take (stack : YamlStack) (level : ℕ) (key : Bytes) :
    pathHas (stack.take (level + 1)) level key = pathHas stack level key := by
  unfold pathHas
  rw [Bool.eq_iff_iff, List.any_eq_true, List.any_eq_true]
  refine exists_congr fun i => and_congr_right fun hi => ?_
  rw [List.mem_range] at hi
  rw [getD_take (by omega)]

theorem parentIs_take (stack : YamlStack) (level : ℕ) (key : Bytes) :
    parentIs (stack.take (level + 1)) level key = parentIs stack level key := by
  unfold parentIs
  rw [getD_take (by omega)]

/-- A branch looks at the keys up to its level only. -/
theorem holds_take : ∀ rule ∈ serverRules, ∀ (stack : YamlStack) (level : ℕ),
    rule.holds (stack.take (level + 1)) level = rule.holds stack level := by
  have hall : ∀ rule ∈ serverRules, rule.holds = anywhere ∨ (∃ name, rule.holds = within name) ∨
      rule.holds = fun stack level => parentIs stack level (ascii "server") := by
    simp only [serverRules, List.forall_mem_cons, serverText, serverBool, serverPort, serverNumber]
    simp
  intro rule hrule stack level
  rcases hall rule hrule with h | ⟨name, h⟩ | h
  · rw [h]
    rfl
  · rw [h]
    exact pathHas_take stack level _
  · rw [h]
    exact parentIs_take stack level _

theorem applyServerValue_take (cfg : ParsedServer) (stack : YamlStack) (level : ℕ)
    (key value : Bytes) :
    applyServerValue cfg (stack.take (level + 1)) level key value =
      applyServerValue cfg stack level key value := by
  have hfind : serverRules.find? (fun rule => rule.takes (stack.take (level + 1)) level key) =
      serverRules.find? fun rule => rule.takes stack level key := by
    apply List.find?_congr
    intro rule hrule
    unfold ServerRule.takes
    rw [holds_take rule hrule]
  unfold applyServerValue
  rw [hfind]

/-- The branch whose setting is documented there. -/
def ruleAt (above : List Bytes) (key : Bytes) : Option ServerRule :=
  (serverPlaces.find? (isPlaceOf above key)).map Prod.fst

/-- What a line sets in its section. -/
def setAt (above : List Bytes) (e : ServerEntry) (cfg : ParsedServer) :
    Except Bytes ParsedServer :=
  if e.2 = [] then .ok cfg
  else
    match ruleAt above e.1 with
    | some rule => rule.set e.2 cfg
    | none => .ok cfg

/-- A line that is documented in this section: a setting with its value, or a section. -/
def DocumentedIn (above : List Bytes) (e : ServerEntry) : Prop :=
  (e.1 ∈ settingKeys above ∧ Settable e.2) ∨ (e.2 = [] ∧ above ++ [e.1] ∈ serverSections)

theorem DocumentedIn.mem_keysOf {above : List Bytes} {e : ServerEntry} (h : DocumentedIn above e) :
    e.1 ∈ keysOf above := by
  rcases h with ⟨hkey, -⟩ | ⟨-, hsection⟩
  · exact List.mem_append_left _ hkey
  · apply List.mem_append_right
    refine List.mem_filterMap.mpr ⟨_, hsection, ?_⟩
    rw [List.dropLast_concat, if_pos rfl, List.getLast?_concat]

theorem DocumentedIn.settable {above : List Bytes} {e : ServerEntry} (h : DocumentedIn above e) :
    Settable e.2 := by
  rcases h with ⟨-, hvalue⟩ | ⟨hnil, -⟩
  · exact hvalue
  · rw [hnil]
    exact ⟨⟨by simp, by simp, rfl, rfl⟩, by decide, by simp⟩

/-- **In its section a line sets its own setting**, whatever documented line is in front of it. -/
theorem applyServerValue_documented {above : List Bytes} (habove : above ∈ serverSections)
    {before : Option Bytes} (hbefore : ∀ key ∈ before, key ∈ keysOf above) {e : ServerEntry}
    (he : DocumentedIn above e) (cfg : ParsedServer) :
    applyServerValue cfg (above ++ before.toList) above.length e.1 e.2 = setAt above e cfg := by
  unfold applyServerValue setAt
  by_cases hnil : e.2 = []
  · rw [if_pos hnil, if_pos hnil]
  · rw [if_neg hnil, if_neg hnil]
    have hkey : e.1 ∈ settingKeys above := by
      rcases he with ⟨hkey, -⟩ | ⟨hvalue, -⟩
      · exact hkey
      · exact absurd hvalue hnil
    have hmem : before ∈ none :: (keysOf above).map some := by
      cases before with
      | none => exact List.mem_cons_self
      | some key => exact List.mem_cons_of_mem _ (List.mem_map_of_mem (hbefore key rfl))
    have hindex := findIdx_takes above habove before hmem e.1 hkey
    have hfind : serverRules.find? (fun rule =>
        rule.takes (above ++ before.toList) above.length e.1) = ruleAt above e.1 := by
      unfold ruleAt
      rw [List.find?_eq_bind_findIdx?_getElem?, List.find?_eq_bind_findIdx?_getElem?, hindex]
      cases serverPlaces.findIdx? (isPlaceOf above e.1) with
      | none => rfl
      | some i =>
          show serverRules[i]? = serverPlaces[i]?.map Prod.fst
          rw [← List.getElem?_map]
          have hlength : serverRules.length ≤ settingSections.length := by decide
          exact congrArg (fun rules => rules[i]?) (List.map_fst_zip hlength).symm
    exact congrArg (fun rule : Option ServerRule =>
      match rule with
      | some rule => rule.set e.2 cfg
      | none => .ok cfg) hfind

/-! ### The file -/

/-- Every line is documented in its section. -/
def DocumentedOutline (o : Outline ServerEntry) : Prop :=
  ∀ entry ∈ o.places [] none, entry.1.above.map Prod.fst ∈ serverSections ∧
    DocumentedIn (entry.1.above.map Prod.fst) entry.2

/-- A setting is set, or the error names its line. -/
def setEntry (path : Bytes) (cfg : ParsedServer)
    (entry : (Outline.Place ServerEntry × ServerEntry) × ℕ) : Except Bytes ParsedServer :=
  (setAt (entry.1.1.above.map Prod.fst) entry.1.2 cfg).mapError (parseErrorAt path entry.2)

theorem DocumentedIn.goodEntry {above : List Bytes} (habove : above ∈ serverSections)
    {e : ServerEntry} (h : DocumentedIn above e) : GoodEntry above.length e :=
  ⟨length_sections above habove, isWord_keysOf above habove e.1 h.mem_keysOf, h.settable⟩

/-- The loop body on such a line. -/
theorem parseServerLine_good {level : ℕ} {e : ServerEntry} (h : GoodEntry level e) (path : Bytes)
    (n : ℕ) {stack : YamlStack} (hlevel : level ≤ stack.length) (cfg : ParsedServer) :
    parseServerLine path (stack, cfg) (entryLine (level, e) ++ [10], n) =
      ((applyServerValue cfg (stack.take (level + 1)) level e.1 e.2).mapError
        (parseErrorAt path n)).map fun cfg => (stack.take level ++ [e.1], cfg) := by
  have hcopy : safeCopy 64 e.1 = e.1 := List.take_of_length_le (by have := h.key.2.1; omega)
  have hstack : stackSet stack level e.1 = stack.take level ++ [e.1] := by
    have hlimit := h.level
    unfold stackSet
    rw [if_neg (by omega), hcopy]
    congr 1
    refine List.ext_getElem (by simp; omega) fun i hi hi' => ?_
    rw [List.length_map, List.length_range] at hi
    simp [show i < stack.length by omega]
  have hne : e.1 ++ 58 :: entryTail e.2 ≠ [] :=
    List.append_ne_nil_of_right_ne_nil _ (List.cons_ne_nil _ _)
  unfold parseServerLine
  dsimp only
  rw [h.sitesLine_eq, h.text_eq, if_neg hne, h.keyValue_eq]
  dsimp only
  rw [hstack, applyServerValue_take]

section

variable {o : Outline ServerEntry} (hdoc : DocumentedOutline o) (path : Bytes)
include hdoc

/-- The lines of a documented file can be read. -/
theorem DocumentedOutline.goodEntry : ∀ line ∈ o.lines 0, GoodEntry line.1 line.2 := by
  intro line hline
  obtain ⟨p, hp, hlevel⟩ := @Outline.exists_place_of_mem_lines _ o [] none line hline
  obtain ⟨habove, he⟩ := hdoc _ hp
  have hentry := he.goodEntry habove
  rwa [List.length_map, hlevel] at hentry

/-- The pieces that `fgets` reads are the lines. -/
theorem DocumentedOutline.fgetsPieces_eq :
    fgetsPieces (outlineText o) = (o.lines 0).map fun line => entryLine line ++ [10] := by
  have hlines := @fgetsPieces_lines ((o.lines 0).map entryLine) (by
    intro text htext
    obtain ⟨line, hline, rfl⟩ := List.mem_map.mp htext
    exact (hdoc.goodEntry line hline).short)
  rwa [List.flatMap_map, List.map_map] at hlines

/-- The loop body sets the setting of the line, whatever the stack holds of the lines before. -/
theorem DocumentedOutline.visit_eq :
    ∀ entry ∈ (o.places [] none).zipIdx 1, ∀ cfg,
      Outline.visit Prod.fst (fun n keys level (e : ServerEntry) cfg =>
        (applyServerValue cfg keys level e.1 e.2).mapError (parseErrorAt path n)) cfg entry =
        setEntry path cfg entry := by
  rintro ⟨⟨p, e⟩, n⟩ hentry cfg
  have hmem := List.fst_mem_of_mem_zipIdx hentry
  obtain ⟨habove, he⟩ := hdoc _ hmem
  have hbefore : ∀ key ∈ p.before.map Prod.fst, key ∈ keysOf (p.above.map Prod.fst) := by
    intro key hkey
    obtain ⟨b, hb, rfl⟩ := Option.map_eq_some_iff.mp hkey
    rcases Outline.exists_place_before hmem hb with ⟨-, hnone⟩ | ⟨before', hplace⟩
    · cases hnone
    · exact (hdoc _ hplace).2.mem_keysOf
  have happly := applyServerValue_documented habove hbefore he cfg
  have hforce : p.inForce.map Prod.fst =
      p.above.map Prod.fst ++ (p.before.map Prod.fst).toList := by
    unfold Outline.Place.inForce
    rw [List.map_append]
    cases p.before with
    | none => rfl
    | some b => rfl
  unfold Outline.visit setEntry
  dsimp only
  rw [hforce, ← @List.length_map _ _ p.above Prod.fst, happly]

/-- A documented file sets its settings, one line after the other. -/
theorem parseServerFile_documented :
    parseServerFile path (.ok (outlineText o)) =
      ((o.places [] none).zipIdx 1).foldlM (setEntry path) {} := by
  have hread := @Outline.foldlM_lines ServerEntry Bytes Bytes ParsedServer Prod.fst
    (fun n keys level e cfg =>
      (applyServerValue cfg keys level e.1 e.2).mapError (parseErrorAt path n))
    (fun state line => parseServerLine path state (entryLine line.1 ++ [10], line.2)) GoodEntry
    (fun stack cfg level e n hentry hlevel => parseServerLine_good hentry path n hlevel cfg)
    o hdoc.goodEntry 1 {}
  rw [FailingRun.foldlM_congr (hdoc.visit_eq path)] at hread
  rw [← hread]
  unfold parseServerFile
  dsimp only
  rw [hdoc.fgetsPieces_eq, List.zipIdx_map, List.foldlM_map]
  rfl

end

/-- **Reading a documented file is setting its settings**, one line after the other; and the error is
that of the first setting that is refused, with its line. -/
theorem parseServerFile_outline {o : Outline ServerEntry} (hdoc : DocumentedOutline o)
    (path : Bytes) :
    parseServerFile path (.ok (outlineText o)) =
        ((o.places [] none).zipIdx 1).foldlM (setEntry path) {} ∧
      ∀ text, parseServerFile path (.ok (outlineText o)) = .error text ↔
        ∃ front place e n back cfg refusal,
          (o.places [] none).zipIdx 1 = front ++ ((place, e), n) :: back ∧
            front.foldlM (setEntry path) {} = .ok cfg ∧
            setAt (place.above.map Prod.fst) e cfg = .error refusal ∧
            text = parseErrorAt path n refusal := by
  have hread := parseServerFile_documented hdoc path
  refine ⟨hread, fun text => ?_⟩
  rw [hread, FailingRun.foldlM_eq_error_iff]
  constructor
  · rintro ⟨front, ⟨⟨place, e⟩, n⟩, back, cfg, hsplit, hfront, hentry⟩
    unfold setEntry at hentry
    cases hset : setAt (place.above.map Prod.fst) e cfg with
    | ok cfg' =>
        rw [hset] at hentry
        cases hentry
    | error refusal =>
        rw [hset] at hentry
        have htext : parseErrorAt path n refusal = text := Except.error.inj hentry
        exact ⟨front, place, e, n, back, cfg, refusal, hsplit, hfront, hset, htext.symm⟩
  · rintro ⟨front, place, e, n, back, cfg, refusal, hsplit, hfront, hset, rfl⟩
    refine ⟨front, ((place, e), n), back, cfg, hsplit, hfront, ?_⟩
    unfold setEntry
    rw [hset]
    rfl

/-- Sections in another order, a setting that is given twice, and a bad value on the last line. -/
def oddOutline : Outline ServerEntry :=
  .item (ascii "server", [])
    (.item (ascii "logging", [])
      (.item (ascii "error", []) (.item (ascii "enabled", ascii "no") .nil .nil)
        (.item (ascii "level", ascii "debug") .nil (.item (ascii "level", ascii "warn") .nil .nil)))
      (.item (ascii "benchmarks", []) (.item (ascii "enabled", ascii "maybe") .nil .nil) .nil))
    .nil

theorem parseServerFile_outline_odd :
    parseServerFile (ascii "s.yml") (.ok (outlineText oddOutline)) =
      .error (ascii "s.yml:8: benchmarks.enabled must be a boolean") := by
  have hplain : ∀ value ∈ [ascii "no", ascii "debug", ascii "warn", ascii "maybe"],
      ((∀ c ∈ value.head?, isspace c = false) ∧ (∀ c ∈ value.getLast?, isspace c = false) ∧
        isQuoted 34 value = false ∧ isQuoted 39 value = false) ∧ value.length < 1023 ∧
        ∀ c ∈ value, c ≠ 0 ∧ c ≠ 10 ∧ c ≠ 34 ∧ c ≠ 39 ∧ c ≠ 35 := by
    decide +kernel
  have hsettable : ∀ value ∈ [ascii "no", ascii "debug", ascii "warn", ascii "maybe"],
      Settable value := by
    intro value hvalue
    obtain ⟨⟨hfirst, hlast, hunquoted⟩, hfits, hbytes⟩ := hplain value hvalue
    exact ⟨⟨hfirst, hlast, hunquoted⟩, hfits, hbytes⟩
  have hplaces : ∀ entry ∈ oddOutline.places [] none,
      entry.1.above.map Prod.fst ∈ serverSections ∧
        ((entry.2.1 ∈ settingKeys (entry.1.above.map Prod.fst) ∧
          entry.2.2 ∈ [ascii "no", ascii "debug", ascii "warn", ascii "maybe"]) ∨
          (entry.2.2 = [] ∧ entry.1.above.map Prod.fst ++ [entry.2.1] ∈ serverSections)) := by
    decide +kernel
  have hdoc : DocumentedOutline oddOutline := by
    intro entry hentry
    obtain ⟨habove, ⟨hkey, hvalue⟩ | hsection⟩ := hplaces entry hentry
    · exact ⟨habove, .inl ⟨hkey, hsettable _ hvalue⟩⟩
    · exact ⟨habove, .inr hsection⟩
  rw [(parseServerFile_outline hdoc (ascii "s.yml")).1]
  decide +kernel

end Rpsiod

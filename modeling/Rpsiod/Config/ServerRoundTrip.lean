import Rpsiod.Config.Quantities
import Rpsiod.Config.ServerOutline
import Rpsiod.Http2.HeaderFidelity

/-!
# Writing a server file and reading it back

Whatever the settings of the process are, there is a file that says so: `server.yml` with their
values in it.

* `ParsedServer.outline`: the file with all settings, in the order of `server.yml`.
* `Sets`: the lines of a section change one configuration into another, setting by setting.
* `server_round_trip`: **what is written is read back**, if the texts can stand in a line.
-/

namespace Rpsiod

/-! ### Numbers -/

theorem isdigit_of_mem_decimal {n : ℕ} {c : UInt8} (hc : c ∈ decimal n) : isdigit c = true := by
  obtain ⟨k, hk, rfl⟩ := Digits.exists_digit_of_mem_render (by decide) hc
  have hall : ∀ k < 10, isdigit (Digits.digitByte k) = true := by decide
  exact hall k hk

theorem isNumber_decimal (n : ℕ) : IsNumber (decimal n) :=
  ⟨Digits.render_ne_nil, fun _ hc => isdigit_of_mem_decimal hc⟩

theorem isspace_of_mem_nil : ∀ c ∈ ([] : Bytes), isspace c = true := fun _ hc =>
  absurd hc List.not_mem_nil

theorem exists_emptyUnit {units : List (Bytes × ℕ)} (hunit : ([], 1) ∈ units) :
    ∃ word, (word, 1) ∈ units ∧ streqCi [] word = true := ⟨[], hunit, rfl⟩

/-- A number without a unit. -/
def bareQuantity (units : List (Bytes × ℕ)) (hunit : ([], 1) ∈ units) (n : ℕ) : Quantity units where
  digits := decimal n
  blanks := []
  unit := []
  factor := 1
  digits_ok := isNumber_decimal n
  blanks_ok := isspace_of_mem_nil
  unit_ok := exists_emptyUnit hunit

theorem text_bareQuantity {units : List (Bytes × ℕ)} (hunit : ([], 1) ∈ units) (n : ℕ) :
    (bareQuantity units hunit n).text = decimal n := List.append_nil _

theorem number_decimal (n : ℕ) : number (decimal n) = n := by
  have hread := @readDecimal_decimal n [] fun _ hc => by cases hc
  rwa [List.append_nil] at hread

theorem parseSize_decimal {n : ℕ} (h : n < 2 ^ 64) (fallback : ℕ) :
    parseSize (decimal n) fallback = n := by
  have hunit : (([], 1) : Bytes × ℕ) ∈ sizeUnits := by decide
  have hread := parseSize_text (bareQuantity sizeUnits hunit n) fallback
  have hdigits : number (bareQuantity sizeUnits hunit n).digits = n := number_decimal n
  rw [text_bareQuantity, hdigits, min_eq_left (by omega)] at hread
  have hone : n * (bareQuantity sizeUnits hunit n).factor = n := Nat.mul_one n
  rw [hread, hone, Nat.mod_eq_of_lt h]

theorem decimalInt_of_nonneg {x : ℤ} (h : 0 ≤ x) : decimalInt x = decimal x.toNat := by
  unfold decimalInt
  rw [if_neg (by omega)]
  congr 1
  omega

theorem parseDurationSec_decimalInt {x : ℤ} (h : 0 ≤ x ∧ x ≤ 24855) (fallback : ℤ) :
    parseDurationSec (decimalInt x) fallback = x := by
  have hunit : (([], 1) : Bytes × ℕ) ∈ durationUnits := by decide
  have hread := parseDurationSec_text (bareQuantity durationUnits hunit x.toNat) fallback
  have hdigits : number (bareQuantity durationUnits hunit x.toNat).digits = x.toNat :=
    number_decimal _
  have hamount : (bareQuantity durationUnits hunit x.toNat).amount = x.toNat := by
    unfold Quantity.amount
    rw [hdigits]
    exact Nat.mul_one _
  rw [text_bareQuantity, hdigits, hamount, if_pos (by omega)] at hread
  rw [decimalInt_of_nonneg h.1, hread]
  omega

/-- What `strtol` reads of a number. -/
theorem strtolEnd_decimalInt {x : ℤ} (h : -2 ^ 63 ≤ x ∧ x < 2 ^ 63) :
    strtolEnd (decimalInt x) = ⟨x, [], false⟩ := by
  obtain ⟨d, rest, hd, hdigit, hspace, hminus, hplus⟩ := exists_digit_decimal x.natAbs
  have hread : readDecimal 0 (decimal x.natAbs) = (x.natAbs, []) := by
    refine Prod.ext (number_decimal _) ?_
    exact rest_readDecimal_digits (fun _ hc => isdigit_of_mem_decimal hc) 0
  have hhead : (decimal x.natAbs).head?.any isdigit = true := by
    rw [hd]
    exact hdigit
  unfold strtolEnd decimalInt
  by_cases hneg : x < 0
  · have hdrop : (45 :: decimal x.natAbs).dropWhile isspace = 45 :: decimal x.natAbs := rfl
    rw [if_pos hneg]
    dsimp only
    rw [hdrop]
    simp only [List.head?_cons, true_or, if_true, List.tail_cons, hhead, hread]
    rw [Strtol.mk.injEq]
    refine ⟨by omega, rfl, ?_⟩
    simp only [Bool.or_eq_false_iff, decide_eq_false_iff_not]
    omega
  · have hdrop : (decimal x.natAbs).dropWhile isspace = decimal x.natAbs := by
      rw [hd, List.dropWhile_cons_of_neg]
      rw [hspace]
      exact Bool.false_ne_true
    have hsign : (decimal x.natAbs).head? = some d := by
      rw [hd]
      rfl
    rw [if_neg hneg]
    dsimp only
    rw [hdrop, hsign]
    simp only [Option.some.injEq, hminus, hplus, or_self, if_false, hhead, if_true, hread]
    rw [Strtol.mk.injEq]
    refine ⟨by omega, rfl, ?_⟩
    simp only [Bool.or_eq_false_iff, decide_eq_false_iff_not]
    omega

theorem decimalInt_ne_nil (x : ℤ) : decimalInt x ≠ [] := by
  unfold decimalInt
  split_ifs
  · exact List.cons_ne_nil _ _
  · exact Digits.render_ne_nil

theorem toInt_parseLong {x : ℤ} (h : -2 ^ 31 ≤ x ∧ x < 2 ^ 31) (fallback : ℤ) :
    toInt (parseLong (decimalInt x) fallback) = x := by
  have hconverted : (strtolEnd (decimalInt x)).converted (decimalInt x) = true := by
    rw [strtolEnd_decimalInt (by omega)]
    unfold Strtol.converted
    rw [bne_iff_ne]
    exact (List.length_pos_of_ne_nil (decimalInt_ne_nil x)).ne
  unfold parseLong
  rw [if_pos hconverted, strtolEnd_decimalInt (by omega)]
  dsimp only
  exact Int.bmod_eq_of_le (by omega) (by omega)

theorem parsePortStrict_decimal {port : UInt16} (h : port ≠ 0) :
    parsePortStrict (decimal port.toNat) = some port := by
  have hlt := port.toNat_lt
  have hpos : port.toNat ≠ 0 := fun hzero => h (UInt16.toNat_inj.mp hzero)
  have hint : decimal port.toNat = decimalInt port.toNat := by
    rw [decimalInt_of_nonneg (Int.natCast_nonneg _), Int.toNat_natCast]
  have hread := @strtolEnd_decimalInt (port.toNat : ℤ) (by omega)
  have hlength := List.length_pos_of_ne_nil (decimalInt_ne_nil (port.toNat : ℤ))
  unfold parsePortStrict
  rw [hint, hread]
  unfold Strtol.converted
  dsimp only
  rw [if_neg]
  · rw [Int.toNat_natCast]
    exact congrArg some (UInt16.ofNat_toNat)
  · have hne : (0 : ℕ) ≠ (decimalInt (port.toNat : ℤ)).length := by omega
    simp [hne]
    omega

/-! ### Values that can be written -/

/-- A visible text without signs in front of the digits is read as it is written. -/
theorem settable_of_visible {value : Bytes} (hbytes : ∀ c ∈ value, 45 ≤ c)
    (hfits : value.length < 1023) : Settable value := by
  have hspace : ∀ c ∈ value, isspace c = false := by
    intro c hc
    have hvisible := hbytes c hc
    unfold isspace
    have hne : c ≠ 32 := fun heq => absurd (heq ▸ hvisible) (by decide)
    have hnot : ¬ c ≤ 13 := fun hle => absurd (UInt8.le_trans hvisible hle) (by decide)
    simp [hne, hnot]
  have hunquoted : ∀ quote : UInt8, quote < 45 → isQuoted quote value = false := by
    intro quote hlt
    have hne : value.head? ≠ some quote := fun hhead =>
      absurd (hbytes quote (List.mem_of_head? hhead)) (UInt8.not_le.mpr hlt)
    unfold isQuoted
    simp [hne]
  refine ⟨⟨fun c hc => hspace c (List.mem_of_head? hc),
    fun c hc => hspace c (List.mem_of_getLast? hc), hunquoted 34 (by decide),
    hunquoted 39 (by decide)⟩, hfits, fun c hc => ?_⟩
  have hne : ∀ d : UInt8, d < 45 → c ≠ d := fun d hd heq =>
    absurd (heq ▸ hbytes c hc) (UInt8.not_le.mpr hd)
  exact ⟨hne 0 (by decide), hne 10 (by decide), hne 34 (by decide), hne 39 (by decide),
    hne 35 (by decide)⟩

theorem le_of_mem_decimal {n : ℕ} {c : UInt8} (hc : c ∈ decimal n) : 45 ≤ c := by
  obtain ⟨k, hk, rfl⟩ := Digits.exists_digit_of_mem_render (by decide) hc
  have hall : ∀ k < 10, 45 ≤ Digits.digitByte k := by decide
  exact hall k hk

theorem mem_decimalInt {x : ℤ} {c : UInt8} (hc : c ∈ decimalInt x) :
    c ∈ 45 :: decimal x.natAbs := by
  unfold decimalInt at hc
  split_ifs at hc
  · exact hc
  · exact List.mem_cons_of_mem _ hc

theorem tolower_ne_of_mem_decimal {n : ℕ} {c : UInt8} (hc : c ∈ decimal n) : tolower c ≠ 97 := by
  obtain ⟨k, hk, rfl⟩ := Digits.exists_digit_of_mem_render (by decide) hc
  have hall : ∀ k < 10, tolower (Digits.digitByte k) ≠ 97 := by decide
  exact hall k hk

theorem length_decimal_le {n : ℕ} (h : n < 2 ^ 64) : (decimal n).length ≤ 20 :=
  Digits.render_length_le (by decide) (by decide) (by omega)

theorem settable_decimal {n : ℕ} (h : n < 2 ^ 64) : Settable (decimal n) :=
  settable_of_visible (fun _ hc => le_of_mem_decimal hc) (by have := length_decimal_le h; omega)

theorem settable_decimalInt {x : ℤ} (h : -2 ^ 31 ≤ x ∧ x < 2 ^ 31) : Settable (decimalInt x) := by
  have hlength := @length_decimal_le x.natAbs (by omega)
  unfold decimalInt
  split_ifs
  · refine settable_of_visible (fun c hc => ?_) (by rw [List.length_cons]; omega)
    rcases List.mem_cons.mp hc with rfl | hc
    · decide
    · exact le_of_mem_decimal hc
  · exact settable_of_visible (fun _ hc => le_of_mem_decimal hc) (by omega)

/-- A boolean as it is written. -/
def boolText (b : Bool) : Bytes := if b then ascii "true" else ascii "false"

theorem parseBoolStrict_boolText (b : Bool) : parseBoolStrict (boolText b) = some b := by
  cases b with
  | true => decide
  | false => decide

theorem settable_boolText (b : Bool) : Settable (boolText b) := by
  cases b with
  | true => exact settable_of_visible (by decide +kernel) (by decide)
  | false => exact settable_of_visible (by decide +kernel) (by decide)

theorem boolText_ne_nil (b : Bool) : boolText b ≠ [] := by
  cases b with
  | true => decide
  | false => decide

/-- A text that can stand in a line and in its field. -/
structure TextFits (width : ℕ) (value : Bytes) : Prop where
  ne : value ≠ []
  settable : Settable value
  fits : value.length < width

/-! ### The lines of a section -/

/-- The lines of this section change one configuration into the other. -/
inductive Sets : List Bytes → Outline ServerEntry → ParsedServer → ParsedServer → Prop
  | nil {above : List Bytes} (cfg : ParsedServer) : Sets above .nil cfg cfg
  | setting {above : List Bytes} {e : ServerEntry} {rest : Outline ServerEntry}
      {cfg mid cfg' : ParsedServer} (he : e.1 ∈ settingKeys above ∧ Settable e.2)
      (hset : setAt above e cfg = .ok mid) (others : Sets above rest mid cfg') :
      Sets above (.item e .nil rest) cfg cfg'
  | inside {above : List Bytes} {name : Bytes} {below rest : Outline ServerEntry}
      {cfg mid cfg' : ParsedServer} (hsection : above ++ [name] ∈ serverSections)
      (inner : Sets (above ++ [name]) below cfg mid) (others : Sets above rest mid cfg') :
      Sets above (.item (name, []) below rest) cfg cfg'

/-- Such lines are documented. -/
theorem Sets.documented {keys : List Bytes} {o : Outline ServerEntry} {cfg cfg' : ParsedServer}
    (h : Sets keys o cfg cfg') (hkeys : keys ∈ serverSections) {above : List ServerEntry}
    (habove : above.map Prod.fst = keys) (before : Option ServerEntry) :
    ∀ entry ∈ o.places above before, entry.1.above.map Prod.fst ∈ serverSections ∧
      DocumentedIn (entry.1.above.map Prod.fst) entry.2 := by
  induction h generalizing above before with
  | nil cfg => exact fun entry hentry => absurd hentry List.not_mem_nil
  | setting he hset others ih =>
      intro entry hentry
      unfold Outline.places at hentry
      rcases List.mem_cons.mp hentry with rfl | hentry
      · dsimp only
        rw [habove]
        exact ⟨hkeys, .inl he⟩
      · exact ih hkeys habove _ entry hentry
  | inside hsection inner others ihInner ihOthers =>
      intro entry hentry
      unfold Outline.places at hentry
      rcases List.mem_cons.mp hentry with rfl | hentry
      · dsimp only
        rw [habove]
        exact ⟨hkeys, .inr ⟨rfl, hsection⟩⟩
      rcases List.mem_append.mp hentry with hentry | hentry
      · exact ihInner hsection (by rw [List.map_append, habove]; rfl) _ entry hentry
      · exact ihOthers hkeys habove _ entry hentry

/-- Visiting them makes the change. -/
theorem Sets.foldlM {keys : List Bytes} {o : Outline ServerEntry} {cfg cfg' : ParsedServer}
    (h : Sets keys o cfg cfg') (path : Bytes) {above : List ServerEntry}
    (habove : above.map Prod.fst = keys) (before : Option ServerEntry) (n : ℕ) :
    ((o.places above before).zipIdx n).foldlM (setEntry path) cfg = .ok cfg' := by
  induction h generalizing above before n with
  | nil cfg => rfl
  | @setting keys e rest cfg mid cfg' he hset others ih =>
      unfold Outline.places
      have hfirst : setEntry path cfg ((⟨above, before⟩, e), n) = .ok mid := by
        unfold setEntry
        dsimp only
        rw [habove, hset]
        rfl
      rw [List.zipIdx_cons, List.foldlM_cons, hfirst]
      exact ih habove _ _
  | @inside keys name below rest cfg mid cfg' hsection inner others ihInner ihOthers =>
      unfold Outline.places
      have hfirst : setEntry path cfg ((⟨above, before⟩, (name, [])), n) = .ok cfg := rfl
      rw [List.zipIdx_cons, List.foldlM_cons, hfirst, List.zipIdx_append]
      show List.foldlM _ _ _ = _
      rw [List.foldlM_append, ihInner (by rw [List.map_append, habove]; rfl)]
      exact ihOthers habove _ _

/-- **A file of such lines** gives the configuration that they make of the defaults. -/
theorem Sets.parseServerFile_eq {o : Outline ServerEntry} {cfg : ParsedServer}
    (h : Sets [] o {} cfg) (path : Bytes) :
    parseServerFile path (.ok (outlineText o)) = .ok cfg := by
  have htop : ([] : List Bytes) ∈ serverSections := by decide
  rw [parseServerFile_documented (@Sets.documented [] o {} cfg h htop [] rfl none)]
  exact @Sets.foldlM [] o {} cfg h path [] rfl none 1

/-! ### One setting -/

section

variable {above : List Bytes} {key : Bytes} {rest : Outline ServerEntry} {cfg cfg' : ParsedServer}
  {i : ℕ} (hplace : serverPlaces.findIdx? (isPlaceOf above key) = some i)
include hplace

theorem mem_settingKeys : key ∈ settingKeys above := by
  obtain ⟨hlt, hof, -⟩ := List.findIdx?_eq_some_iff_getElem.mp hplace
  have hmem : serverPlaces[i] ∈ serverPlaces := List.getElem_mem hlt
  unfold isPlaceOf at hof
  rw [Bool.and_eq_true, List.any_eq_true] at hof
  obtain ⟨habove, k, hk, hkey⟩ := hof
  apply List.mem_append_left
  refine List.mem_flatMap.mpr ⟨_, List.mem_filter.mpr ⟨hmem, habove⟩, ?_⟩
  exact List.mem_map.mpr ⟨k, hk, (of_decide_eq_true hkey).symm⟩

/-- A line that is taken by this branch. -/
theorem Sets.rule {rule : ServerRule} (hrule : serverRules[i]? = some rule) {value : Bytes}
    (hne : value ≠ []) (hvalue : Settable value) {mid : ParsedServer}
    (hset : rule.set value cfg = .ok mid) (others : Sets above rest mid cfg') :
    Sets above (.item (key, value) .nil rest) cfg cfg' := by
  refine Sets.setting ⟨mem_settingKeys hplace, hvalue⟩ ?_ others
  have hat : ruleAt above key = some rule := by
    unfold ruleAt
    rw [List.find?_eq_bind_findIdx?_getElem?, hplace]
    show serverPlaces[i]?.map Prod.fst = _
    have hlength : serverRules.length ≤ settingSections.length := by decide
    rw [← List.getElem?_map, ← hrule]
    exact congrArg (fun rules => rules[i]?) (List.map_fst_zip hlength)
  unfold setAt
  rw [if_neg hne, hat]
  exact hset

theorem Sets.text {name : String} {holds : YamlStack → ℕ → Bool} {width : ℕ}
    {put : ParsedServer → Bytes → ParsedServer}
    (hrule : serverRules[i]? = some (serverText name holds width put)) {value : Bytes}
    (hvalue : TextFits width value) (others : Sets above rest (put cfg value) cfg') :
    Sets above (.item (key, value) .nil rest) cfg cfg' := by
  refine Sets.rule hplace hrule hvalue.ne hvalue.settable ?_ others
  have hcopy : safeCopy width value = value :=
    List.take_of_length_le (by have := hvalue.fits; omega)
  show Except.ok (put cfg (safeCopy width value)) = _
  rw [hcopy]

theorem Sets.bool {name : String} {holds : YamlStack → ℕ → Bool} {field : String}
    {put : ParsedServer → Bool → ParsedServer}
    (hrule : serverRules[i]? = some (serverBool name holds field put)) {b : Bool}
    (others : Sets above rest (put cfg b) cfg') :
    Sets above (.item (key, boolText b) .nil rest) cfg cfg' := by
  refine Sets.rule hplace hrule (boolText_ne_nil b) (settable_boolText b) ?_ others
  unfold serverBool
  dsimp only
  rw [parseBoolStrict_boolText]

theorem Sets.number {names : List String} {holds : YamlStack → ℕ → Bool}
    {put : ParsedServer → Bytes → ParsedServer}
    (hrule : serverRules[i]? = some (serverNumber names holds put)) {value : Bytes}
    (hne : value ≠ []) (hvalue : Settable value) (others : Sets above rest (put cfg value) cfg') :
    Sets above (.item (key, value) .nil rest) cfg cfg' :=
  Sets.rule hplace hrule hne hvalue rfl others

theorem Sets.size {names : List String} {holds : YamlStack → ℕ → Bool}
    {put : ParsedServer → Bytes → ParsedServer}
    (hrule : serverRules[i]? = some (serverNumber names holds put)) {n : ℕ} (hn : n < 2 ^ 64)
    (others : Sets above rest (put cfg (decimal n)) cfg') :
    Sets above (.item (key, decimal n) .nil rest) cfg cfg' :=
  Sets.number hplace hrule Digits.render_ne_nil (settable_decimal hn) others

theorem Sets.int {names : List String} {holds : YamlStack → ℕ → Bool}
    {put : ParsedServer → Bytes → ParsedServer}
    (hrule : serverRules[i]? = some (serverNumber names holds put)) {x : ℤ}
    (hx : -2 ^ 31 ≤ x ∧ x < 2 ^ 31) (others : Sets above rest (put cfg (decimalInt x)) cfg') :
    Sets above (.item (key, decimalInt x) .nil rest) cfg cfg' :=
  Sets.number hplace hrule (decimalInt_ne_nil x) (settable_decimalInt hx) others

theorem Sets.port {name : String} {holds : YamlStack → ℕ → Bool} {field : String}
    {put : ParsedServer → UInt16 → ParsedServer}
    (hrule : serverRules[i]? = some (serverPort name holds field put)) {port : UInt16}
    (hport : port ≠ 0) (others : Sets above rest (put cfg port) cfg') :
    Sets above (.item (key, decimal port.toNat) .nil rest) cfg cfg' := by
  have hlt := port.toNat_lt
  refine Sets.rule hplace hrule Digits.render_ne_nil (settable_decimal (by omega)) ?_ others
  unfold serverPort
  dsimp only
  rw [parsePortStrict_decimal hport]

end

theorem Sets.done {above : List Bytes} {cfg cfg' : ParsedServer} (h : cfg = cfg') :
    Sets above .nil cfg cfg' := h ▸ Sets.nil cfg

/-! ### The file with all settings -/

/-- A line with a setting, and those behind it. -/
def settingLine (key : String) (value : Bytes) (rest : Outline ServerEntry) :
    Outline ServerEntry := .item (ascii key, value) .nil rest

/-- A section, and what is behind it. -/
def inSection (name : String) (below rest : Outline ServerEntry) : Outline ServerEntry :=
  .item (ascii name, []) below rest

namespace ParsedServer

variable (c : ParsedServer)

def socketsLines : Outline ServerEntry :=
  settingLine "reusePort" (boolText c.reusePort) <|
    settingLine "tcpFastOpen" (boolText c.tcpFastOpen) <|
    settingLine "backlog" (decimalInt c.backlog) .nil

def limitsLines : Outline ServerEntry :=
  settingLine "openFiles" (decimal c.openFiles) <|
    settingLine "maxProcesses" (decimal c.maxProcesses) .nil

def linuxLines : Outline ServerEntry :=
  settingLine "user" c.linuxUser <| settingLine "group" c.linuxGroup <|
    settingLine "pidFile" c.pidFile <| inSection "sockets" c.socketsLines <|
    inSection "limits" c.limitsLines .nil

def keepAliveLines : Outline ServerEntry :=
  settingLine "enabled" (boolText c.keepAliveEnabled) <|
    settingLine "timeout" (decimalInt c.keepAliveTimeoutSec) <|
    settingLine "maxRequests" (decimalInt c.keepAliveMaxRequests) .nil

def buffersLines : Outline ServerEntry :=
  settingLine "requestHeader" (decimal c.requestHeaderBuffer) <|
    settingLine "response" (decimal c.responseBuffer) .nil

def staticFilesLines : Outline ServerEntry :=
  settingLine "sendfile" (boolText c.sendfileEnabled) <|
    settingLine "readAhead" (boolText c.readAheadEnabled) .nil

def openFileCacheLines : Outline ServerEntry :=
  settingLine "enabled" (boolText c.openFileCacheEnabled) <|
    settingLine "max" (decimal c.openFileCacheMax) .nil

def performanceLines : Outline ServerEntry :=
  settingLine "workers" (if c.workersAuto then ascii "auto" else decimalInt c.workers) <|
    settingLine "maxConnections" (decimal c.maxConnections) <|
    inSection "keepAlive" c.keepAliveLines <| inSection "buffers" c.buffersLines <|
    inSection "staticFiles" c.staticFilesLines <|
    inSection "openFileCache" c.openFileCacheLines .nil

def chrootLines : Outline ServerEntry :=
  settingLine "enabled" (boolText c.chrootEnabled) <| settingLine "path" c.chrootPath .nil

def securityLines : Outline ServerEntry :=
  settingLine "hideVersion" (boolText c.hideVersion) <|
    settingLine "dropPrivileges" (boolText c.dropPrivileges) <|
    settingLine "preventCoreDumps" (boolText c.preventCoreDumps) <|
    inSection "chroot" c.chrootLines .nil

/-- The lines for one of the two logs. -/
def logLines (log : ParsedLog) : Outline ServerEntry :=
  settingLine "enabled" (boolText log.enabled) <| settingLine "path" log.path .nil

def loggingLines : Outline ServerEntry :=
  settingLine "level" c.loggingLevel <| settingLine "format" c.loggingFormat <|
    inSection "access" (logLines c.accessLog) <| inSection "error" (logLines c.errorLog) .nil

def listenLines : Outline ServerEntry :=
  settingLine "ip" c.benchmarksIp <| settingLine "port" (decimal c.benchmarksPort.toNat) .nil

def benchmarksLines : Outline ServerEntry :=
  settingLine "enabled" (boolText c.benchmarksEnabled) <| inSection "listen" c.listenLines <|
    inSection "storage" (settingLine "path" c.benchmarksStoragePath .nil) .nil

/-- `server.yml` with these settings. -/
def outline : Outline ServerEntry :=
  inSection "server" (settingLine "name" c.name <| settingLine "environment" c.environment <|
    inSection "linux" c.linuxLines <| inSection "performance" c.performanceLines <|
    inSection "security" c.securityLines <| inSection "logging" c.loggingLines <|
    inSection "benchmarks" c.benchmarksLines <|
    inSection "config" (settingLine "sitesFile" c.sitesFile .nil) .nil) .nil

/-- The texts, with the sizes of their fields. -/
def texts : List (ℕ × Bytes) :=
  [(64, c.name), (64, c.environment), (64, c.linuxUser), (64, c.linuxGroup), (256, c.pidFile),
    (32, c.loggingLevel), (32, c.loggingFormat), (512, c.accessLog.path), (512, c.errorLog.path),
    (64, c.benchmarksIp), (512, c.benchmarksStoragePath), (512, c.sitesFile)]

/-- Every setting has a value that a line can give it. -/
structure Writable : Prop where
  texts : ∀ t ∈ c.texts, TextFits t.1 t.2
  chrootPath : Settable c.chrootPath ∧ c.chrootPath.length < 512
  ints : ∀ x ∈ [c.backlog, c.workers, c.keepAliveMaxRequests], -2 ^ 31 ≤ x ∧ x < 2 ^ 31
  sizes : ∀ n ∈ [c.openFiles, c.maxProcesses, c.maxConnections, c.requestHeaderBuffer,
    c.responseBuffer], n < 2 ^ 64
  timeout : 0 ≤ c.keepAliveTimeoutSec ∧ c.keepAliveTimeoutSec ≤ 24855
  cache : c.openFileCacheMax ≤ openFileCacheLimit
  port : c.benchmarksPort ≠ 0
  workers : c.workersAuto = true → c.workers = 1

end ParsedServer

section

variable {c : ParsedServer} (h : c.Writable)
include h

theorem sets_sockets (d : ParsedServer) :
    Sets (sectionPath ["server", "linux", "sockets"]) c.socketsLines d
      { d with reusePort := c.reusePort, tcpFastOpen := c.tcpFastOpen, backlog := c.backlog } := by
  have hbacklog := h.ints c.backlog (by simp)
  refine Sets.bool rfl rfl ?_
  refine Sets.bool rfl rfl ?_
  refine Sets.int rfl rfl hbacklog (Sets.done ?_)
  dsimp only
  rw [toInt_parseLong hbacklog]

theorem sets_limits (d : ParsedServer) :
    Sets (sectionPath ["server", "linux", "limits"]) c.limitsLines d
      { d with openFiles := c.openFiles, maxProcesses := c.maxProcesses } := by
  have hfiles := h.sizes c.openFiles (by simp)
  have hprocesses := h.sizes c.maxProcesses (by simp)
  refine Sets.size rfl rfl hfiles ?_
  refine Sets.size rfl rfl hprocesses (Sets.done ?_)
  dsimp only
  rw [parseSize_decimal hfiles, parseSize_decimal hprocesses]

theorem sets_linux (d : ParsedServer) :
    Sets (sectionPath ["server", "linux"]) c.linuxLines d
      { d with
        linuxUser := c.linuxUser
        linuxGroup := c.linuxGroup
        pidFile := c.pidFile
        reusePort := c.reusePort
        tcpFastOpen := c.tcpFastOpen
        backlog := c.backlog
        openFiles := c.openFiles
        maxProcesses := c.maxProcesses } := by
  refine Sets.text rfl rfl (h.texts (64, _) (by simp [ParsedServer.texts])) ?_
  refine Sets.text rfl rfl (h.texts (64, _) (by simp [ParsedServer.texts])) ?_
  refine Sets.text rfl rfl (h.texts (256, _) (by simp [ParsedServer.texts])) ?_
  refine Sets.inside (by decide) (sets_sockets h _) ?_
  exact Sets.inside (by decide) (sets_limits h _) (Sets.nil _)

theorem sets_keepAlive (d : ParsedServer) :
    Sets (sectionPath ["server", "performance", "keepAlive"]) c.keepAliveLines d
      { d with
        keepAliveEnabled := c.keepAliveEnabled
        keepAliveTimeoutSec := c.keepAliveTimeoutSec
        keepAliveMaxRequests := c.keepAliveMaxRequests } := by
  have htimeout := h.timeout
  have hrequests := h.ints c.keepAliveMaxRequests (by simp)
  refine Sets.bool rfl rfl ?_
  refine Sets.int rfl rfl (by omega) ?_
  refine Sets.int rfl rfl hrequests (Sets.done ?_)
  dsimp only
  rw [parseDurationSec_decimalInt htimeout, toInt_parseLong hrequests]

theorem sets_buffers (d : ParsedServer) :
    Sets (sectionPath ["server", "performance", "buffers"]) c.buffersLines d
      { d with
        requestHeaderBuffer := c.requestHeaderBuffer
        responseBuffer := c.responseBuffer } := by
  have hrequest := h.sizes c.requestHeaderBuffer (by simp)
  have hresponse := h.sizes c.responseBuffer (by simp)
  refine Sets.size rfl rfl hrequest ?_
  refine Sets.size rfl rfl hresponse (Sets.done ?_)
  dsimp only
  rw [parseSize_decimal hrequest, parseSize_decimal hresponse]

theorem sets_openFileCache (d : ParsedServer) :
    Sets (sectionPath ["server", "performance", "openFileCache"]) c.openFileCacheLines d
      { d with
        openFileCacheEnabled := c.openFileCacheEnabled
        openFileCacheMax := c.openFileCacheMax } := by
  have hcache := h.cache
  have hmax : c.openFileCacheMax < 2 ^ 64 := by
    unfold openFileCacheLimit at hcache
    omega
  refine Sets.bool rfl rfl ?_
  refine Sets.size rfl rfl hmax (Sets.done ?_)
  dsimp only
  rw [parseSize_decimal hmax, min_eq_right hcache]

theorem putWorkers_written (d : ParsedServer) (hd : d.workers = 1) :
    putWorkers d (if c.workersAuto then ascii "auto" else decimalInt c.workers) =
      { d with workersAuto := c.workersAuto, workers := c.workers } := by
  unfold putWorkers
  cases hauto : c.workersAuto with
  | true =>
      have hword : streqCi (ascii "auto") (ascii "auto") = true := by decide
      rw [if_pos rfl, if_pos hword, h.workers hauto, ← hd]
  | false =>
      have hint := h.ints c.workers (by simp)
      have hword : ¬ streqCi (decimalInt c.workers) (ascii "auto") = true := by
        intro hsame
        have hhead : (decimalInt c.workers).head?.map tolower = some 97 := by
          rw [← List.head?_map, streqCi_iff.mp hsame]
          rfl
        obtain ⟨ch, hch, hlower⟩ := Option.map_eq_some_iff.mp hhead
        rcases List.mem_cons.mp (mem_decimalInt (List.mem_of_head? hch)) with rfl | hdigit
        · exact absurd hlower (by decide)
        · exact tolower_ne_of_mem_decimal hdigit hlower
      rw [if_neg Bool.false_ne_true, if_neg hword, toInt_parseLong hint]

theorem sets_performance (d : ParsedServer) (hd : d.workers = 1) :
    Sets (sectionPath ["server", "performance"]) c.performanceLines d
      { d with
        workersAuto := c.workersAuto
        workers := c.workers
        maxConnections := c.maxConnections
        keepAliveEnabled := c.keepAliveEnabled
        keepAliveTimeoutSec := c.keepAliveTimeoutSec
        keepAliveMaxRequests := c.keepAliveMaxRequests
        requestHeaderBuffer := c.requestHeaderBuffer
        responseBuffer := c.responseBuffer
        sendfileEnabled := c.sendfileEnabled
        readAheadEnabled := c.readAheadEnabled
        openFileCacheEnabled := c.openFileCacheEnabled
        openFileCacheMax := c.openFileCacheMax } := by
  have hconnections := h.sizes c.maxConnections (by simp)
  have hworkers := h.ints c.workers (by simp)
  have hvalue : (if c.workersAuto then ascii "auto" else decimalInt c.workers) ≠ [] ∧
      Settable (if c.workersAuto then ascii "auto" else decimalInt c.workers) := by
    split_ifs
    · exact ⟨by decide, settable_of_visible (by decide +kernel) (by decide)⟩
    · exact ⟨decimalInt_ne_nil _, settable_decimalInt hworkers⟩
  refine Sets.number rfl rfl hvalue.1 hvalue.2 ?_
  rw [putWorkers_written h d hd]
  refine Sets.size rfl rfl hconnections ?_
  dsimp only
  rw [parseSize_decimal hconnections]
  refine Sets.inside (by decide) (sets_keepAlive h _) ?_
  refine Sets.inside (by decide) (sets_buffers h _) ?_
  refine Sets.inside (by decide) (Sets.bool rfl rfl (Sets.bool rfl rfl (Sets.nil _))) ?_
  exact Sets.inside (by decide) (sets_openFileCache h _) (Sets.nil _)

theorem sets_security (d : ParsedServer) (hd : d.chrootPath = []) :
    Sets (sectionPath ["server", "security"]) c.securityLines d
      { d with
        hideVersion := c.hideVersion
        dropPrivileges := c.dropPrivileges
        preventCoreDumps := c.preventCoreDumps
        chrootEnabled := c.chrootEnabled
        chrootPath := c.chrootPath } := by
  refine Sets.bool rfl rfl ?_
  refine Sets.bool rfl rfl ?_
  refine Sets.bool rfl rfl ?_
  refine Sets.inside (by decide) (Sets.bool rfl rfl ?_) (Sets.nil _)
  by_cases hnil : c.chrootPath = []
  · -- a line without a value says nothing
    have hkey : ascii "path" ∈ settingKeys (sectionPath ["server", "security", "chroot"]) := by
      decide
    refine Sets.setting ⟨hkey, h.chrootPath.1⟩ (if_pos hnil) (Sets.done ?_)
    rw [hnil, ← hd]
  · exact Sets.text rfl rfl ⟨hnil, h.chrootPath.1, h.chrootPath.2⟩ (Sets.nil _)

theorem sets_logging (d : ParsedServer) :
    Sets (sectionPath ["server", "logging"]) c.loggingLines d
      { d with
        loggingLevel := c.loggingLevel
        loggingFormat := c.loggingFormat
        accessLog := c.accessLog
        errorLog := c.errorLog } := by
  refine Sets.text rfl rfl (h.texts (32, _) (by simp [ParsedServer.texts])) ?_
  refine Sets.text rfl rfl (h.texts (32, _) (by simp [ParsedServer.texts])) ?_
  refine Sets.inside (by decide) (Sets.bool rfl rfl
    (Sets.text rfl rfl (h.texts (512, _) (by simp [ParsedServer.texts])) (Sets.nil _))) ?_
  exact Sets.inside (by decide) (Sets.bool rfl rfl
    (Sets.text rfl rfl (h.texts (512, _) (by simp [ParsedServer.texts])) (Sets.nil _))) (Sets.nil _)

theorem sets_benchmarks (d : ParsedServer) :
    Sets (sectionPath ["server", "benchmarks"]) c.benchmarksLines d
      { d with
        benchmarksEnabled := c.benchmarksEnabled
        benchmarksIp := c.benchmarksIp
        benchmarksPort := c.benchmarksPort
        benchmarksStoragePath := c.benchmarksStoragePath } := by
  refine Sets.bool rfl rfl ?_
  refine Sets.inside (by decide)
    (Sets.text rfl rfl (h.texts (64, _) (by simp [ParsedServer.texts]))
      (Sets.port rfl rfl h.port (Sets.nil _))) ?_
  exact Sets.inside (by decide)
    (Sets.text rfl rfl (h.texts (512, _) (by simp [ParsedServer.texts])) (Sets.nil _)) (Sets.nil _)

/-- The whole file. -/
theorem sets_outline : Sets [] c.outline {} c := by
  refine Sets.inside (by decide) ?_ (Sets.nil _)
  refine Sets.text rfl rfl (h.texts (64, _) (by simp [ParsedServer.texts])) ?_
  refine Sets.text rfl rfl (h.texts (64, _) (by simp [ParsedServer.texts])) ?_
  refine Sets.inside (by decide) (sets_linux h _) ?_
  refine Sets.inside (by decide) (sets_performance h _ rfl) ?_
  refine Sets.inside (by decide) (sets_security h _ rfl) ?_
  refine Sets.inside (by decide) (sets_logging h _) ?_
  refine Sets.inside (by decide) (sets_benchmarks h _) ?_
  exact Sets.inside (by decide)
    (Sets.text rfl rfl (h.texts (512, _) (by simp [ParsedServer.texts])) (Sets.nil _)) (Sets.nil _)

end

/-- **What is written is read back**, and what the server runs with: the settings of the process are
those that were written, and the sites come from the file that they name, unless another is asked
for. -/
theorem server_round_trip {c : ParsedServer} (h : c.Writable) (path : Bytes) :
    parseServerFile path (.ok (outlineText c.outline)) = .ok c ∧
      ∀ (dirs : Directories) (files : Bytes → Except Bytes Bytes) (sitesPath : Option Bytes),
        files path = .ok (outlineText c.outline) →
          configLoadFiles dirs files (some path) sitesPath =
            (configLoad dirs (.ok c.settings) (sitesPath.getD c.sitesFile)
              (files (sitesPath.getD c.sitesFile))).map fun loaded => (c, loaded) := by
  have hread := (sets_outline h).parseServerFile_eq path
  refine ⟨hread, fun dirs files sitesPath hfile => ?_⟩
  unfold configLoadFiles
  dsimp only [Option.getD_some]
  rw [hfile, hread]
  rfl

/-- A server with settings of its own. -/
def edgeServer : ParsedServer :=
  { name := ascii "edge", workersAuto := false, workers := 4, backlog := 128,
    keepAliveTimeoutSec := 5, chrootEnabled := true, chrootPath := ascii "/srv/www",
    accessLog := ⟨false, ascii "/var/log/rpsiod/none.log"⟩ }

theorem server_round_trip_edge :
    parseServerFile (ascii "server.yml") (.ok (outlineText edgeServer.outline)) = .ok edgeServer := by
  have hbytes : ∀ t ∈ edgeServer.texts, t.2 ≠ [] ∧ (∀ c ∈ t.2, 45 ≤ c) ∧ t.2.length < t.1 ∧
      t.1 < 1023 := by
    decide +kernel
  have hwritable : edgeServer.Writable := by
    refine ⟨fun t ht => ?_, ⟨settable_of_visible (by decide +kernel) (by decide), by decide⟩, by decide,
      by decide, by decide, by decide, by decide, fun hauto => absurd hauto (by decide)⟩
    obtain ⟨hne, hvisible, hfits, hwidth⟩ := hbytes t ht
    exact ⟨hne, settable_of_visible hvisible (by omega), hfits⟩
  exact (server_round_trip hwritable (ascii "server.yml")).1

/-- A file without any settings leaves the defaults, which are those of the checks. -/
example : parseServerFile (ascii "server.yml") (.ok []) = .ok {} ∧
    ({} : ParsedServer).settings = {} := ⟨rfl, rfl⟩

end Rpsiod

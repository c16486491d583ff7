import MarkupLint.Cli.Run
import MarkupLint.Proofs.Discovery
import MarkupLint.Proofs.Selection
import MarkupLint.Proofs.WalkSelection
import MarkupLint.Proofs.Workers

/-!
# The status of a check

A check goes through stages that can fail: the configuration is read and looked over, the rules are
activated, the roots are walked, the files are checked. A rule that is refused does not end the
check but decides its status all the same, before any finding is counted; a root that cannot be
walked counts only if there is a rule to walk it for.

Results:
1. `loadOrFind_of_text`, `loadOrFind_of_unreadable`, `problem?_eq_none_iff`: the configuration.
2. `errors_pos_iff`, `active_iff`, `lint_of_idle`: the rules.
3. `total_pos_iff`: the findings.
4. `status_check`, `status_checkRoots`: the status, stage by stage.
5. `check_code`: the number of the status.
-/

namespace MarkupLint.Cli

open Config Files Lint

/-! ## Definitions -/

/-- The file is text that is no document, or a document of another shape. -/
inductive Malformed (t : FileTree) (p : Path) : Prop
  | notADocument {text : List Char} : textOf? t p = some text → Toml.read? text = none →
      Malformed t p
  | wrongShape {text : List Char} {es : Toml.Entries} : textOf? t p = some text →
      Toml.read? text = some es → ofEntries? es = none → Malformed t p

/-- The file is text that spells the configuration. -/
def Spells (t : FileTree) (p : Path) (c : Config) : Prop :=
  ∃ text es, textOf? t p = some text ∧ Toml.read? text = some es ∧ ofEntries? es = some c

/-- The settings have allowed values. -/
structure IsValid (c : Config) : Prop where
  version : c.version = "1"
  globs : ∀ pattern ∈ c.includes ++ c.excludes, ∃ g, Glob.ofText {} pattern = .ok g

/-- The file spells the configuration, whose settings have allowed values. -/
structure Loads (t : FileTree) (p : Path) (c : Config) : Prop where
  spelt : Spells t p c
  valid : IsValid c

/-- The configuration has the options for the rule, and does not switch it off. -/
def Enables (c : Config) (id : RuleId) (o : RuleOptions) : Prop :=
  c.rules.get? id = some o ∧ o ≠ .switch false

/-- The rule is known and accepts the options. -/
def Accepts (registry : Registry) (id : RuleId) (o : RuleOptions) : Prop :=
  ∃ rule, registry.find? id = some rule ∧ (rule.activate o).outcome = .ok ()

/-- What makes a check fail. -/
inductive Fails (t : FileTree) (p : Path) (roots : List Path) : Prop
  | unreadable : Unreadable t p → Fails t p roots
  | invalid {c : Config} : Spells t p c → ¬IsValid c → Fails t p roots
  | refused {c : Config} {id : RuleId} {o : RuleOptions} {cause : RuleError} : Loads t p c →
      Enables c id o → Refuses Rules.builtinRegistry id o cause → Fails t p roots
  | notWalked {c : Config} {id : RuleId} {o : RuleOptions} {root : Path} : Loads t p c →
      Enables c id o → Accepts Rules.builtinRegistry id o → root ∈ roots →
      ¬Walks t c.includes c.excludes root → Fails t p roots

/-- Something is found in one of the files that are discovered and can be read. -/
def Finds (t : FileTree) (p : Path) (roots : List Path) : Prop :=
  ∃ c files q text, Loads t p c ∧ discover t c.includes c.excludes roots = .ok files ∧
    q ∈ files ∧ textOf? t q = some text ∧
    (Linter.ofTable Rules.builtinRegistry c.rules).lint text ≠ []

variable {t : FileTree} {p : Path} {c : Config} {config : Option Path} {roots : List Path}

/-! ## 1. The configuration -/

theorem load_of_text {text : List Char} (h : textOf? t p = some text) : load t p = parse text := by
  unfold textOf? at h
  unfold load
  cases hr : t.readText p with
  | error e =>
    rw [hr] at h
    cases h
  | ok s =>
    rw [hr] at h
    obtain rfl : s = text := Option.some.inj h
    rfl

theorem load_of_unreadable (h : Unreadable t p) :
    ∃ problem, load t p = .error (.unreadable problem) := by
  have hn := textOf?_eq_none_iff.mpr h
  unfold textOf? at hn
  unfold load
  cases hr : t.readText p with
  | error e => exact ⟨_, rfl⟩
  | ok s =>
    rw [hr] at hn
    cases hn

/-- A text in the place of the configuration is parsed. -/
theorem loadOrFind_of_text {text : List Char}
    (h : textOf? t (config.getD filePath) = some text) : loadOrFind t config = parse text := by
  cases config with
  | some p => exact load_of_text h
  | none =>
    obtain ⟨s, hs, -⟩ := textOf?_eq_some_iff.mp h
    have hc : t.contains filePath = true := by
      rw [FileTree.contains, show t.spot filePath = .ok s from hs]
      rfl
    rw [loadOrFind, if_pos hc]
    exact load_of_text h

/-- It makes no difference to the kind of error whether the file is looked for or named. -/
theorem loadOrFind_of_unreadable (h : Unreadable t (config.getD filePath)) :
    ∃ problem, loadOrFind t config = .error (.unreadable problem) := by
  cases config with
  | some p => exact load_of_unreadable h
  | none =>
    rw [loadOrFind]
    split
    · exact load_of_unreadable h
    · exact ⟨_, rfl⟩

theorem badGlob?_eq_none_iff {use : String} {patterns : List String} :
    badGlob? use patterns = none ↔ ∀ pattern ∈ patterns, ∃ g, Glob.ofText {} pattern = .ok g := by
  rw [badGlob?, List.findSome?_eq_none_iff]
  refine forall₂_congr fun pattern _ => ?_
  cases Glob.ofText {} pattern <;> simp

theorem problem?_eq_none_iff : problem? c = none ↔ IsValid c := by
  unfold problem?
  split
  · next hv =>
    rw [Option.orElse_eq_none, badGlob?_eq_none_iff, badGlob?_eq_none_iff, ← List.forall_mem_append]
    exact ⟨fun hg => ⟨hv, hg⟩, IsValid.globs⟩
  · next hv => exact ⟨nofun, fun h => absurd h.version hv⟩

theorem loadOrFind_of_malformed (h : Malformed t (config.getD filePath)) :
    loadOrFind t config = .error .malformed := by
  cases h with
  | notADocument ht hr => rw [loadOrFind_of_text ht, parse, hr, Option.bind_none]
  | wrongShape ht hr he => rw [loadOrFind_of_text ht, parse, hr, Option.bind_some, he]

theorem Spells.exists_parse (h : Spells t (config.getD filePath) c) :
    ∃ text, loadOrFind t config = parse text ∧ (Toml.read? text).bind ofEntries? = some c := by
  obtain ⟨text, es, ht, hr, he⟩ := h
  exact ⟨text, loadOrFind_of_text ht, Option.bind_eq_some_iff.mpr ⟨es, hr, he⟩⟩

theorem loadOrFind_of_loads (h : Loads t (config.getD filePath) c) :
    loadOrFind t config = .ok c := by
  obtain ⟨text, hl, hc⟩ := h.spelt.exists_parse
  rw [hl, parse, hc]
  simp only [problem?_eq_none_iff.mpr h.valid]

theorem loadOrFind_of_invalid (h : Spells t (config.getD filePath) c) (hv : ¬IsValid c) :
    ∃ problem, loadOrFind t config = .error (.invalid problem) := by
  obtain ⟨text, hl, hc⟩ := h.exists_parse
  obtain ⟨problem, hp⟩ := Option.ne_none_iff_exists'.mp fun hp => hv (problem?_eq_none_iff.mp hp)
  refine ⟨problem, ?_⟩
  rw [hl, parse, hc]
  simp only [hp]

/-- A file that is neither malformed nor unreadable spells a configuration. -/
theorem exists_spells (hm : ¬Malformed t p) (hu : ¬Unreadable t p) : ∃ c, Spells t p c := by
  cases ht : textOf? t p with
  | none => exact absurd (textOf?_eq_none_iff.mp ht) hu
  | some text =>
    cases hr : Toml.read? text with
    | none => exact absurd (.notADocument ht hr) hm
    | some es =>
      cases he : ofEntries? es with
      | none => exact absurd (.wrongShape ht hr he) hm
      | some c => exact ⟨c, text, es, ht, hr, he⟩

/-! ## 2. The rules -/

variable {registry : Registry}

/-- There is an error exactly if an enabled rule is refused. -/
theorem errors_pos_iff : 0 < (Linter.ofTable registry c.rules).activationErrors.length ↔
    ∃ id o cause, Enables c id o ∧ Refuses registry id o cause := by
  rw [List.length_pos_iff_exists_mem]
  constructor
  · rintro ⟨e, he⟩
    obtain ⟨o, ho, hr⟩ := mem_errors_iff.mp he
    exact ⟨e.rule, o, e.cause, ho, hr⟩
  · rintro ⟨id, o, cause, ho, hr⟩
    exact ⟨⟨id, cause⟩, mem_errors_iff.mpr ⟨o, ho, hr⟩⟩

theorem activeRule?_isSome_iff {id : RuleId} {o : RuleOptions} :
    (activeRule? registry (id, o)).isSome = true ↔ Accepts registry id o := by
  rw [Option.isSome_iff_exists]
  constructor
  · rintro ⟨a, ha⟩
    obtain ⟨he, hf, hok⟩ := activeRule?_eq_some_iff.mp ha
    obtain ⟨rfl, rfl⟩ := Prod.mk.inj he
    exact ⟨a.rule, hf, hok⟩
  · rintro ⟨rule, hf, hok⟩
    exact ⟨⟨id, rule, o⟩, activeRule?_eq_some_iff.mpr ⟨rfl, hf, hok⟩⟩

/-- There is an active rule exactly if an enabled rule accepts its options. -/
theorem active_iff : (Linter.ofTable registry c.rules).activeRules.isEmpty = false ↔
    ∃ id o, Enables c id o ∧ Accepts registry id o := by
  rw [List.isEmpty_eq_false_iff_exists_mem]
  refine exists_congr fun id => ?_
  rw [mem_active_iff]
  exact exists_congr fun o => and_congr_right fun _ => activeRule?_isSome_iff

/-- Without active rules nothing is found. -/
theorem lint_of_idle (h : (Linter.ofTable registry c.rules).activeRules.isEmpty = true)
    (text : List Char) : (Linter.ofTable registry c.rules).lint text = [] := by
  have hn : ∀ entry ∈ c.rules.enabled, activeRule? registry entry = none := by
    rintro ⟨id, o⟩ he
    cases ha : activeRule? registry (id, o) with
    | none => rfl
    | some a =>
      have hs : (activeRule? registry (id, o)).isSome = true := by
        rw [ha]
        rfl
      have hi := active_iff.mpr
        ⟨id, o, RuleTable.mem_enabled_iff.mp he, activeRule?_isSome_iff.mp hs⟩
      rw [h] at hi
      cases hi
  rw [lint_entries, List.flatMap_eq_nil_iff]
  intro e _
  rw [List.flatMap_eq_nil_iff]
  intro entry he
  rw [entryFindings, hn entry he]
  rfl

/-! ## 3. Roots and findings -/

/-- The patterns of valid settings are read before a walk as well. -/
theorem exists_ofPatterns (h : IsValid c) :
    ∃ s, Selection.ofPatterns c.includes c.excludes = .ok s :=
  exists_ofPatterns_iff.mpr h.globs

/-- There are findings exactly if something is found in a file that can be read. -/
theorem total_pos_iff {l : Linter} {files : List Path} : 0 < (execute t l files).total ↔
    ∃ q text, q ∈ files ∧ textOf? t q = some text ∧ l.lint text ≠ [] := by
  rw [Report.total, findings_execute, List.length_pos_iff_exists_mem]
  constructor
  · rintro ⟨f, hf⟩
    obtain ⟨q, hq, hd⟩ := List.mem_flatMap.mp hf
    obtain ⟨d, hd, -⟩ := List.mem_map.mp hd
    cases ht : textOf? t q with
    | none =>
      rw [ht] at hd
      cases hd
    | some text =>
      rw [ht] at hd
      exact ⟨q, text, hq, ht, List.ne_nil_of_mem hd⟩
  · rintro ⟨q, text, hq, ht, hl⟩
    obtain ⟨d, hd⟩ := List.exists_mem_of_ne_nil _ hl
    refine ⟨(q, d), List.mem_flatMap.mpr ⟨q, hq, List.mem_map.mpr ⟨d, ?_, rfl⟩⟩⟩
    rw [ht]
    exact hd

/-! ## 4. The status -/

theorem status_checkRoots (t : FileTree) (l : Linter) (c : Config) (format : OutputFormat)
    (colored : Bool) (roots : List Path) :
    (checkRoots t l c format colored roots).status =
      if l.activeRules.isEmpty then statusOf l.activationErrors.length 0
      else
        match discover t c.includes c.excludes roots with
        | .error _ => .failure
        | .ok files => statusOf l.activationErrors.length (execute t l files).total := by
  unfold checkRoots
  split
  · rfl
  · split
    · next h => rw [h]
    · next h =>
      rw [h]
      rfl
    · next h =>
      rw [h]
      rfl

theorem status_check (t : FileTree) (s : Surroundings) (color : Option ColorChoice)
    (roots : List Path) (format : Option OutputFormat) (config : Option Path) :
    (check t s color roots format config).status =
      match loadOrFind t config with
      | .error e => .ofConfigError e
      | .ok c =>
        let l := Linter.ofTable Rules.builtinRegistry c.rules
        let colored := usesColor s (color.getD c.color)
        (checkRoots t l c (format.getD c.format) colored roots).status := by
  unfold check
  cases loadOrFind t config <;> rfl

/-! ## 5. The number of the status -/

theorem Spells.unique {c' : Config} (h : Spells t p c) (h' : Spells t p c') : c = c' := by
  obtain ⟨text, es, ht, hr, he⟩ := h
  obtain ⟨text', es', ht', hr', he'⟩ := h'
  obtain rfl := Option.some.inj (ht.symm.trans ht')
  obtain rfl := Option.some.inj (hr.symm.trans hr')
  exact Option.some.inj (he.symm.trans he')

/-- What is found is what the report counts. -/
theorem finds_iff (hl : Loads t p c) {files : List Path}
    (hd : discover t c.includes c.excludes roots = .ok files) :
    Finds t p roots ↔
      0 < (execute t (Linter.ofTable Rules.builtinRegistry c.rules) files).total := by
  rw [total_pos_iff]
  constructor
  · rintro ⟨c', files', q, text, hl', hd', hq, ht, hn⟩
    obtain rfl := hl.spelt.unique hl'.spelt
    obtain rfl := Except.ok.inj (hd.symm.trans hd')
    exact ⟨q, text, hq, ht, hn⟩
  · rintro ⟨q, text, hq, ht, hn⟩
    exact ⟨c, files, q, text, hl, hd, hq, ht, hn⟩

theorem not_finds_of_idle (hl : Loads t p c)
    (h : (Linter.ofTable Rules.builtinRegistry c.rules).activeRules.isEmpty = true) :
    ¬Finds t p roots := by
  rintro ⟨c', files, q, text, hl', -, -, -, hn⟩
  obtain rfl := hl.spelt.unique hl'.spelt
  exact hn (lint_of_idle h text)

theorem statusOf_pos {m : Nat} (h : 0 < m) (n : Nat) : statusOf m n = .failure := if_pos h

theorem code_statusOf_zero (n : Nat) : (statusOf 0 n).code = if 0 < n then 1 else 0 := by
  rw [statusOf, if_neg (Nat.lt_irrefl 0)]
  split <;> rfl

section

variable (s : Surroundings) (color : Option ColorChoice) (format : Option OutputFormat)

theorem code_of_malformed (h : Malformed t (config.getD filePath)) :
    (check t s color roots format config).status.code = 3 := by
  rw [status_check, loadOrFind_of_malformed h]
  rfl

theorem code_of_fails (h : Fails t (config.getD filePath) roots) :
    (check t s color roots format config).status.code = 2 := by
  rw [status_check]
  cases h with
  | unreadable hu =>
    obtain ⟨problem, h⟩ := loadOrFind_of_unreadable hu
    rw [h]
    rfl
  | invalid hs hv =>
    obtain ⟨problem, h⟩ := loadOrFind_of_invalid hs hv
    rw [h]
    rfl
  | refused hl ho hr =>
    have he := errors_pos_iff.mpr ⟨_, _, _, ho, hr⟩
    rw [loadOrFind_of_loads hl]
    dsimp only
    rw [status_checkRoots]
    split
    · rw [statusOf_pos he]
      rfl
    · split
      · rfl
      · rw [statusOf_pos he]
        rfl
  | @notWalked c id o root hl ho ha hroot hw =>
    have hi := active_iff.mpr ⟨_, _, ho, ha⟩
    rw [loadOrFind_of_loads hl]
    dsimp only
    rw [status_checkRoots, hi]
    cases hd : discover t c.includes c.excludes roots with
    | error e => rfl
    | ok files => exact absurd (exists_discover_iff.mp ⟨files, hd⟩ root hroot) hw

/-- A check that does not fail is decided by what is found. -/
theorem code_of_not_fails (hm : ¬Malformed t (config.getD filePath))
    (hf : ¬Fails t (config.getD filePath) roots) :
    (Finds t (config.getD filePath) roots →
      (check t s color roots format config).status.code = 1) ∧
    (¬Finds t (config.getD filePath) roots →
      (check t s color roots format config).status.code = 0) := by
  obtain ⟨c, hs⟩ := exists_spells hm fun hu => hf (.unreadable hu)
  have hl : Loads t (config.getD filePath) c := ⟨hs, by_contra fun hv => hf (.invalid hs hv)⟩
  have he : (Linter.ofTable Rules.builtinRegistry c.rules).activationErrors.length = 0 := by
    refine Nat.eq_zero_of_not_pos fun h => ?_
    obtain ⟨id, o, cause, ho, hr⟩ := errors_pos_iff.mp h
    exact hf (.refused hl ho hr)
  rw [status_check, loadOrFind_of_loads hl]
  dsimp only
  rw [status_checkRoots, he]
  cases hi : (Linter.ofTable Rules.builtinRegistry c.rules).activeRules.isEmpty with
  | true => exact ⟨fun h => absurd h (not_finds_of_idle hl hi), fun _ => rfl⟩
  | false =>
    obtain ⟨id, o, ho, ha⟩ := active_iff.mp hi
    obtain ⟨files, hd⟩ := exists_discover_iff.mpr fun root hroot =>
      by_contra fun hw => hf (.notWalked hl ho ha hroot hw)
    rw [hd, finds_iff hl hd, if_neg (by decide)]
    dsimp only
    constructor
    · intro h
      rw [code_statusOf_zero, if_pos h]
    · intro h
      rw [code_statusOf_zero, if_neg h]

end

/-- The number of the status of a check. The roots and the path of the configuration are meant
relative to the working folder and not to lead above it; what lies outside counts as missing. -/
theorem check_code (t : FileTree) (s : Surroundings) (color : Option ColorChoice)
    (roots : List Path) (format : Option OutputFormat) (config : Option Path) :
    let code := (check t s color roots format config).status.code
    let p := config.getD filePath
    (code = 3 ↔ Malformed t p) ∧
    (code = 2 ↔ Fails t p roots) ∧
    (code = 1 ↔ ¬Malformed t p ∧ ¬Fails t p roots ∧ Finds t p roots) ∧
    (code = 0 ↔ ¬Malformed t p ∧ ¬Fails t p roots ∧ ¬Finds t p roots) ∧
    ∀ c id o cause, Loads t p c → Enables c id o → Refuses Rules.builtinRegistry id o cause →
      code = 2 := by
  intro code p
  have hm : Malformed t p → code = 3 := code_of_malformed s color format
  have hf : Fails t p roots → code = 2 := code_of_fails s color format
  have hn : ¬Malformed t p → ¬Fails t p roots →
      (Finds t p roots → code = 1) ∧ (¬Finds t p roots → code = 0) :=
    code_of_not_fails s color format
  have hx : Malformed t p → ¬Fails t p roots := fun h h' => by
    have := (hm h).symm.trans (hf h')
    contradiction
  refine ⟨?_, ?_, ?_, ?_, fun c id o cause hl ho hr => hf (.refused hl ho hr)⟩
  -- the four cases exclude each other, and each decides the number
  all_goals
    by_cases h₁ : Malformed t p
    · simp [hm h₁, h₁, hx h₁]
    · by_cases h₂ : Fails t p roots
      · simp [hf h₂, h₁, h₂]
      · by_cases h₃ : Finds t p roots
        · simp [(hn h₁ h₂).1 h₃, h₁, h₂, h₃]
        · simp [(hn h₁ h₂).2 h₃, h₁, h₂, h₃]

/-- Settings that enable a rule and, by a slip, one that is not known. -/
def slipText : String := "[marklint]
version = \"1\"
[rules]
tagname-lowercase = true
tagname-lowercas = true
"

def slipConfig : Config := ((Toml.read? slipText.toList).bind ofEntries?).getD {}

/-- A folder with the settings and a page. -/
def slipTree : FileTree :=
  { entries := [(Text.utf8 fileName.toList, .file (Text.utf8 slipText.toList)),
      (Text.utf8 "page.html".toList, .file (Text.utf8 "<DIV>".toList))] }

/-- The unknown rule makes the check fail, although the other rule finds something. -/
theorem check_code_slip :
    (check slipTree {} none [.ofString "."] none none).status.code = 2 ∧
      (Linter.ofTable Rules.builtinRegistry slipConfig.rules).lint "<DIV>".toList ≠ [] := by
  have hs : (Toml.read? slipText.toList).bind ofEntries? = some slipConfig := by
    have hi : ((Toml.read? slipText.toList).bind ofEntries?).isSome = true := by decide +kernel
    obtain ⟨c, hc⟩ := Option.isSome_iff_exists.mp hi
    rw [slipConfig, hc]
    rfl
  have ht : textOf? slipTree filePath = some slipText.toList :=
    textOf?_eq_some_iff.mpr ⟨⟨.file (Text.utf8 slipText.toList), [(slipTree.entries, _)]⟩, rfl, rfl⟩
  have hl : Loads slipTree filePath slipConfig := by
    obtain ⟨es, hr, he⟩ := Option.bind_eq_some_iff.mp hs
    exact ⟨⟨_, es, ht, hr, he⟩, problem?_eq_none_iff.mp (by decide +kernel)⟩
  have ho : Enables slipConfig ⟨"tagname-lowercas", by decide⟩ (.switch true) :=
    ⟨by decide +kernel, by decide⟩
  have hr : Refuses Rules.builtinRegistry ⟨"tagname-lowercas", by decide⟩ (.switch true)
      (.notFound "tagname-lowercas") :=
    .inl ⟨Option.isNone_iff_eq_none.mp (by decide +kernel), rfl⟩
  exact ⟨(check_code slipTree {} none [.ofString "."] none none).2.2.2.2 _ _ _ _ hl ho hr,
    by decide +kernel⟩

end MarkupLint.Cli

import MarkupLint.Proofs.ExitStatus
import MarkupLint.Proofs.JsonLines

/-!
# The summary at the end of a check

A check that reports as JSON lines writes the records of its report, of which the last one sums it
up. But a check for which no rule is enabled, or which comes upon no file, ends before there is a
report: it warns, and writes nothing. So a check that does not fail ends with a summary exactly if
there was something to do, and what it writes is empty otherwise.

Results:
1. `summarised_jsonl`, `not_summarised_nil`: reports, and the empty text.
2. `text_introduced`, `text_checkRoots`, `check_of_loads`: what a check writes, stage by stage.
3. `active_of_enabled`, `length_foundIn`: what there is to do, and what is found.
4. `check_summarised_iff`: when a check ends with a summary, and `check_without_rules_is_silent`.
-/

namespace MarkupLint.Cli

open Config Files Lint Report Text

/-! ## Definitions -/

/-- The text is made of JSON records, one a line, of which the last one and no other is a summary,
with the given total. -/
structure Summarised (out : List Char) (total : Nat) (passed : Prop) : Prop where
  stream : out = (lines out).flatMap (· ++ ['\n'])
  records : ∀ l ∈ lines out, ∃ members, Json.read? l = some (.object members)
  last : ∃ summary, (lines out).getLast?.bind readSummary = some summary ∧
    (summary.passed = true ↔ passed) ∧ summary.total = total
  others : ∀ l ∈ (lines out).dropLast, (readFinding l).isSome = true ∧ readSummary l = none

/-- What is written of something that a command says. -/
def Output.written : Output → List Char
  | .text s => s
  | .line _ => []
  | .note _ => []

/-- What a linter finds in those of the files that can be read. -/
def foundIn (t : FileTree) (l : Linter) (files : List Path) : List Diagnostic :=
  files.flatMap fun q => ((textOf? t q).map l.lint).getD []

/-- How much the enabled rules find in the files that are discovered. -/
def foundBelow (t : FileTree) (c : Config) (roots : List Path) : Nat :=
  match discover t c.includes c.excludes roots with
  | .ok files => (foundIn t (Linter.ofTable Rules.builtinRegistry c.rules) files).length
  | .error _ => 0

/-- A rule is enabled, and a file is discovered. -/
def HasWork (t : FileTree) (c : Config) (roots : List Path) : Prop :=
  (∃ id o, Enables c id o) ∧
    ∃ files, discover t c.includes c.excludes roots = .ok files ∧ files ≠ []

variable {t : FileTree} {c : Config} {l : Linter} {roots files : List Path}

/-! ## 1. Reports -/

/-- The record of a finding is no summary. -/
theorem readSummary_finding (path : List Char) (d : Diagnostic) :
    readSummary (findingRecord path d).encode = none := by
  have hm := member?_members (findingRecord path d)
  rw [readSummary, Json.read?_encode]
  simp only [Option.bind_eq_bind, Option.bind_some, Json.textAt?, hm "type" rfl, JsonValue.toJson]
  rfl

theorem summarised_jsonl (r : Report) : Summarised (jsonl r) r.total (r.total = 0) := by
  have hl := lines_jsonl r
  constructor
  case stream =>
    rw [hl, List.flatMap_map]
    rfl
  case records =>
    intro line hm
    rw [hl] at hm
    obtain ⟨record, -, rfl⟩ := List.mem_map.mp hm
    exact ⟨_, Json.read?_encode record⟩
  case last => exact ⟨_, getLast?_readSummary r, by simp, rfl⟩
  case others =>
    intro line hm
    rw [hl, jsonRecords, List.map_append, List.map_singleton, List.dropLast_concat] at hm
    obtain ⟨record, hr, rfl⟩ := List.mem_map.mp hm
    obtain ⟨f, -, hf⟩ := List.mem_filterMap.mp hr
    obtain ⟨path, -, rfl⟩ := Option.map_eq_some_iff.mp hf
    exact ⟨by rw [readFinding_encode]; rfl, readSummary_finding path f.2⟩

theorem not_summarised_nil {total : Nat} {passed : Prop} : ¬Summarised [] total passed := by
  intro h
  obtain ⟨summary, hs, -⟩ := h.last
  cases hs

/-! ## 2. What a check writes -/

theorem text_eq (o : Outcome) : o.text = o.outputs.flatMap Output.written := by
  rw [Outcome.text]
  congr 1
  funext out
  cases out <;> rfl

/-- Nothing that is said of the rules is written. -/
theorem text_introduced (o : Outcome) :
    Outcome.text { o with outputs := introduction l ++ o.outputs } = o.text := by
  have hn : (introduction l).flatMap Output.written = [] := by
    rw [List.flatMap_eq_nil_iff]
    intro out hm
    rcases List.mem_append.mp hm with hm | hm
    · obtain ⟨r, -, rfl⟩ := List.mem_map.mp hm
      rfl
    · obtain ⟨e, -, rfl⟩ := List.mem_map.mp hm
      rfl
  rw [text_eq, text_eq, List.flatMap_append, hn, List.nil_append]

theorem text_checkFiles (t : FileTree) (l : Linter) (colored : Bool) (files : List Path) :
    (checkFiles t l .jsonl colored files).text = jsonl (execute t l files) := by
  have hn : ((outcomes t l files).map fun o => Output.note o.note).flatMap Output.written = [] := by
    rw [List.flatMap_eq_nil_iff]
    intro out hm
    obtain ⟨o, -, rfl⟩ := List.mem_map.mp hm
    rfl
  unfold checkFiles
  dsimp only
  rw [text_eq, List.nil_append, List.flatMap_append, hn, List.nil_append, List.flatMap_singleton]
  rfl

theorem text_checkRoots (t : FileTree) (l : Linter) (c : Config) (colored : Bool)
    (roots : List Path) :
    (checkRoots t l c .jsonl colored roots).text =
      if l.activeRules.isEmpty then []
      else
        match discover t c.includes c.excludes roots with
        | .error _ => []
        | .ok [] => []
        | .ok files => jsonl (execute t l files) := by
  unfold checkRoots
  split
  · rfl
  · cases discover t c.includes c.excludes roots with
    | error e => rfl
    | ok files =>
      cases files with
      | nil => rfl
      | cons file files => exact text_checkFiles t l colored (file :: files)

/-- A check that reports as JSON lines, after its settings are loaded. -/
theorem check_of_loads {config : Option Path} {format : Option OutputFormat} (s : Surroundings)
    (color : Option ColorChoice) (roots : List Path) (hl : Loads t (config.getD filePath) c)
    (hf : format.getD c.format = .jsonl) :
    ∃ colored, let l := Linter.ofTable Rules.builtinRegistry c.rules
      let o := checkRoots t l c .jsonl colored roots
      (check t s color roots format config).text = o.text ∧
        (check t s color roots format config).status = o.status := by
  refine ⟨usesColor s (color.getD c.color), ?_⟩
  rw [check, loadOrFind_of_loads hl]
  dsimp only
  rw [hf]
  exact ⟨text_introduced _, rfl⟩

/-! ## 3. What there is to do, and what is found -/

theorem accepts_or_refuses (registry : Registry) (id : RuleId) (o : RuleOptions) :
    Accepts registry id o ∨ ∃ cause, Refuses registry id o cause := by
  have he := activationError?_isSome registry (id, o)
  cases ha : (activeRule? registry (id, o)).isSome with
  | true => exact .inl (activeRule?_isSome_iff.mp ha)
  | false =>
    rw [ha] at he
    obtain ⟨e, he⟩ := Option.isSome_iff_exists.mp he
    exact .inr ⟨e.cause, (activationError?_eq_some_iff.mp he).2⟩

theorem length_foundIn (t : FileTree) (l : Linter) (files : List Path) :
    (foundIn t l files).length = (execute t l files).total := by
  rw [Report.total, findings_execute, foundIn, List.length_flatMap, List.length_flatMap]
  simp only [List.length_map]

theorem foundIn_of_idle
    (h : (Linter.ofTable Rules.builtinRegistry c.rules).activeRules.isEmpty = true)
    (files : List Path) : foundIn t (Linter.ofTable Rules.builtinRegistry c.rules) files = [] := by
  rw [foundIn, List.flatMap_eq_nil_iff]
  intro q _
  cases textOf? t q with
  | none => rfl
  | some text => exact lint_of_idle h text

section

variable {p : Path}

/-- Where nothing makes a check fail, no rule is refused, -/
theorem errors_of_not_fails (hl : Loads t p c) (hn : ¬Fails t p roots) :
    (Linter.ofTable Rules.builtinRegistry c.rules).activationErrors.length = 0 := by
  refine Nat.eq_zero_of_not_pos fun h => ?_
  obtain ⟨id, o, cause, ho, hr⟩ := errors_pos_iff.mp h
  exact hn (.refused hl ho hr)

/-- so that every enabled rule is active. -/
theorem active_of_enabled (hl : Loads t p c) (hn : ¬Fails t p roots) :
    (Linter.ofTable Rules.builtinRegistry c.rules).activeRules.isEmpty = false ↔
      ∃ id o, Enables c id o := by
  rw [active_iff]
  constructor
  · rintro ⟨id, o, ho, -⟩
    exact ⟨id, o, ho⟩
  · rintro ⟨id, o, ho⟩
    rcases accepts_or_refuses Rules.builtinRegistry id o with ha | ⟨cause, hr⟩
    · exact ⟨id, o, ho, ha⟩
    · exact absurd (.refused hl ho hr) hn

/-- Without work, no rule is active or no file is discovered. -/
theorem idle_of_not_hasWork (hl : Loads t p c) (hn : ¬Fails t p roots)
    (hw : ¬HasWork t c roots) :
    (Linter.ofTable Rules.builtinRegistry c.rules).activeRules.isEmpty = true ∨
      discover t c.includes c.excludes roots = .ok [] := by
  cases ha : (Linter.ofTable Rules.builtinRegistry c.rules).activeRules.isEmpty with
  | true => exact .inl rfl
  | false =>
    obtain ⟨id, o, ho, hacc⟩ := active_iff.mp ha
    obtain ⟨files, hd⟩ := exists_discover_iff.mpr fun root hroot =>
      by_contra fun hwalk => hn (.notWalked hl ho hacc hroot hwalk)
    have hnil : files = [] := by_contra fun hne => hw ⟨⟨id, o, ho⟩, files, hd, hne⟩
    exact .inr (hnil ▸ hd)

end

/-! ## 4. When a check ends with a summary -/

section

variable {s : Surroundings} {color : Option ColorChoice} {format : Option OutputFormat}
  {config : Option Path}

theorem summarised_of_hasWork (hl : Loads t (config.getD filePath) c)
    (hn : ¬Fails t (config.getD filePath) roots) (hf : format.getD c.format = .jsonl)
    (hw : HasWork t c roots) :
    let o := check t s color roots format config
    Summarised o.text (foundBelow t c roots) (o.status.code = 0) := by
  obtain ⟨he, files, hd, hne⟩ := hw
  have ha := (active_of_enabled hl hn).mpr he
  have hr := errors_of_not_fails hl hn
  obtain ⟨colored, htext, hstatus⟩ := check_of_loads s color roots hl hf
  dsimp only at htext hstatus ⊢
  obtain ⟨file, files, rfl⟩ := List.exists_cons_of_ne_nil hne
  have hcode (n : Nat) : ((statusOf 0 n).code = 0) = (n = 0) := by
    rw [code_statusOf_zero]
    cases n <;> simp
  rw [htext, hstatus, text_checkRoots, status_checkRoots, ha, hd, hr, foundBelow, hd]
  dsimp only
  rw [length_foundIn, if_neg Bool.false_ne_true, if_neg Bool.false_ne_true, hcode]
  exact summarised_jsonl _

theorem silent_of_not_hasWork (hl : Loads t (config.getD filePath) c)
    (hn : ¬Fails t (config.getD filePath) roots) (hf : format.getD c.format = .jsonl)
    (hw : ¬HasWork t c roots) :
    let o := check t s color roots format config
    o.text = [] ∧ o.status.code = 0 ∧ foundBelow t c roots = 0 := by
  have hr := errors_of_not_fails hl hn
  obtain ⟨colored, htext, hstatus⟩ := check_of_loads s color roots hl hf
  dsimp only at htext hstatus ⊢
  rw [htext, hstatus, text_checkRoots, status_checkRoots, hr, foundBelow]
  rcases idle_of_not_hasWork hl hn hw with ha | hd
  · rw [ha]
    refine ⟨rfl, rfl, ?_⟩
    cases discover t c.includes c.excludes roots with
    | error e => rfl
    | ok files => exact congrArg List.length (foundIn_of_idle ha files)
  · rw [hd]
    refine ⟨?_, ?_, rfl⟩
    · exact ite_self []
    · split <;> rfl

end

/-- A check that does not fail has settings. If it reports as JSON lines, it ends with a summary of
what was found if and only if there was something to do. Without that it writes nothing at all. The
roots and the path of the settings are meant relative to the working folder and not to lead above
it; what lies outside counts as missing. -/
theorem check_summarised_iff (t : FileTree) (s : Surroundings) (color : Option ColorChoice)
    (roots : List Path) (format : Option OutputFormat) (config : Option Path)
    (hcode : (check t s color roots format config).status.code = 0 ∨
      (check t s color roots format config).status.code = 1) :
    let o := check t s color roots format config
    ∃ c, Loads t (config.getD filePath) c ∧ (format.getD c.format = .jsonl →
      (Summarised o.text (foundBelow t c roots) (o.status.code = 0) ↔ HasWork t c roots) ∧
      (¬HasWork t c roots → o.text = [] ∧ o.status.code = 0 ∧ foundBelow t c roots = 0)) := by
  have hm : ¬Malformed t (config.getD filePath) := by
    intro h
    have h3 : (check t s color roots format config).status.code = 3 :=
      code_of_malformed s color format h
    omega
  have hn : ¬Fails t (config.getD filePath) roots := by
    intro h
    have h2 := code_of_fails s color format h
    omega
  obtain ⟨c, hs⟩ := exists_spells hm fun hu => hn (.unreadable hu)
  have hl : Loads t (config.getD filePath) c := ⟨hs, by_contra fun hv => hn (.invalid hs hv)⟩
  refine ⟨c, hl, fun hf => ⟨⟨fun h => ?_, summarised_of_hasWork hl hn hf⟩,
    silent_of_not_hasWork hl hn hf⟩⟩
  by_contra hw
  rw [(silent_of_not_hasWork hl hn hf hw).1] at h
  exact not_summarised_nil h

/-- Settings that enable a rule and ask for JSON lines. -/
def recordsText : String := "[marklint]
version = \"1\"
[rules]
tagname-lowercase = true
[output]
format = \"jsonl\"
"

/-- The configuration that the settings spell. -/
def recordsConfig : Config := ((Toml.read? recordsText.toList).bind ofEntries?).getD {}

/-- A folder with the settings and a page. -/
def recordsTree : FileTree :=
  { entries := [(Text.utf8 fileName.toList, .file (Text.utf8 recordsText.toList)),
      (Text.utf8 "page.html".toList, .file (Text.utf8 "<DIV>".toList))] }

theorem loads_recordsTree : Loads recordsTree filePath recordsConfig := by
  have hi : ((Toml.read? recordsText.toList).bind ofEntries?).isSome = true := by decide +kernel
  obtain ⟨c, hc⟩ := Option.isSome_iff_exists.mp hi
  obtain ⟨es, hr, hs⟩ := Option.bind_eq_some_iff.mp hc
  have hcfg : recordsConfig = c := by rw [recordsConfig, hc]; rfl
  have ht : textOf? recordsTree filePath = some recordsText.toList :=
    textOf?_eq_some_iff.mpr
      ⟨⟨.file (Text.utf8 recordsText.toList), [(recordsTree.entries, _)]⟩, rfl, rfl⟩
  exact ⟨⟨_, es, ht, hr, hcfg ▸ hs⟩, problem?_eq_none_iff.mp (by decide +kernel)⟩

theorem discover_recordsTree :
    discover recordsTree recordsConfig.includes recordsConfig.excludes [.ofString "."] =
      .ok [.ofString "./page.html"] := by
  have hw : (walkRoots recordsTree recordsConfig.includes recordsConfig.excludes
      [.ofString "."]).toOption = some [.ofString "./page.html"] := by decide +kernel
  exact discover_of_ascending hw (List.pairwise_singleton _ _) (by rw [dedup])

/-- A finding makes the summary tell of a check that was not passed. -/
theorem check_summarised_iff_finding :
    let o := check recordsTree {} none [.ofString "."] none none
    o.status.code = 1 ∧ HasWork recordsTree recordsConfig [.ofString "."] ∧
      Summarised o.text 1 (o.status.code = 0) := by
  have hrule : Enables recordsConfig ⟨"tagname-lowercase", by decide⟩ (.switch true) :=
    ⟨by decide +kernel, by decide⟩
  have hw : HasWork recordsTree recordsConfig [.ofString "."] :=
    ⟨⟨_, _, hrule⟩, _, discover_recordsTree, List.cons_ne_nil _ _⟩
  have hfound : foundBelow recordsTree recordsConfig [.ofString "."] = 1 := by
    rw [foundBelow, discover_recordsTree]
    decide +kernel
  have hjsonl : (none : Option OutputFormat).getD recordsConfig.format = .jsonl := by
    decide +kernel
  have hcode : (check recordsTree {} none [.ofString "."] none none).status.code = 1 := by
    have hl : Loads recordsTree ((none : Option Path).getD filePath) recordsConfig :=
      loads_recordsTree
    obtain ⟨colored, -, hstatus⟩ := check_of_loads {} none [.ofString "."] hl hjsonl
    rw [hstatus, status_checkRoots, discover_recordsTree]
    decide +kernel
  obtain ⟨c, hl, h⟩ :=
    check_summarised_iff recordsTree {} none [.ofString "."] none none (.inr hcode)
  obtain rfl := loads_recordsTree.spelt.unique hl.spelt
  have hs := (h hjsonl).1.mpr hw
  rw [hfound] at hs
  exact ⟨hcode, hw, hs⟩

/-- Settings without rules. -/
def idleTree : FileTree :=
  { entries := [(Text.utf8 fileName.toList,
      .file (Text.utf8 "[marklint]\nversion = \"1\"\n".toList))] }

/-- Without rules, a check succeeds and writes nothing. -/
theorem check_without_rules_is_silent :
    let o := check idleTree {} none [.ofString "."] (some .jsonl) none
    o.status.code = 0 ∧ o.text = [] ∧ ∀ total passed, ¬Summarised o.text total passed := by
  have hs : (check idleTree {} none [.ofString "."] (some .jsonl) none).status.code = 0 := by
    decide +kernel
  have ht : (check idleTree {} none [.ofString "."] (some .jsonl) none).text = [] := by
    decide +kernel
  exact ⟨hs, ht, fun total passed h => not_summarised_nil (ht ▸ h)⟩

end MarkupLint.Cli

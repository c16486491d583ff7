import MarkupLint.Proofs.Decoding
import MarkupLint.Proofs.JsonReading
import MarkupLint.Proofs.Lines
import MarkupLint.Report.Jsonl

/-!
# What a report as JSON lines tells

A report is read back line by line: one record for each finding in a file whose path is text, with
all that is said of the finding but the description of its rule, then the summary. Nothing is lost
and nothing runs together, so that reports of which all paths are text and which are written alike
tell the same findings.

Results:
1. `readFinding_encode`, `readSummary_encode`: the two kinds of records.
2. `lines_jsonl`, `map_readFinding`: the lines of a report are its records.
3. `told_eq_of_line`, `map_told_eq`: findings that are written alike.
4. `jsonl_reads`: a report.
-/

namespace MarkupLint.Report

open Lint Text

/-! ## Definitions -/

namespace Json

def textAt? (key : String) (v : Json) : Option (List Char) :=
  match v.member? key with
  | some (text s) => some s
  | _ => none

def naturalAt? (key : String) (v : Json) : Option Nat :=
  match v.member? key with
  | some (number (.ofNat n) 0) => some n
  | _ => none

def truthAt? (key : String) (v : Json) : Option Bool :=
  match v.member? key with
  | some (truth b) => some b
  | _ => none

end Json

/-- The record of a finding, for one who reads it. -/
structure FindingLine where
  rule : List Char
  severity : List Char
  file : List Char
  line : Nat
  column : Nat
  message : List Char
  evidence : List Char

def readFinding (line : List Char) : Option FindingLine := do
  let v ← Json.read? line
  guard (v.textAt? "type" = some "diagnostic".toList)
  return {
    rule := ← v.textAt? "rule"
    severity := ← v.textAt? "severity"
    file := ← v.textAt? "file"
    line := ← v.naturalAt? "line"
    column := ← v.naturalAt? "column"
    message := ← v.textAt? "message"
    evidence := ← v.textAt? "evidence" }

/-- What the record of a finding should tell. -/
def FindingLine.of (path : List Char) (d : Diagnostic) : FindingLine where
  rule := d.rule.id.text.toList
  severity := d.severity.name.toList
  file := path
  line := d.position.line
  column := d.position.column
  message := d.message.toList
  evidence := d.evidence

/-- The record of a finding in a file whose path is text. -/
def lineOf? (f : Path × Diagnostic) : Option FindingLine := f.1.text?.map fun path => .of path f.2

/-- The summary of a report, for one who reads it. -/
structure SummaryLine where
  passed : Bool
  checked : Nat
  unreadable : Nat
  total : Nat

def readSummary (line : List Char) : Option SummaryLine := do
  let v ← Json.read? line
  guard (v.textAt? "type" = some "summary".toList)
  return {
    passed := ← v.truthAt? "passed"
    checked := ← v.naturalAt? "files_checked"
    unreadable := ← v.naturalAt? "files_unreadable"
    total := ← v.naturalAt? "total_diagnostics" }

/-- What the records of a report should tell of its findings, file by file. -/
def findingLines (r : Report) : List FindingLine :=
  r.files.flatMap fun f =>
    match f.path.text? with
    | none => []
    | some path => f.findings.map (.of path)

/-- A finding without the description of its rule. -/
def told (f : Path × Diagnostic) :
    Path × RuleId × Severity × Markup.Position × String × List Char :=
  (f.1, f.2.rule.id, f.2.severity, f.2.position, f.2.message, f.2.evidence)

/-! ## 1. Records -/

/-- A look-up by key finds what the record has under the key. -/
theorem lookup_members (r : JsonRecord) (key : String) :
    r.members.lookup key.toList = (r.lookup key).map JsonValue.toJson := by
  induction r with
  | nil => rfl
  | cons f r ih =>
    have hk : (key.toList == f.1.toList) = (key == f.1) := by
      rw [Bool.eq_iff_iff, beq_iff_eq, beq_iff_eq, String.toList_inj]
    rw [JsonRecord.members, List.map_cons, List.lookup_cons, List.lookup_cons, hk]
    split
    · rfl
    · exact ih

theorem member?_members (r : JsonRecord) (key : String) {v : JsonValue}
    (h : r.lookup key = some v) : (Json.object r.members).member? key = some v.toJson := by
  rw [Json.member?, lookup_members, h]
  rfl

/-- The record of a finding is read back. -/
theorem readFinding_encode (path : List Char) (d : Diagnostic) :
    readFinding (findingRecord path d).encode = some (.of path d) := by
  have hm := member?_members (findingRecord path d)
  rw [readFinding, Json.read?_encode]
  simp only [Option.bind_eq_bind, Option.bind_some, Json.textAt?, Json.naturalAt?, hm "type" rfl,
    hm "rule" rfl, hm "severity" rfl, hm "file" rfl, hm "line" rfl, hm "column" rfl,
    hm "message" rfl, hm "evidence" rfl, JsonValue.toJson]
  rfl

/-- The summary is read back. -/
theorem readSummary_encode (r : Report) :
    readSummary (summaryRecord r).encode =
      some ⟨r.total == 0, r.checked, r.unreadable, r.total⟩ := by
  have hm := member?_members (summaryRecord r)
  rw [readSummary, Json.read?_encode]
  simp only [Option.bind_eq_bind, Option.bind_some, Json.textAt?, Json.naturalAt?, Json.truthAt?,
    hm "type" rfl, hm "passed" rfl, hm "files_checked" rfl, hm "files_unreadable" rfl,
    hm "total_diagnostics" rfl, JsonValue.toJson]
  rfl

/-! ## 2. Lines -/

theorem lines_jsonl (r : Report) : lines (jsonl r) = (jsonRecords r).map JsonRecord.encode := by
  have hj : jsonl r = ((jsonRecords r).map JsonRecord.encode).flatMap (· ++ ['\n']) := by
    rw [List.flatMap_map]
    rfl
  rw [hj]
  refine lines_written fun l hl => ?_
  obtain ⟨record, -, rfl⟩ := List.mem_map.mp hl
  have hc := Json.clean_encode record
  exact ⟨fun h => absurd (hc _ h) (by decide), fun h => absurd (hc _ h) (by decide)⟩

theorem filterMap_lineOf? (r : Report) : r.findings.filterMap lineOf? = findingLines r := by
  rw [findings, List.filterMap_flatMap, findingLines]
  congr 1
  funext f
  rw [List.filterMap_map]
  cases h : f.path.text? with
  | none => simp [Function.comp_def, lineOf?, h]
  | some path => simp [Function.comp_def, lineOf?, h]

theorem map_readFinding (r : Report) :
    (lines (jsonl r)).dropLast.map readFinding = (findingLines r).map some := by
  rw [lines_jsonl, jsonRecords, List.map_append, List.map_singleton, List.dropLast_concat,
    ← filterMap_lineOf?, List.map_map, List.map_filterMap, List.map_filterMap]
  congr 1
  funext f
  rw [lineOf?, Option.map_map, Option.map_map]
  congr 1
  funext path
  exact readFinding_encode path f.2

theorem getLast?_readSummary (r : Report) :
    (lines (jsonl r)).getLast?.bind readSummary =
      some ⟨r.total == 0, r.checked, r.unreadable, r.total⟩ := by
  rw [lines_jsonl, jsonRecords, List.map_append, List.map_singleton, List.getLast?_concat]
  exact readSummary_encode r

/-! ## 3. Findings that are written alike -/

theorem text?_eq_some_iff {p : Path} {s : List Char} : p.text? = some s ↔ p.bytes = utf8 s :=
  ofUtf8?_eq_some_iff

/-- A record tells all of its finding but the description of the rule. -/
theorem told_eq_of_line {f g : Path × Diagnostic} {line : FindingLine}
    (hf : lineOf? f = some line) (hg : lineOf? g = some line) : told f = told g := by
  obtain ⟨⟨p⟩, d⟩ := f
  obtain ⟨⟨q⟩, e⟩ := g
  obtain ⟨s, hs, rfl⟩ := Option.map_eq_some_iff.mp hf
  obtain ⟨t, ht, h⟩ := Option.map_eq_some_iff.mp hg
  simp only [FindingLine.of, FindingLine.mk.injEq, String.toList_inj] at h
  obtain ⟨hid, hsev, rfl, hline, hcol, hmsg, hev⟩ := h
  have hp : p = q := (text?_eq_some_iff.mp hs).trans (text?_eq_some_iff.mp ht).symm
  have hpos : d.position = e.position := by
    rw [← show (⟨d.position.line, d.position.column⟩ : Markup.Position) = d.position from rfl,
      ← hline, ← hcol]
  rw [told, told, hp, RuleId.ext hid, Severity.name_injective hsev, hpos, hmsg, hev]

theorem map_told_eq {fs gs : List (Path × Diagnostic)} (hf : ∀ f ∈ fs, (lineOf? f).isSome)
    (hg : ∀ g ∈ gs, (lineOf? g).isSome) (h : fs.filterMap lineOf? = gs.filterMap lineOf?) :
    fs.map told = gs.map told := by
  induction fs generalizing gs with
  | nil =>
    cases gs with
    | nil => rfl
    | cons g gs =>
      obtain ⟨l, hl⟩ := Option.isSome_iff_exists.mp (hg g List.mem_cons_self)
      rw [List.filterMap_nil, List.filterMap_cons_some hl] at h
      cases h
  | cons f fs ih =>
    obtain ⟨k, hk⟩ := Option.isSome_iff_exists.mp (hf f List.mem_cons_self)
    rw [List.filterMap_cons_some hk] at h
    cases gs with
    | nil => cases h
    | cons g gs =>
      obtain ⟨l, hl⟩ := Option.isSome_iff_exists.mp (hg g List.mem_cons_self)
      rw [List.filterMap_cons_some hl] at h
      obtain ⟨rfl, ht⟩ := List.cons.inj h
      rw [List.map_cons, List.map_cons, told_eq_of_line hk hl,
        ih (fun x hx => hf x (List.mem_cons_of_mem _ hx))
          (fun x hx => hg x (List.mem_cons_of_mem _ hx)) ht]

theorem eq_of_told {f g : Path × Diagnostic} (h : told f = told g) (hr : f.2.rule = g.2.rule) :
    f = g := by
  obtain ⟨p, severity, message, position, rule, evidence⟩ := f
  simp only [told, Prod.mk.injEq] at h hr
  obtain ⟨rfl, -, rfl, rfl, rfl, rfl⟩ := h
  rw [hr]

/-- Findings that are told alike are the same if their rules' names tell the rules apart. -/
theorem eq_of_map_told {fs gs : List (Path × Diagnostic)} (h : fs.map told = gs.map told)
    (hr : ∀ f ∈ fs, ∀ g ∈ gs, f.2.rule.id = g.2.rule.id → f.2.rule = g.2.rule) : fs = gs := by
  induction fs generalizing gs with
  | nil => exact (List.map_eq_nil_iff.mp h.symm).symm
  | cons f fs ih =>
    cases gs with
    | nil => cases h
    | cons g gs =>
      obtain ⟨hfg, ht⟩ := List.cons.inj h
      have hid : f.2.rule.id = g.2.rule.id := congrArg (·.2.1) hfg
      rw [eq_of_told hfg (hr f List.mem_cons_self g List.mem_cons_self hid),
        ih ht fun x hx y hy => hr x (List.mem_cons_of_mem _ hx) y (List.mem_cons_of_mem _ hy)]

/-! ## 4. The report -/

theorem total_eq (r : Report) : r.total = (r.files.map (·.findings.length)).sum := by
  simp [total, findings, List.length_flatMap]

theorem isSome_lineOf? {r : Report} (hr : ∀ f ∈ r.files, ∃ s, f.path.bytes = utf8 s)
    {f : Path × Diagnostic} (hf : f ∈ r.findings) : (lineOf? f).isSome := by
  obtain ⟨file, hm, hd⟩ := List.mem_flatMap.mp hf
  obtain ⟨d, -, rfl⟩ := List.mem_map.mp hd
  obtain ⟨s, hs⟩ := hr file hm
  rw [lineOf?, text?_eq_some_iff.mpr hs]
  rfl

/-- What is read from a report as JSON lines, and what reports that are written alike share. -/
theorem jsonl_reads (r : Report) :
    jsonl r = (lines (jsonl r)).flatMap (· ++ ['\n']) ∧
    (∀ l ∈ lines (jsonl r),
      (∀ c ∈ l, 0x20 ≤ c.toNat) ∧ ∃ members, Json.read? l = some (.object members)) ∧
    (∀ (p : Path) s, p.text? = some s ↔ p.bytes = utf8 s) ∧
    (lines (jsonl r)).dropLast.map readFinding = (findingLines r).map some ∧
    (lines (jsonl r)).getLast?.bind readSummary =
      some {
        passed := (r.files.map (·.findings.length)).sum == 0
        checked := r.checked
        unreadable := r.unreadable
        total := (r.files.map (·.findings.length)).sum } ∧
    ∀ r' : Report, (∀ f ∈ r.files, ∃ s, f.path.bytes = utf8 s) →
      (∀ f ∈ r'.files, ∃ s, f.path.bytes = utf8 s) → jsonl r = jsonl r' →
      r.findings.map told = r'.findings.map told ∧
      ((∀ f ∈ r.findings, ∀ g ∈ r'.findings, f.2.rule.id = g.2.rule.id → f.2.rule = g.2.rule) →
        r.findings = r'.findings) := by
  have hl := lines_jsonl r
  refine ⟨?_, fun l h => ?_, fun p s => text?_eq_some_iff, map_readFinding r, ?_,
    fun r' hr hr' he => ?_⟩
  · rw [hl, List.flatMap_map]
    rfl
  · rw [hl] at h
    obtain ⟨record, -, rfl⟩ := List.mem_map.mp h
    exact ⟨Json.clean_encode record, _, Json.read?_encode record⟩
  · rw [getLast?_readSummary, total_eq]
  · have hs : (findingLines r).map some = (findingLines r').map some := by
      rw [← map_readFinding, ← map_readFinding, he]
    have hf : r.findings.filterMap lineOf? = r'.findings.filterMap lineOf? := by
      rw [filterMap_lineOf?, filterMap_lineOf?]
      exact List.map_injective_iff.mpr (Option.some_injective _) hs
    have ht := map_told_eq (fun f => isSome_lineOf? hr) (fun f => isSome_lineOf? hr') hf
    exact ⟨ht, eq_of_map_told ht⟩

/-- A report with a finding that needs escapes, after files without findings. -/
def escapingReport (others : List FileFindings) : Report where
  files := others ++ [{
    path := .ofString "a \"b\".html"
    findings := [{
      severity := .warning
      message := "a\\b\nc"
      position := { line := 2, column := 7 }
      rule := { id := ⟨"r-1", by decide⟩, description := "" }
      evidence := ['<', 'é', '\r', '\n', '\x01', '"'] }] }]
  checked := 2
  unreadable := 1

/-- A file without findings leaves no trace in a report. -/
theorem jsonl_reads_escaping :
    let r := escapingReport []
    let r' := escapingReport [{ path := .ofString "c.html", findings := [] }]
    jsonl r = jsonl r' ∧ r.findings = r'.findings ∧
      (lines (jsonl r)).dropLast.map readFinding = (findingLines r).map some := by
  intro r r'
  have he : jsonl r = jsonl r' := rfl
  have hr : ∀ f ∈ r.files, ∃ s, f.path.bytes = utf8 s := by
    intro f hf
    cases List.mem_singleton.mp hf
    exact ⟨_, rfl⟩
  have hr' : ∀ f ∈ r'.files, ∃ s, f.path.bytes = utf8 s := by
    intro f hf
    rcases List.mem_cons.mp hf with rfl | hf
    · exact ⟨_, rfl⟩
    · exact hr f hf
  obtain ⟨-, -, -, hm, -, h⟩ := jsonl_reads r
  refine ⟨he, (h r' hr hr' he).2 fun f hf g hg _ => ?_, hm⟩
  cases List.mem_singleton.mp hf
  cases List.mem_singleton.mp hg
  rfl

end MarkupLint.Report

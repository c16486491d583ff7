import Mathlib
import MarkupLint.Proofs.HumanReport

/-!
# Colour in a report for people

With colour, a report is the report without colour, and sequences between its characters that set a
style or take it back. Each change of the style starts with the sequence that takes all styles back,
and ends with it before the next change starts. If no escape stands in what is shown, the sequences
can be told from the characters, and nothing but them has to be deleted to get the report without
colour.

Results:
1. `Style.sent_sequences`, `Run.sent_symbols`, `Run.shown_symbols`: a run as a list of symbols.
2. `Balanced.run`, `balanced_runs`: changes of the style end before the next one starts.
3. `readSymbols_sent`: sequences are told from characters.
4. `escape_not_mem_humanRuns`, `style_humanRuns`: what is shown, and in which styles.
5. `human_colored`: a report.
-/

namespace MarkupLint.Report

open Lint Text

/-! ## Definitions -/

/-- What is sent to a terminal: characters, which are shown, and sequences with their parameters,
which are not. -/
inductive Symbol where
  | char (c : Char)
  | sequence (parameter : List Char)
deriving DecidableEq, Repr

namespace Symbol

/-- The text of a symbol. -/
def sent : Symbol → List Char
  | char c => [c]
  | sequence p => escapeWith p

/-- What is shown of a symbol. -/
def shown : Symbol → List Char
  | char c => [c]
  | sequence _ => []

def reset : Symbol := sequence ['0']

end Symbol

/-- The symbol can be told from others: it is no escape, and no sequence that ends early. -/
def Symbol.IsDistinct : Symbol → Prop
  | .char c => c ≠ '\x1b'
  | .sequence p => 'm' ∉ p

/-- The text of some symbols. -/
def sent (ss : List Symbol) : List Char := ss.flatMap Symbol.sent

/-- What is shown of some symbols. -/
def shown (ss : List Symbol) : List Char := ss.flatMap Symbol.shown

/-- Reads symbols. An escape and a bracket begin a sequence, which an `m` ends; `begun` holds what
has been read of its parameter, in reverse. A sequence that does not end is shown. -/
def symbolsFrom : Option (List Char) → List Char → List Symbol
  | none, [] => []
  | none, '\x1b' :: '[' :: s => symbolsFrom (some []) s
  | none, c :: s => .char c :: symbolsFrom none s
  | some begun, [] => ('\x1b' :: '[' :: begun.reverse).map .char
  | some begun, 'm' :: s => .sequence begun.reverse :: symbolsFrom none s
  | some begun, c :: s => symbolsFrom (some (c :: begun)) s

def readSymbols (s : List Char) : List Symbol := symbolsFrom none s

def withoutSequences (s : List Char) : List Char := shown (readSymbols s)

/-- The parameters that set something: bold, dimmed and the colours. -/
def settingParameters : List (List Char) :=
  ['1'] :: ['2'] :: [Color.red, .green, .yellow, .cyan].map fun c => ['3', c.digit]

/-- Outside of characters there are only changes of the style. Each one starts with the sequence
that takes all styles back, sets something, and is taken back before the next one starts and before
the end. -/
inductive Balanced : List Symbol → Prop
  | nil : Balanced []
  | char (c : Char) {ss : List Symbol} : Balanced ss → Balanced (.char c :: ss)
  | change {settings : List (List Char)} (text : List Char) {ss : List Symbol} :
      settings ≠ [] → settings ⊆ settingParameters → Balanced ss →
      Balanced (.reset :: settings.map .sequence ++ text.map .char ++ .reset :: ss)

/-- No escape stands in what is shown of a finding: the path, the message, and the excerpt of the
evidence. -/
structure ShowsNoEscape (f : Path × Diagnostic) : Prop where
  path : '\x1b' ∉ f.1.shown
  message : '\x1b' ∉ f.2.message.toList
  evidence : ∀ e, excerpt f.2.evidence = some e → '\x1b' ∉ e

/-- The parameters of the sequences that set a style, after all styles have been taken back. -/
def Style.settings (s : Style) : List (List Char) :=
  (if s.bold then [['1']] else []) ++ (if s.dimmed then [['2']] else []) ++
    s.color.toList.map fun c => ['3', c.digit]

/-- The symbols of a run in colour. -/
def Run.symbols (run : Run) : List Symbol :=
  match run.style with
  | none => run.text.map .char
  | some s => .reset :: s.settings.map .sequence ++ run.text.map .char ++ [.reset]

/-! ## 1. Runs -/

@[simp]
theorem sent_append (ss ts : List Symbol) : sent (ss ++ ts) = sent ss ++ sent ts :=
  List.flatMap_append

@[simp]
theorem sent_cons (s : Symbol) (ss : List Symbol) : sent (s :: ss) = s.sent ++ sent ss :=
  List.flatMap_cons

@[simp]
theorem sent_chars (text : List Char) : sent (text.map .char) = text := by
  rw [sent, List.flatMap_map]
  exact List.flatMap_singleton' text

@[simp]
theorem shown_append (ss ts : List Symbol) : shown (ss ++ ts) = shown ss ++ shown ts :=
  List.flatMap_append

@[simp]
theorem shown_cons (s : Symbol) (ss : List Symbol) : shown (s :: ss) = s.shown ++ shown ss :=
  List.flatMap_cons

@[simp]
theorem shown_chars (text : List Char) : shown (text.map .char) = text := by
  rw [shown, List.flatMap_map]
  exact List.flatMap_singleton' text

@[simp]
theorem shown_sequences (ps : List (List Char)) : shown (ps.map .sequence) = [] := by
  rw [shown, List.flatMap_map]
  exact List.flatMap_eq_nil_iff.mpr fun _ _ => rfl

/-- A style is set by the sequence that takes all styles back and one for each setting. -/
theorem Style.sent_sequences (s : Style) :
    sent (.reset :: s.settings.map .sequence) = s.set := by
  obtain ⟨bold, dimmed, color⟩ := s
  cases bold <;> cases dimmed <;> cases color <;> rfl

theorem Style.settings_subset (s : Style) : s.settings ⊆ settingParameters := by
  obtain ⟨bold, dimmed, color⟩ := s
  rcases color with _ | _ | _ | _ | _ <;> cases bold <;> cases dimmed <;> decide

theorem Style.settings_ne_nil {s : Style} (h : s ≠ {}) : s.settings ≠ [] := by
  obtain ⟨bold, dimmed, color⟩ := s
  intro hn
  cases bold <;> cases dimmed <;> cases color <;> simp [settings] at hn
  exact h rfl

theorem Run.sent_symbols (run : Run) : sent run.symbols = run.render true := by
  obtain ⟨text, style⟩ := run
  cases style with
  | none => exact sent_chars text
  | some s =>
    rw [symbols, sent_append, sent_append, Style.sent_sequences, sent_chars]
    rfl

theorem Run.shown_symbols (run : Run) : shown run.symbols = run.render false := by
  obtain ⟨text, style⟩ := run
  cases style with
  | none => exact shown_chars text
  | some s =>
    rw [symbols, shown_append, shown_append, shown_cons, shown_sequences, shown_chars]
    exact List.append_nil text

theorem sent_runs (runs : List Run) :
    sent (runs.flatMap Run.symbols) = Run.renderAll true runs := by
  rw [sent, List.flatMap_assoc]
  exact List.flatMap_congr fun run _ => run.sent_symbols

theorem shown_runs (runs : List Run) :
    shown (runs.flatMap Run.symbols) = Run.renderAll false runs := by
  rw [shown, List.flatMap_assoc]
  exact List.flatMap_congr fun run _ => run.shown_symbols

/-! ## 2. Changes of the style -/

theorem Balanced.chars {ss : List Symbol} (h : Balanced ss) (text : List Char) :
    Balanced (text.map .char ++ ss) := by
  induction text with
  | nil => exact h
  | cons c text ih => exact .char c ih

theorem Balanced.run {ss : List Symbol} (h : Balanced ss) {run : Run}
    (hs : run.style ≠ some {}) : Balanced (run.symbols ++ ss) := by
  obtain ⟨text, style⟩ := run
  cases style with
  | none => exact h.chars text
  | some s =>
    have hne : s ≠ {} := fun he => hs (congrArg some he)
    have hc := Balanced.change text (Style.settings_ne_nil hne) s.settings_subset h
    simpa [Run.symbols] using hc

/-- Runs whose styles set something are balanced. -/
theorem balanced_runs {runs : List Run} (h : ∀ run ∈ runs, run.style ≠ some {}) :
    Balanced (runs.flatMap Run.symbols) := by
  induction runs with
  | nil => exact .nil
  | cons run runs ih =>
    obtain ⟨hrun, h⟩ := List.forall_mem_cons.mp h
    rw [List.flatMap_cons]
    exact (ih h).run hrun

/-! ## 3. Reading -/

theorem symbolsFrom_parameter {p : List Char} (h : 'm' ∉ p) (begun s : List Char) :
    symbolsFrom (some begun) (p ++ 'm' :: s) =
      .sequence (begun.reverse ++ p) :: symbolsFrom none s := by
  induction p generalizing begun with
  | nil => simp [symbolsFrom]
  | cons c p ih =>
    rw [List.mem_cons, not_or] at h
    rw [List.cons_append, symbolsFrom, ih h.2]
    · simp
    · exact Ne.symm h.1

theorem symbolsFrom_char {c : Char} (h : c ≠ '\x1b') (s : List Char) :
    symbolsFrom none (c :: s) = .char c :: symbolsFrom none s := by
  rw [symbolsFrom]
  exact fun _ hc _ => h hc

/-- Symbols that can be told from each other are read as they were sent. -/
theorem readSymbols_sent {ss : List Symbol} (h : ∀ s ∈ ss, s.IsDistinct) :
    readSymbols (sent ss) = ss := by
  induction ss with
  | nil => rfl
  | cons s ss ih =>
    obtain ⟨hs, h⟩ := List.forall_mem_cons.mp h
    have hss : symbolsFrom none (sent ss) = ss := ih h
    rw [readSymbols, sent_cons]
    cases s with
    | char c => rw [Symbol.sent, List.singleton_append, symbolsFrom_char hs, hss]
    | sequence p =>
      have hp : symbolsFrom (some []) (p ++ 'm' :: sent ss) = .sequence p :: ss := by
        rw [symbolsFrom_parameter hs, hss]
        rfl
      simpa [Symbol.sent, escapeWith, symbolsFrom] using hp

theorem isDistinct_symbols {run : Run} (h : '\x1b' ∉ run.text) :
    ∀ s ∈ run.symbols, s.IsDistinct := by
  have hc : ∀ s ∈ run.text.map Symbol.char, s.IsDistinct := by
    intro s hs
    obtain ⟨c, hm, rfl⟩ := List.mem_map.mp hs
    rintro rfl
    exact h hm
  have hreset : Symbol.reset.IsDistinct := (by decide : 'm' ∉ ['0'])
  rw [Run.symbols]
  split
  · exact hc
  · next s _ =>
    have hsettings : ∀ t ∈ s.settings.map Symbol.sequence, t.IsDistinct := by
      intro t ht
      obtain ⟨p, hm, rfl⟩ := List.mem_map.mp ht
      have hall : ∀ p ∈ settingParameters, 'm' ∉ p := by decide
      exact hall p (s.settings_subset hm)
    rw [List.forall_mem_append, List.forall_mem_append, List.forall_mem_cons]
    exact ⟨⟨⟨hreset, hsettings⟩, hc⟩, List.forall_mem_singleton.mpr hreset⟩

/-! ## 4. The runs of a report -/

theorem escape_not_mem_finding {f : Path × Diagnostic} (h : ShowsNoEscape f) :
    ∀ run ∈ findingRuns f.1 f.2, '\x1b' ∉ run.text := by
  obtain ⟨hpath, hmessage, hevidence⟩ := h
  rw [findingRuns, List.forall_mem_append]
  constructor
  · simp [Run.plain, hpath, hmessage, not_mem_decimal, not_mem_severity, not_mem_ruleId]
  · cases he : excerpt f.2.evidence with
    | none => simp
    | some e => simp [hevidence e he]

theorem escape_not_mem_summary (r : Report) : ∀ run ∈ summaryRuns r, '\x1b' ∉ run.text := by
  have hf (n : Nat) : '\x1b' ∉ counted n "file" "files" :=
    not_mem_counted (by decide) n (by decide) (by decide)
  have hd : '\x1b' ∉ counted r.total "diagnostic" "diagnostics" :=
    not_mem_counted (by decide) _ (by decide) (by decide)
  rw [summaryRuns, List.forall_mem_append]
  constructor
  · split <;> simp [hf, hd]
  · split <;> simp [hf]

theorem escape_not_mem_humanRuns {r : Report} (h : ∀ f ∈ r.findings, ShowsNoEscape f) :
    ∀ run ∈ humanRuns r, '\x1b' ∉ run.text := by
  rw [humanRuns, List.forall_mem_append, List.forall_mem_append]
  refine ⟨⟨?_, ?_⟩, escape_not_mem_summary r⟩
  · intro run hrun
    obtain ⟨f, hf, hrun⟩ := List.mem_flatMap.mp hrun
    exact escape_not_mem_finding (h f hf) run hrun
  · split <;> simp [Run.plain]

theorem style_findingRuns (path : Path) (d : Diagnostic) :
    ∀ run ∈ findingRuns path d, run.style ≠ some {} := by
  rw [findingRuns, List.forall_mem_append]
  constructor
  · simp [Run.plain]
  · split <;> simp

/-- Each style in a report sets something. -/
theorem style_humanRuns (r : Report) : ∀ run ∈ humanRuns r, run.style ≠ some {} := by
  rw [humanRuns, List.forall_mem_append, List.forall_mem_append]
  refine ⟨⟨?_, ?_⟩, ?_⟩
  · intro run hrun
    obtain ⟨f, -, hrun⟩ := List.mem_flatMap.mp hrun
    exact style_findingRuns f.1 f.2 run hrun
  · split <;> simp [Run.plain]
  · rw [summaryRuns, List.forall_mem_append]
    constructor <;> split <;> simp

/-! ## 5. The report -/

/-- With colour, sequences that set a style and take it back stand between the characters of the
report, and each change of the style is taken back before the next one. If no escape is shown, these
are the sequences that are read, and without them the report is the one without colour. -/
theorem human_colored (r : Report) :
    ∃ ss : List Symbol, sent ss = human true r ∧ shown ss = human false r ∧ Balanced ss ∧
      ((∀ f ∈ r.findings, ShowsNoEscape f) →
        readSymbols (human true r) = ss ∧ withoutSequences (human true r) = human false r) := by
  have hsent : sent ((humanRuns r).flatMap Run.symbols) = human true r := sent_runs _
  have hshown : shown ((humanRuns r).flatMap Run.symbols) = human false r := shown_runs _
  refine ⟨_, hsent, hshown, balanced_runs (style_humanRuns r), fun h => ?_⟩
  have hread : readSymbols (human true r) = (humanRuns r).flatMap Run.symbols := by
    rw [← hsent]
    refine readSymbols_sent fun s hs => ?_
    obtain ⟨run, hrun, hs⟩ := List.mem_flatMap.mp hs
    exact isDistinct_symbols (escape_not_mem_humanRuns h run hrun) s hs
  exact ⟨hread, by rw [withoutSequences, hread, hshown]⟩

/-- A file with a finding, of which the evidence has an escape behind its first line. -/
def escapedReport : Report where
  files := [{
    path := .ofString "a.html"
    findings := [{
      severity := .warning
      message := "no [bold]"
      position := {}
      rule := { id := ⟨"plain", by decide⟩, description := "" }
      evidence := "<b>m\n\x1b[1m".toList }] }]
  checked := 1
  unreadable := 0

/-- The escape is not shown. -/
theorem human_colored_excerpt :
    (∀ f ∈ escapedReport.findings, ShowsNoEscape f) ∧
      withoutSequences (human true escapedReport) = human false escapedReport ∧
      (human true escapedReport).count '\x1b' = 14 := by
  have h : ∀ f ∈ escapedReport.findings, ShowsNoEscape f := by
    refine List.forall_mem_singleton.mpr ⟨by decide +kernel, by decide, fun e he => ?_⟩
    have hx : excerpt "<b>m\n\x1b[1m".toList = some "<b>m".toList := by decide +kernel
    obtain rfl := Option.some.inj (he.symm.trans hx)
    decide
  obtain ⟨_, _, _, _, hw⟩ := human_colored escapedReport
  exact ⟨h, (hw h).2, by decide +kernel⟩

end MarkupLint.Report

import MarkupLint.Execution
import MarkupLint.Text.Basic

/-!
# Reports for people

Text for terminals is a sequence of runs, some of which have a style. With colour, a styled run
stands between the sequences that set its style and the one that resets it; without colour, only
the text is left. Each finding takes a line, and a second one with an excerpt of its evidence, if
there is anything to be seen in it. A summary follows.
-/

namespace MarkupLint.Report

/-! ## Styled text -/

inductive Color where
  | red
  | green
  | yellow
  | cyan
deriving DecidableEq, Repr

def Color.digit : Color → Char
  | red => '1'
  | green => '2'
  | yellow => '3'
  | cyan => '6'

/-- How a run looks. -/
structure Style where
  bold : Bool := false
  dimmed : Bool := false
  color : Option Color := none
deriving DecidableEq, Repr

/-- The sequence with the given parameter. -/
def escapeWith (parameter : List Char) : List Char := '\x1b' :: '[' :: (parameter ++ ['m'])

def resetStyle : List Char := escapeWith ['0']

/-- The sequences that set a style. -/
def Style.set (s : Style) : List Char :=
  resetStyle ++ (if s.bold then escapeWith ['1'] else []) ++
    (if s.dimmed then escapeWith ['2'] else []) ++
    match s.color with
    | none => []
    | some c => escapeWith ['3', c.digit]

/-- A run of text. -/
structure Run where
  text : List Char
  style : Option Style := none

namespace Run

def plain (s : String) : Run := ⟨s.toList, none⟩

/-- The text of a run on a terminal with or without colour. -/
def render (colored : Bool) (r : Run) : List Char :=
  match r.style with
  | none => r.text
  | some s => if colored then s.set ++ r.text ++ resetStyle else r.text

def renderAll (colored : Bool) (rs : List Run) : List Char := rs.flatMap (render colored)

theorem renderAll_append (colored : Bool) (rs ts : List Run) :
    renderAll colored (rs ++ ts) = renderAll colored rs ++ renderAll colored ts := by
  simp [renderAll]

end Run

/-! ## The text of a report -/

open Lint Text

def decimal (n : Nat) : List Char := Nat.toDigits 10 n

/-- A number of things. -/
def counted (n : Nat) (one many : String) : List Char :=
  decimal n ++ ' ' :: (if n = 1 then one else many).toList

/-- How many characters of the evidence are shown. -/
def excerptLength : Nat := 80

/-- Cuts a text that is too long, and marks the cut. -/
def clip (s : List Char) : List Char :=
  if s.length ≤ excerptLength then s else s.take excerptLength ++ ['.', '.', '.']

/-- What is shown of the evidence: its first line that is not blank. -/
def excerpt (s : List Char) : Option (List Char) :=
  (((lines s).map trim).find? fun line => !line.isEmpty).map clip

def severityColor : Severity → Color
  | .error => .red
  | .warning => .yellow
  | .info => .cyan

/-- The lines for one finding. -/
def findingRuns (path : Path) (d : Diagnostic) : List Run :=
  [⟨path.shown ++ ':' :: decimal d.position.line ++ ':' :: decimal d.position.column ++ [':'],
      some { bold := true }⟩,
    .plain " ",
    ⟨d.severity.name.toList, some { bold := true, color := some (severityColor d.severity) }⟩,
    ⟨':' :: ' ' :: d.message.toList ++ [' '], none⟩,
    ⟨'[' :: d.rule.id.text.toList ++ [']'], some { dimmed := true }⟩,
    .plain "\n"] ++
    match excerpt d.evidence with
    | none => []
    | some s => [⟨"    ".toList ++ s ++ ['\n'], none⟩]

/-- The lines that sum up a report. -/
def summaryRuns (r : Report) : List Run :=
  let checked : Run :=
    ⟨' ' :: '(' :: counted r.checked "file" "files" ++ " checked).\n".toList, none⟩
  let withFindings := (r.files.filter fun f => !f.findings.isEmpty).length
  (if r.total = 0 then
    [⟨"No problems found".toList, some { bold := true, color := some .green }⟩, checked]
  else
    [⟨"Found ".toList ++ counted r.total "diagnostic" "diagnostics" ++ " in ".toList ++
        counted withFindings "file" "files",
      some { bold := true, color := some .red }⟩,
      checked]) ++
    if r.unreadable = 0 then []
    else [⟨counted r.unreadable "file" "files" ++ " could not be read.\n".toList, none⟩]

def humanRuns (r : Report) : List Run :=
  (r.findings.flatMap fun f => findingRuns f.1 f.2) ++
    (if r.total = 0 then [] else [.plain "\n"]) ++ summaryRuns r

def human (colored : Bool) (r : Report) : List Char := Run.renderAll colored (humanRuns r)

end MarkupLint.Report

import MarkupLint.Files.Tree
import MarkupLint.Lint.Linter

/-!
# Checking files

Each file is read and checked on its own. A file that cannot be read is noted and counted. A report
holds what was found in the files that were checked.
-/

namespace MarkupLint

namespace Report

/-- What was found in one file. -/
structure FileFindings where
  path : Path
  findings : List Lint.Diagnostic
deriving DecidableEq

end Report

open Report

/-- The result of checking files. -/
structure Report where
  files : List FileFindings
  /-- How many files were checked. -/
  checked : Nat
  /-- How many files could not be read. -/
  unreadable : Nat
deriving DecidableEq

namespace Report

/-- All findings, each with the file it was found in. -/
def findings (r : Report) : List (Path × Lint.Diagnostic) :=
  r.files.flatMap fun f => f.findings.map fun d => (f.path, d)

def total (r : Report) : Nat := r.findings.length

end Report

open Files Lint

/-- What came of one file. -/
inductive FileOutcome where
  | checked (found : FileFindings)
  | unreadable (path : Path) (e : FileError)

namespace FileOutcome

/-- Checks one file. -/
def ofFile (t : FileTree) (l : Linter) (p : Path) : FileOutcome :=
  match t.readText p with
  | .ok text => checked ⟨p, l.lint text⟩
  | .error e => unreadable p e

def findings? : FileOutcome → Option FileFindings
  | checked found => some found
  | unreadable _ _ => none

def isUnreadable : FileOutcome → Bool
  | checked _ => false
  | unreadable _ _ => true

/-- What is noted about the file. -/
def note : FileOutcome → LogRecord
  | checked found =>
    let shown := String.ofList found.path.shown
    ⟨.detail, .execution, s!"{shown}: {found.findings.length} diagnostic(s)"⟩
  | unreadable path e =>
    let shown := String.ofList path.shown
    ⟨.warning, .execution, s!"Failed to read file {shown}: {e.message}"⟩

end FileOutcome

def outcomes (t : FileTree) (l : Linter) (files : List Path) : List FileOutcome :=
  files.map (FileOutcome.ofFile t l)

def reportOf (os : List FileOutcome) : Report :=
  let files := os.filterMap (·.findings?)
  ⟨files, files.length, (os.filter (·.isUnreadable)).length⟩

/-- The report on some files. -/
def execute (t : FileTree) (l : Linter) (files : List Path) : Report :=
  reportOf (outcomes t l files)

end MarkupLint

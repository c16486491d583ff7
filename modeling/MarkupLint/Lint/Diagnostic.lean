import MarkupLint.Lint.IdMap
import MarkupLint.Markup.Event

/-!
# Diagnostics

A diagnostic says what a rule found, where, and how grave it is. A reporter collects the findings of
a pass. It keeps each finding as it was reported, in the order in which they came.
-/

namespace MarkupLint.Lint

inductive Severity where
  | error
  | warning
  | info
deriving DecidableEq, Repr

namespace Severity

def all : List Severity := [error, warning, info]

def name : Severity → String
  | error => "error"
  | warning => "warning"
  | info => "info"

def ofName? (s : String) : Option Severity := all.find? (·.name == s)

/-- A grade is read back from its name. -/
theorem ofName?_name (s : Severity) : ofName? s.name = some s := by cases s <;> decide

theorem name_injective {s t : Severity} (h : s.name = t.name) : s = t := by
  have := congrArg ofName? h
  simpa [ofName?_name] using this

end Severity

/-- The rule that a diagnostic belongs to. -/
structure RuleRef where
  id : RuleId
  description : String
deriving DecidableEq

/-- One finding. -/
structure Diagnostic where
  severity : Severity
  message : String
  position : Markup.Position
  rule : RuleRef
  /-- The text that gave rise to the finding. -/
  evidence : List Char
deriving DecidableEq

/-- The findings that were reported so far. -/
structure Reporter where
  /-- The findings, the latest first. -/
  reported : List Diagnostic := []

namespace Reporter

def report (r : Reporter) (found : Diagnostic) : Reporter := ⟨found :: r.reported⟩

/-- Takes in findings one after the other. -/
def reportAll (r : Reporter) (found : List Diagnostic) : Reporter := found.foldl report r

/-- The findings, the oldest first. -/
def diagnostics (r : Reporter) : List Diagnostic := r.reported.reverse

@[simp]
theorem diagnostics_empty : ({} : Reporter).diagnostics = [] := rfl

theorem diagnostics_report (r : Reporter) (found : Diagnostic) :
    (r.report found).diagnostics = r.diagnostics ++ [found] := List.reverse_cons

/-- Findings are added after those that are there. -/
theorem diagnostics_reportAll (r : Reporter) (found : List Diagnostic) :
    (r.reportAll found).diagnostics = r.diagnostics ++ found := by
  induction found generalizing r with
  | nil => simp [reportAll]
  | cons d ds ih =>
    have h := ih (r.report d)
    rw [diagnostics_report, List.append_assoc] at h
    exact h

end Reporter

end MarkupLint.Lint

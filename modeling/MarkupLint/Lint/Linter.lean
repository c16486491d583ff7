import MarkupLint.Lint.Rule
import MarkupLint.Lint.Session

/-!
# Linters

A linter is made from a registry and a table of options. The enabled rules are activated in
ascending order of identifiers; a rule that is not known or refuses its options is noted and left
out.
-/

namespace MarkupLint.Lint

/-- The options of rules, by identifier. -/
abbrev RuleTable := IdMap RuleOptions

/-- The entries that enable a rule. -/
def RuleTable.enabled (t : RuleTable) : List (RuleId × RuleOptions) :=
  t.entries.filter (·.2.isEnabled)

/-- A rule that was selected and could not be activated. -/
structure ActivationError where
  rule : RuleId
  cause : RuleError
deriving DecidableEq

def ActivationError.message (e : ActivationError) : String :=
  s!"rule '{e.rule.text}' was not activated: {e.cause.message}"

/-- The selected rules, ready to read pages. -/
structure Linter where
  dispatcher : Dispatcher := {}
  activeRules : List RuleId := []
  activationErrors : List ActivationError := []
  log : List LogRecord := []

namespace Linter

def activationLog (registry : Registry) (id : RuleId) (options : RuleOptions) : List LogRecord :=
  match registry.find? id with
  | some rule => (rule.activate options).log
  | none => []

def activated (registry : Registry) (d : Dispatcher) (id : RuleId) (options : RuleOptions) :
    Except RuleError Unit × Dispatcher :=
  match registry.find? id with
  | some rule => d.activate rule options
  | none => (.error (.notFound id.text), d)

/-- Selects one more rule. -/
def select (registry : Registry) (l : Linter) (entry : RuleId × RuleOptions) : Linter :=
  let (id, options) := entry
  let note (message : String) : List LogRecord :=
    l.log ++ activationLog registry id options ++ [⟨.detail, .activation, message⟩]
  match activated registry l.dispatcher id options with
  | (.ok (), d) =>
    { l with
      dispatcher := d
      activeRules := l.activeRules ++ [id]
      log := note s!"Activated rule {id.text} with {options.describe}" }
  | (.error cause, d) =>
    let error : ActivationError := ⟨id, cause⟩
    { l with
      dispatcher := d
      activationErrors := l.activationErrors ++ [error]
      log := note error.message }

/-- The linter for the rules that a table enables. -/
def ofTable (registry : Registry) (table : RuleTable) : Linter :=
  table.enabled.foldl (select registry) {}

/-- The findings in a page. -/
def lint (l : Linter) (text : List Char) : List Diagnostic :=
  (l.dispatcher.page text {}).diagnostics

end Linter

end MarkupLint.Lint

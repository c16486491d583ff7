import MarkupLint.Config.File
import MarkupLint.Lint.Rule

/-!
# Outcomes of commands

A command works on a file tree. What comes of it is a status, what is said while it runs, in the
order of saying, and the tree as it is left, with the paths of the files that were written.
-/

namespace MarkupLint.Cli

open Lint

/-- What the program is run in. -/
structure Surroundings where
  /-- The standard output is a terminal. -/
  terminal : Bool := false
  /-- The user asks all programs for no colour. -/
  refusesColor : Bool := false
deriving DecidableEq, Repr

/-- How a command ends. -/
inductive ExitStatus where
  | success
  /-- Something was found. -/
  | findings
  | failure
  /-- The configuration is not well-formed. -/
  | malformedConfig
deriving DecidableEq, Repr

def ExitStatus.code : ExitStatus → Nat
  | success => 0
  | findings => 1
  | failure => 2
  | malformedConfig => 3

/-- The status after an error of the configuration. -/
def ExitStatus.ofConfigError : Config.ConfigError → ExitStatus
  | .malformed => malformedConfig
  | _ => failure

/-- Something that a command says. -/
inductive Output where
  /-- Text on the standard output. -/
  | text (s : List Char)
  /-- A line for the user beside it. -/
  | line (s : String)
  | note (r : LogRecord)
deriving DecidableEq, Repr

/-- The line on what went wrong. -/
def Output.error (problem : String) : Output := line s!"Error: {problem}"

/-- The line on what the user may not expect. -/
def Output.warning (problem : String) : Output := line s!"Warning: {problem}"

/-- What comes of a command. -/
structure Outcome where
  status : ExitStatus
  outputs : List Output
  tree : FileTree
  /-- The files that were written. -/
  written : List Path := []

namespace Outcome

/-- The text on the standard output. -/
def text (o : Outcome) : List Char :=
  o.outputs.flatMap fun
    | .text s => s
    | _ => []

/-- The lines beside it. -/
def lines (o : Outcome) : List String :=
  o.outputs.filterMap fun
    | .line s => some s
    | _ => none

def notes (o : Outcome) : List LogRecord :=
  o.outputs.filterMap fun
    | .note r => some r
    | _ => none

end Outcome

end MarkupLint.Cli

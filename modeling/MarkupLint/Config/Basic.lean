import MarkupLint.Lint.Linter

/-!
# Configurations

What the user can set: which files are checked, by which rules, and how the findings are shown.
-/

namespace MarkupLint.Config

inductive OutputFormat where
  | human
  | jsonl
deriving DecidableEq, Repr

def OutputFormat.all : List OutputFormat := [human, jsonl]

def OutputFormat.name : OutputFormat → String
  | human => "human"
  | jsonl => "jsonl"

inductive ColorChoice where
  | auto
  | always
  | never
deriving DecidableEq, Repr

def ColorChoice.all : List ColorChoice := [auto, always, never]

def ColorChoice.name : ColorChoice → String
  | auto => "auto"
  | always => "always"
  | never => "never"

/-- The patterns of the files that are checked unless others are given. -/
def defaultInclude : List String := ["**/*.html", "**/*.htm"]

/-- The version of the settings that is understood. -/
def currentVersion : String := "1"

end Config

open Lint Config

/-- A configuration. -/
structure Config where
  version : String := currentVersion
  /-- The patterns of the files that are checked. -/
  includes : List String := defaultInclude
  /-- The patterns of the files that are left out. -/
  excludes : List String := []
  rules : RuleTable := .empty
  format : OutputFormat := .human
  color : ColorChoice := .auto

namespace Config

/-- All settings are those of the default. -/
def isDefault (c : Config) : Bool :=
  let d : Config := {}
  c.version == d.version && c.includes == d.includes && c.excludes == d.excludes &&
    c.rules.entries.isEmpty && c.format == d.format && c.color == d.color

end Config

end MarkupLint

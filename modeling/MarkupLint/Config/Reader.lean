import MarkupLint.Config.Basic
import MarkupLint.Failure
import MarkupLint.Glob.Match
import MarkupLint.Toml.Reader

/-!
# Reading configurations

A configuration is a document with the tables `marklint`, `rules` and `output`. The fields of a
table may also be given in order, as an array; what is not known does not count. A setting that is
left out has its default, but the version must be given.
-/

namespace MarkupLint.Config

open Lint Toml

/-- The name of a setting. -/
def keyOf (s : String) : List Char := s.toList

/-- The fields of a structure: by name, or in order. -/
inductive Fields where
  | named (entries : Entries)
  | ordered (items : List Value)

/-- The fields that a value holds. A date counts as a table without any known field. -/
def fields? : Value → Option Fields
  | .table _ entries => some (.named entries)
  | .array items => some (.ordered items)
  | .tables items => some (.ordered items)
  | .date _ => some (.named [])
  | _ => none

/-- The field of a name, which comes at the given place when the fields are in order. -/
def Fields.get? (f : Fields) (name : String) (place : Nat) : Option Value :=
  match f with
  | named entries => lookup (keyOf name) entries
  | ordered items => items[place]?

/-- Reads a field that has a default. -/
def Fields.getD (f : Fields) (name : String) (place : Nat) (default : α)
    (read : Value → Option α) : Option α :=
  match f.get? name place with
  | none => some default
  | some v => read v

def readText? : Value → Option String
  | .text s => some (String.ofList s)
  | _ => none

def readTexts? : Value → Option (List String)
  | .array items => items.mapM readText?
  | .tables items => items.mapM readText?
  | _ => none

/-- The value is an empty table or array. -/
def isVacant : Value → Bool
  | .table _ entries => entries.isEmpty
  | .array items => items.isEmpty
  | .tables items => items.isEmpty
  | _ => false

/-- Reads one of several names, given as a text or as the only key of a table with nothing in it. -/
def readName? : Value → Option String
  | .text s => some (String.ofList s)
  | .table _ [(key, v)] => if isVacant v then some (String.ofList key) else none
  | _ => none

def readFormat? (v : Value) : Option OutputFormat :=
  (readName? v).bind fun name => OutputFormat.all.find? (·.name == name)

def readColor? (v : Value) : Option ColorChoice :=
  (readName? v).bind fun name => ColorChoice.all.find? (·.name == name)

/-- Reads the options of a rule. -/
def readOptions? : Value → Option RuleOptions
  | .truth on => some (.switch on)
  | .text s => some (.mode (String.ofList s))
  | .table _ entries =>
    match lookup (keyOf "pattern") entries, lookup (keyOf "message") entries with
    | some (.text pattern), some (.text message) =>
      some (.custom (String.ofList pattern) (String.ofList message))
    | _, _ => none
  | _ => none

def readRule? (e : List Char × Value) : Option (RuleId × RuleOptions) :=
  match RuleId.ofText? (String.ofList e.1), readOptions? e.2 with
  | some id, some options => some (id, options)
  | _, _ => none

def readRules? : Value → Option RuleTable
  | .table _ entries => (entries.mapM readRule?).map IdMap.ofList
  | _ => none

/-- Reads the settings about files into a configuration. -/
def readFiles? (c : Config) (v : Value) : Option Config :=
  match fields? v with
  | none => none
  | some f =>
    match (f.get? "version" 0).bind readText?,
      f.getD "include" 1 c.includes readTexts?, f.getD "exclude" 2 c.excludes readTexts? with
    | some version, some includes, some excludes => some { c with version, includes, excludes }
    | _, _, _ => none

/-- Reads the settings about output into a configuration. -/
def readOutput? (c : Config) (v : Value) : Option Config :=
  match fields? v with
  | none => none
  | some f =>
    match f.getD "format" 0 c.format readFormat?, f.getD "color" 1 c.color readColor? with
    | some format, some color => some { c with format, color }
    | _, _ => none

/-- Reads a document into a configuration. -/
def ofEntries? (es : Entries) : Option Config :=
  match (lookup (keyOf "marklint") es).bind (readFiles? {}) with
  | none => none
  | some c =>
    match (Fields.named es).getD "rules" 1 c.rules readRules? with
    | none => none
    | some rules =>
      (Fields.named es).getD "output" 2 { c with rules } (readOutput? { c with rules })

/-- What is wrong with the first of the patterns that is no glob. -/
def badGlob? (use : String) (patterns : List String) : Option String :=
  patterns.findSome? fun pattern =>
    match Glob.ofText {} pattern with
    | .ok _ => none
    | .error e =>
      some ("Invalid " ++ use ++ " glob pattern '" ++ pattern ++ "': " ++ e.message pattern)

/-- What is wrong with the settings of a configuration. -/
def problem? (c : Config) : Option String :=
  if c.version = currentVersion then
    badGlob? "include" c.includes <|> badGlob? "exclude" c.excludes
  else
    some s!"Unsupported configuration version '{c.version}'. Expected '{currentVersion}'"

def parse (s : List Char) : Except ConfigError Config :=
  match (Toml.read? s).bind ofEntries? with
  | none => .error .malformed
  | some c =>
    match problem? c with
    | none => .ok c
    | some problem => .error (.invalid problem)

end MarkupLint.Config

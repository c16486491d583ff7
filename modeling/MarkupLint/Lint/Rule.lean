import MarkupLint.Failure
import MarkupLint.Lint.Diagnostic

/-!
# Rules

A rule listens to events of some kinds. Its options decide which listeners it has and whether it
accepts the options at all: a rule is switched on or off, set to a mode, or given a pattern and a
message of its own, and only the explicit `false` disables it. A registry holds the known rules,
each under its own identifier; the first rule registered under an identifier stays.
-/

namespace MarkupLint.Text

/-! ## Quoted text

A quoted text stands between double quotes. Quotes, backslashes and the usual control characters
are escaped by one letter; any other character that leaves no mark of its own on paper is written
by its code point. -/

/-- The character leaves a mark of its own on paper, or is the plain space. -/
def isPrintable (c : Char) : Bool :=
  c == ' ' ||
    !(Unicode.isGraphemeExtend c ||
      [Unicode.Category.control, .format, .privateUse, .unassigned, .spaceSeparator,
        .lineSeparator, .paragraphSeparator].any (·.contains c))

def hexDigits (c : Char) : List Char := Nat.toDigits 16 c.toNat

/-- How a character is written between quotes. -/
def quotedChar (c : Char) : List Char :=
  if c = '\x00' then ['\\', '0']
  else if c = '\t' then ['\\', 't']
  else if c = '\r' then ['\\', 'r']
  else if c = '\n' then ['\\', 'n']
  else if c = '"' ∨ c = '\\' then ['\\', c]
  else if isPrintable c then [c]
  else ['\\', 'u', '\x7b'] ++ hexDigits c ++ ['\x7d']

def quoted (s : String) : String :=
  String.ofList ('"' :: (s.toList.flatMap quotedChar ++ ['"']))

end MarkupLint.Text

namespace MarkupLint.Lint

/-! ## Options -/

/-- How a rule is configured. -/
inductive RuleOptions where
  | switch (on : Bool)
  | mode (name : String)
  | custom (pattern message : String)
deriving DecidableEq, Repr

namespace RuleOptions

/-- Everything but the explicit `false` enables a rule. -/
def isEnabled : RuleOptions → Bool
  | switch on => on
  | _ => true

/-- The options as they are shown to the user. -/
def describe : RuleOptions → String
  | switch on => if on then "true" else "false"
  | mode name => "\"" ++ name ++ "\""
  | custom pattern _ => "\x7b pattern = " ++ Text.quoted pattern ++ ", .. \x7d"

/-- For a rule that knows no options: only the switch that is on will do. -/
def expectSwitch (options : RuleOptions) (rule : RuleId) : Except RuleError Unit :=
  match options with
  | switch true => .ok ()
  | _ => .error (.invalidOptions rule.text ("expected \x60true\x60, got " ++ options.describe))

theorem isEnabled_eq_false_iff {o : RuleOptions} : o.isEnabled = false ↔ o = switch false := by
  cases o <;> simp [isEnabled]

end RuleOptions

/-! ## Notes

What the program notes about its own work. Warnings are always shown, details on request. -/

inductive LogLevel where
  | warning
  | detail
deriving DecidableEq, Repr

/-- The part of the program that makes a note. -/
inductive LogSource where
  | indentRule
  | activation
  | execution
deriving DecidableEq, Repr

structure LogRecord where
  level : LogLevel
  source : LogSource
  message : String
deriving DecidableEq, Repr

def LogLevel.name : LogLevel → String
  | warning => "WARN"
  | detail => "DEBUG"

/-- The name under which a part of the program makes its notes. -/
def LogSource.name : LogSource → String
  | indentRule => "marklint::rules::indent"
  | activation => "marklint::engine::linter"
  | execution => "marklint::engine::executor"

/-- The note is shown: every warning is, a detail only on request. -/
def LogRecord.isShown (verbose : Bool) (r : LogRecord) : Bool := r.level == .warning || verbose

/-- The lines of a note, of which all but the first are moved to the right. -/
def LogRecord.lines (r : LogRecord) : List String :=
  match r.message.splitOn "\n" with
  | [] => []
  | l :: ls => s!"{r.level.name} {r.source.name}: {l}" :: ls.map ("    " ++ ·)

/-! ## Rules -/

/-- What is done with the events of one kind. By the contract of rules, a listener looks only at the
event and at what the rule has resolved from its options, so that one activation serves many pages;
it adds findings, and neither reads, changes nor resets those that were reported before. So the
findings are a function of the event. -/
structure Listener where
  kind : Markup.EventKind
  /-- The findings for one event, on behalf of the rule that is named. -/
  hear : Markup.Event → RuleRef → List Diagnostic

/-- What a rule does with its options. -/
structure Activation where
  /-- The listeners, in the order in which they are added. -/
  listeners : List Listener
  outcome : Except RuleError Unit
  log : List LogRecord := []

/-- One check. -/
structure Rule where
  id : RuleId
  description : String
  /-- The options that the rule accepts, as told to the user. -/
  optionsHint : String
  activate : RuleOptions → Activation

/-- The rule as diagnostics name it. -/
def Rule.ref (r : Rule) : RuleRef := ⟨r.id, r.description⟩

/-! ## Registries -/

/-- The known rules. -/
structure Registry where
  rules : IdMap Rule := .empty

namespace Registry

/-- Adds a rule, unless its identifier is taken. The registry is the one that is left, with an error
too. -/
def step (r : Registry) (rule : Rule) : Except RuleError Unit × Registry :=
  match r.rules.get? rule.id with
  | some _ => (.error (.duplicate rule.id.text), r)
  | none => (.ok (), ⟨r.rules.set rule.id rule⟩)

/-- Adds a rule, for a caller that goes on with the registry only if there was no error. -/
def register (r : Registry) (rule : Rule) : Except RuleError Registry :=
  let (answer, next) := r.step rule
  answer.map fun _ => next

def find? (r : Registry) (id : RuleId) : Option Rule := r.rules.get? id

/-- The rules, in ascending order of identifiers. -/
def toList (r : Registry) : List Rule := r.rules.values

def size (r : Registry) : Nat := r.rules.size

def isEmpty (r : Registry) : Bool := r.size == 0

def ofRules (rules : List Rule) : Registry :=
  ⟨IdMap.ofList (rules.map fun rule => (rule.id, rule))⟩

end Registry

end MarkupLint.Lint

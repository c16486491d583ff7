import MarkupLint.Lint.Rule
import MarkupLint.Regex.Reader

/-!
# Indentation

Runs of text must not contain what the mode forbids: spaces when tabs are used for indentation, tabs
when spaces are, or whatever a pattern of the user's own describes. A run of text is reported once,
as a whole, at the start of the page.
-/

namespace MarkupLint.Rules

open Lint

inductive IndentMode where
  | tab
  | space
  /-- Text that matches the pattern is reported with the message. -/
  | custom (pattern message : String)
deriving DecidableEq, Repr

namespace IndentMode

/-- The options that name a mode, as told to the user. -/
def hint : String := "\"tab\", \"space\" or \x7b pattern, message \x7d"

/-- The mode that options name, or what is wrong with them. -/
def ofOptions : RuleOptions → Except String IndentMode
  | .mode "tab" => .ok tab
  | .mode "space" => .ok space
  | .mode name => .error ("unknown mode \"" ++ name ++ "\", expected " ++ hint)
  | .custom pattern message => .ok (custom pattern message)
  | .switch on => .error ("expected " ++ hint ++ ", got " ++ (RuleOptions.switch on).describe)

def pattern : IndentMode → String
  | tab => " +"
  | space => "\t+"
  | custom pattern _ => pattern

def message : IndentMode → String
  | tab => "use only tabs for indentation."
  | space => "use only spaces for indentation."
  | custom _ message => message

/-- The mode as it is noted in the log. -/
def describe : IndentMode → String
  | tab => "Tab"
  | space => "Space"
  | custom pattern message =>
    "Custom \x7b pattern: " ++ Text.quoted pattern ++ ", message: " ++ Text.quoted message ++
      " \x7d"

end IndentMode

/-- A mode that is ready to check runs of text. -/
structure IndentCheck where
  pattern : Regex.Pattern
  message : String

namespace IndentCheck

/-- The check of a mode. -/
def ofMode (mode : IndentMode) : Except RuleError IndentCheck :=
  match Regex.Pattern.ofText mode.pattern with
  | .ok pattern => .ok ⟨pattern, mode.message⟩
  | .error e => .error (.invalidPattern (e.message mode.pattern))

def isViolatedBy (check : IndentCheck) (s : List Char) : Bool := check.pattern.occursIn s

def listener (check : IndentCheck) : Listener where
  kind := .text
  hear event rule :=
    if check.isViolatedBy event.raw then [⟨.warning, check.message, {}, rule, event.raw⟩] else []

end IndentCheck

def indentId : RuleId := ⟨"indent", by decide⟩

/-- The mode and the check that options name. -/
def indentCheck (options : RuleOptions) : Except RuleError (IndentMode × IndentCheck) :=
  match IndentMode.ofOptions options with
  | .error problem => .error (.invalidOptions indentId.text problem)
  | .ok mode => (IndentCheck.ofMode mode).map fun check => (mode, check)

/-- Text must be indented by tabs only, or by spaces only. -/
def indent : Rule where
  id := indentId
  description := "Do not mix tabs and spaces for indentation."
  optionsHint := "\"tab\" | \"space\" | \x7b pattern, message \x7d"
  activate options :=
    match indentCheck options with
    | .error e => { listeners := [], outcome := .error e }
    | .ok (mode, check) =>
      { listeners := [check.listener]
        outcome := .ok ()
        log :=
          [⟨.detail, .indentRule,
            "indent: forbidding /" ++ mode.pattern ++ "/ (" ++ mode.describe ++ ")"⟩] }

end MarkupLint.Rules

/-!
# Failures

Everything that can keep the program from doing its work: a rule that cannot be activated or
registered, a configuration that cannot be used, or trouble with files.
-/

namespace MarkupLint.Lint

/-- Why a rule cannot be activated or registered, with its identifier or what is wrong. -/
inductive RuleError where
  | invalidOptions (rule problem : String)
  | notFound (rule : String)
  | duplicate (rule : String)
  | invalidPattern (problem : String)
deriving DecidableEq, Repr

namespace RuleError

def message : RuleError → String
  | invalidOptions rule problem => s!"Invalid options for rule '{rule}': {problem}"
  | notFound rule => s!"Rule not found: {rule}"
  | duplicate rule => s!"Duplicate rule ID: {rule}"
  | invalidPattern problem => s!"Invalid regex pattern: {problem}"

end RuleError

end MarkupLint.Lint

namespace MarkupLint.Config

/-- Why a configuration cannot be used. -/
inductive ConfigError where
  /-- The file cannot be read. -/
  | unreadable (problem : String)
  /-- The text is not well-formed or does not have the right shape. -/
  | malformed
  /-- A setting has a value that is not allowed. -/
  | invalid (problem : String)
deriving DecidableEq, Repr

def ConfigError.message : ConfigError → String
  | unreadable problem => s!"I/O error: {problem}"
  | malformed => "Invalid configuration: "
  | invalid problem => s!"Invalid configuration: {problem}"

end MarkupLint.Config

namespace MarkupLint

/-- What keeps the program from doing its work, with the part of the program named first. -/
inductive Failure where
  | config (e : Config.ConfigError)
  | rule (e : Lint.RuleError)
  /-- Reading or writing went wrong. -/
  | io (problem : String)
deriving DecidableEq, Repr

def Failure.message : Failure → String
  | config e => s!"Configuration error: {e.message}"
  | rule e => s!"Rule error: {e.message}"
  | io problem => s!"I/O error: {problem}"

end MarkupLint

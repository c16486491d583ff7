import MarkupLint.Report.Jsonl

/-!
# Listings of rules

What the user is told about the rules that there are, and how they are configured.
-/

namespace MarkupLint.Report

inductive RuleState where
  | unconfigured
  | disabled
  | enabled (options : String)
deriving DecidableEq, Repr

namespace RuleState

def name : RuleState → String
  | unconfigured => "unconfigured"
  | disabled => "disabled"
  | enabled _ => "enabled"

def isEnabled : RuleState → Bool
  | enabled _ => true
  | _ => false

def options? : RuleState → Option String
  | enabled options => some options
  | _ => none

end RuleState

/-- What is told about one rule. -/
structure RuleListing where
  ruleId : String
  description : String
  /-- The options that the rule accepts. -/
  accepts : String
  state : RuleState
deriving DecidableEq, Repr

/-- The state as it is told to people. -/
def statusText : RuleState → String
  | .enabled options => s!"enabled ({options})"
  | state => state.name

def listingText (l : RuleListing) : String :=
  s!"{l.ruleId}\n  Description: {l.description}\n  Options: {l.accepts}\n" ++
    s!"  Status: {statusText l.state}\n\n"

def humanListing (ls : List RuleListing) : String :=
  let enabled := (ls.filter (·.state.isEnabled)).length
  s!"Rules ({ls.length} available, {enabled} enabled):\n\n" ++ String.join (ls.map listingText)

/-- The record of one rule. -/
def listingRecord (l : RuleListing) : JsonRecord :=
  [("rule_id", .text l.ruleId.toList), ("description", .text l.description.toList),
    ("accepted_options", .text l.accepts.toList), ("status", .text l.state.name.toList)] ++
    match l.state.options? with
    | none => []
    | some options => [("options", .text options.toList)]

def jsonlListing (ls : List RuleListing) : List Char :=
  ls.flatMap fun l => (listingRecord l).line

end MarkupLint.Report

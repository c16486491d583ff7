import MarkupLint.Cli.Arguments
import MarkupLint.Cli.Outcome
import MarkupLint.Files.Discovery
import MarkupLint.Report.Human
import MarkupLint.Report.Jsonl
import MarkupLint.Report.RuleListing
import MarkupLint.Rules.Builtin

/-!
# Commands

What the user asks for is carried out: files are checked, the rules are listed, or a default
configuration is written into the working folder. When files are checked, a rule that cannot be
activated makes the command fail, but the other rules still do their work. Of the notes only those
are written that the user wants to see.
-/

namespace MarkupLint.Cli

open Config Lint Report

/-! ## Checking -/

def usesColor (s : Surroundings) : ColorChoice → Bool
  | .always => true
  | .never => false
  | .auto => s.terminal && !s.refusesColor

/-- The status of a check that came to its end. -/
def statusOf (refusedRules findings : Nat) : ExitStatus :=
  if refusedRules > 0 then .failure else if findings > 0 then .findings else .success

def reportText (format : OutputFormat) (colored : Bool) (r : Report) : List Char :=
  match format with
  | .human => human colored r ++ if colored then resetStyle else []
  | .jsonl => jsonl r

/-- What a linter says before it is used. -/
def introduction (l : Linter) : List Output :=
  l.log.map .note ++ l.activationErrors.map fun e => .error e.message

def checkFiles (t : FileTree) (l : Linter) (format : OutputFormat) (colored : Bool)
    (files : List Path) : Outcome :=
  let os := outcomes t l files
  let r := reportOf os
  let start : List Output :=
    match format with
    | .human => [.line s!"Checking {files.length} files with {l.activeRules.length} rules..."]
    | .jsonl => []
  let notes := os.map fun o => Output.note o.note
  { status := statusOf l.activationErrors.length r.total
    outputs := start ++ notes ++ [.text (reportText format colored r)]
    tree := t }

/-- Checks what is found below the roots by a linter. -/
def checkRoots (t : FileTree) (l : Linter) (c : Config) (format : OutputFormat) (colored : Bool)
    (roots : List Path) : Outcome :=
  let idle (warning : String) : Outcome :=
    ⟨statusOf l.activationErrors.length 0, [.warning warning], t, []⟩
  if l.activeRules.isEmpty then idle "No rules are enabled. Nothing to check."
  else
    match Files.discover t c.includes c.excludes roots with
    | .error e => ⟨.failure, [.error s!"File walker error: {e.message}"], t, []⟩
    | .ok [] => idle "No files found to check."
    | .ok files => checkFiles t l format colored files

/-- Checks the files below some roots, as a file of settings says. -/
def check (t : FileTree) (s : Surroundings) (color : Option ColorChoice) (roots : List Path)
    (format : Option OutputFormat) (config : Option Path) : Outcome :=
  match loadOrFind t config with
  | .error e => ⟨.ofConfigError e, [.error (Failure.config e).message], t, []⟩
  | .ok c =>
    let l := Linter.ofTable Rules.builtinRegistry c.rules
    let o :=
      checkRoots t l c (format.getD c.format) (usesColor s (color.getD c.color)) roots
    { o with outputs := introduction l ++ o.outputs }

/-! ## Listing -/

/-- How a rule is configured by a table. -/
def stateIn (table : RuleTable) (id : RuleId) : RuleState :=
  match table.get? id with
  | none => .unconfigured
  | some o => if o.isEnabled then .enabled o.describe else .disabled

/-- What is told about the rules of a registry. -/
def listings (registry : Registry) (table : RuleTable) : List RuleListing :=
  registry.toList.map fun r => ⟨r.id.text, r.description, r.optionsHint, stateIn table r.id⟩

def renderListings (format : OutputFormat) (ls : List RuleListing) : List Char :=
  match format with
  | .human => (humanListing ls).toList
  | .jsonl => jsonlListing ls

def list (t : FileTree) (format : OutputFormat) (config : Option Path) : Outcome :=
  match loadIfAny t config with
  | .error e => ⟨.ofConfigError e, [.error (Failure.config e).message], t, []⟩
  | .ok c =>
    let table := (c.map (·.rules)).getD .empty
    ⟨.success, [.text (renderListings format (listings Rules.builtinRegistry table))], t, []⟩

/-! ## Initialisation -/

def workingFolder : Path := .ofString "."

/-- Writes a default configuration; one that is there is replaced only by `force`. -/
def init (t : FileTree) (force : Bool) : Outcome :=
  match writeDefault t workingFolder force with
  | (.error e, t) => ⟨.failure, [.error e.message], t, []⟩
  | (.ok .created, t) => ⟨.success, [.text s!"Created {fileName}.\n".toList], t, [filePath]⟩
  | (.ok .overwritten, t) => ⟨.success, [.text s!"Overwrote {fileName}.\n".toList], t, [filePath]⟩
  | (.ok .skipped, t) =>
    ⟨.success, [.line s!"{fileName} already exists. Use --force to overwrite it."], t, []⟩

/-! ## Requests -/

/-- The output is written. -/
def Output.isShown (verbose : Bool) : Output → Bool
  | note r => r.isShown verbose
  | _ => true

def Command.run (t : FileTree) (s : Surroundings) (color : Option Config.ColorChoice) :
    Command → Outcome
  | check roots format config => Cli.check t s color roots format config
  | init force => Cli.init t force
  | list format config => Cli.list t format config

def Request.run (t : FileTree) (s : Surroundings) (r : Request) : Outcome :=
  let o := r.command.run t s r.color
  { o with outputs := o.outputs.filter (·.isShown r.verbose) }

end MarkupLint.Cli

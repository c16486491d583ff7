import MarkupLint.Config.Reader
import MarkupLint.Files.Tree

/-!
# Configuration files

The configuration of a folder is kept in a file of a fixed name. It can be loaded, and a default one
can be written where there is none.
-/

namespace MarkupLint.Config

open Files

def fileName : String := "marklint.toml"

/-- The file in the working folder. -/
def filePath : Path := .ofString fileName

/-- The text that is written unless there is a file. -/
def defaultText : String := "[marklint]
version = \"1\"

# File patterns to include
include = [\"**/*.html\", \"**/*.htm\"]

# File patterns to exclude
# exclude = [\"**/vendor/**\"]

[rules]
# Indentation: \"tab\", \"space\", or \x7b pattern = \"...\", message = \"...\" \x7d
indent = \"space\"

# Switch-only rules: true to enable, false to disable
tagname-lowercase = true
# style-disabled = true

[output]
format = \"human\"
color = \"auto\"
"

def load (t : FileTree) (p : Path) : Except ConfigError Config :=
  match t.readText p with
  | .error e => .error (.unreadable e.message)
  | .ok text => parse text

/-- Loads the given file, or the one in the working folder. -/
def loadOrFind (t : FileTree) (p : Option Path) : Except ConfigError Config :=
  match p with
  | some p => load t p
  | none =>
    if t.contains filePath then load t filePath
    else
      .error (.unreadable (fileName ++ " not found. Run 'marklint init' to create it."))

/-- Loads the given file, or the one in the working folder if there is one. -/
def loadIfAny (t : FileTree) (p : Option Path) : Except ConfigError (Option Config) :=
  match p with
  | some p => (load t p).map some
  | none => if t.contains filePath then (load t filePath).map some else .ok none

/-! ## Writing the default -/

/-- What came of the attempt to write the default. -/
inductive InitOutcome where
  | created
  | skipped
  | overwritten
deriving DecidableEq, Repr

/-- Why the default cannot be written. -/
inductive InitError where
  | io (e : FileError)
  | notAFile (path : Path)
deriving DecidableEq, Repr

def InitError.message : InitError → String
  | io e => s!"I/O error: {e.message}"
  | notAFile path => "Path '" ++ String.ofList path.shown ++ "' exists but is not a file"

/-- Writes the default into a folder; a file that is there is replaced only by `force`. The tree is
the one that is left, with an error too. -/
def writeDefault (t : FileTree) (folder : Path) (force : Bool) :
    Except InitError InitOutcome × FileTree :=
  let path := folder.join (Text.utf8 fileName.toList)
  let write (outcome : InitOutcome) : Except InitError InitOutcome × FileTree :=
    match t.write path (Text.utf8 defaultText.toList) with
    | (.ok (), t) => (.ok outcome, t)
    | (.error e, t) => (.error (.io e), t)
  if !t.contains path then write .created
  else if !t.hasFile path then (.error (.notAFile path), t)
  else if force then write .overwritten
  else (.ok .skipped, t)

/-- Writes the default, for a caller that goes on with the tree only if there was no error. -/
def initIn (t : FileTree) (folder : Path) (force : Bool) :
    Except InitError (InitOutcome × FileTree) :=
  let (answer, next) := writeDefault t folder force
  answer.map (·, next)

end MarkupLint.Config

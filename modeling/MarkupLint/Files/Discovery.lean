import MarkupLint.Files.Ignore

/-!
# Discovery of files

A walk visits everything below a root that no ignore file hides, the root itself first. A file is
selected if it matches one of the patterns to include, when there are any, and none of those to
exclude; what belongs to the store of a repository is always excluded. The files that are selected
from several roots are put in the order of paths, each once.
-/

namespace MarkupLint.Files

/-! ## Visits -/

mutual

/-- The paths that are visited from a node on, each with a mark on files. The levels are those of
the folders above. -/
def visit (levels : List IgnoreLevel) (path : Path) : Node → List (Path × Bool)
  | .file _ => [(path, true)]
  | .folder es => (path, false) :: visitEntries (.ofFolder es :: levels) path es

/-- The paths that are visited among the entries of a folder. -/
def visitEntries (levels : List IgnoreLevel) (path : Path) : List (Name × Node) → List (Path × Bool)
  | [] => []
  | (name, n) :: es =>
    (if isIgnored levels name n.isFolder then []
    else visit (levels.map (·.down name)) (path.join name) n) ++ visitEntries levels path es

end

/-- The path that stands for the standard input. -/
def standardInput : Path := .ofString "-"

/-- The paths that are visited from a root on. -/
def visits (t : FileTree) (root : Path) : Except FileError (List (Path × Bool)) :=
  if root.same standardInput then .ok [(.ofString "<stdin>", false)]
  else (t.spot root).map fun s => visit (levelsAbove [] s.above) root s.node

/-! ## Selection -/

inductive WalkError where
  | invalidGlob (glob : String) (e : Glob.GlobError)
  | unreadable (root : Path) (e : FileError)

def WalkError.message : WalkError → String
  | invalidGlob glob e => "Invalid glob pattern '" ++ glob ++ "': " ++ e.message glob
  | unreadable root e =>
    let shown := String.ofList root.shown
    s!"Walk error: {shown}: IO error for operation on {shown}: {e.message}"

/-- The patterns by which files are selected. -/
structure Selection where
  includes : List Glob
  excludes : List Glob

def readGlobs (patterns : List String) : Except WalkError (List Glob) :=
  patterns.mapM fun pattern =>
    match Glob.ofText {} pattern with
    | .ok g => .ok g
    | .error e => .error (.invalidGlob pattern e)

/-- The pattern of what belongs to the store of a repository. -/
def storePattern : String := "**/.git/**"

/-- Reads the patterns to include and those to exclude. -/
def Selection.ofPatterns (includes excludes : List String) : Except WalkError Selection :=
  match readGlobs includes with
  | .error e => .error e
  | .ok includes =>
    (readGlobs (excludes ++ [storePattern])).map fun excludes => ⟨includes, excludes⟩

/-- The file is selected. -/
def Selection.admits (s : Selection) (p : Path) : Bool :=
  (s.includes.isEmpty || s.includes.any (·.isMatch p)) && !s.excludes.any (·.isMatch p)

inductive Status where
  | file
  | excluded
  | notAFile
deriving DecidableEq, Repr

/-- What a walk says about a path that it visits. -/
def Selection.status (s : Selection) (v : Path × Bool) : Status :=
  if v.2 then if s.admits v.1 then .file else .excluded else .notAFile

/-- A path that a walk visits. -/
structure WalkEntry where
  path : Path
  status : Status

/-- The paths that a walk visits, with what it says about them. -/
def walkAll (t : FileTree) (root : Path) (s : Selection) : Except WalkError (List WalkEntry) :=
  match visits t root with
  | .error e => .error (.unreadable root e)
  | .ok vs => .ok (vs.map fun v => ⟨v.1, s.status v⟩)

/-- The files that a walk selects. -/
def walk (t : FileTree) (root : Path) (s : Selection) : Except WalkError (List Path) :=
  (walkAll t root s).map fun es => (es.filter (·.status == .file)).map (·.path)

/-! ## Several roots -/

/-- The files that are selected from each root, or the first error. -/
def walkRoots (t : FileTree) (includes excludes : List String) :
    List Path → Except WalkError (List Path)
  | [] => .ok []
  | root :: roots =>
    match Selection.ofPatterns includes excludes with
    | .error e => .error e
    | .ok s =>
      match walk t root s with
      | .error e => .error e
      | .ok files => (walkRoots t includes excludes roots).map (files ++ ·)

/-- Leaves out the paths that are the same as the one before. -/
def dedup : List Path → List Path
  | [] => []
  | [p] => [p]
  | p :: q :: ps => if p.same q then dedup (p :: ps) else p :: dedup (q :: ps)
termination_by ps => ps.length

/-- The files that are selected from the roots. -/
def discover (t : FileTree) (includes excludes : List String) (roots : List Path) :
    Except WalkError (List Path) :=
  (walkRoots t includes excludes roots).map fun files => dedup (files.mergeSort Path.le)

end MarkupLint.Files

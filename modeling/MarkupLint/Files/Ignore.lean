import MarkupLint.Files.Tree
import MarkupLint.Glob.Match

/-!
# Ignored paths

An ignore file has one rule a line. A rule matches paths relative to the folder of its file, from
there if it has a slash in front or within, and anywhere below otherwise; a slash at the end makes
it match folders only. An exclamation mark in front takes back what other rules say. Of the rules
of a file that match, the last one counts.

Each folder on the way down to a path may hold ignore files. A general one counts always; those of a
repository count only where some folder on the way is the top of a repository, and only up to the
nearest such folder. The general files come first, then those of the repository, then its list of
exclusions; among files of one sort, the nearest comes first.
-/

namespace MarkupLint.Files

/-! ## Rules -/

/-- How globs are read and matched in ignore files. -/
def ignoreDialect : Glob.Dialect := { slashIsApart := true, allowOpenSet := true }

structure IgnoreRule where
  glob : Glob
  /-- What matches is kept. -/
  keeps : Bool
  foldersOnly : Bool

/-- What ignore files say about a path. -/
inductive Verdict where
  | ignored
  | kept
deriving DecidableEq, Repr

/-- The end of a line without the blanks that do not count. -/
def trimRule (s : List Char) : List Char :=
  if ['\\', ' '].isSuffixOf s then s else Text.trimEnd s

/-- Cuts a slash at the end, and a backslash before it. -/
def cutFolderMark (s : List Char) : Bool × List Char :=
  if s.getLast? = some '/' then
    let s := s.dropLast
    (true, if s.getLast? = some '\\' then s.dropLast else s)
  else (false, s)

/-- The glob that a rule stands for. -/
def ruleGlob (anchored : Bool) (s : List Char) : List Char :=
  let s :=
    if anchored || s.contains '/' || s == ['*', '*'] then s else ['*', '*', '/'] ++ s
  if ['/', '*', '*'].isSuffixOf s then s ++ ['/', '*'] else s

/-- The rule of a line without its mark; `anchored` tells whether it had a slash in front. -/
def ruleOfBody (keeps anchored : Bool) (s : List Char) : Option IgnoreRule :=
  let (foldersOnly, s) := cutFolderMark s
  match Glob.ofText ignoreDialect (String.ofList (ruleGlob anchored s)) with
  | .ok glob => some ⟨glob, keeps, foldersOnly⟩
  | .error _ => none

/-- The rule of a line, unless the line is empty, a comment or no glob. -/
def IgnoreRule.ofLine (line : List Char) : Option IgnoreRule :=
  if line.head? = some '#' then none
  else
    match trimRule line with
    | [] => none
    | '\\' :: '!' :: s => ruleOfBody false false ('!' :: s)
    | '\\' :: '#' :: s => ruleOfBody false false ('#' :: s)
    | '!' :: '/' :: s => ruleOfBody true true s
    | '!' :: s => ruleOfBody true false s
    | '/' :: s => ruleOfBody false true s
    | s => ruleOfBody false false s

/-- Drops a carriage return at the end of a line, which is given in reverse. -/
def dropReturn : List UInt8 → List UInt8
  | 13 :: line => line
  | line => line

/-- Cuts bytes at line feeds; `line` holds the current line in reverse. -/
def byteLinesFrom (line : List UInt8) : List UInt8 → List (List UInt8)
  | [] => [line.reverse]
  | b :: s =>
    if b = 10 then (dropReturn line).reverse :: byteLinesFrom [] s
    else byteLinesFrom (b :: line) s

/-- The lines of a file, up to the first that is no text. -/
def textLines (content : List UInt8) : List (List Char) :=
  (((byteLinesFrom [] content).map Text.ofUtf8?).takeWhile (·.isSome)).filterMap id

/-- The rules of an ignore file. A byte order mark in front does not count. -/
def ignoreRules (content : List UInt8) : List IgnoreRule :=
  match textLines content with
  | [] => []
  | line :: lines => (line.dropWhile (· == '\ufeff') :: lines).filterMap IgnoreRule.ofLine

/-- What rules say about a path, given relative to the folder of their file. -/
def verdict (rules : List IgnoreRule) (path : Path) (isFolder : Bool) : Option Verdict :=
  (rules.reverse.find? fun r => (isFolder || !r.foldersOnly) && r.glob.isMatch path).map
    fun r => if r.keeps then .kept else .ignored

/-! ## Folders -/

/-- What a folder says about the paths below it. -/
structure IgnoreLevel where
  /-- The rules of the general ignore file. -/
  general : List IgnoreRule
  /-- The rules of the ignore file of the repository. -/
  shared : List IgnoreRule
  /-- The exclusions of the repository. -/
  exclusions : List IgnoreRule
  /-- The folder is the top of a repository. -/
  isTop : Bool
  /-- The names that lead from the folder to the current one. -/
  way : List Name

def nameOf (s : String) : Name := Text.utf8 s.toList

def rulesOf : Option Node → List IgnoreRule
  | some (.file content) => ignoreRules content
  | _ => []

/-- The node that names lead to. -/
def descend : List Name → Option Node → Option Node
  | name :: names, some (.folder es) => descend names (child? es name)
  | [], n => n
  | _, _ => none

/-- What a folder with the given entries says. -/
def IgnoreLevel.ofFolder (es : Folder) : IgnoreLevel :=
  let repository := child? es (nameOf ".git")
  { general := rulesOf (child? es (nameOf ".ignore"))
    shared := rulesOf (child? es (nameOf ".gitignore"))
    exclusions := rulesOf (descend [nameOf "info", nameOf "exclude"] repository)
    isTop := repository.isSome
    way := [] }

/-- What the folder says when the current folder is left for one of its entries. -/
def IgnoreLevel.down (l : IgnoreLevel) (name : Name) : IgnoreLevel :=
  { l with way := l.way ++ [name] }

/-- The path to an entry of the current folder from the folder of the level. -/
def IgnoreLevel.pathTo (l : IgnoreLevel) (name : Name) : Path :=
  (l.way ++ [name]).foldl Path.join ⟨[]⟩

/-- The levels up to the nearest top of a repository, from the nearest on. -/
def upToTop : List IgnoreLevel → List IgnoreLevel
  | [] => []
  | l :: ls => if l.isTop then [l] else l :: upToTop ls

/-- What the levels, the nearest first, say about an entry of the current folder. -/
def levelsVerdict (levels : List IgnoreLevel) (name : Name) (isFolder : Bool) : Option Verdict :=
  let ask (rules : IgnoreLevel → List IgnoreRule) (l : IgnoreLevel) : Option Verdict :=
    verdict (rules l) (l.pathTo name) isFolder
  let ofRepository := if levels.any (·.isTop) then upToTop levels else []
  levels.findSome? (ask (·.general)) <|> ofRepository.findSome? (ask (·.shared)) <|>
    ofRepository.findSome? (ask (·.exclusions))

def isIgnored (levels : List IgnoreLevel) (name : Name) (isFolder : Bool) : Bool :=
  levelsVerdict levels name isFolder == some .ignored

/-- The levels of the folders above a place, the nearest first. -/
def levelsAbove : List Name → List (Folder × Name) → List IgnoreLevel
  | _, [] => []
  | way, (es, name) :: above =>
    { IgnoreLevel.ofFolder es with way := name :: way } :: levelsAbove (name :: way) above

end MarkupLint.Files

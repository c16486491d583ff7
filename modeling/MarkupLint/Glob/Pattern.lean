/-!
# Glob patterns

A glob is a sequence of parts. `*` stands for any characters, `?` for one; `**` as a whole component
stands for any components; `[…]` stands for one character of a set, and `{…,…}` for one of several
branches. A backslash makes the next character stand for itself.
-/

namespace MarkupLint.Glob

/-- The parts of globs. -/
inductive Part where
  | char (c : Char)
  | anyChar
  | anyChars
  /-- Any components, of which the last ends with a slash: `**/` at the front. -/
  | leading
  /-- A slash and any components: `/**` at the end. -/
  | trailing
  /-- Any components between slashes: `/**/`. -/
  | between
  /-- One character of the ranges, or one outside of them. -/
  | set (negated : Bool) (ranges : List (Char × Char))
  | branches (bs : List (List Part))

/-- Why a text is no glob. -/
inductive GlobError where
  | unclosedSet
  | invalidRange (first last : Char)
  | unclosedBranches
  | unopenedBranches
  | danglingEscape
deriving DecidableEq, Repr

/-- The reason that is given for an error. -/
def GlobError.reason : GlobError → String
  | unclosedSet => "unclosed character class; missing ']'"
  | invalidRange first last =>
    "invalid range; '" ++ first.toString ++ "' > '" ++ last.toString ++ "'"
  | unclosedBranches =>
    "unclosed alternate group; missing '\x7d' (maybe escape '\x7b' with '[\x7b]'?)"
  | unopenedBranches =>
    "unopened alternate group; missing '\x7b' (maybe escape '\x7d' with '[\x7d]'?)"
  | danglingEscape => "dangling '\\'"

def GlobError.message (glob : String) (e : GlobError) : String :=
  "error parsing glob '" ++ glob ++ "': " ++ e.reason

/-- Which texts are globs, and what they match. -/
structure Dialect where
  /-- Only `**` goes across slashes. -/
  slashIsApart : Bool := false
  /-- A bracket that opens no set stands for itself. -/
  allowOpenSet : Bool := false

/-- Branches that are being read. -/
structure Group where
  /-- The branches before the current one, the last first. -/
  done : List (List Part)
  /-- The parts around the group that have been read so far, the last first. -/
  outside : List Part

/-- How far a glob has been read. -/
structure Progress where
  /-- The parts of the current branch, the last first. -/
  parts : List Part := []
  /-- The groups around the current branch, the innermost first. -/
  groups : List Group := []
  /-- The character that was read last. -/
  before : Option Char := none
  /-- A bracket has been found that opens no set. -/
  openSet : Bool := false

namespace Progress

def push (p : Progress) (part : Part) : Progress := { p with parts := part :: p.parts }

/-- Adds a part after the given character has been read. -/
def read (p : Progress) (c : Char) (part : Part) : Progress :=
  { p with parts := part :: p.parts, before := some c }

def openGroup (p : Progress) : Progress :=
  { p with parts := [], groups := ⟨[], p.parts⟩ :: p.groups, before := some '\x7b' }

def closeGroup (p : Progress) : Except GlobError Progress :=
  match p.groups with
  | [] => .error .unopenedBranches
  | g :: gs =>
    .ok {
      p with
      parts := .branches ((p.parts.reverse :: g.done).reverse) :: g.outside
      groups := gs
      before := some '\x7d' }

/-- A comma separates the branches of a group, and stands for itself elsewhere. -/
def comma (p : Progress) : Progress :=
  match p.groups with
  | [] => p.read ',' (.char ',')
  | g :: gs =>
    { p with
      parts := []
      groups := { g with done := p.parts.reverse :: g.done } :: gs
      before := some ',' }

/-- Two stars that are no component stand for any characters. -/
def twoStars (p : Progress) : Progress :=
  { p with parts := .anyChars :: .anyChars :: p.parts, before := some '*' }

/-- Puts a part for any components in the place of the slash before it. -/
def replaceSlash (p : Progress) (part : Part) (last : Char) : Progress :=
  let part :=
    match p.parts with
    | .leading :: _ => .leading
    | .trailing :: _ => .trailing
    | _ => part
  { p with parts := part :: p.parts.tail, before := some last }

/-- Reads two stars, after them. -/
def stars (p : Progress) (s : List Char) : Progress × List Char :=
  if p.parts.isEmpty then
    match s with
    | [] => (p.read '*' .leading, [])
    | '/' :: s => (p.read '/' .leading, s)
    | s => (p.twoStars, s)
  else if p.before = some '/' ∨
      (¬p.groups.isEmpty ∧ (p.before = some ',' ∨ p.before = some '\x7b')) then
    match s with
    | [] => (p.replaceSlash .trailing '*', [])
    | '/' :: s => (p.replaceSlash .between '/', s)
    | c :: s =>
      if ¬p.groups.isEmpty ∧ (c = ',' ∨ c = '\x7d') then (p.replaceSlash .trailing '*', c :: s)
      else (p.twoStars, c :: s)
  else (p.twoStars, s)

end Progress

def endRange (c : Char) : List (Char × Char) → Except GlobError (List (Char × Char))
  | [] => .ok []
  | r :: rs => if c < r.1 then .error (.invalidRange r.1 c) else .ok ((r.1, c) :: rs)

/-- Reads the ranges of a set up to the bracket that closes it; `ranges` holds the last first. -/
def readRanges (first inRange : Bool) (ranges : List (Char × Char)) :
    List Char → Except GlobError (List (Char × Char) × List Char)
  | [] => .error .unclosedSet
  | c :: s =>
    if c = ']' ∧ ¬first then
      .ok ((if inRange then ('-', '-') :: ranges else ranges).reverse, s)
    else if c = '-' ∧ ¬first ∧ ¬inRange then readRanges false true ranges s
    else if inRange then
      match endRange c ranges with
      | .error e => .error e
      | .ok ranges => readRanges false false ranges s
    else readRanges false false ((c, c) :: ranges) s

def readSet (s : List Char) : Except GlobError (Part × List Char) :=
  let (negated, s) :=
    match s with
    | '!' :: s => (true, s)
    | '^' :: s => (true, s)
    | s => (false, s)
  (readRanges true false [] s).map fun (ranges, s) => (.set negated ranges, s)

def readParts (d : Dialect) : Nat → Progress → List Char → Except GlobError Progress
  | 0, _, _ => .error .danglingEscape
  | _ + 1, p, [] => .ok p
  | fuel + 1, p, c :: s =>
    match c with
    | '?' => readParts d fuel (p.read '?' .anyChar) s
    | '*' =>
      match s with
      | '*' :: s =>
        let (p, s) := p.stars s
        readParts d fuel p s
      | s => readParts d fuel (p.read '*' .anyChars) s
    | '[' =>
      if p.openSet then readParts d fuel (p.read '[' (.char '[')) s
      else
        match readSet s with
        | .ok (part, s) => readParts d fuel (p.read ']' part) s
        | .error e =>
          if d.allowOpenSet ∧ e = .unclosedSet then
            readParts d fuel { p.read '[' (.char '[') with openSet := true } s
          else .error e
    | '\x7b' => readParts d fuel p.openGroup s
    | '\x7d' =>
      match p.closeGroup with
      | .ok p => readParts d fuel p s
      | .error e => .error e
    | ',' => readParts d fuel p.comma s
    | '\\' =>
      match s with
      | [] => .error .danglingEscape
      | c :: s => readParts d fuel (p.read c (.char c)) s
    | c => readParts d fuel (p.read c (.char c)) s

def parse (d : Dialect) (s : List Char) : Except GlobError (List Part) :=
  match readParts d (s.length + 1) {} s with
  | .error e => .error e
  | .ok p => if p.groups.isEmpty then .ok p.parts.reverse else .error .unclosedBranches

end MarkupLint.Glob

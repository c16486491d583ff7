import MarkupLint.Toml.Scalar
import MarkupLint.Toml.Table
import MarkupLint.Toml.Text

/-!
# Reading TOML documents

A document consists of lines: entries, headers of tables, and headers of tables in arrays. An entry
goes into the table of the last header before it.
-/

namespace MarkupLint.Toml

/-- How many values may be nested, or keys be joined by dots, at most. -/
def nestingLimit : Nat := 80

def isKeyChar (c : Char) : Bool := c.isAlphanum || c == '_' || c == '-'

def readSimpleKey (s : List Char) : Option (List Char × List Char) :=
  match s with
  | '"' :: _ => readLineText s
  | '\'' :: _ => readLineText s
  | s =>
    let key := s.takeWhile isKeyChar
    if key.isEmpty then none else some (key, s.drop key.length)

/-- Reads the parts of a dotted key, the last first. -/
def readKeyFrom : Nat → List (List Char) → List Char → Option (List (List Char) × List Char)
  | 0, _, _ => none
  | fuel + 1, seen, s =>
    match readSimpleKey (skipSpace s) with
    | none => none
    | some (key, s) =>
      match skipSpace s with
      | '.' :: s => readKeyFrom fuel (key :: seen) s
      | s => some (key :: seen, s)

/-- Reads a dotted key: the way to its last part, that part, and the rest after blanks. -/
def readKey (s : List Char) : Option (List (List Char) × List Char × List Char) :=
  match readKeyFrom nestingLimit [] s with
  | some (key :: path, s) =>
    if path.length + 1 < nestingLimit then some (path.reverse, key, s) else none
  | _ => none

def skipComment (s : List Char) : Option (List Char) :=
  match s with
  | '#' :: s =>
    match s.dropWhile isPlainChar with
    | [] => some []
    | '\n' :: s => some ('\n' :: s)
    | '\r' :: '\n' :: s => some ('\n' :: s)
    | _ => none
  | s => some s

def skipLines (comment : Bool) : List Char → Option (List Char)
  | [] => some []
  | '\n' :: s => skipLines false s
  | '\r' :: '\n' :: s => skipLines false s
  | c :: s =>
    if comment then if isPlainChar c then skipLines true s else none
    else if isSpace c then skipLines false s
    else if c = '#' then skipLines true s
    else some (c :: s)

mutual

def readValue : Nat → Nat → List Char → Option (Value × List Char)
  | 0, _, _ => none
  | fuel + 1, depth, s =>
    match s with
    | '"' :: _ => (readText s).map fun (t, s) => (.text t, s)
    | '\'' :: _ => (readText s).map fun (t, s) => (.text t, s)
    | '[' :: s => if depth + 1 < nestingLimit then readItems fuel (depth + 1) [] s else none
    | '\x7b' :: s =>
      if depth + 1 < nestingLimit then
        match skipSpace s with
        | '\x7d' :: s => some (.table .inline [], s)
        | s => readFields fuel (depth + 1) ⟨.inline, []⟩ s
      else none
    | s => readScalar s

/-- Reads the items of an array up to its closing bracket; `seen` holds the last first. -/
def readItems : Nat → Nat → List Value → List Char → Option (Value × List Char)
  | 0, _, _, _ => none
  | fuel + 1, depth, seen, s =>
    match skipLines false s with
    | some (']' :: s) => some (.array seen.reverse, s)
    | some s =>
      match readValue fuel depth s with
      | some (v, s) =>
        match skipLines false s with
        | some (',' :: s) => readItems fuel depth (v :: seen) s
        | some (']' :: s) => some (.array (v :: seen).reverse, s)
        | _ => none
      | none => none
    | none => none

/-- Reads the entries of a table in braces up to its closing brace. -/
def readFields : Nat → Nat → Table → List Char → Option (Value × List Char)
  | 0, _, _, _ => none
  | fuel + 1, depth, t, s =>
    match readKey s with
    | some (path, key, '=' :: s) =>
      match readValue fuel depth (skipSpace s) with
      | some (v, s) =>
        match setEntry path key v t with
        | some t =>
          match skipSpace s with
          | ',' :: s => readFields fuel depth t s
          | '\x7d' :: s => some (t.toValue, s)
          | _ => none
        | none => none
      | none => none
    | _ => none

end

inductive Line where
  | entry (path : List (List Char)) (key : List Char) (v : Value)
  | header (path : List (List Char)) (key : List Char)
  | itemHeader (path : List (List Char)) (key : List Char)

/-- Drops what may follow on a line, and the line end. -/
def finishLine (s : List Char) : Option (List Char) :=
  match skipComment (skipSpace s) with
  | some [] => some []
  | some ('\n' :: s) => some s
  | some ('\r' :: '\n' :: s) => some s
  | _ => none

/-- Reads a line from its first character on. -/
def readLine (s : List Char) : Option (Line × List Char) :=
  match s with
  | '[' :: '[' :: s =>
    match readKey s with
    | some (path, key, ']' :: ']' :: s) => (finishLine s).map fun s => (.itemHeader path key, s)
    | _ => none
  | '[' :: s =>
    match readKey s with
    | some (path, key, ']' :: s) => (finishLine s).map fun s => (.header path key, s)
    | _ => none
  | s =>
    match readKey s with
    | some (path, key, '=' :: t) =>
      match readValue (t.length + 1) 0 (skipSpace t) with
      | some (v, s) => (finishLine s).map fun s => (.entry path key v, s)
      | none => none
    | _ => none

/-- A document that has been read up to a line. -/
structure Progress where
  root : Table := ⟨.header, []⟩
  /-- Where the table of the last header is. -/
  current : List (List Char) := []

def Progress.add (p : Progress) : Line → Option Progress
  | .entry path key v =>
    (within false p.current (setEntry path key v) p.root).map fun root => { p with root }
  | .header path key => (openTable path key p.root).map fun root => ⟨root, path ++ [key]⟩
  | .itemHeader path key => (openNext path key p.root).map fun root => ⟨root, path ++ [key]⟩

def readLines : Nat → Progress → List Char → Option Progress
  | 0, _, _ => none
  | fuel + 1, p, s =>
    match skipLines false s with
    | none => none
    | some [] => some p
    | some s =>
      match readLine s with
      | none => none
      | some (line, s) =>
        match p.add line with
        | none => none
        | some p => readLines fuel p s

/-- The entries of a document. A byte order mark may come first. -/
def read? (s : List Char) : Option Entries :=
  let s :=
    match s with
    | '\ufeff' :: s => s
    | s => s
  (readLines (s.length + 1) {} s).map (·.root.entries)

end MarkupLint.Toml

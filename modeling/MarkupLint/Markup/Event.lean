/-!
# Events

A page of markup is seen as a sequence of events: its pieces in order, between a start and a finish.
Each stands at a position, a line and a column, both counted from one. A line feed ends a line;
every other character takes one column.
-/

namespace MarkupLint.Markup

/-- A place in a text. -/
structure Position where
  line : Nat := 1
  column : Nat := 1
deriving DecidableEq, Repr

namespace Position

/-- The position after one character. -/
def step (p : Position) (c : Char) : Position :=
  if c = '\n' then ⟨p.line + 1, 1⟩ else ⟨p.line, p.column + 1⟩

/-- The position after a text. -/
def advance (p : Position) (s : List Char) : Position := s.foldl step p

@[simp]
theorem advance_append (p : Position) (s t : List Char) :
    p.advance (s ++ t) = (p.advance s).advance t := List.foldl_append

end Position

inductive EventKind where
  | start
  | tagStart
  | tagEnd
  | text
  | comment
  | cdata
  | doctype
  | finish
deriving DecidableEq, Repr

namespace EventKind

def all : List EventKind :=
  [start, tagStart, tagEnd, text, comment, cdata, doctype, finish]

def name : EventKind → String
  | start => "start"
  | tagStart => "tagstart"
  | tagEnd => "tagend"
  | text => "text"
  | comment => "comment"
  | cdata => "cdata"
  | doctype => "doctype"
  | finish => "end"

def ofName? (s : String) : Option EventKind := all.find? (·.name == s)

/-- A kind is read back from its name. -/
theorem ofName?_name (k : EventKind) : ofName? k.name = some k := by cases k <;> decide

theorem mem_all (k : EventKind) : k ∈ all := List.mem_of_find?_eq_some (ofName?_name k)

theorem nodup_all : all.Nodup := by decide

end EventKind

/-- One piece of a page. -/
structure Event where
  kind : EventKind
  /-- The text of the piece. -/
  raw : List Char
  /-- Where the piece starts. -/
  position : Position
  /-- The element name, for tags. -/
  tagName : Option (List Char) := none
deriving DecidableEq, Repr

end MarkupLint.Markup

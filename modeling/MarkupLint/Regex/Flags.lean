import MarkupLint.Regex.CharClass

/-!
# Flags of patterns

Flags change how a pattern is read. They are set for the rest of a group, as in `(?i)`, or for a
group of their own, as in `(?m-s:…)`. No flag may be given twice. In the extended notation, blanks
do not count, nor do comments, which reach from `#` to the end of the line.
-/

namespace MarkupLint.Regex

structure Flags where
  /-- Case does not count. -/
  caseless : Bool := false
  /-- `^` and `$` also match at line ends. -/
  multiLine : Bool := false
  /-- `.` also matches line ends. -/
  dotAll : Bool := false
  /-- Classes know all of Unicode. -/
  unicode : Bool := true
  /-- A line may also end with a carriage return. -/
  crlf : Bool := false
  /-- Blanks and comments in the pattern do not count. -/
  extended : Bool := false

namespace Flags

/-- Turns the flag of a letter on or off. -/
def set? (f : Flags) (letter : Char) (on : Bool) : Option Flags :=
  match letter with
  | 'i' => some { f with caseless := on }
  | 'm' => some { f with multiLine := on }
  | 's' => some { f with dotAll := on }
  | 'u' => some { f with unicode := on }
  | 'R' => some { f with crlf := on }
  | 'x' => some { f with extended := on }
  | 'U' => some f
  | _ => none

/-- Reads letters up to `:` or `)`; `seen` holds those that were read. -/
def readFrom (f : Flags) (seen : List Char) (on dangling : Bool) :
    List Char → Option (Flags × List Char × List Char)
  | [] => none
  | c :: s =>
    if c = ':' ∨ c = ')' then if dangling then none else some (f, seen, c :: s)
    else if seen.contains c then none
    else if c = '-' then f.readFrom (c :: seen) false true s
    else
      match f.set? c on with
      | none => none
      | some f => f.readFrom (c :: seen) on false s

/-- Reads flags: their state, the letters that were read, and the rest from `:` or `)` on. -/
def read? (f : Flags) (s : List Char) : Option (Flags × List Char × List Char) :=
  f.readFrom [] true false s

/-- The single characters that a pattern character stands for. -/
def fold (f : Flags) (a : CharClass) : CharClass :=
  if f.caseless then if f.unicode then a.caseless else a.caselessAscii else a

/-- The class, or what is outside of it. Without Unicode nothing lies outside of a class. -/
def complIf (f : Flags) (negated : Bool) (a : CharClass) : Option CharClass :=
  if negated then if f.unicode then some a.compl else none else some a

end Flags

/-! ## Blanks and comments -/

open Text

/-- Drops blanks and comments; `comment` tells whether the text starts inside a comment. -/
def dropIgnored (comment : Bool) : List Char → List Char
  | [] => []
  | c :: s =>
    if comment then dropIgnored (c != '\n') s
    else if isBlank c then dropIgnored false s
    else if c = '#' then dropIgnored true s
    else c :: s

def skipIgnored (extended : Bool) (s : List Char) : List Char :=
  if extended then dropIgnored false s else s

/-- Takes characters as long as they pass the test; what does not count may follow each of them. -/
def takeSpacedFrom (test : Char → Bool) (extended comment : Bool) (seen : List Char) :
    List Char → List Char × List Char
  | [] => (seen.reverse, [])
  | c :: s =>
    if comment then takeSpacedFrom test extended (c != '\n') seen s
    else if test c then takeSpacedFrom test extended false (c :: seen) s
    else if extended && !seen.isEmpty && isBlank c then takeSpacedFrom test extended false seen s
    else if extended && !seen.isEmpty && c == '#' then takeSpacedFrom test extended true seen s
    else (seen.reverse, c :: s)

/-- The characters at the front that pass the test, and the rest after what does not count. -/
def takeSpaced (test : Char → Bool) (extended : Bool) (s : List Char) : List Char × List Char :=
  takeSpacedFrom test extended false [] s

/-- Takes characters up to a closing brace, without what does not count. -/
def takeBracedFrom (extended comment : Bool) (seen : List Char) :
    List Char → Option (List Char × List Char)
  | [] => none
  | c :: s =>
    if comment then takeBracedFrom extended (c != '\n') seen s
    else if extended && isBlank c then takeBracedFrom extended false seen s
    else if extended && c == '#' then takeBracedFrom extended true seen s
    else if c = '\x7d' then some (seen.reverse, s)
    else takeBracedFrom extended false (c :: seen) s

/-- What stands before the closing brace, and what stands after it. -/
def takeBraced (extended : Bool) (s : List Char) : Option (List Char × List Char) :=
  takeBracedFrom extended false [] s

/-- The next character that counts after the first one. -/
def peekSpaced (extended : Bool) (s : List Char) : Option Char :=
  if extended then
    match (s.drop 1).dropWhile isBlank with
    | '#' :: t => (t.dropWhile isBlank).head?
    | t => t.head?
  else (s.drop 1).head?

end MarkupLint.Regex

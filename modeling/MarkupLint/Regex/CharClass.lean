import MarkupLint.Text.Basic
import MarkupLint.Unicode.CaseFold
import MarkupLint.Unicode.Category
import MarkupLint.Unicode.Property

/-!
# Classes of characters in patterns

A class is a test on characters together with its weight, which says how much room the class takes
in a compiled pattern.
-/

namespace MarkupLint.Regex

structure CharClass where
  contains : Char → Bool
  /-- How many states of an automaton on bytes the class takes. -/
  weight : Nat

namespace CharClass

def empty : CharClass := ⟨fun _ => false, 0⟩

def single (c : Char) : CharClass := ⟨(· == c), c.utf8Size⟩

def range (first last : Char) : CharClass :=
  ⟨fun c => decide (first ≤ c) && decide (c ≤ last),
    if last.toNat < 128 then 1 else last.utf8Size * 3⟩

def union (a b : CharClass) : CharClass :=
  ⟨fun c => a.contains c || b.contains c, a.weight + b.weight⟩

def inter (a b : CharClass) : CharClass :=
  ⟨fun c => a.contains c && b.contains c, a.weight + b.weight⟩

def diff (a b : CharClass) : CharClass :=
  ⟨fun c => a.contains c && !b.contains c, a.weight + b.weight⟩

def symmDiff (a b : CharClass) : CharClass :=
  ⟨fun c => a.contains c != b.contains c, a.weight + b.weight⟩

def compl (a : CharClass) : CharClass := ⟨fun c => !a.contains c, a.weight + 8⟩

/-- The other case of an ASCII letter. -/
def swapCase (c : Char) : Char := if c.isUpper then c.toLower else c.toUpper

def caseless (a : CharClass) : CharClass :=
  ⟨fun c => (Unicode.caseVariants c).any a.contains, 2 * a.weight⟩

/-- Adds the ASCII letters that differ from those of the class by case alone. -/
def caselessAscii (a : CharClass) : CharClass :=
  ⟨fun c => a.contains c || a.contains (swapCase c), a.weight + 1⟩

/-- Every character but line ends. -/
def dot (crlf : Bool) : CharClass := ⟨fun c => c != '\n' && !(crlf && c == '\r'), 10⟩

def any : CharClass := ⟨fun _ => true, 10⟩

def ascii (test : Char → Bool) : CharClass := ⟨fun c => decide (c.toNat < 128) && test c, 1⟩

def isWordChar (c : Char) : Bool :=
  c.isAlphanum || c == '_' || Unicode.isAlphabetic c || Unicode.joinControl.contains c ||
    [Unicode.Category.nonspacingMark, .spacingMark, .enclosingMark, .decimalNumber,
      .connectorPunctuation].any (·.contains c)

def isAsciiWordChar (c : Char) : Bool := c.isAlphanum || c == '_'

def digit (unicode : Bool) : CharClass :=
  if unicode then ⟨Unicode.Category.decimalNumber.contains, 120⟩ else ascii Char.isDigit

def space (unicode : Bool) : CharClass :=
  if unicode then ⟨Text.isBlank, 12⟩ else ascii Text.isBlank

def word (unicode : Bool) : CharClass :=
  if unicode then ⟨isWordChar, 640⟩ else ascii isAsciiWordChar

/-- The characters with a code point between two numbers. -/
def between (low high : Nat) (c : Char) : Bool := decide (low ≤ c.toNat) && decide (c.toNat ≤ high)

/-- The ASCII class of a name between `[:` and `:]`. -/
def ofAsciiName? (name : String) : Option CharClass :=
  match name with
  | "alnum" => some (ascii Char.isAlphanum)
  | "alpha" => some (ascii Char.isAlpha)
  | "ascii" => some (ascii fun _ => true)
  | "blank" => some (ascii fun c => c == ' ' || c == '\t')
  | "cntrl" => some (ascii fun c => between 0 31 c || c.toNat == 127)
  | "digit" => some (ascii Char.isDigit)
  | "graph" => some (ascii (between 33 126))
  | "lower" => some (ascii Char.isLower)
  | "print" => some (ascii (between 32 126))
  | "punct" => some (ascii fun c => between 33 126 c && !c.isAlphanum)
  | "space" => some (ascii Text.isBlank)
  | "upper" => some (ascii Char.isUpper)
  | "word" => some (ascii isAsciiWordChar)
  | "xdigit" => some (ascii Text.isHexDigit)
  | _ => none

end CharClass

end MarkupLint.Regex

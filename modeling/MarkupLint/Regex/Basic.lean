import MarkupLint.Regex.CharClass

/-!
# Regular expressions

A regular expression is built from classes and from looks, which consume nothing and test the
characters on both sides of a place.
-/

namespace MarkupLint.Regex

/-- A place in a text: the characters before and after it, if there are any. -/
structure Place where
  before : Option Char
  after : Option Char

/-- Tests of a place. -/
inductive Look where
  | textStart
  | textEnd
  | lineStart (crlf : Bool)
  | lineEnd (crlf : Bool)
  /-- The start or the end of a word. -/
  | wordBoundary (unicode : Bool)
  | noWordBoundary (unicode : Bool)
  | wordStart (unicode : Bool)
  | wordEnd (unicode : Bool)
  /-- No character of a word stands before the place. -/
  | wordStartHalf (unicode : Bool)
  /-- No character of a word stands after the place. -/
  | wordEndHalf (unicode : Bool)
deriving DecidableEq, Repr

namespace Look

/-- A character of a word is there. -/
def isWord (unicode : Bool) : Option Char → Bool
  | none => false
  | some c => if unicode then CharClass.isWordChar c else CharClass.isAsciiWordChar c

def holds (p : Place) : Look → Bool
  | textStart => p.before.isNone
  | textEnd => p.after.isNone
  | lineStart false => p.before.isNone || p.before == some '\n'
  | lineStart true =>
    p.before.isNone || p.before == some '\n' ||
      (p.before == some '\r' && p.after != some '\n')
  | lineEnd false => p.after.isNone || p.after == some '\n'
  | lineEnd true =>
    p.after.isNone || p.after == some '\r' ||
      (p.after == some '\n' && p.before != some '\r')
  | wordBoundary u => isWord u p.before != isWord u p.after
  | noWordBoundary u => isWord u p.before == isWord u p.after
  | wordStart u => !isWord u p.before && isWord u p.after
  | wordEnd u => isWord u p.before && !isWord u p.after
  | wordStartHalf u => !isWord u p.before
  | wordEndHalf u => !isWord u p.after

end Look

end MarkupLint.Regex

namespace MarkupLint

open Regex

/-- Regular expressions. -/
inductive Regex where
  | empty
  | look (l : Look)
  | one (set : CharClass)
  | cat (a b : Regex)
  | alt (a b : Regex)
  /-- At least `low` times, and at most `high` times if a bound is given. -/
  | repeated (a : Regex) (low : Nat) (high : Option Nat)

namespace Regex

/-- The expression consumes nothing. -/
def isEmptyOnly : Regex → Bool
  | empty => true
  | look _ => true
  | one _ => false
  | cat a b => a.isEmptyOnly && b.isEmptyOnly
  | alt a b => a.isEmptyOnly && b.isEmptyOnly
  | repeated a _ high => high == some 0 || a.isEmptyOnly

/-- How many states of an automaton on bytes the expression takes. -/
def weight : Regex → Nat
  | empty => 1
  | look _ => 1
  | one set => set.weight
  | cat a b => a.weight + b.weight
  | alt a b => a.weight + b.weight + 2
  | repeated a low high =>
    if a.isEmptyOnly then a.weight + 1
    else
      match high with
      | none => (max low 1) * a.weight + 1
      | some high => high * a.weight + (high - low)

def sequence : List Regex → Regex
  | [] => empty
  | [a] => a
  | a :: as => cat a (sequence as)

def choice : List Regex → Regex
  | [] => empty
  | [a] => a
  | a :: as => alt a (choice as)

end Regex

end MarkupLint

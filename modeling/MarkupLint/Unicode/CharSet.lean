import MarkupLint.Text.Basic

/-!
# Sets of characters

A set of characters is kept as spans of code points in ascending order. A span has a step, so that
the many runs in which capital and small letters alternate take one span each. A set is written as
a text of spans: `41-5a` is a range, `aa` a single code point, `100-12e/2` every second code point.
-/

namespace MarkupLint.Unicode

/-- The code points from `first` to `last` at the given distance. -/
structure Span where
  first : Nat
  last : Nat
  step : Nat
deriving Repr

def Span.contains (s : Span) (n : Nat) : Bool :=
  s.first ≤ n && n ≤ s.last && (n - s.first) % s.step == 0

/-- Reads `41`, `41-5a` or `100-12e/2`. -/
def Span.ofText (s : List Char) : Span :=
  let first := s.takeWhile (· != '-')
  let others := s.drop (first.length + 1)
  let last := others.takeWhile (· != '/')
  let step := others.drop (last.length + 1)
  ⟨Text.numberOf 16 first, if last.isEmpty then Text.numberOf 16 first else Text.numberOf 16 last,
    if step.isEmpty then 1 else Text.numberOf 16 step⟩

/-- Walks through words that are separated by blanks; `word` holds the current one in reverse. -/
def wordsFrom (word : List Char) : List Char → List (List Char)
  | [] => if word.isEmpty then [] else [word.reverse]
  | c :: s =>
    if c.isWhitespace then
      if word.isEmpty then wordsFrom [] s else word.reverse :: wordsFrom [] s
    else wordsFrom (c :: word) s

def words (s : String) : List (List Char) := wordsFrom [] s.toList

/-- A set of characters. -/
structure CharSet where
  /-- Disjoint, in ascending order. -/
  spans : Array Span

namespace CharSet

/-- Reads a set from the text of its spans, one word each. -/
def ofText (s : String) : CharSet := ⟨((words s).map Span.ofText).toArray⟩

/-- Looks for a code point among the spans from `low` up to, but without, `high`. -/
def search (spans : Array Span) (n low high : Nat) : Bool :=
  if _h : low < high then
    let middle := (low + high) / 2
    match spans[middle]? with
    | none => false
    | some s =>
      if n < s.first then search spans n low middle
      else if s.last < n then search spans n (middle + 1) high
      else s.contains n
  else false
termination_by high - low

def contains (s : CharSet) (c : Char) : Bool := search s.spans c.toNat 0 s.spans.size

end CharSet

end MarkupLint.Unicode

import MarkupLint.Glob.Pattern
import MarkupLint.Path
import MarkupLint.Regex.Marked

/-!
# Matching by globs

A glob matches a path as a whole, byte by byte: to this end, bytes are seen as the characters of the
same number. What stands for one character matches one byte.
-/

namespace MarkupLint.Glob

open MarkupLint.Regex

def byteChars (s : List UInt8) : List Char := s.map fun b => Char.ofNat b.toNat

def anyByte (d : Dialect) : Regex :=
  .one (if d.slashIsApart then .diff .any (.single '/') else .any)

def anyBytes (d : Dialect) : Regex := .repeated (anyByte d) 0 none

/-- Any bytes, slashes as well. -/
def anything : Regex := .repeated (.one .any) 0 none

def slash : Regex := .one (.single '/')

def rangeClass (r : Char × Char) : CharClass :=
  let first := byteChars (String.utf8EncodeChar r.1)
  let last := byteChars (String.utf8EncodeChar r.2)
  let all := (first ++ last).foldr (fun c a => a.union (.single c)) .empty
  if r.1 = r.2 then all else all.union (.range (first.getLastD '\x00') (last.headD '\x00'))

def setClass (negated : Bool) (ranges : List (Char × Char)) : CharClass :=
  let a := ranges.foldr (fun r a => a.union (rangeClass r)) .empty
  if negated then a.compl else a

mutual

/-- The part is a group without a part in any branch. -/
def Part.isVoid : Part → Bool
  | .branches bs => branchesAreVoid bs
  | _ => false

/-- No part stands for anything. -/
def partsAreVoid : List Part → Bool
  | [] => true
  | p :: ps => p.isVoid && partsAreVoid ps

/-- No branch stands for anything. -/
def branchesAreVoid : List (List Part) → Bool
  | [] => true
  | ps :: bs => partsAreVoid ps && branchesAreVoid bs

end

mutual

/-- What a part matches. -/
def Part.toRegex (d : Dialect) : Part → Regex
  | .char c => .sequence ((byteChars (String.utf8EncodeChar c)).map fun b => .one (.single b))
  | .anyChar => anyByte d
  | .anyChars => anyBytes d
  | .leading => .alt (.repeated slash 0 (some 1)) (.cat anything slash)
  | .trailing => .cat slash anything
  | .between => .alt slash (.cat slash (.cat anything slash))
  | .set negated ranges => .one (setClass negated ranges)
  | .branches bs => .choice (branchesRegex d bs)

/-- What parts match one after the other. -/
def partsRegex (d : Dialect) : List Part → Regex
  | [] => .empty
  | p :: ps => .cat (p.toRegex d) (partsRegex d ps)

/-- What each branch matches; a branch that stands for nothing does not count. -/
def branchesRegex (d : Dialect) : List (List Part) → List Regex
  | [] => []
  | ps :: bs =>
    if partsAreVoid ps then branchesRegex d bs else partsRegex d ps :: branchesRegex d bs

end

/-- What a glob matches. A lone `**` matches everything. -/
def wholeRegex (d : Dialect) : List Part → Regex
  | [.leading] => anything
  | ps => partsRegex d ps

end Glob

/-- A glob that is ready to be matched. -/
structure Glob where
  text : String
  program : Regex.Marked

namespace Glob

def ofText (d : Dialect) (text : String) : Except GlobError Glob :=
  (parse d text.toList).map fun ps =>
    ⟨text, (Regex.cat (.look .textStart) (.cat (wholeRegex d ps) (.look .textEnd))).toMarked⟩

/-- The glob matches the bytes as a whole. -/
def matchesBytes (g : Glob) (s : List UInt8) : Bool := g.program.search none (byteChars s)

def isMatch (g : Glob) (p : Path) : Bool := g.matchesBytes p.bytes

end MarkupLint.Glob

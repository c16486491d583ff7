import MarkupLint.Regex.Escape

/-!
# Reading bracketed classes

A bracketed class holds characters, ranges, escapes, ASCII classes and further bracketed classes.
Operators between such unions take them from left to right. Each class that is read comes with its
depth, which is the number of brackets, unions and operators that enclose one another.
-/

namespace MarkupLint.Regex

structure DeepClass where
  set : CharClass
  depth : Nat

/-- The members of a class that have been read so far. -/
structure Members where
  set : CharClass := .empty
  depth : Nat := 0
  count : Nat := 0

namespace Members

def add (m : Members) (a : DeepClass) : Members :=
  ⟨m.set.union a.set, max m.depth a.depth, m.count + 1⟩

/-- All members together. -/
def toClass (m : Members) : DeepClass :=
  ⟨m.set, if m.count ≤ 1 then m.depth else m.depth + 1⟩

end Members

/-- The operators between classes. -/
inductive SetOp where
  | inter
  | diff
  | symmDiff

def SetOp.apply : SetOp → CharClass → CharClass → CharClass
  | inter => .inter
  | diff => .diff
  | symmDiff => .symmDiff

/-- Joins the members to what stands before the operator in front of them. -/
def joinLeft (f : Flags) (left : Option (SetOp × DeepClass)) (m : Members) : DeepClass :=
  let right := m.toClass
  match left with
  | none => right
  | some (op, left) =>
    ⟨op.apply (f.fold left.set) (f.fold right.set), max left.depth right.depth + 1⟩

/-- The class of one character. Without Unicode, a class has ASCII characters only. -/
def memberOfChar (f : Flags) (c : Char) : Option CharClass :=
  if f.unicode || c.toNat < 128 then some (.single c) else none

def readMember (f : Flags) : List Char → Option (Atom × List Char)
  | [] => none
  | '\\' :: s => readEscape f s
  | c :: s => some (.char c false, s)

def readRange (f : Flags) (s : List Char) : Option (CharClass × List Char) :=
  (readMember f s).bind fun (first, s) =>
    match skipIgnored f.extended s with
    | [] => none
    | d :: s =>
      let next := peekSpaced f.extended (d :: s)
      if d = '-' ∧ next ≠ some ']' ∧ next ≠ some '-' then
        (readMember f (skipIgnored f.extended s)).bind fun (last, s) =>
          match first, last with
          | .char a _, .char b _ =>
            if a ≤ b ∧ (f.unicode ∨ b.toNat < 128) then some (.range a b, s) else none
          | _, _ => none
      else
        match first with
        | .char c _ => (memberOfChar f c).map fun a => (a, d :: s)
        | .set a => some (a, d :: s)
        | .look _ => none

/-- Reads the name of an ASCII class, after `[`, together with the mark of negation. -/
def readAsciiClass (s : List Char) : Option (CharClass × Bool × List Char) :=
  match s with
  | ':' :: s =>
    let (negated, s) :=
      match s with
      | '^' :: s => (true, s)
      | s => (false, s)
    let name := s.takeWhile (· != ':')
    match s.drop name.length with
    | ':' :: ']' :: s =>
      (CharClass.ofAsciiName? (String.ofList name)).map fun a => (a, negated, s)
    | _ => none
  | _ => none

/-- Reads the start of a class, after `[`: the mark of negation, hyphens, and a bracket that comes
first and therefore stands for itself. -/
def readOpening (f : Flags) (s : List Char) : Option (Bool × Members × List Char) :=
  let (negated, s) :=
    match skipIgnored f.extended s with
    | '^' :: s => (true, skipIgnored f.extended s)
    | s => (false, s)
  let (hyphens, s) := takeSpaced (· == '-') f.extended s
  let literal (c : Char) (m : Members) : Members := m.add ⟨.single c, 0⟩
  match hyphens, s with
  | [], ']' :: s => some (negated, literal ']' {}, skipIgnored f.extended s)
  | hyphens, s => some (negated, hyphens.foldr literal {}, s)

/-- Reads the members of a class up to the bracket that closes it. -/
def readMembers (f : Flags) :
    Nat → Option (SetOp × DeepClass) → Members → List Char → Option (DeepClass × List Char)
  | 0, _, _, _ => none
  | fuel + 1, left, m, s =>
    match skipIgnored f.extended s with
    | [] => none
    | ']' :: s => some (joinLeft f left m, s)
    | '&' :: '&' :: s => readMembers f fuel (some (.inter, joinLeft f left m)) {} s
    | '-' :: '-' :: s => readMembers f fuel (some (.diff, joinLeft f left m)) {} s
    | '~' :: '~' :: s => readMembers f fuel (some (.symmDiff, joinLeft f left m)) {} s
    | '[' :: s =>
      match readAsciiClass s with
      | some (a, negated, s) =>
        match f.complIf negated (f.fold a) with
        | none => none
        | some a => readMembers f fuel left (m.add ⟨a, 0⟩) s
      | none =>
        match readOpening f s with
        | none => none
        | some (negated, inner, s) =>
          match readMembers f fuel none inner s with
          | none => none
          | some (a, s) =>
            match f.complIf negated (f.fold a.set) with
            | none => none
            | some b => readMembers f fuel left (m.add ⟨b, a.depth + 1⟩) s
    | s =>
      match readRange f s with
      | none => none
      | some (a, s) => readMembers f fuel left (m.add ⟨a, 0⟩) s

/-- Reads a bracketed class, after `[`. -/
def readClass (f : Flags) (s : List Char) : Option (DeepClass × List Char) :=
  (readOpening f s).bind fun (negated, inner, t) =>
    (readMembers f (s.length + 1) none inner t).bind fun (a, t) =>
      (f.complIf negated (f.fold a.set)).map fun b => (⟨b, a.depth + 1⟩, t)

end MarkupLint.Regex

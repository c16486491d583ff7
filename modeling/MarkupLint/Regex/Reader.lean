import MarkupLint.Regex.ClassReader
import MarkupLint.Regex.Marked

/-!
# Reading patterns

A pattern is a text that reads as a regular expression, ready to be searched: a choice between
sequences of items. Groups and flags are read on the way: flags that are set in a group end with it.
Some patterns would take too much room.
-/

namespace MarkupLint.Regex

/-- What has been read, and how deep it is nested. -/
structure Term where
  regex : Regex
  depth : Nat := 0
  /-- Only what may consume something or look somewhere can be repeated; flags cannot. -/
  repeatable : Bool := true

def Term.sequence (ts : List Term) : Term :=
  ⟨Regex.sequence (ts.reverse.map (·.regex)),
    ts.foldl (fun d t => max d t.depth) 0 + if ts.length ≤ 1 then 0 else 1, true⟩

def Term.choice (ts : List Term) : Term :=
  ⟨Regex.choice (ts.reverse.map (·.regex)),
    ts.foldl (fun d t => max d t.depth) 0 + if ts.length ≤ 1 then 0 else 1, true⟩

/-- What stands after an opening parenthesis. -/
inductive GroupHead where
  /-- Flags for the rest of the enclosing group. -/
  | flags (f : Flags)
  /-- A group with its flags, and its name if it has one. -/
  | group (f : Flags) (name : Option (List Char))

def isGroupNameChar (c : Char) : Bool :=
  Unicode.isAlphanumeric c || c == '_' || c == '.' || c == '[' || c == ']'

/-- The text names a group. -/
def isGroupName (s : List Char) : Bool :=
  match s with
  | [] => false
  | c :: s => (Unicode.isAlphabetic c || c == '_') && s.all isGroupNameChar

/-- Reads the name of a group up to `>`; no name may be given twice. -/
def readGroupName (f : Flags) (names : List (List Char)) (s : List Char) :
    Option (GroupHead × List Char) :=
  let name := s.takeWhile (· != '>')
  match s.drop name.length with
  | '>' :: s =>
    if isGroupName name && !names.contains name then some (.group f (some name), s) else none
  | _ => none

/-- Reads what stands after an opening parenthesis. -/
def readGroupHead (f : Flags) (names : List (List Char)) (s : List Char) :
    Option (GroupHead × List Char) :=
  match skipIgnored f.extended s with
  | '?' :: '=' :: _ => none
  | '?' :: '!' :: _ => none
  | '?' :: '<' :: '=' :: _ => none
  | '?' :: '<' :: '!' :: _ => none
  | '?' :: 'P' :: '<' :: s => readGroupName f names s
  | '?' :: '<' :: s => readGroupName f names s
  | '?' :: s =>
    match f.read? s with
    | some (g, _, ':' :: s) => some (.group g none, s)
    | some (g, letters, _ :: s) => if letters.isEmpty then none else some (.flags g, s)
    | _ => none
  | s => some (.group f none, s)

def maxCount : Nat := 4294967295

def readCount (f : Flags) (s : List Char) : Option Nat × List Char :=
  let s := (skipIgnored f.extended s).dropWhile Text.isBlank
  let (digits, s) := takeSpaced Char.isDigit f.extended s
  let count := Text.numberOf 10 digits
  (if digits.isEmpty || count > maxCount then none else some count, s.dropWhile Text.isBlank)

/-- Reads the numbers of a counted repetition, after the opening brace, and the closing brace. -/
def readCounts (f : Flags) (s : List Char) : Option (Nat × Option Nat × List Char) :=
  match readCount f s with
  | (some low, '\x7d' :: s) => some (low, some low, s)
  | (some low, ',' :: s) =>
    match skipIgnored f.extended s with
    | '\x7d' :: s => some (low, none, s)
    | s =>
      match readCount f s with
      | (some high, '\x7d' :: s) => if low ≤ high then some (low, some high, s) else none
      | _ => none
  | _ => none

/-- Drops the mark of a repetition that takes as little as it can. -/
def dropLazy (s : List Char) : List Char :=
  match s with
  | '?' :: s => s
  | s => s

def repeatLast (low : Nat) (high : Option Nat) : List Term → Option (List Term)
  | [] => none
  | t :: ts =>
    if t.repeatable then some (⟨.repeated t.regex low high, t.depth + 1, true⟩ :: ts) else none

/-- The look of `^` under the flags. -/
def startLook (f : Flags) : Look := if f.multiLine then .lineStart f.crlf else .textStart

/-- The look of `$` under the flags. -/
def endLook (f : Flags) : Look := if f.multiLine then .lineEnd f.crlf else .textEnd

/-- The class of `.` under the flags. -/
def dotClass? (f : Flags) : Option CharClass :=
  if f.unicode then some (if f.dotAll then .any else .dot f.crlf) else none

/-- The term of an atom. Without Unicode, no byte beyond ASCII can be given. -/
def termOfAtom (f : Flags) : Atom → Option Term
  | .char c asByte =>
    if !f.unicode && asByte && c.toNat ≥ 128 then none
    else some ⟨.one (f.fold (.single c)), 0, true⟩
  | .set a => some ⟨.one a, 0, true⟩
  | .look l => some ⟨.look l, 0, true⟩

/-- Reads an item that is neither a group nor a repetition nor a bar. -/
def readItem (f : Flags) : List Char → Option (Term × List Char)
  | [] => none
  | '[' :: s => (readClass f s).map fun (a, s) => (⟨.one a.set, a.depth, true⟩, s)
  | '.' :: s => (dotClass? f).map fun a => (⟨.one a, 0, true⟩, s)
  | '^' :: s => some (⟨.look (startLook f), 0, true⟩, s)
  | '$' :: s => some (⟨.look (endLook f), 0, true⟩, s)
  | '\\' :: s => (readEscape f s).bind fun (a, s) => (termOfAtom f a).map fun t => (t, s)
  | c :: s => (termOfAtom f (.char c false)).map fun t => (t, s)

/-- Reads up to a closing parenthesis or the end. `branches` and `items` hold, the last first, the
earlier sequences and the items of the current one; the names of groups are passed on. -/
def readBranches :
    Nat → Flags → List (List Char) → List Term → List Term → List Char →
      Option (Term × List (List Char) × List Char)
  | 0, _, _, _, _, _ => none
  | fuel + 1, f, names, branches, items, s =>
    let again (items : Option (List Term)) (s : List Char) :=
      items.bind fun items => readBranches fuel f names branches items s
    match skipIgnored f.extended s with
    | [] => some (.choice (.sequence items :: branches), names, [])
    | ')' :: s => some (.choice (.sequence items :: branches), names, ')' :: s)
    | '|' :: s => readBranches fuel f names (.sequence items :: branches) [] s
    | '?' :: s => again (repeatLast 0 (some 1) items) (dropLazy s)
    | '*' :: s => again (repeatLast 0 none items) (dropLazy s)
    | '+' :: s => again (repeatLast 1 none items) (dropLazy s)
    | '\x7b' :: s =>
      (readCounts f s).bind fun (low, high, s) =>
        again (repeatLast low high items) (dropLazy (skipIgnored f.extended s))
    | '(' :: s =>
      match readGroupHead f names s with
      | none => none
      | some (.flags g, s) => readBranches fuel g names branches (⟨.empty, 0, false⟩ :: items) s
      | some (.group g name, s) =>
        match readBranches fuel g (name.toList ++ names) [] [] s with
        | some (t, names, ')' :: s) =>
          readBranches fuel f names branches (⟨t.regex, t.depth + 1, true⟩ :: items) s
        | _ => none
    | s => (readItem f s).bind fun (t, s) => again (some (t :: items)) s

def maxDepth : Nat := 250

def read? (s : List Char) : Option Regex :=
  match readBranches (s.length + 1) {} [] [] [] s with
  | some (t, _, []) => if t.depth ≤ maxDepth then some t.regex else none
  | _ => none

/-! ## Patterns -/

/-- Why a text is no pattern. -/
inductive PatternError where
  | malformed
  | tooLarge
deriving DecidableEq, Repr

/-- The room that a pattern may take, in bytes. -/
def sizeLimit : Nat := 10485760

/-- The room that one state of an automaton takes, in bytes. -/
def stateSize : Nat := 32

def PatternError.message (text : String) : PatternError → String
  | malformed => s!"Failed to compile pattern '{text}'"
  | tooLarge =>
    s!"Failed to compile pattern '{text}': Compiled regex exceeds size limit of {sizeLimit} bytes."

/-- A regular expression that is ready to be searched. -/
structure Pattern where
  text : String
  program : Marked

namespace Pattern

def ofText (text : String) : Except PatternError Pattern :=
  match read? text.toList with
  | none => .error .malformed
  | some r => if r.weight * stateSize > sizeLimit then .error .tooLarge else .ok ⟨text, r.toMarked⟩

/-- The pattern matches somewhere in the text. -/
def occursIn (p : Pattern) (s : List Char) : Bool := p.program.search none s

end Pattern

end MarkupLint.Regex

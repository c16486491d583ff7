import MarkupLint.Regex.Basic
import MarkupLint.Regex.Flags
import MarkupLint.Regex.PropertyName
import MarkupLint.Text.Basic

/-!
# Escapes in patterns

A backslash makes a special character stand for itself, and a letter stand for a character, a class
or a look. Every function takes the text after the backslash or after the part that was read, and
returns what it read and the rest.
-/

namespace MarkupLint.Regex

/-- What an escape or a plain character stands for. -/
inductive Atom where
  /-- A character; `asByte` tells whether it was written as a byte, by two hexadecimal digits. -/
  | char (c : Char) (asByte : Bool)
  | set (a : CharClass)
  | look (l : Look)

def takeCount (extended : Bool) : Nat → List Char → Option (List Char × List Char)
  | 0, s => some ([], s)
  | _ + 1, [] => none
  | n + 1, c :: s => (takeCount extended n (skipIgnored extended s)).map fun r => (c :: r.1, r.2)

/-- Reads a character given by its code point, after `x`, `u` or `U`. -/
def readHex (f : Flags) (digits : Nat) (s : List Char) : Option (Atom × List Char) :=
  match skipIgnored f.extended s with
  | '\x7b' :: s =>
    (takeBraced f.extended s).bind fun (ds, s) =>
      (Text.charOfHex? ds).map fun c => (.char c false, skipIgnored f.extended s)
  | s =>
    (takeCount f.extended digits s).bind fun (ds, s) =>
      (Text.charOfHex? ds).map fun c => (.char c (digits == 2), s)

/-- The text before and after the first place where the given one stands. -/
def splitAtText (mark : List Char) : List Char → Option (List Char × List Char)
  | [] => none
  | c :: s =>
    if mark.isPrefixOf (c :: s) then some ([], (c :: s).drop mark.length)
    else (splitAtText mark s).map fun r => (c :: r.1, r.2)

/-- The class of what stands between the braces of a property. -/
def bracedPropertyClass? (s : List Char) : Option CharClass :=
  match splitAtText ['!', '='] s <|> splitAtText [':'] s <|> splitAtText ['='] s with
  | some (name, value) => propertyValueClass? name value
  | none => propertyClass? s

def readProperty (f : Flags) (negated : Bool) (s : List Char) : Option (Atom × List Char) :=
  if f.unicode then
    let finish (a : Option CharClass) (s : List Char) : Option (Atom × List Char) :=
      (a.bind fun a => f.complIf negated (f.fold a)).map fun a => (.set a, s)
    match skipIgnored f.extended s with
    | [] => none
    | '\\' :: _ => none
    | '\x7b' :: s =>
      (takeBraced f.extended s).bind fun (name, s) => finish (bracedPropertyClass? name) s
    | c :: s => finish (propertyClass? [c]) (skipIgnored f.extended s)
  else none

def isLookNameChar (c : Char) : Bool := c.isAlpha || c == '-'

/-- The look of a name between braces. -/
def namedLook? (unicode : Bool) (name : String) : Option Look :=
  match name with
  | "start" => some (.wordStart unicode)
  | "end" => some (.wordEnd unicode)
  | "start-half" => some (.wordStartHalf unicode)
  | "end-half" => some (.wordEndHalf unicode)
  | _ => none

/-- Reads a look at word boundaries, after `b`. A brace that opens no name is left where it is. -/
def readBoundary (f : Flags) (s : List Char) : Option (Atom × List Char) :=
  let plain : Atom := .look (.wordBoundary f.unicode)
  match s with
  | '\x7b' :: t =>
    match skipIgnored f.extended t with
    | [] => none
    | c :: t =>
      if isLookNameChar c then
        match takeSpaced isLookNameChar f.extended (c :: t) with
        | (name, '\x7d' :: t) =>
          (namedLook? f.unicode (String.ofList name)).map fun l => (.look l, t)
        | _ => none
      else some (plain, s)
  | _ => some (plain, s)

/-- The ASCII characters that stand for themselves after a backslash. -/
def isEscapable (c : Char) : Bool :=
  decide (c.toNat < 128) && !c.isAlphanum && c != '<' && c != '>'

def readEscape (f : Flags) : List Char → Option (Atom × List Char)
  | [] => none
  | c :: s =>
    let char (d : Char) : Option (Atom × List Char) := some (.char d false, s)
    let look (l : Look) : Option (Atom × List Char) := some (.look l, s)
    let set (negated : Bool) (a : CharClass) : Option (Atom × List Char) :=
      (f.complIf negated a).map fun a => (.set a, s)
    match c with
    | 'x' => readHex f 2 s
    | 'u' => readHex f 4 s
    | 'U' => readHex f 8 s
    | 'p' => readProperty f false s
    | 'P' => readProperty f true s
    | 'd' => set false (.digit f.unicode)
    | 'D' => set true (.digit f.unicode)
    | 's' => set false (.space f.unicode)
    | 'S' => set true (.space f.unicode)
    | 'w' => set false (.word f.unicode)
    | 'W' => set true (.word f.unicode)
    | 'a' => char '\x07'
    | 'f' => char '\x0c'
    | 't' => char '\t'
    | 'n' => char '\n'
    | 'r' => char '\r'
    | 'v' => char '\x0b'
    | 'A' => look .textStart
    | 'z' => look .textEnd
    | 'b' => readBoundary f s
    | 'B' => look (.noWordBoundary f.unicode)
    | '<' => look (.wordStart f.unicode)
    | '>' => look (.wordEnd f.unicode)
    | _ => if isEscapable c then char c else none

end MarkupLint.Regex

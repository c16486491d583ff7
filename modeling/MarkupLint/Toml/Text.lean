import MarkupLint.Text.Basic

/-!
# TOML texts

Texts stand between single or double quotes, one or three of them. Between double quotes, escapes
are read; between three quotes, a text may have several lines.
-/

namespace MarkupLint.Toml

/-- The characters that may stand in comments and, up to quotes and backslashes, in texts. -/
def isPlainChar (c : Char) : Bool := c == '\t' || (decide (32 ≤ c.toNat) && c.toNat != 127)

def isSpace (c : Char) : Bool := c == ' ' || c == '\t'

def skipSpace (s : List Char) : List Char := s.dropWhile isSpace

def dropNewline (s : List Char) : List Char :=
  match s with
  | '\n' :: s => s
  | '\r' :: '\n' :: s => s
  | s => s

/-- The character of an escape by one letter. -/
def escapeLetter? (c : Char) : Option Char :=
  match c with
  | 'b' => some '\x08'
  | 't' => some '\t'
  | 'n' => some '\n'
  | 'f' => some '\x0c'
  | 'r' => some '\r'
  | '"' => some '"'
  | '\\' => some '\\'
  | _ => none

def readEscape (s : List Char) : Option (Char × List Char) :=
  let coded (n : Nat) (s : List Char) : Option (Char × List Char) :=
    if (s.take n).length = n then (Text.charOfHex? (s.take n)).map fun c => (c, s.drop n) else none
  match s with
  | [] => none
  | 'u' :: s => coded 4 s
  | 'U' :: s => coded 8 s
  | c :: s => (escapeLetter? c).map fun d => (d, s)

/-- What an escaped text of several lines may go on with. -/
inductive Joint where
  /-- Anything. -/
  | anything
  /-- Blanks and a line end: a backslash came before. -/
  | lineEnd
  /-- Anything, but blanks and line ends do not count. -/
  | content

/-- Reads a text up to the double quote that ends it; `skip` counts the characters that an escape
has already taken. -/
def readBasicFrom (seen : List Char) (skip : Nat) : List Char → Option (List Char × List Char)
  | [] => none
  | c :: s =>
    match skip with
    | skip + 1 => readBasicFrom seen skip s
    | 0 =>
      if c = '"' then some (seen.reverse, s)
      else if c = '\\' then
        match readEscape s with
        | none => none
        | some (d, t) => readBasicFrom (d :: seen) (s.length - t.length) s
      else if isPlainChar c then readBasicFrom (c :: seen) 0 s
      else none

/-- Reads a text up to the three double quotes that end it. One or two more quotes in front of these
belong to the text. -/
def readBasicLinesFrom (seen : List Char) (joint : Joint) (skip : Nat) :
    List Char → Option (List Char × List Char)
  | [] => none
  | c :: s =>
    match skip with
    | skip + 1 => readBasicLinesFrom seen joint skip s
    | 0 =>
      if c = '\n' then
        match joint with
        | .anything => readBasicLinesFrom ('\n' :: seen) .anything 0 s
        | _ => readBasicLinesFrom seen .content 0 s
      else if c = '\r' then
        match s, joint with
        | '\n' :: _, .anything => readBasicLinesFrom ('\n' :: seen) .anything 1 s
        | '\n' :: _, _ => readBasicLinesFrom seen .content 1 s
        | _, _ => none
      else
        match joint, isSpace c with
        | .lineEnd, false => none
        | .lineEnd, true => readBasicLinesFrom seen .lineEnd 0 s
        | .content, true => readBasicLinesFrom seen .content 0 s
        | _, _ =>
          if c = '"' then
            match s with
            | '"' :: '"' :: '"' :: '"' :: s => some (('"' :: '"' :: seen).reverse, s)
            | '"' :: '"' :: '"' :: s => some (('"' :: seen).reverse, s)
            | '"' :: '"' :: s => some (seen.reverse, s)
            | _ => readBasicLinesFrom (c :: seen) .anything 0 s
          else if c = '\\' then
            match s with
            | d :: _ =>
              if isSpace d || d == '\n' || d == '\r' then readBasicLinesFrom seen .lineEnd 0 s
              else
                match readEscape s with
                | none => none
                | some (e, t) => readBasicLinesFrom (e :: seen) .anything (s.length - t.length) s
            | [] => none
          else if isPlainChar c then readBasicLinesFrom (c :: seen) .anything 0 s
          else none

/-- Reads a text up to the single quote that ends it. -/
def readLiteralFrom (seen : List Char) : List Char → Option (List Char × List Char)
  | [] => none
  | c :: s =>
    if c = '\'' then some (seen.reverse, s)
    else if isPlainChar c then readLiteralFrom (c :: seen) s
    else none

/-- Reads a text up to the three single quotes that end it. One or two more quotes in front of these
belong to the text. -/
def readLiteralLinesFrom (seen : List Char) : List Char → Option (List Char × List Char)
  | [] => none
  | '\r' :: '\n' :: s => readLiteralLinesFrom ('\n' :: seen) s
  | '\'' :: '\'' :: '\'' :: '\'' :: '\'' :: s => some (('\'' :: '\'' :: seen).reverse, s)
  | '\'' :: '\'' :: '\'' :: '\'' :: s => some (('\'' :: seen).reverse, s)
  | '\'' :: '\'' :: '\'' :: s => some (seen.reverse, s)
  | c :: s =>
    if c = '\n' ∨ isPlainChar c then readLiteralLinesFrom (c :: seen) s else none

/-- Reads a text on one line, from its quote on. -/
def readLineText (s : List Char) : Option (List Char × List Char) :=
  match s with
  | '"' :: s => readBasicFrom [] 0 s
  | '\'' :: s => readLiteralFrom [] s
  | _ => none

/-- Reads a text, from its quotes on. A line end right after three quotes does not count. -/
def readText (s : List Char) : Option (List Char × List Char) :=
  match s with
  | '"' :: '"' :: '"' :: s => readBasicLinesFrom [] .anything 0 (dropNewline s)
  | '\'' :: '\'' :: '\'' :: s => readLiteralLinesFrom [] (dropNewline s)
  | s => readLineText s

end MarkupLint.Toml

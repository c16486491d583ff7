import MarkupLint.Text.Basic
import MarkupLint.Toml.Table

/-!
# Numbers and dates

What starts neither with a quote nor with a bracket is a word: a truth value, a number, a date or a
time. Underscores may stand between the digits of a number; a decimal number has no leading zeros.
-/

namespace MarkupLint.Toml

open Text

def isWordChar (c : Char) : Bool :=
  c.isAlphanum || c == '+' || c == '-' || c == '_' || c == '.' || c == ':'

/-- Takes digits, between which single underscores may stand, and returns them without these. -/
def takeDigits (test : Char → Bool) : List Char → List Char × List Char
  | '_' :: c :: s =>
    if test c then Prod.map (c :: ·) id (takeDigits test s) else ([], '_' :: c :: s)
  | c :: s => if test c then Prod.map (c :: ·) id (takeDigits test s) else ([], c :: s)
  | [] => ([], [])

/-- Takes digits of which the first is no underscore; there must be one. -/
def takeDigits? (test : Char → Bool) (s : List Char) : Option (List Char × List Char) :=
  match s with
  | c :: _ => if test c then some (takeDigits test s) else none
  | [] => none

/-- Takes a decimal number without leading zeros. -/
def takeDecimal? (s : List Char) : Option (List Char × List Char) :=
  match s with
  | '0' :: s => some (['0'], s)
  | s => takeDigits? Char.isDigit s

def takeSign (s : List Char) : Bool × List Char :=
  match s with
  | '-' :: s => (true, s)
  | '+' :: s => (false, s)
  | s => (false, s)

/-- The number is one of 64 bits. -/
def inWord (n : Int) : Bool := decide (-9223372036854775808 ≤ n) && decide (n ≤ 9223372036854775807)

def integer? (s : List Char) : Option Int :=
  let based (base : Nat) (test : Char → Bool) (s : List Char) : Option Int :=
    match takeDigits? test s with
    | some (digits, []) => some (numberOf base digits)
    | _ => none
  let n : Option Int :=
    match s with
    | '0' :: 'x' :: s => based 16 isHexDigit s
    | '0' :: 'o' :: s => based 8 (fun c => decide ('0' ≤ c) && decide (c ≤ '7')) s
    | '0' :: 'b' :: s => based 2 (fun c => c == '0' || c == '1') s
    | s =>
      let (negative, s) := takeSign s
      match takeDecimal? s with
      | some (digits, []) =>
        some (if negative then -(numberOf 10 digits : Int) else (numberOf 10 digits : Int))
      | _ => none
  n.filter inWord

/-- The least number that is rounded to infinity. -/
def floatBound : Nat := Nat.pow 2 1024 - Nat.pow 2 970

/-- The number with the given digits, after which the point is moved, is rounded to infinity. -/
def isHuge (digits : List Char) (exponent : Int) : Bool :=
  let n := numberOf 10 digits
  if n = 0 then false
  else if exponent > 400 then true
  else if exponent + digits.length < 300 then false
  else if exponent ≥ 0 then decide (floatBound ≤ n * Nat.pow 10 exponent.toNat)
  else decide (floatBound * Nat.pow 10 (-exponent).toNat ≤ n)

/-- Takes the exponent of a number, if there is one. -/
def takeExponent? (s : List Char) : Option (Int × List Char) :=
  match s with
  | [] => some (0, [])
  | c :: s =>
    if c = 'e' ∨ c = 'E' then
      let (negative, s) := takeSign s
      (takeDigits? Char.isDigit s).map fun (digits, s) =>
        let n : Int := numberOf 10 digits
        (if negative then -n else n, s)
    else none

/-- The word is a number with a fraction or an exponent, or one that is not finite. Only the
negative ones may be too large. -/
def isFloat (s : List Char) : Bool :=
  let (negative, s) := takeSign s
  if s = ['i', 'n', 'f'] ∨ s = ['n', 'a', 'n'] then true
  else
    match takeDecimal? s with
    | none => false
    | some (_, []) => false
    | some (whole, '.' :: s) =>
      match takeDigits? Char.isDigit s with
      | none => false
      | some (fraction, s) =>
        match takeExponent? s with
        | some (e, []) => negative || !isHuge (whole ++ fraction) (e - fraction.length)
        | _ => false
    | some (whole, s) =>
      match takeExponent? s with
      | some (e, []) => negative || !isHuge whole e
      | _ => false

def twoDigits? (a b : Char) : Option Nat :=
  if a.isDigit && b.isDigit then some (numberOf 10 [a, b]) else none

/-- The number of two digits is at most the given one. -/
def upToTwo (high : Nat) (a b : Char) : Bool := (twoDigits? a b).any fun n => decide (n ≤ high)

def daysIn (year month : Nat) : Nat :=
  if month = 2 then
    if year % 4 = 0 ∧ (year % 100 ≠ 0 ∨ year % 400 = 0) then 29 else 28
  else if month = 4 ∨ month = 6 ∨ month = 9 ∨ month = 11 then 30
  else 31

def takeDate? (s : List Char) : Option (List Char) :=
  match s with
  | a :: b :: c :: d :: '-' :: e :: f :: '-' :: g :: h :: s =>
    match twoDigits? a b, twoDigits? c d, twoDigits? e f, twoDigits? g h with
    | some century, some year, some month, some day =>
      if 1 ≤ month ∧ month ≤ 12 ∧ 1 ≤ day ∧ day ≤ daysIn (100 * century + year) month then some s
      else none
    | _, _, _, _ => none
  | _ => none

def takeTime? (s : List Char) : Option (List Char) :=
  match s with
  | a :: b :: ':' :: c :: d :: ':' :: e :: f :: s =>
    if upToTwo 23 a b && upToTwo 59 c d && upToTwo 60 e f then
      match s with
      | '.' :: g :: s => if g.isDigit then some (s.dropWhile Char.isDigit) else none
      | s => some s
    else none
  | _ => none

/-- The text is empty or an offset from universal time. -/
def isOffset (s : List Char) : Bool :=
  match s with
  | [] => true
  | ['Z'] => true
  | ['z'] => true
  | [sign, a, b, ':', c, d] => (sign == '+' || sign == '-') && upToTwo 23 a b && upToTwo 59 c d
  | _ => false

/-- The text is a time with or without an offset. -/
def isZonedTime (s : List Char) : Bool := (takeTime? s).any isOffset

/-- The word is a date, a time or both. -/
def isDate (s : List Char) : Bool :=
  match takeDate? s with
  | some [] => true
  | some (c :: s) => (c == 'T' || c == 't') && isZonedTime s
  | none => takeTime? s == some []

def scalar? (s : List Char) : Option Value :=
  if s = ['t', 'r', 'u', 'e'] then some (.truth true)
  else if s = ['f', 'a', 'l', 's', 'e'] then some (.truth false)
  else
    match integer? s with
    | some n => some (.integer n)
    | none => if isFloat s then some (.float s) else if isDate s then some (.date s) else none

/-- Reads a word. A blank may stand between a date and a time. -/
def readScalar (s : List Char) : Option (Value × List Char) :=
  let word := s.takeWhile isWordChar
  let rest := s.drop word.length
  match takeDate? word, rest with
  | some [], ' ' :: c :: t =>
    if c.isDigit then
      let time := (c :: t).takeWhile isWordChar
      if isZonedTime time then
        some (.date (word ++ ' ' :: time), (c :: t).drop time.length)
      else none
    else some (.date word, rest)
  | _, _ => (scalar? word).map fun v => (v, rest)

end MarkupLint.Toml

/-!
# UTF-8

Texts are kept in files, and name files, as bytes in UTF-8. Bytes that are no text can still be
shown: each longest piece that might have begun a character becomes one replacement character.
-/

namespace MarkupLint.Text

def utf8 (s : List Char) : List UInt8 := s.flatMap String.utf8EncodeChar

def inBytes (low high b : UInt8) : Bool := low ≤ b && b ≤ high

/-- The low six bits of a byte that continues a character. -/
def tailBits (b : UInt8) : Nat := b.toNat % 64

/-- The bytes that may follow the first one of a character of more than two bytes. -/
def mayFollow (first second : UInt8) : Bool :=
  if first = 0xE0 then inBytes 0xA0 0xBF second
  else if first = 0xED then inBytes 0x80 0x9F second
  else if first = 0xF0 then inBytes 0x90 0xBF second
  else if first = 0xF4 then inBytes 0x80 0x8F second
  else inBytes 0x80 0xBF second

def isTail (b : UInt8) : Bool := inBytes 0x80 0xBF b

/-- Reads the character at the front; `none` stands for bytes that are no character. -/
def readChar (b : UInt8) (s : List UInt8) : Option Char × List UInt8 :=
  if b < 0x80 then (some (Char.ofNat b.toNat), s)
  else if inBytes 0xC2 0xDF b then
    match s with
    | c :: t =>
      if isTail c then (some (Char.ofNat (b.toNat % 32 * 64 + tailBits c)), t) else (none, s)
    | [] => (none, s)
  else if inBytes 0xE0 0xEF b then
    match s with
    | c :: t =>
      if mayFollow b c then
        match t with
        | d :: u =>
          if isTail d then
            (some (Char.ofNat ((b.toNat % 16 * 64 + tailBits c) * 64 + tailBits d)), u)
          else (none, t)
        | [] => (none, t)
      else (none, s)
    | [] => (none, s)
  else if inBytes 0xF0 0xF4 b then
    match s with
    | c :: t =>
      if mayFollow b c then
        match t with
        | d :: u =>
          if isTail d then
            match u with
            | e :: v =>
              if isTail e then
                (some (Char.ofNat
                  (((b.toNat % 8 * 64 + tailBits c) * 64 + tailBits d) * 64 + tailBits e)), v)
              else (none, u)
            | [] => (none, u)
          else (none, t)
        | [] => (none, t)
      else (none, s)
    | [] => (none, s)
  else (none, s)

theorem readChar_length (b : UInt8) (s : List UInt8) : (readChar b s).2.length ≤ s.length := by
  unfold readChar
  repeat' split
  all_goals simp
  all_goals omega

/-- Reads characters to the end; `seen` holds, in reverse, those that were read. -/
def readCharsFrom (seen : List (Option Char)) : List UInt8 → List (Option Char)
  | [] => seen.reverse
  | b :: s => readCharsFrom ((readChar b s).1 :: seen) (readChar b s).2
termination_by s => s.length
decreasing_by
  have := readChar_length b s
  simp
  omega

/-- The characters of bytes, with `none` in the place of bytes that are no character. -/
def readChars (s : List UInt8) : List (Option Char) := readCharsFrom [] s

/-- The text of bytes, if all of them are text. -/
def ofUtf8? (s : List UInt8) : Option (List Char) :=
  let chars := readChars s
  if chars.all (·.isSome) then some (chars.filterMap id) else none

/-- The text of bytes, with replacement characters for what is no text. -/
def ofUtf8 (s : List UInt8) : List Char := (readChars s).map (·.getD '\ufffd')

end MarkupLint.Text

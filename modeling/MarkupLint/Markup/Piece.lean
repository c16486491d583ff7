import MarkupLint.Markup.Event
import MarkupLint.Text.Basic
import MarkupLint.Text.Split

/-!
# Markup pieces

A piece of markup is a comment, a declaration or a tag at the front of a text. `scanPiece`
recognises it by the first case that applies:

1. a comment starts with `<!--` and ends with the first `-->` that starts at its third character or
   later, or with the text;
2. a declaration starts with `<!` or `<?` and ends with the first `>`;
3. a closing tag starts with `</` and a letter and ends with the first `>`;
4. an opening tag starts with `<` and a letter and ends with the first `>` after its name that
   stands outside quotes.

A piece loses nothing (`scanPiece_append`) and is never empty (`scanPiece_raw_ne_nil`).
-/

namespace MarkupLint.Markup

open MarkupLint.Text

/-- A piece at the front of a text. -/
structure Piece where
  kind : EventKind
  /-- The element name, for tags. -/
  name : Option (List Char)
  /-- The text of the piece. -/
  raw : List Char
  /-- The text after the piece. -/
  rest : List Char

def closesComment (s : List Char) : Bool := ['-', '-', '>'].isPrefixOf s

def opensComment (s : List Char) : Bool := ['<', '!', '-', '-'].isPrefixOf s

def endsName (c : Char) : Bool := isBlank c || c == '>' || c == '/'

def elementName (s : List Char) : List Char := s.takeWhile fun c => !endsName c

def afterName (s : List Char) : List Char := s.dropWhile fun c => !endsName c

/-- Walks to the `>` that closes an opening tag; `quote` is the quote that is open. -/
def breakTagFrom (quote : Option Char) (seen : List Char) :
    List Char → Option (List Char × List Char)
  | [] => none
  | c :: s =>
    match quote with
    | some q => breakTagFrom (if c = q then none else some q) (c :: seen) s
    | none =>
      if c = '"' ∨ c = '\'' then breakTagFrom (some c) (c :: seen) s
      else if c = '>' then some ((c :: seen).reverse, s)
      else breakTagFrom none (c :: seen) s

/-- Splits a text after the first `>` outside quotes. -/
def breakTag (s : List Char) : Option (List Char × List Char) := breakTagFrom none [] s

/-- The piece whose text and rest are the two parts of a split. -/
def Piece.of (kind : EventKind) (name : Option (List Char)) (lead : List Char)
    (parts : List Char × List Char) : Piece :=
  ⟨kind, name, lead ++ parts.1, parts.2⟩

/-- The comment that starts with `<!` and goes on with the given text. -/
def scanComment (s : List Char) : Piece :=
  let parts := breakSuffix closesComment s
  .of .comment none ['<', '!'] (parts.1 ++ parts.2.take 3, parts.2.drop 3)

/-- The closing tag that starts with `</` and goes on with the given text. -/
def scanTagEnd (s : List Char) : Option Piece :=
  (breakAfter (· == '>') s).map (.of .tagEnd (elementName s) ['<', '/'])

/-- The opening tag that starts with `<` and goes on with the given text. -/
def scanTagStart (s : List Char) : Option Piece :=
  (breakTag (afterName s)).map (.of .tagStart (elementName s) ('<' :: elementName s))

/-- The piece at the front of a text, if there is one. -/
def scanPiece (s : List Char) : Option Piece :=
  match s with
  | '<' :: '!' :: t =>
    if ['-', '-'].isPrefixOf t then some (scanComment t)
    else (breakAfter (· == '>') t).map (.of .doctype none ['<', '!'])
  | '<' :: '?' :: t => (breakAfter (· == '>') t).map (.of .doctype none ['<', '?'])
  | '<' :: '/' :: c :: t => if c.isAlpha then scanTagEnd (c :: t) else none
  | '<' :: c :: t => if c.isAlpha then scanTagStart (c :: t) else none
  | _ => none

/-- A piece starts at the front of the text. -/
def opensPiece (s : List Char) : Bool := (scanPiece s).isSome

/-- An opening tag is closed in itself if a slash is the last thing before its `>`. -/
def selfClosing (raw : List Char) : Bool := (trimEnd raw.dropLast).getLast? == some '/'

/-- The elements whose content is not markup. -/
def rawTextElements : List (List Char) := ["script".toList, "style".toList]

/-- The element whose raw text follows the piece. -/
def Piece.opensRawText (u : Piece) : Option (List Char) :=
  match u.kind, u.name with
  | .tagStart, some name =>
    if selfClosing u.raw then none else rawTextElements.find? (sameIgnoringCase · name)
  | _, _ => none

/-! ## A piece loses nothing -/

theorem breakTagFrom_append {quote : Option Char} {seen s a b : List Char}
    (h : breakTagFrom quote seen s = some (a, b)) : a ++ b = seen.reverse ++ s := by
  induction s generalizing quote seen with
  | nil => simp [breakTagFrom] at h
  | cons c s ih =>
    cases quote with
    | some q =>
      rw [breakTagFrom] at h
      rw [ih h]
      simp
    | none =>
      rw [breakTagFrom] at h
      split at h
      · rw [ih h]
        simp
      · split at h
        · simp only [Option.some.injEq, Prod.mk.injEq] at h
          simp [← h.1, ← h.2]
        · rw [ih h]
          simp

theorem breakTag_append {s a b : List Char} (h : breakTag s = some (a, b)) : a ++ b = s := by
  simpa using breakTagFrom_append h

theorem elementName_append_afterName (s : List Char) : elementName s ++ afterName s = s :=
  List.takeWhile_append_dropWhile

theorem scanComment_append (s : List Char) :
    (scanComment s).raw ++ (scanComment s).rest = '<' :: '!' :: s := by
  simp [scanComment, Piece.of]

theorem scanTagEnd_append {s : List Char} {u : Piece} (h : scanTagEnd s = some u) :
    u.raw ++ u.rest = '<' :: '/' :: s := by
  simp only [scanTagEnd, Option.map_eq_some_iff, Prod.exists] at h
  obtain ⟨a, b, h, rfl⟩ := h
  simp [Piece.of, breakAfter_append h]

theorem scanTagStart_append {s : List Char} {u : Piece} (h : scanTagStart s = some u) :
    u.raw ++ u.rest = '<' :: s := by
  simp only [scanTagStart, Option.map_eq_some_iff, Prod.exists] at h
  obtain ⟨a, b, h, rfl⟩ := h
  simp [Piece.of, breakTag_append h, elementName_append_afterName]

/-- The text of a piece and its rest make up the whole text. -/
theorem scanPiece_append {s : List Char} {u : Piece} (h : scanPiece s = some u) :
    u.raw ++ u.rest = s := by
  unfold scanPiece at h
  split at h
  · split at h
    · simp only [Option.some.injEq] at h
      rw [← h, scanComment_append]
    · simp only [Option.map_eq_some_iff, Prod.exists] at h
      obtain ⟨a, b, h, rfl⟩ := h
      simp [Piece.of, breakAfter_append h]
  · simp only [Option.map_eq_some_iff, Prod.exists] at h
    obtain ⟨a, b, h, rfl⟩ := h
    simp [Piece.of, breakAfter_append h]
  · split at h
    · exact scanTagEnd_append h
    · simp at h
  · split at h
    · exact scanTagStart_append h
    · simp at h
  · simp at h

/-- A piece has a text. -/
theorem scanPiece_raw_ne_nil {s : List Char} {u : Piece} (h : scanPiece s = some u) :
    u.raw ≠ [] := by
  unfold scanPiece at h
  split at h
  · split at h
    · simp only [Option.some.injEq] at h
      simp [← h, scanComment, Piece.of]
    · simp only [Option.map_eq_some_iff, Prod.exists] at h
      obtain ⟨a, b, h, rfl⟩ := h
      simp [Piece.of]
  · simp only [Option.map_eq_some_iff, Prod.exists] at h
    obtain ⟨a, b, h, rfl⟩ := h
    simp [Piece.of]
  · split at h
    · simp only [scanTagEnd, Option.map_eq_some_iff, Prod.exists] at h
      obtain ⟨a, b, h, rfl⟩ := h
      simp [Piece.of]
    · simp at h
  · split at h
    · simp only [scanTagStart, Option.map_eq_some_iff, Prod.exists] at h
      obtain ⟨a, b, h, rfl⟩ := h
      simp [Piece.of]
    · simp at h
  · simp at h

end MarkupLint.Markup

import MarkupLint.Markup.Piece

/-!
# The tokenizer

A cursor walks over a text and yields one event at a time: the raw text of a script or style element
after its opening tag, else the markup piece at the front, else the text run up to the next piece.

The end of a text run has two definitions. `breakText` tries every place; `breakTextCounting` knows
how many `>` are still ahead, and once there is none it looks only for a comment, the one piece that
can open without a `>`. The cursor uses the second.

Each event takes its text from the front of the rest (`Cursor.next_append`), so the rest gets
shorter and the walk ends.
-/

namespace MarkupLint.Markup

open MarkupLint.Text

/-- Splits a text before the first markup piece in it. -/
def breakText (s : List Char) : List Char × List Char := breakSuffix opensPiece s

/-- Walks to the first markup piece; `closes` is the number of `>` in the text. -/
def breakTextFrom (closes : Nat) (seen : List Char) : List Char → List Char × List Char
  | [] => (seen.reverse, [])
  | c :: s =>
    if c = '<' then
      if closes = 0 then
        let parts := breakSuffix opensComment (c :: s)
        (seen.reverse ++ parts.1, parts.2)
      else if opensPiece (c :: s) then (seen.reverse, c :: s)
      else breakTextFrom closes (c :: seen) s
    else breakTextFrom (if c = '>' then closes - 1 else closes) (c :: seen) s

/-- Splits a text before the first markup piece in it, given the number of `>` in the text. -/
def breakTextCounting (closes : Nat) (s : List Char) : List Char × List Char :=
  breakTextFrom closes [] s

/-- Where the tokenizer is in a text. -/
structure Cursor where
  /-- What is still to be read. -/
  rest : List Char
  /-- The position of the rest. -/
  position : Position := {}
  /-- The element whose raw text comes next. -/
  pending : Option (List Char) := none
  /-- The number of `>` in the rest. -/
  closes : Nat

namespace Cursor

/-- The cursor at the front of a text. -/
def ofText (s : List Char) : Cursor := { rest := s, closes := s.count '>' }

/-- The raw text at the front of the rest, and what follows it, if any is due. -/
def rawText (c : Cursor) : Option (List Char × List Char) :=
  match c.pending with
  | none => none
  | some element =>
    let parts := breakSuffix (startsIgnoringCase ('<' :: '/' :: element)) c.rest
    if parts.1 = [] then none else some parts

def emit (c : Cursor) (u : Piece) : Event × Cursor :=
  (⟨u.kind, u.raw, c.position, u.name⟩,
    ⟨u.rest, c.position.advance u.raw, u.opensRawText, c.closes - u.raw.count '>'⟩)

def textRun (c : Cursor) (first : Char) (others : List Char) : Piece :=
  .of .text none [first]
    (breakTextCounting (if first = '>' then c.closes - 1 else c.closes) others)

/-- What stands at the front of the rest. -/
def piece? (c : Cursor) : Option Piece :=
  match c.rawText with
  | some parts => some (.of .cdata none [] parts)
  | none =>
    match c.rest with
    | [] => none
    | first :: others =>
      match scanPiece (first :: others) with
      | some u => some u
      | none => some (c.textRun first others)

/-- The next event, and the cursor after it; `none` at the end of the text. -/
def next (c : Cursor) : Option (Event × Cursor) := c.piece?.map c.emit

/-! ## The walk goes forward -/

theorem breakTextFrom_append (closes : Nat) (seen s : List Char) :
    (breakTextFrom closes seen s).1 ++ (breakTextFrom closes seen s).2 = seen.reverse ++ s := by
  induction s generalizing closes seen with
  | nil => simp [breakTextFrom]
  | cons c s ih =>
    rw [breakTextFrom]
    split
    · split
      · simp
      · split
        · simp
        · rw [ih]
          simp
    · rw [ih]
      simp

theorem breakTextCounting_append (closes : Nat) (s : List Char) :
    (breakTextCounting closes s).1 ++ (breakTextCounting closes s).2 = s := by
  simp [breakTextCounting, breakTextFrom_append]

theorem rawText_append {c : Cursor} {parts : List Char × List Char}
    (h : c.rawText = some parts) : parts.1 ++ parts.2 = c.rest ∧ parts.1 ≠ [] := by
  unfold rawText at h
  split at h
  · simp at h
  · simp only at h
    split at h
    · simp at h
    · rename_i hne
      simp only [Option.some.injEq] at h
      rw [← h]
      exact ⟨breakSuffix_append _ _, hne⟩

/-- The piece at the front is a non-empty piece of the rest. -/
theorem piece?_append {c : Cursor} {u : Piece} (h : c.piece? = some u) :
    u.raw ++ u.rest = c.rest ∧ u.raw ≠ [] := by
  unfold piece? at h
  split at h
  · rename_i parts hp
    simp only [Option.some.injEq] at h
    rw [← h]
    simpa [Piece.of] using rawText_append hp
  · split at h
    · simp at h
    · rename_i first others hr
      split at h
      · rename_i u' hu
        simp only [Option.some.injEq] at h
        rw [← h, hr]
        exact ⟨scanPiece_append hu, scanPiece_raw_ne_nil hu⟩
      · simp only [Option.some.injEq] at h
        rw [← h, hr]
        simp [textRun, Piece.of, breakTextCounting_append]

/-- An event takes its text from the front of the rest. -/
theorem next_append {c c' : Cursor} {e : Event} (h : c.next = some (e, c')) :
    e.raw ++ c'.rest = c.rest ∧ e.raw ≠ [] := by
  simp only [next, Option.map_eq_some_iff] at h
  obtain ⟨u, hu, he⟩ := h
  simp only [emit, Prod.mk.injEq] at he
  rw [← he.1, ← he.2]
  exact piece?_append hu

theorem next_length {c c' : Cursor} {e : Event} (h : c.next = some (e, c')) :
    c'.rest.length < c.rest.length := by
  have ⟨ha, hn⟩ := next_append h
  have := List.length_pos_iff.mpr hn
  rw [← ha, List.length_append]
  omega

/-- Walks to the end of the text; `seen` holds, in reverse, the events so far. -/
def runFrom (seen : List Event) (c : Cursor) : List Event × Position :=
  match _h : c.next with
  | none => (seen.reverse, c.position)
  | some (e, c') => runFrom (e :: seen) c'
termination_by c.rest.length
decreasing_by exact next_length _h

/-- The events from here on, and the position after the last of them. -/
def run (c : Cursor) : List Event × Position := c.runFrom []

end Cursor

/-- The pieces of a text in order, and the position after the last of them. -/
def tokenize (s : List Char) : List Event × Position := (Cursor.ofText s).run

/-- The events of a page: a start, its pieces, a finish at the end of the text. -/
def pageEvents (s : List Char) : List Event :=
  let pieces := tokenize s
  { kind := .start, raw := [], position := {} } ::
    (pieces.1 ++ [{ kind := .finish, raw := [], position := pieces.2 }])

end MarkupLint.Markup

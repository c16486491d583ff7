import MarkupLint.Regex.Basic

/-!
# Search by marked expressions

An expression is searched in a text by marking, after each character, the classes that may have
consumed it. A mark moves on from one class to those that may follow it; a match may start at every
place. A place ends a match when the expression may be empty there, or a mark stands where the
expression may end.
-/

namespace MarkupLint.Regex

/-- An expression with a mark at each class that may have consumed the last character. -/
inductive Marked where
  | empty
  | look (l : Look)
  | one (mark : Bool) (set : CharClass)
  | cat (a b : Marked)
  | alt (a b : Marked)
  | star (a : Marked)

/-- How a marked expression stands at a place. -/
structure Standing where
  /-- It matches the empty text there. -/
  skips : Bool
  /-- A match that is under way ends there. -/
  ends : Bool

namespace Standing

def accepts (s : Standing) : Bool := s.skips || s.ends

/-- What follows an expression is entered, given that the expression itself is. -/
def passes (s : Standing) (entered : Bool) : Bool := (entered && s.skips) || s.ends

/-- The standing of one expression after the other. -/
def andThen (s t : Standing) : Standing := ⟨s.skips && t.skips, (s.ends && t.skips) || t.ends⟩

def orElse (s t : Standing) : Standing := ⟨s.skips || t.skips, s.ends || t.ends⟩

end Standing

namespace Marked

/-- The standing at a place. -/
def standing (p : Place) : Marked → Standing
  | empty => ⟨true, false⟩
  | look l => ⟨l.holds p, false⟩
  | one mark _ => ⟨false, mark⟩
  | cat a b => (a.standing p).andThen (b.standing p)
  | alt a b => (a.standing p).orElse (b.standing p)
  | star a => ⟨true, (a.standing p).ends⟩

/-- Consumes the character after a place; also the standing before that. -/
def step (p : Place) (c : Char) : Marked → (entered : Bool) → Marked × Standing
  | empty, _ => (empty, ⟨true, false⟩)
  | look l, _ => (look l, ⟨l.holds p, false⟩)
  | one mark set, entered => (one (entered && set.contains c) set, ⟨false, mark⟩)
  | cat a b, entered =>
    let (a, s) := a.step p c entered
    let (b, t) := b.step p c (s.passes entered)
    (cat a b, s.andThen t)
  | alt a b, entered =>
    let (a, s) := a.step p c entered
    let (b, t) := b.step p c entered
    (alt a b, s.orElse t)
  | star a, entered =>
    let again := (a.standing p).ends
    let (a, _) := a.step p c (entered || again)
    (star a, ⟨true, again⟩)

theorem step_standing (p : Place) (c : Char) (a : Marked) (entered : Bool) :
    (a.step p c entered).2 = a.standing p := by
  induction a generalizing entered with
  | empty => rfl
  | look l => rfl
  | one mark set => rfl
  | cat a b iha ihb => simp [step, standing, iha, ihb]
  | alt a b iha ihb => simp [step, standing, iha, ihb]
  | star a _ => simp [step, standing]

/-- A match ends in the text, which follows the given character. -/
def search (a : Marked) (before : Option Char) : List Char → Bool
  | [] => (a.standing ⟨before, none⟩).accepts
  | c :: s =>
    let (b, standing) := a.step ⟨before, some c⟩ c true
    standing.accepts || b.search (some c) s

def times (a : Marked) : Nat → Marked
  | 0 => empty
  | 1 => a
  | n + 1 => cat a (a.times n)

def upTo (a : Marked) : Nat → Marked
  | 0 => empty
  | n + 1 => alt empty (cat a (a.upTo n))

end Marked

/-- The expression with its repetitions written out, and without marks. -/
def toMarked : Regex → Marked
  | empty => .empty
  | look l => .look l
  | one set => .one false set
  | cat a b => .cat a.toMarked b.toMarked
  | alt a b => .alt a.toMarked b.toMarked
  | repeated a low high =>
    let b := a.toMarked
    let low := if a.isEmptyOnly then min low 1 else low
    match high with
    | none => .cat (b.times low) (.star b)
    | some high =>
      .cat (b.times low) (b.upTo ((if a.isEmptyOnly then min high 1 else high) - low))

end MarkupLint.Regex

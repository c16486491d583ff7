import MarkupLint.Proofs.Trace

/-!
# Lines and columns

The tokenizer counts lines and columns along, event by event. Said without counting along: the line
of a place is one more than the line feeds in front of it, and its column is one more than the
characters since the last of them.

Results:
1. `advance_eq`: what is counted along is the position by that rule.
2. `lt_advance`: positions grow with every character, in the order of lines and then of columns.
3. `advance?_eq`: two counters of 32 bits do not overflow in a text of fewer than `2 ^ 32 - 1`
   characters; `UInt32.size` is `2 ^ 32`.
4. `Trace.ascending`: the positions along a trace are in strictly ascending order.
5. `tokenize_positions`: the positions of the events of a text.
-/

namespace MarkupLint.Markup

/-! ## Definitions -/

/-- The characters after the last line feed. -/
def lastLine (s : List Char) : List Char := (s.reverse.takeWhile (· != '\n')).reverse

/-- The position behind a text. -/
def Position.ofText (s : List Char) : Position := ⟨1 + s.count '\n', 1 + (lastLine s).length⟩

/-- An earlier line, or an earlier column of the same line. -/
instance : LT Position :=
  ⟨fun p q => p.line < q.line ∨ p.line = q.line ∧ p.column < q.column⟩

/-- A position in two counters of 32 bits. -/
structure WordPosition where
  line : UInt32 := 1
  column : UInt32 := 1
deriving DecidableEq, Repr

namespace WordPosition

/-- One more, if that fits into 32 bits. -/
def increment? (n : UInt32) : Option UInt32 :=
  if n.toNat + 1 < UInt32.size then some (n + 1) else none

/-- The position after one character; `none` if a counter overflows. -/
def step? (p : WordPosition) (c : Char) : Option WordPosition :=
  if c = '\n' then (increment? p.line).map fun n => ⟨n, 1⟩
  else (increment? p.column).map fun n => ⟨p.line, n⟩

/-- The position after a text; `none` if a counter overflows on the way. -/
def advance? (p : WordPosition) : List Char → Option WordPosition
  | [] => some p
  | c :: s => (p.step? c).bind fun q => q.advance? s

def toPosition (p : WordPosition) : Position := ⟨p.line.toNat, p.column.toNat⟩

end WordPosition

namespace Position

/-! ## 1. The position by its rule -/

theorem ofText_concat (s : List Char) (c : Char) : ofText (s ++ [c]) = (ofText s).step c := by
  unfold ofText step lastLine
  by_cases h : c = '\n'
  · subst h
    simp [Nat.add_assoc]
  · simp [h, Nat.add_assoc]

theorem advance_concat (p : Position) (s : List Char) (c : Char) :
    p.advance (s ++ [c]) = (p.advance s).step c := by
  rw [advance_append]
  rfl

/-- What is counted along is the position by its rule. -/
theorem advance_eq (s : List Char) : ({} : Position).advance s = ofText s := by
  -- the rule looks back from the end, so the induction takes characters from the end
  obtain ⟨r, rfl⟩ : ∃ r, s = List.reverse r := ⟨s.reverse, s.reverse_reverse.symm⟩
  induction r with
  | nil => rfl
  | cons c r ih => rw [List.reverse_cons, advance_concat, ofText_concat, ih]

/-! ## 2. The order of positions -/

theorem lt_def {p q : Position} :
    p < q ↔ p.line < q.line ∨ p.line = q.line ∧ p.column < q.column := Iff.rfl

theorem lt_trans {p q r : Position} (h : p < q) (h' : q < r) : p < r := by
  rw [lt_def] at *
  omega

theorem lt_step (p : Position) (c : Char) : p < p.step c := by
  unfold step
  split
  · exact Or.inl (Nat.lt_succ_self _)
  · exact Or.inr ⟨rfl, Nat.lt_succ_self _⟩

theorem lt_advance (p : Position) {s : List Char} (h : s ≠ []) : p < p.advance s := by
  induction s generalizing p with
  | nil => exact absurd rfl h
  | cons c s ih =>
    have hc : p < p.step c := lt_step p c
    cases s with
    | nil => exact hc
    | cons d s => exact lt_trans hc (ih (p.step c) (by simp))

end Position

/-! ## 3. Counters of 32 bits -/

namespace WordPosition

theorem increment?_eq {n : UInt32} (h : n.toNat + 1 < UInt32.size) :
    ∃ m, increment? n = some m ∧ m.toNat = n.toNat + 1 := by
  refine ⟨n + 1, if_pos h, ?_⟩
  rw [UInt32.toNat_add]
  exact Nat.mod_eq_of_lt h

theorem step?_eq {p : WordPosition} (c : Char) (hl : p.line.toNat + 1 < UInt32.size)
    (hc : p.column.toNat + 1 < UInt32.size) :
    ∃ q, p.step? c = some q ∧ q.toPosition = p.toPosition.step c := by
  unfold step? Position.step
  split
  · obtain ⟨m, hm, hn⟩ := increment?_eq hl
    exact ⟨⟨m, 1⟩, by rw [hm]; rfl, by simp [toPosition, hn]⟩
  · obtain ⟨m, hm, hn⟩ := increment?_eq hc
    exact ⟨⟨p.line, m⟩, by rw [hm]; rfl, by simp [toPosition, hn]⟩

/-- As long as the counters leave room for every character, they do not overflow. -/
theorem advance?_eq {p : WordPosition} {s : List Char} (hl : p.line.toNat + s.length < UInt32.size)
    (hc : p.column.toNat + s.length < UInt32.size) :
    ∃ q, p.advance? s = some q ∧ q.toPosition = p.toPosition.advance s := by
  induction s generalizing p with
  | nil => exact ⟨p, rfl, rfl⟩
  | cons c s ih =>
    rw [List.length_cons] at hl hc
    obtain ⟨q, hq, he⟩ := step?_eq (p := p) c (by omega) (by omega)
    have hb : q.line.toNat ≤ p.line.toNat + 1 ∧ q.column.toNat ≤ p.column.toNat + 1 := by
      have hline : q.line.toNat = (p.toPosition.step c).line := congrArg Position.line he
      have hcolumn : q.column.toNat = (p.toPosition.step c).column := congrArg Position.column he
      rw [hline, hcolumn]
      unfold Position.step
      split
      · exact ⟨Nat.le_refl _, Nat.le_add_left 1 _⟩
      · exact ⟨Nat.le_add_right _ 1, Nat.le_refl _⟩
    obtain ⟨r, hr, hp⟩ := ih (p := q) (by omega) (by omega)
    refine ⟨r, by rw [advance?, hq]; exact hr, ?_⟩
    rw [hp, he]
    rfl

/-- Every position in a text of fewer than `2 ^ 32 - 1` characters fits into the counters. -/
theorem advance?_prefix {s a : List Char} (hs : s.length < UInt32.size - 1) (ha : a <+: s) :
    ∃ q, ({} : WordPosition).advance? a = some q ∧ q.toPosition = .ofText a := by
  have hl := ha.length_le
  have hone : (1 : UInt32).toNat = 1 := rfl
  obtain ⟨q, hq, he⟩ := advance?_eq (p := {}) (s := a) (by rw [hone]; omega) (by rw [hone]; omega)
  refine ⟨q, hq, ?_⟩
  rw [he, ← Position.advance_eq]
  rfl

end WordPosition

/-! ## 4. The positions along a trace -/

namespace Cursor

def positions (es : List Event) (d : Cursor) : List Position :=
  es.map (·.position) ++ [d.position]

/-- No position of a trace stands in front of the trace. -/
theorem Trace.position_le {c d : Cursor} {es : List Event} (h : Trace c es d) :
    ∀ p ∈ positions es d, p = c.position ∨ c.position < p := by
  induction h with
  | nil => simp [positions]
  | @cons c c' d e es hn _ ih =>
    obtain ⟨he, hc', _⟩ := next_cursor hn
    have hlt : c.position < c'.position := by
      rw [hc']
      exact Position.lt_advance _ (next_append hn).2
    intro p hp
    rcases List.mem_cons.mp hp with rfl | hp
    · exact Or.inl he
    · rcases ih p hp with rfl | hlt'
      · exact Or.inr hlt
      · exact Or.inr (Position.lt_trans hlt hlt')

theorem Trace.ascending {c d : Cursor} {es : List Event} (h : Trace c es d) :
    (positions es d).Pairwise (· < ·) := by
  induction h with
  | nil => simp [positions]
  | @cons c c' d e es hn ht ih =>
    obtain ⟨he, hc', _⟩ := next_cursor hn
    have hlt : e.position < c'.position := by
      rw [he, hc']
      exact Position.lt_advance _ (next_append hn).2
    refine List.pairwise_cons.mpr ⟨fun p hp => ?_, ih⟩
    rcases ht.position_le p hp with rfl | hlt'
    · exact hlt
    · exact Position.lt_trans hlt hlt'

end Cursor

/-! ## 5. The positions of the events of a text -/

theorem position_of_split {s : List Char} {before after : List Event} {e : Event}
    (h : (tokenize s).1 = before ++ e :: after) : e.position = .ofText (written before) := by
  obtain ⟨c, c', ht, hn, _⟩ := tokenize_step h
  have hp : c.position = ({} : Position).advance (written before) := ht.position
  rw [(Cursor.next_cursor hn).1, hp, Position.advance_eq]

theorem tokenize_ascending (s : List Char) :
    (tokenize s).1.Pairwise fun e f => e.position < f.position := by
  obtain ⟨d, ht, _⟩ := Cursor.trace_run (Cursor.ofText s)
  exact List.pairwise_map.mp (List.pairwise_append.mp ht.ascending).1

/-- Each event stands at the position behind the text of the events before it, and the page ends at
the position behind the whole text. These positions are in strictly ascending order, and two
counters of 32 bits hold them all if the text has fewer than `2 ^ 32 - 1` characters. -/
theorem tokenize_positions (s : List Char) :
    (∀ before e after, (tokenize s).1 = before ++ e :: after →
      s = written before ++ (e.raw ++ written after) ∧ e.position = .ofText (written before)) ∧
    (tokenize s).2 = .ofText s ∧
    (pageEvents s).getLast? = some ⟨.finish, [], .ofText s, none⟩ ∧
    ((tokenize s).1.map (·.position) ++ [(tokenize s).2]).Pairwise (· < ·) ∧
    (s.length < UInt32.size - 1 → ∀ a, a <+: s →
      ∃ q, ({} : WordPosition).advance? a = some q ∧ q.toPosition = .ofText a) := by
  have hend : (tokenize s).2 = .ofText s := by
    rw [tokenize_position, Position.advance_eq]
  refine ⟨fun before e after h => ⟨eq_written_of_split h, position_of_split h⟩, hend, ?_, ?_, ?_⟩
  · rw [pageEvents, hend, ← List.cons_append, List.getLast?_concat]
  · obtain ⟨d, ht, _, hp⟩ := Cursor.trace_run (Cursor.ofText s)
    rw [show (tokenize s).2 = d.position from hp]
    exact ht.ascending
  · intro hs a ha
    exact WordPosition.advance?_prefix hs ha

/-- A column counts characters: `é` takes one, as a tab does. -/
theorem tokenize_positions_second_line :
    (tokenize "<li>\n\té<p>".toList).1 =
      [⟨.tagStart, "<li>".toList, ⟨1, 1⟩, some "li".toList⟩,
          ⟨.text, "\n\té".toList, ⟨1, 5⟩, none⟩] ++
        ⟨.tagStart, "<p>".toList, ⟨2, 3⟩, some ['p']⟩ :: [] ∧
    Position.ofText "<li>\n\té".toList = ⟨2, 3⟩ ∧
    "<li>\n\té<p>".toList.length < UInt32.size - 1 ∧
    ∃ q, ({} : WordPosition).advance? "<li>\n\té<p>".toList = some q ∧ q.toPosition = ⟨2, 6⟩ := by
  have h : (tokenize "<li>\n\té<p>".toList).1 =
      [⟨.tagStart, "<li>".toList, ⟨1, 1⟩, some "li".toList⟩,
          ⟨.text, "\n\té".toList, ⟨1, 5⟩, none⟩] ++
        ⟨.tagStart, "<p>".toList, ⟨2, 3⟩, some ['p']⟩ :: [] := by decide +kernel
  have hl : "<li>\n\té<p>".toList.length < UInt32.size - 1 := by decide
  obtain ⟨he, _, _, _, hw⟩ := tokenize_positions "<li>\n\té<p>".toList
  exact ⟨h, (he _ _ _ h).2.symm, hl, hw hl _ (List.prefix_refl _)⟩

end MarkupLint.Markup

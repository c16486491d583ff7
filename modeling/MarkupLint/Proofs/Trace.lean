import MarkupLint.Markup.Tokenizer

/-!
# Traces of the tokenizer

A trace is a finite sequence of steps of the cursor, with the events that the steps give. The whole
run of the tokenizer is the one trace that cannot be prolonged, so what one step keeps holds at
every place between two events.

Results:
1. `next_eq_none_iff`: the walk stops at the end of the text and nowhere else.
2. `trace_run`, `run_of_trace`: the run is a trace to the end of the text, and every trace to the
   end of the text is the run.
3. `Trace.split`: a trace can be cut at every place between two events.
4. `Trace.written`, `Trace.position`, `Trace.counts`, `Trace.pending_mem`: what holds along a trace.
5. `tokenize_split`, `tokenize_step`: the cursor between two events of a text.
-/

namespace MarkupLint.Markup

open MarkupLint.Text

/-! ## Definitions -/

/-- The text that events take together. -/
def written (es : List Event) : List Char := es.flatMap (·.raw)

/-- The element whose raw text follows an event. -/
def Event.opensRawText (e : Event) : Option (List Char) :=
  (Piece.mk e.kind e.tagName e.raw []).opensRawText

namespace Cursor

/-- `Trace c es d`: the events `es` come next after `c`, and `d` is the cursor after them. -/
inductive Trace : Cursor → List Event → Cursor → Prop
  | nil {c : Cursor} : Trace c [] c
  | cons {c c' d : Cursor} {e : Event} {es : List Event} :
      c.next = some (e, c') → Trace c' es d → Trace c (e :: es) d

/-- The counter of a cursor tells how many `>` are ahead. -/
def Counts (c : Cursor) : Prop := c.closes = c.rest.count '>'

/-- The element whose raw text is due is one of those with raw text. -/
def PendingRaw (c : Cursor) : Prop := ∀ element ∈ c.pending, element ∈ rawTextElements

end Cursor

@[simp]
theorem written_nil : written [] = [] := rfl

@[simp]
theorem written_cons (e : Event) (es : List Event) : written (e :: es) = e.raw ++ written es := rfl

@[simp]
theorem written_append (es fs : List Event) : written (es ++ fs) = written es ++ written fs :=
  List.flatMap_append

namespace Cursor

/-! ## 1. One step -/

theorem rawText_of_rest_nil {c : Cursor} (h : c.rest = []) : c.rawText = none := by
  unfold rawText
  rw [h]
  cases c.pending with
  | none => rfl
  | some element => rfl

/-- The walk stops at the end of the text and nowhere else. -/
theorem next_eq_none_iff {c : Cursor} : c.next = none ↔ c.rest = [] := by
  constructor
  · intro h
    rw [next, Option.map_eq_none_iff] at h
    unfold piece? at h
    split at h
    · exact absurd h (by simp)
    · split at h
      · next hr => exact hr
      · split at h <;> exact absurd h (by simp)
  · intro h
    rw [next, piece?, rawText_of_rest_nil h, h]
    rfl

theorem piece?_of_next {c c' : Cursor} {e : Event} (h : c.next = some (e, c')) :
    ∃ u, c.piece? = some u ∧ c.emit u = (e, c') := by
  rw [next, Option.map_eq_some_iff] at h
  exact h

/-- What a step does to the cursor, for a given event. -/
theorem next_cursor {c c' : Cursor} {e : Event} (h : c.next = some (e, c')) :
    e.position = c.position ∧ c'.position = c.position.advance e.raw ∧
    c'.pending = e.opensRawText ∧ c'.closes = c.closes - e.raw.count '>' := by
  obtain ⟨u, _, he⟩ := piece?_of_next h
  simp only [emit, Prod.mk.injEq] at he
  rw [← he.1, ← he.2]
  exact ⟨rfl, rfl, rfl, rfl⟩

theorem next_counts {c c' : Cursor} {e : Event} (h : c.next = some (e, c')) (hc : c.Counts) :
    c'.Counts := by
  have hr : c.rest.count '>' = e.raw.count '>' + c'.rest.count '>' := by
    rw [← (next_append h).1, List.count_append]
  rw [Counts, (next_cursor h).2.2.2, show c.closes = c.rest.count '>' from hc, hr]
  exact Nat.add_sub_cancel_left _ _

theorem opensRawText_mem {u : Piece} {element : List Char} (h : u.opensRawText = some element) :
    element ∈ rawTextElements := by
  unfold Piece.opensRawText at h
  split at h
  · split at h
    · exact absurd h (by simp)
    · exact List.mem_of_find?_eq_some h
  · exact absurd h (by simp)

theorem opensRawText_of_ne {e : Event} (h : e.kind ≠ .tagStart) : e.opensRawText = none := by
  unfold Event.opensRawText Piece.opensRawText
  split
  · next hk _ => exact absurd hk h
  · rfl

theorem next_pending_mem {c c' : Cursor} {e : Event} (h : c.next = some (e, c')) :
    c'.PendingRaw := by
  intro element he
  rw [(next_cursor h).2.2.1] at he
  exact opensRawText_mem he

/-! ## 2. The run as a trace -/

theorem runFrom_eq (seen : List Event) (c : Cursor) :
    c.runFrom seen = (seen.reverse ++ c.run.1, c.run.2) := by
  induction hn : c.rest.length using Nat.strongRecOn generalizing c seen with
  | _ n ih =>
    rw [run, runFrom, runFrom]
    split
    · simp
    · next e c' h =>
      have hlt : c'.rest.length < n := hn ▸ next_length h
      rw [ih _ hlt (e :: seen) c' rfl, ih _ hlt [e] c' rfl]
      simp

theorem run_of_next_none {c : Cursor} (h : c.next = none) : c.run = ([], c.position) := by
  rw [run, runFrom]
  split
  · rfl
  · next h' => exact absurd (h.symm.trans h') (by simp)

theorem run_of_next_some {c c' : Cursor} {e : Event} (h : c.next = some (e, c')) :
    c.run = (e :: c'.run.1, c'.run.2) := by
  rw [run, runFrom]
  split
  · next h' => exact absurd (h.symm.trans h') (by simp)
  · next e₁ c₁ h' =>
    have he : (e, c') = (e₁, c₁) := Option.some.inj (h.symm.trans h')
    cases he
    rw [runFrom_eq]
    rfl

/-- The run is a trace that ends where the text does. -/
theorem trace_run (c : Cursor) : ∃ d, Trace c c.run.1 d ∧ d.rest = [] ∧ c.run.2 = d.position := by
  -- each step makes the rest shorter
  induction hn : c.rest.length using Nat.strongRecOn generalizing c with
  | _ n ih =>
    cases h : c.next with
    | none =>
      rw [run_of_next_none h]
      exact ⟨c, .nil, next_eq_none_iff.mp h, rfl⟩
    | some r =>
      obtain ⟨e, c'⟩ := r
      obtain ⟨d, ht, hd, hp⟩ := ih _ (hn ▸ next_length h) c' rfl
      rw [run_of_next_some h]
      exact ⟨d, .cons h ht, hd, hp⟩

/-- Every trace that ends where the text does is the run. -/
theorem run_of_trace {c d : Cursor} {es : List Event} (h : Trace c es d) (hd : d.rest = []) :
    c.run = (es, d.position) := by
  induction h with
  | nil => exact run_of_next_none (next_eq_none_iff.mpr hd)
  | cons h _ ih => rw [run_of_next_some h, ih hd]

/-! ## 3. Cutting a trace -/

/-- A trace can be cut at every place between two events. -/
theorem Trace.split {c d' : Cursor} {es fs : List Event} (h : Trace c (es ++ fs) d') :
    ∃ d, Trace c es d ∧ Trace d fs d' := by
  induction es generalizing c with
  | nil => exact ⟨c, .nil, h⟩
  | cons e es ih =>
    cases h with
    | cons hn ht =>
      obtain ⟨d, hd, hd'⟩ := ih ht
      exact ⟨d, .cons hn hd, hd'⟩

/-! ## 4. What holds along a trace -/

/-- Nothing of the text is lost. -/
theorem Trace.written {c d : Cursor} {es : List Event} (h : Trace c es d) :
    Markup.written es ++ d.rest = c.rest := by
  induction h with
  | nil => rfl
  | cons hn _ ih => rw [written_cons, List.append_assoc, ih, (next_append hn).1]

theorem Trace.raw_ne_nil {c d : Cursor} {es : List Event} (h : Trace c es d) :
    ∀ e ∈ es, e.raw ≠ [] := by
  induction h with
  | nil => simp
  | cons hn _ ih =>
    intro e he
    rcases List.mem_cons.mp he with rfl | he
    · exact (next_append hn).2
    · exact ih e he

/-- The position of a cursor is the position after the text before it. -/
theorem Trace.position {c d : Cursor} {es : List Event} (h : Trace c es d) :
    d.position = c.position.advance (Markup.written es) := by
  induction h with
  | nil => rfl
  | cons hn _ ih => rw [ih, (next_cursor hn).2.1, written_cons, Position.advance_append]

theorem Trace.counts {c d : Cursor} {es : List Event} (h : Trace c es d) (hc : c.Counts) :
    d.Counts := by
  induction h with
  | nil => exact hc
  | cons hn _ ih => exact ih (next_counts hn hc)

theorem Trace.pending_mem {c d : Cursor} {es : List Event} (h : Trace c es d)
    (hc : c.PendingRaw) : d.PendingRaw := by
  induction h with
  | nil => exact hc
  | cons hn _ ih => exact ih (next_pending_mem hn)

/-- What is due after some events depends on the last of them. -/
theorem Trace.pending {c d : Cursor} {es : List Event} (h : Trace c es d) :
    d.pending = (es.getLast?.map Event.opensRawText).getD c.pending := by
  induction h with
  | nil => rfl
  | @cons c c' d e es hn _ ih =>
    rw [ih, (next_cursor hn).2.2.1]
    cases es with
    | nil => rfl
    | cons f fs => simp [List.getLast?_cons]

theorem ofText_counts (s : List Char) : (ofText s).Counts := rfl

theorem ofText_pending_mem (s : List Char) : (ofText s).PendingRaw := by
  intro element h
  exact absurd h (by simp [ofText])

end Cursor

/-! ## 5. A text between two of its events -/

open Cursor in
/-- Between two events of a text stands a cursor whose rest is the text of the later events. -/
theorem tokenize_split {s : List Char} {es fs : List Event} (h : (tokenize s).1 = es ++ fs) :
    ∃ c d, Trace (ofText s) es c ∧ Trace c fs d ∧ d.rest = [] ∧ s = written es ++ c.rest ∧
      c.rest = written fs ∧ c.Counts ∧ c.PendingRaw := by
  obtain ⟨d, ht, hd, _⟩ := trace_run (ofText s)
  rw [show (ofText s).run.1 = es ++ fs from h] at ht
  obtain ⟨c, h₁, h₂⟩ := ht.split
  refine ⟨c, d, h₁, h₂, hd, h₁.written.symm, ?_, h₁.counts (ofText_counts s),
    h₁.pending_mem (ofText_pending_mem s)⟩
  rw [← h₂.written, hd, List.append_nil]

open Cursor in
/-- Each event of a text is one step of a cursor that stands behind the events before it. -/
theorem tokenize_step {s : List Char} {before after : List Event} {e : Event}
    (h : (tokenize s).1 = before ++ e :: after) :
    ∃ c c', Trace (ofText s) before c ∧ c.next = some (e, c') ∧ c.Counts ∧
      c.rest = e.raw ++ written after ∧ c'.rest = written after := by
  obtain ⟨c, d, hb, ht, hd, _, hr, hc, _⟩ := tokenize_split h
  cases ht with
  | @cons _ c' _ _ _ hn ht =>
    refine ⟨c, c', hb, hn, hc, hr, ?_⟩
    rw [← ht.written, hd, List.append_nil]

/-- The events take the whole text. -/
theorem written_tokenize (s : List Char) : written (tokenize s).1 = s := by
  obtain ⟨c, _, _, _, _, hs, hr, _⟩ := tokenize_split (List.append_nil (tokenize s).1).symm
  rw [hr, written_nil, List.append_nil] at hs
  exact hs.symm

/-- Each event stands in the text between the events before it and those after it. -/
theorem eq_written_of_split {s : List Char} {before after : List Event} {e : Event}
    (h : (tokenize s).1 = before ++ e :: after) :
    s = written before ++ (e.raw ++ written after) := by
  rw [← written_cons, ← written_append, ← h, written_tokenize]

/-- The position after the last event is the one after the last character. -/
theorem tokenize_position (s : List Char) : (tokenize s).2 = ({} : Position).advance s := by
  obtain ⟨d, ht, hd, hp⟩ := Cursor.trace_run (Cursor.ofText s)
  have hw := ht.written
  rw [hd, List.append_nil] at hw
  rw [show (tokenize s).2 = d.position from hp, ht.position, hw]
  rfl

end MarkupLint.Markup

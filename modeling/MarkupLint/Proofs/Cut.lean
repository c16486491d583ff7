import MarkupLint.Proofs.Reading

/-!
# Cutting a text between two events

Every decision of the tokenizer looks ahead, some of them to the end of the text. This module shows
that what is ahead of the next event does not matter beyond it: a text that is cut between two
events falls into the same events as before.

Results:
1. `IsMarkup.append`: a place where markup opens opens it in every longer text too, so a cut makes
   no markup of a rejected `<`.
2. `Opens.replace`: markup does not depend on what follows it.
3. `Reads.covers_close`: a piece that starts where an element is closed covers the name of it.
4. `Trace.cut`: a trace stays one when the text after it is cut off.
5. `Trace.shift`: a trace stays one when it starts at another position.
6. `tokenize_cut`: the cut law.
-/

namespace MarkupLint.Markup

open MarkupLint.Text

/-! ## Definitions -/

/-- The position `q` of a text, for a text that starts at `p`. -/
def Position.shift (p q : Position) : Position :=
  ⟨p.line + q.line - 1, if q.line = 1 then p.column + q.column - 1 else q.column⟩

/-- Lines and columns are counted from one. -/
def Position.FromOne (p : Position) : Prop := 1 ≤ p.line ∧ 1 ≤ p.column

/-- An event of a text, for a text that starts at `p`. -/
def Event.shift (p : Position) (e : Event) : Event := { e with position := p.shift e.position }

/-- An opening tag of an element with raw text that is not closed in itself. -/
def Event.IsRawTextTag (e : Event) : Prop :=
  e.kind = .tagStart ∧ selfClosing e.raw = false ∧
    ∃ name ∈ e.tagName, ∃ element ∈ rawTextElements, sameIgnoringCase element name = true

/-- The cursor in front of another text. -/
def Cursor.cut (c : Cursor) (s : List Char) : Cursor :=
  { c with rest := s, closes := s.count '>' }

/-- The cursor in a text that starts at `p`. -/
def Cursor.shift (p : Position) (c : Cursor) : Cursor := { c with position := p.shift c.position }

/-! ## 1. Longer texts -/

theorem elementName_append {s : List Char} (h : afterName s ≠ []) (x : List Char) :
    elementName (s ++ x) = elementName s ∧ afterName (s ++ x) = afterName s ++ x := by
  have hl : elementName s ≠ s := by
    intro he
    have hp := elementName_append_afterName s
    rw [he] at hp
    exact h (List.append_cancel_left (hp.trans (List.append_nil s).symm))
  have hn : (elementName s).length ≠ s.length := by
    intro he
    exact hl ((List.takeWhile_prefix _).eq_of_length he)
  have hname : elementName (s ++ x) = elementName s := by
    unfold elementName at hn ⊢
    rw [List.takeWhile_append, if_neg hn]
  refine ⟨hname, ?_⟩
  have hp := elementName_append_afterName (s ++ x)
  rw [hname] at hp
  have h : elementName s ++ afterName (s ++ x) = elementName s ++ (afterName s ++ x) := by
    rw [hp, ← List.append_assoc, elementName_append_afterName]
  exact List.append_cancel_left h

theorem Named.append {s name tail : List Char} (h : Named s name tail) (ht : tail ≠ [])
    (x : List Char) : Named (s ++ x) name (tail ++ x) := by
  obtain ⟨rfl, rfl⟩ := h.unique (elementName_named s)
  obtain ⟨hn, ha⟩ := elementName_append ht x
  rw [← hn, ← ha]
  exact elementName_named _

/-- Where markup opens, it opens in every longer text. -/
theorem IsMarkup.append {s : List Char} (h : IsMarkup s) (x : List Char) : IsMarkup (s ++ x) := by
  rcases h with h | ⟨hp, hm⟩ | ⟨⟨c, t, rfl, hc⟩, hm⟩ | ⟨c, t, name, a, b, rfl, hc, hn, ha⟩
  · exact Or.inl (h.trans (List.prefix_append s x))
  · refine Or.inr (Or.inl ⟨?_, List.mem_append_left x hm⟩)
    rcases hp with hp | hp
    · exact Or.inl (hp.trans (List.prefix_append s x))
    · exact Or.inr (hp.trans (List.prefix_append s x))
  · exact Or.inr (Or.inr (Or.inl ⟨⟨c, t ++ x, rfl, hc⟩, List.mem_append_left x hm⟩))
  · refine Or.inr (Or.inr (Or.inr ⟨c, t ++ x, name, a, b ++ x, rfl, hc, ?_, ha⟩))
    have hn' := hn.append (by simp) x
    rwa [List.append_assoc, List.cons_append, List.cons_append] at hn'

theorem ClosesElement.append {element s : List Char} (h : ClosesElement element s)
    (x : List Char) : ClosesElement element (s ++ x) := by
  have hl := sameIgnoringCase_length h
  rw [List.length_take] at hl
  rw [ClosesElement, startsIgnoringCase, List.take_append_of_le_length (by omega)]
  exact h

theorem ClosesElement.of_append {element s x : List Char} (h : ClosesElement element (s ++ x))
    (hl : element.length + 2 ≤ s.length) : ClosesElement element s := by
  have hl : ('<' :: '/' :: element).length ≤ s.length := hl
  rw [ClosesElement, startsIgnoringCase, List.take_append_of_le_length hl] at h
  exact h

/-! ## 2. What follows markup -/

namespace CutLemmas

/-- The start of a text up to its first `>` decides what it starts with. -/
theorem prefix_iff_of_endsWith {p s raw rest : List Char} (hp : '>' ∉ p)
    (h : Shortest (EndsWith '>') s raw rest) (x : List Char) : p <+: raw ++ x ↔ p <+: s := by
  have hm : ∀ y, p <+: raw ++ y → p <+: raw := by
    intro y hy
    rcases List.prefix_or_prefix_of_prefix hy (List.prefix_append raw y) with hr | hr
    · exact hr
    · obtain ⟨t, ht⟩ := h.pass
      exact absurd (hr.subset (by simp [ht])) hp
  constructor
  · intro hx
    rw [← h.parts]
    exact (hm x hx).trans (List.prefix_append raw rest)
  · intro hs
    rw [← h.parts] at hs
    exact (hm rest hs).trans (List.prefix_append raw x)

theorem elementName_close (w x : List Char) : elementName (w ++ '>' :: x) = elementName w := by
  rw [elementName, List.takeWhile_append]
  split
  · next h =>
    rw [elementName, (List.takeWhile_prefix _).eq_of_length h, List.takeWhile_cons]
    simp [endsName]
  · rfl

/-- The name in a tag is found in front of the first `>`. -/
theorem named_close {w x y name tail : List Char} (h : Named (w ++ '>' :: x) name tail) :
    ∃ tail', Named (w ++ '>' :: y) name tail' := by
  obtain ⟨rfl, _⟩ := h.unique (elementName_named _)
  refine ⟨afterName (w ++ '>' :: y), ?_⟩
  rw [elementName_close, ← elementName_close w y]
  exact elementName_named _

theorem replace_comment {s raw rest : List Char} (hc : IsComment s)
    (hs : Shortest EndsComment s raw rest) (x : List Char) : IsComment (raw ++ x) := by
  obtain ⟨t, ht, hl⟩ := hs.pass
  have hp : ['<', '!', '-', '-'] <+: raw := by
    refine List.prefix_of_prefix_length_le hc ?_ ?_
    · rw [← hs.parts]
      exact List.prefix_append raw rest
    · simp only [ht, List.length_append, List.length_cons, List.length_nil]
      omega
  exact hp.trans (List.prefix_append raw x)

theorem replace_tagEnd {t name tail s raw rest : List Char} (he : IsTagEnd s)
    (ht : s = '<' :: '/' :: t) (hn : Named t name tail)
    (hs : Shortest (EndsWith '>') s raw rest) (x : List Char) :
    Opens (raw ++ x) ⟨.tagEnd, some name, raw, x⟩ := by
  obtain ⟨⟨c, r, hr, hc⟩, _⟩ := he
  obtain ⟨w, rfl, hw, hsw⟩ := shortest_endsWith_iff.mp hs
  have hcg : c ≠ '>' := GrammarLemmas.ne_of_isAlpha hc (by decide)
  -- the first `>` is behind the first letter of the name
  match w, hsw with
  | [], hsw => exact absurd (hr.symm.trans hsw) (by simp)
  | [a], hsw => exact absurd (hr.symm.trans hsw) (by simp)
  | [a, b], hsw => exact absurd (hr.symm.trans hsw) (by simp [hcg])
  | a :: b :: d :: w, hsw =>
    have hd : '<' :: '/' :: c :: r = a :: b :: d :: (w ++ '>' :: rest) := hr.symm.trans hsw
    simp only [List.cons.injEq] at hd
    obtain ⟨rfl, rfl, rfl, rfl⟩ := hd
    rw [ht] at hr
    simp only [List.cons.injEq, true_and] at hr
    subst hr
    obtain ⟨tail', hn'⟩ := named_close (w := c :: w) (y := x) hn
    have hx : Shortest (EndsWith '>') ('<' :: '/' :: c :: w ++ ['>'] ++ x) _ x :=
      hs.replace (fun _ _ _ h => h) x
    have hp : '<' :: '/' :: c :: w ++ ['>'] ++ x = '<' :: '/' :: c :: (w ++ '>' :: x) := by simp
    refine .tagEnd ?_ ?_ ⟨⟨c, w ++ '>' :: x, hp, hc⟩, by simp⟩ (t := c :: (w ++ '>' :: x)) hp hn' hx
    · rw [hp]
      exact GrammarLemmas.not_isComment_of_cons (by decide)
    · rw [hp]
      exact GrammarLemmas.not_isDeclaration_of_cons (by decide) (by decide)

theorem replace_tagStart {t name tail s raw rest : List Char} (ho : IsTagStart s)
    (ht : s = '<' :: t) (hn : Named t name tail) (hs : Shortest (EndsTag name) s raw rest)
    (x : List Char) : Opens (raw ++ x) ⟨.tagStart, some name, raw, x⟩ := by
  obtain ⟨c, r, _, _, _, hr, hc, _, _⟩ := ho
  obtain ⟨v, rfl, hv⟩ := hs.pass
  have hp := hs.parts
  rw [ht] at hp
  have htv : t = name ++ v ++ '>' :: rest := by
    simpa using (List.cons.inj hp).2.symm
  obtain ⟨tail', hn'⟩ := named_close (w := name ++ v) (y := x) (by rwa [htv] at hn)
  have htail : tail' = v ++ '>' :: x := by
    have := hn'.parts
    rw [List.append_assoc] at this
    exact List.append_cancel_left this
  subst htail
  rw [ht] at hr
  obtain ⟨n, hname⟩ : ∃ n, name = c :: n := by
    obtain ⟨⟨d, n, hd, _⟩, _⟩ := Named.isName hc (by rw [← (List.cons.inj hr).2]; exact hn)
    have hd' := (List.cons.inj hr).2
    rw [htv, hd] at hd'
    exact ⟨n, by rw [hd, (List.cons.inj hd').1]⟩
  subst hname
  have hpx : '<' :: (c :: n) ++ v ++ ['>'] ++ x = '<' :: c :: (n ++ (v ++ '>' :: x)) := by simp
  have hx : Shortest (EndsTag (c :: n)) ('<' :: (c :: n) ++ v ++ ['>'] ++ x) _ x :=
    hs.replace (fun _ _ _ h => h) x
  have hnx : Named (c :: (n ++ (v ++ '>' :: x))) (c :: n) (v ++ '>' :: x) := by
    simpa using hn'
  refine .tagStart ?_ ?_ ?_ ⟨c, _, c :: n, v, x, hpx, hc, hnx, hv⟩ hpx hnx hx
  · rw [hpx]
    exact GrammarLemmas.not_isComment_of_cons (GrammarLemmas.ne_of_isAlpha hc (by decide))
  · rw [hpx]
    exact GrammarLemmas.not_isDeclaration_of_cons (GrammarLemmas.ne_of_isAlpha hc (by decide))
      (GrammarLemmas.ne_of_isAlpha hc (by decide))
  · rw [hpx]
    exact GrammarLemmas.not_isTagEnd_of_cons (GrammarLemmas.ne_of_isAlpha hc (by decide))

end CutLemmas

open CutLemmas

/-- Markup does not depend on what follows it. Only a comment that goes on to the end of the text
leaves nothing to follow. -/
theorem Opens.replace {s x : List Char} {u : Piece} (h : Opens s u) (hx : u.rest = [] → x = []) :
    Opens (u.raw ++ x) ⟨u.kind, u.name, u.raw, x⟩ := by
  cases h with
  | comment hc hs =>
    exact .comment (replace_comment hc hs x) (hs.replace (fun _ _ _ h => h) x)
  | openComment hc hn =>
    rw [hx rfl, List.append_nil]
    exact .openComment hc hn
  | declaration hc hd hs =>
    refine .declaration ?_ ⟨?_, ?_⟩ (hs.replace (fun _ _ _ h => h) x)
    · exact fun h => hc ((prefix_iff_of_endsWith (by decide) hs x).mp h)
    · rcases hd.1 with hp | hp
      · exact Or.inl ((prefix_iff_of_endsWith (by decide) hs x).mpr hp)
      · exact Or.inr ((prefix_iff_of_endsWith (by decide) hs x).mpr hp)
    · obtain ⟨t, rfl⟩ := hs.pass
      simp
  | tagEnd _ _ he ht hn hs => exact replace_tagEnd he ht hn hs x
  | tagStart _ _ _ ho ht hn hs => exact replace_tagStart ho ht hn hs x

/-- A piece does not depend on what follows it, as long as a text run still ends at markup. -/
theorem Reads.cut {s x y : List Char} {u : Piece} (h : Reads s u) (hy : u.rest = x ++ y)
    (hx : u.kind = .text → x = [] ∨ IsMarkup x) :
    Reads (u.raw ++ x) ⟨u.kind, u.name, u.raw, x⟩ := by
  cases h with
  | markup ho =>
    refine .markup (ho.replace fun hr => ?_)
    rw [hr] at hy
    exact (List.append_eq_nil_iff.mp hy.symm).1
  | text hm ht hs =>
    subst ht
    simp only at hy
    subst hy
    refine .text (fun h => hm ?_) rfl (hs.truncate (fun _ u h => h.append u) (hx rfl))
    have ha := h.append y
    rwa [List.append_assoc, List.cons_append, hs.parts] at ha

/-! ## 3. A piece where an element is closed -/

/-- A piece that starts where an element is closed covers the name of the element. -/
theorem Reads.covers_close {element s : List Char} {u : Piece} (h : Reads s u)
    (he : element ∈ rawTextElements) (hs : ClosesElement element s) :
    element.length + 2 ≤ u.raw.length := by
  obtain ⟨name, x, hx, hn⟩ := closesElement_iff.mp hs
  obtain ⟨hg, hl⟩ := not_mem_of_rawTextElements he hn
  rw [sameIgnoringCase_length hn]
  have hc : ¬ IsComment s := by
    rw [hx]
    exact GrammarLemmas.not_isComment_of_cons (by decide)
  have hd : ¬ IsDeclaration s := by
    rw [hx]
    exact GrammarLemmas.not_isDeclaration_of_cons (by decide) (by decide)
  cases h with
  | markup ho =>
    cases ho with
    | comment hc' _ | openComment hc' _ => exact absurd hc' hc
    | declaration _ hd' _ => exact absurd hd' hd
    | tagEnd _ _ _ _ _ hs =>
      obtain ⟨w, rfl, _, hw⟩ := shortest_endsWith_iff.mp hs
      have hle := (prefix_of_append_cons (by simp [hg]) (hx.symm.trans hw)).length_le
      simp only [List.length_cons, List.length_append] at hle ⊢
      omega
    | tagStart _ _ _ ho _ _ _ =>
      obtain ⟨c, t, _, _, _, hr, hc, _, _⟩ := ho
      rw [hx] at hr
      simp only [List.cons_append, List.cons.injEq, true_and] at hr
      exact absurd hc (by rw [← hr.1]; decide)
  | @text c t raw rest _ ht hs =>
    have hp := hs.parts
    rw [hx, List.cons_append, List.cons.injEq] at ht
    rw [← ht.2] at hp
    rcases hs.pass with hr | hr
    · rw [hr, List.append_nil] at hp
      simp [hp]
    · obtain ⟨r, rfl⟩ := hr.cons
      have hle := (prefix_of_append_cons (by simp [hl]) hp.symm).length_le
      simpa using hle

/-! ## 4. Cutting off what follows a trace -/

namespace Cursor

theorem emit_cut {c c' : Cursor} {e : Event} (h : c.next = some (e, c')) (x : List Char) :
    (c.cut (e.raw ++ x)).emit ⟨e.kind, e.tagName, e.raw, x⟩ = (e, c'.cut x) := by
  obtain ⟨hp, hp', hr, _⟩ := next_cursor h
  have he : (⟨e.kind, e.raw, c.position, e.tagName⟩ : Event) = e := by
    rw [← hp]
  have hc : (⟨x, c.position.advance e.raw, e.opensRawText, x.count '>'⟩ : Cursor) = c'.cut x := by
    rw [← hp', ← hr]
    rfl
  have hx : (e.raw ++ x).count '>' - e.raw.count '>' = x.count '>' := by
    rw [List.count_append, Nat.add_sub_cancel_left]
  rw [← he, ← hc, ← hx]
  rfl

/-- Raw text does not depend on what follows the piece after it. -/
theorem rawText_cut {c c' : Cursor} {element raw x y : List Char} (hc : c'.Counts)
    (he : element ∈ rawTextElements) (hn : c'.pending = none)
    (h : RawText element c.rest raw c'.rest) (hy : c'.rest = x ++ y)
    (hx : x = [] ∨ ∃ e d z, c'.next = some (e, d) ∧ x = e.raw ++ z) :
    RawText element (raw ++ x) raw x := by
  rw [hy] at h
  refine h.truncate (fun _ u hu => hu.append u) (hx.imp_right ?_)
  rintro ⟨e, d, z, hd, rfl⟩
  have hs : ClosesElement element c'.rest := by
    rw [hy]
    refine h.pass.resolve_left ?_
    simp [(next_append hd).2]
  rcases next_cases hc hd with ⟨element', hp, _⟩ | ⟨_, hu⟩
  · exact absurd (hn.symm.trans hp) (by simp)
  · have hl := hu.covers_close he hs
    rw [← (next_append hd).1] at hs
    exact (hs.of_append hl).append z

theorem free_cut {c c' : Cursor} {e : Event} (hp : c.PendingRaw) (hf : c.Free)
    (h : c.next = some (e, c')) (hu : Reads c.rest ⟨e.kind, e.tagName, e.raw, c'.rest⟩)
    (x : List Char) : (c.cut (e.raw ++ x)).Free := by
  obtain ⟨hr, hn⟩ := next_append h
  intro element he
  rcases hf element he with hs | hs
  · rw [hs] at hr
    exact absurd (List.append_eq_nil_iff.mp hr).1 hn
  · have hl := hu.covers_close (hp element he) hs
    rw [← hr] at hs
    exact Or.inr ((hs.of_append hl).append x)

/-- Where a text run ends at markup, it still does if the next event is not cut off. -/
theorem isMarkup_cut {c d : Cursor} {e : Event} {z y : List Char} (hc : c.Counts)
    (hp : c.pending = none) (hm : IsMarkup c.rest) (h : c.next = some (e, d))
    (hy : d.rest = z ++ y) : IsMarkup (e.raw ++ z) := by
  rcases next_cases hc h with ⟨_, hp', _⟩ | ⟨_, hu⟩
  · exact absurd (hp.symm.trans hp') (by simp)
  · refine ((hu.opens hm).replace fun hr => ?_).isMarkup
    rw [show d.rest = [] from hr] at hy
    exact (List.append_eq_nil_iff.mp hy.symm).1

/-- A step does not depend on what follows the event after it. -/
theorem next_cut {c c' : Cursor} {e : Event} {x y : List Char} (hc : c.Counts)
    (hp : c.PendingRaw) (h : c.next = some (e, c')) (hy : c'.rest = x ++ y)
    (hx : x = [] ∨ ∃ e' d z, c'.next = some (e', d) ∧ x = e'.raw ++ z) :
    (c.cut (e.raw ++ x)).next = some (e, c'.cut x) := by
  have hc' := next_counts h hc
  have hpending : e.kind ≠ .tagStart → c'.pending = none := by
    intro hk
    rw [(next_cursor h).2.2.1]
    exact opensRawText_of_ne hk
  rw [← emit_cut h x]
  rcases next_cases hc h with ⟨element, he, hr, hn, hk, ht⟩ | ⟨hf, hu⟩
  · rw [hk, ht]
    have hn' := hpending (by simp [hk])
    exact next_of_rawText he (rawText_cut hc' (hp element he) hn' hr hy hx) hn
  · refine next_of_reads rfl (free_cut hp hf h hu x) (hu.cut hy fun hk => hx.imp_right ?_)
    rintro ⟨e', d, z, hd, rfl⟩
    obtain ⟨hr, hn⟩ := next_append hd
    -- a text run ends at markup, and the event there is not cut off
    have hm : IsMarkup c'.rest := by
      refine (hu.text_rest hk).resolve_left fun h => ?_
      rw [show c'.rest = [] from h] at hr
      exact hn (List.append_eq_nil_iff.mp hr).1
    rw [← hr, List.append_assoc] at hy
    have hne : e.kind ≠ .tagStart := by simp [show e.kind = .text from hk]
    exact isMarkup_cut hc' (hpending hne) hm hd (List.append_cancel_left hy)

/-- A trace stays one when the text after it is cut off. -/
theorem Trace.cut {c d : Cursor} {es : List Event} (h : Trace c es d) (hc : c.Counts)
    (hp : c.PendingRaw) : Trace (c.cut (Markup.written es)) es (d.cut []) := by
  induction h with
  | nil => exact .nil
  | @cons c c' d e es hn ht ih =>
    refine .cons ?_ (ih (next_counts hn hc) (next_pending_mem hn))
    refine next_cut hc hp hn ht.written.symm ?_
    -- what is left behind the step is nothing, or starts with the whole next event
    cases ht with
    | nil => exact Or.inl rfl
    | cons hn' _ => exact Or.inr ⟨_, _, _, hn', rfl⟩

end Cursor

/-! ## 5. Starting at another position -/

namespace Position

theorem shift_start (p : Position) : p.shift {} = p := rfl

theorem step_fromOne {p : Position} (h : p.FromOne) (c : Char) : (p.step c).FromOne := by
  unfold step
  split
  · exact ⟨Nat.le_add_left 1 _, Nat.le_refl 1⟩
  · exact ⟨h.1, Nat.le_add_left 1 _⟩

theorem advance_fromOne {p : Position} (h : p.FromOne) (s : List Char) :
    (p.advance s).FromOne := by
  induction s generalizing p with
  | nil => exact h
  | cons c s ih => exact ih (step_fromOne h c)

theorem shift_step {q : Position} (h : q.FromOne) (p : Position) (c : Char) :
    p.shift (q.step c) = (p.shift q).step c := by
  obtain ⟨hl, hc⟩ := h
  unfold step shift
  by_cases hn : c = '\n'
  · have hz : q.line ≠ 0 := by omega
    simp only [hn, if_true, Nat.add_eq_right, hz, if_false, mk.injEq, and_true]
    omega
  · simp only [hn, if_false, mk.injEq, true_and]
    split <;> omega

theorem shift_advance {q : Position} (h : q.FromOne) (p : Position) (s : List Char) :
    p.shift (q.advance s) = (p.shift q).advance s := by
  induction s generalizing q with
  | nil => rfl
  | cons c s ih =>
    rw [show q.advance (c :: s) = (q.step c).advance s from rfl, ih (step_fromOne h c),
      shift_step h]
    rfl

end Position

namespace Cursor

theorem next_shift {c c' : Cursor} {e : Event} (p : Position) (hq : c.position.FromOne)
    (h : c.next = some (e, c')) : (c.shift p).next = some (e.shift p, c'.shift p) := by
  obtain ⟨u, hu, he⟩ := piece?_of_next h
  have hs : (c.shift p).piece? = some u := hu
  rw [next, hs, Option.map_some, Option.some.injEq]
  simp only [emit, Prod.mk.injEq] at he
  rw [← he.1, ← he.2]
  simp only [emit, shift, Event.shift, Position.shift_advance hq]

/-- A trace stays one when it starts at another position. -/
theorem Trace.shift {c d : Cursor} {es : List Event} (h : Trace c es d) (p : Position)
    (hq : c.position.FromOne) : Trace (c.shift p) (es.map (Event.shift p)) (d.shift p) := by
  induction h with
  | nil => exact .nil
  | cons hn _ ih =>
    refine .cons (next_shift p hq hn) (ih ?_)
    rw [(next_cursor hn).2.1]
    exact Position.advance_fromOne hq _

/-- Where no raw text is due, the walk goes on as it does at the front of a text. -/
theorem run_of_pending_none {c : Cursor} (hc : c.Counts) (hp : c.pending = none) :
    c.run.1 = (tokenize c.rest).1.map (Event.shift c.position) := by
  obtain ⟨d, ht, hd, _⟩ := trace_run (ofText c.rest)
  have hs := ht.shift c.position ⟨Nat.le_refl 1, Nat.le_refl 1⟩
  have hf : (ofText c.rest).shift c.position = c := by
    rw [ofText, shift, Position.shift_start, ← hp, ← show c.closes = c.rest.count '>' from hc]
  rw [hf] at hs
  rw [run_of_trace hs hd]
  rfl

end Cursor

/-! ## 6. The cut law -/

theorem opensRawText_eq_none_iff {e : Event} : e.opensRawText = none ↔ ¬ e.IsRawTextTag := by
  unfold Event.opensRawText Piece.opensRawText Event.IsRawTextTag
  obtain ⟨kind, raw, position, name⟩ := e
  split
  · next hk hn =>
    simp only at hk hn ⊢
    subst hk hn
    cases hs : selfClosing raw with
    | true => simp
    | false => simp
  · next h =>
    simp only [true_iff]
    rintro ⟨hk, _, name, hn, _⟩
    exact h name hk hn

open Cursor in
/-- A text cut between two events falls into the same events: its first part into those before the
cut, and its second part into those after it, from the position of the cut on, unless the last event
before the cut leaves raw text to come. -/
theorem tokenize_cut {s : List Char} {before after : List Event}
    (h : (tokenize s).1 = before ++ after) :
    s = written before ++ written after ∧
    tokenize (written before) = (before, ({} : Position).advance (written before)) ∧
    ((∀ e ∈ before.getLast?, ¬ e.IsRawTextTag) →
      after = (tokenize (written after)).1.map
        (Event.shift (({} : Position).advance (written before)))) := by
  obtain ⟨c, d, ht, ht', hd, hs, hr, hc, hp⟩ := tokenize_split h
  have hpos : c.position = ({} : Position).advance (written before) := ht.position
  refine ⟨hr ▸ hs, ?_, fun hl => ?_⟩
  · have hb : Trace (ofText (written before)) before (c.cut []) :=
      ht.cut (ofText_counts s) (ofText_pending_mem s)
    have hrun := run_of_trace hb rfl
    rw [← hpos]
    exact hrun
  · have hn : c.pending = none := by
      rw [ht.pending]
      cases hb : before.getLast? with
      | none => rfl
      | some e => exact opensRawText_eq_none_iff.mpr (hl e hb)
    rw [← hpos, ← hr, ← run_of_pending_none hc hn, run_of_trace ht' hd]

/-- The two halves of a paragraph over two lines. -/
theorem tokenize_cut_paragraph :
    tokenize "<p>\n".toList =
      ([⟨.tagStart, "<p>".toList, ⟨1, 1⟩, some ['p']⟩, ⟨.text, ['\n'], ⟨1, 4⟩, none⟩], ⟨2, 1⟩) ∧
    (tokenize "</p>".toList).1.map (Event.shift ⟨2, 1⟩) =
      [⟨.tagEnd, "</p>".toList, ⟨2, 1⟩, some ['p']⟩] := by
  have h : (tokenize "<p>\n</p>".toList).1 =
      [⟨.tagStart, "<p>".toList, ⟨1, 1⟩, some ['p']⟩, ⟨.text, ['\n'], ⟨1, 4⟩, none⟩] ++
        [⟨.tagEnd, "</p>".toList, ⟨2, 1⟩, some ['p']⟩] := by decide +kernel
  obtain ⟨_, hb, ha⟩ := tokenize_cut h
  refine ⟨hb, (ha fun e he => ?_).symm⟩
  rintro ⟨hk, _⟩
  simp only [List.getLast?_cons_cons, List.getLast?_singleton, Option.mem_some_iff] at he
  rw [← he] at hk
  cases hk

end MarkupLint.Markup

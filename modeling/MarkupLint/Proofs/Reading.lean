import MarkupLint.Proofs.Grammar
import MarkupLint.Proofs.Trace

/-!
# Reading a text by the grammar

The cursor reads a text piece by piece as the grammar says, apart from the raw text of an element,
which goes up to the first `</` with the name of the element.

Results:
1. `closesElement_iff`: an element is closed by `</` and its name in any case.
2. `breakTextCounting_eq`: a text run ends at the first place where markup opens, although the walk
   tries no tag once the last `>` is behind it.
3. `next_cases`: what one step can be; `next_of_reads`, `next_of_rawText`: each of these is taken.
4. `tokenize_reads`: every event that is not raw text is the one piece of the grammar at its place.
5. `tag_raw`: the text of a tag holds its name.
-/

namespace MarkupLint.Markup

open MarkupLint.Text

/-! ## Definitions -/

/-- The text starts with `</` and the name of the element, ignoring case. -/
def ClosesElement (element s : List Char) : Prop :=
  startsIgnoringCase ('<' :: '/' :: element) s = true

/-- `RawText element s a b`: the raw text of the element at the front of `s` is `a`, up to the first
place where the element is closed or up to the end. -/
def RawText (element : List Char) : List Char → List Char → List Char → Prop :=
  Shortest (Until (ClosesElement element))

/-- What stands in front of the name in the text of a tag. -/
def nameLead : EventKind → List Char
  | .tagEnd => ['<', '/']
  | _ => ['<']

/-- No raw text is due, or it is empty. -/
def Cursor.Free (c : Cursor) : Prop :=
  ∀ element ∈ c.pending, Until (ClosesElement element) [] c.rest

/-! ## 1. Where an element is closed -/

/-- An element is closed by `</` and its name, in any case. -/
theorem closesElement_iff {element s : List Char} :
    ClosesElement element s ↔
      ∃ name rest, s = '<' :: '/' :: name ++ rest ∧ sameIgnoringCase element name = true := by
  rw [ClosesElement, startsIgnoringCase]
  constructor
  · intro h
    have hp := List.take_append_drop ('<' :: '/' :: element).length s
    obtain ⟨c, t, ht, hc, hm⟩ := List.map_eq_cons_iff.mp (sameIgnoringCase_iff.mp h).symm
    obtain ⟨d, name, rfl, hd, hm⟩ := List.map_eq_cons_iff.mp hm
    have hc : c = '<' := eq_of_toLower_eq (by decide) hc
    have hd : d = '/' := eq_of_toLower_eq (by decide) hd
    rw [ht, hc, hd] at hp
    exact ⟨name, _, hp.symm, sameIgnoringCase_iff.mpr hm.symm⟩
  · rintro ⟨name, rest, rfl, h⟩
    have hl : ('<' :: '/' :: element).length = ('<' :: '/' :: name).length := by
      simp [sameIgnoringCase_length h]
    rw [hl, List.take_left, sameIgnoringCase_iff]
    simp [sameIgnoringCase_iff.mp h]

/-- The names of the elements with raw text have no brackets. -/
theorem not_mem_of_rawTextElements {element name : List Char} (he : element ∈ rawTextElements)
    (h : sameIgnoringCase element name = true) : '>' ∉ name ∧ '<' ∉ name := by
  have hn : ∀ e ∈ rawTextElements, '>' ∉ e.map Char.toLower ∧ '<' ∉ e.map Char.toLower := by
    decide
  have he := hn element he
  rw [sameIgnoringCase_iff.mp h] at he
  exact ⟨fun hm => he.1 (List.mem_map.mpr ⟨'>', hm, rfl⟩),
    fun hm => he.2 (List.mem_map.mpr ⟨'<', hm, rfl⟩)⟩

/-! ## 2. The end of a text run -/

theorem IsMarkup.cons {s : List Char} (h : IsMarkup s) : ∃ t, s = '<' :: t := by
  rcases h with ⟨t, rfl⟩ | ⟨⟨t, rfl⟩ | ⟨t, rfl⟩, _⟩ | ⟨⟨c, t, rfl, _⟩, _⟩ | ⟨c, t, _, _, _, rfl, _⟩
  · exact ⟨_, rfl⟩
  · exact ⟨_, rfl⟩
  · exact ⟨_, rfl⟩
  · exact ⟨_, rfl⟩
  · exact ⟨_, rfl⟩

/-- All markup but a comment needs a `>`. -/
theorem IsMarkup.isComment {s : List Char} (h : IsMarkup s) (hs : '>' ∉ s) : IsComment s := by
  rcases h with h | h | h | ⟨c, t, name, a, b, rfl, _, hn, _⟩
  · exact h
  · exact absurd h.2 hs
  · exact absurd h.2 hs
  · rw [← hn.parts] at hs
    exact absurd (by simp) hs

theorem opensPiece_eq_opensComment {s : List Char} (hs : '>' ∉ s) :
    opensPiece s = opensComment s := by
  rw [Bool.eq_iff_iff, opensPiece_iff, opensComment_iff]
  exact ⟨fun h => h.isComment hs, Or.inl⟩

theorem breakSuffix_congr {test test' : List Char → Bool} {s : List Char}
    (h : ∀ a b, a ++ b = s → test b = test' b) : breakSuffix test s = breakSuffix test' s := by
  induction s with
  | nil => rfl
  | cons c s ih =>
    rw [breakSuffix_cons, breakSuffix_cons, h [] _ rfl,
      ih fun a b hab => h (c :: a) b (congrArg (c :: ·) hab)]

/-- Once the last `>` is behind, only a comment can open. -/
theorem breakSuffix_opensComment {s : List Char} (hs : '>' ∉ s) :
    breakSuffix opensComment s = breakText s := by
  refine (breakSuffix_congr fun a b hab => opensPiece_eq_opensComment fun hm => hs ?_).symm
  rw [← hab]
  exact List.mem_append_right a hm

/-- The walk that counts the `>` goes on as the walk that tries every place. -/
theorem breakTextFrom_eq {closes : Nat} {seen s : List Char} (hc : closes = s.count '>') :
    breakTextFrom closes seen s = (seen.reverse ++ (breakText s).1, (breakText s).2) := by
  induction s generalizing closes seen with
  | nil => simp [breakTextFrom, breakText, breakSuffix_nil]
  | cons c s ih =>
    rw [breakTextFrom]
    by_cases h : c = '<'
    · subst h
      rw [if_pos rfl]
      by_cases hz : closes = 0
      · have hs : '>' ∉ '<' :: s := List.count_eq_zero.mp (hc.symm.trans hz)
        rw [if_pos hz, breakSuffix_opensComment hs]
      · rw [if_neg hz, breakText, breakSuffix_cons]
        split
        · simp
        · rw [ih (by simpa using hc), breakText]
          simp
    · have ho : opensPiece (c :: s) = false := by
        rw [Bool.eq_false_iff, ne_eq, opensPiece_iff]
        intro hm
        obtain ⟨t, ht⟩ := hm.cons
        exact h (List.cons.inj ht).1
      have hn : (if c = '>' then closes - 1 else closes) = s.count '>' := by
        rw [hc, List.count_cons]
        by_cases hg : c = '>'
        · simp [hg]
        · simp [hg]
      have hb : breakText (c :: s) = (c :: (breakText s).1, (breakText s).2) := by
        rw [breakText, breakSuffix_cons, if_neg (by simp [ho])]
        rfl
      rw [if_neg h, ih hn, hb]
      simp

theorem breakTextCounting_eq (s : List Char) :
    breakTextCounting (s.count '>') s = breakText s := by
  rw [breakTextCounting, breakTextFrom_eq rfl]
  simp

theorem breakText_shortest (s : List Char) :
    Shortest (Until IsMarkup) s (breakText s).1 (breakText s).2 := by
  have h := breakSuffix_shortest opensPiece s
  simp only [opensPiece_iff] at h
  exact h

namespace Cursor

theorem textRun_eq {c : Cursor} {first : Char} {others : List Char} (hc : c.Counts)
    (hr : c.rest = first :: others) :
    c.textRun first others = .of .text none [first] (breakText others) := by
  have hn : (if first = '>' then c.closes - 1 else c.closes) = others.count '>' := by
    rw [show c.closes = c.rest.count '>' from hc, hr, List.count_cons]
    by_cases hg : first = '>'
    · simp [hg]
    · simp [hg]
  rw [textRun, hn, breakTextCounting_eq]

theorem textRun_reads {c : Cursor} {first : Char} {others : List Char} (hc : c.Counts)
    (hr : c.rest = first :: others) (hm : ¬ IsMarkup (first :: others)) :
    Reads (first :: others) (c.textRun first others) := by
  rw [textRun_eq hc hr]
  exact .text hm rfl (breakText_shortest others)

/-! ## 3. One step -/

theorem rawText_eq_some_iff {c : Cursor} {parts : List Char × List Char} :
    c.rawText = some parts ↔ ∃ element, c.pending = some element ∧
      RawText element c.rest parts.1 parts.2 ∧ parts.1 ≠ [] := by
  unfold rawText
  cases hp : c.pending with
  | none => simp
  | some element =>
    have hs : RawText element c.rest _ _ :=
      breakSuffix_shortest (startsIgnoringCase ('<' :: '/' :: element)) c.rest
    simp only [Option.some.injEq, exists_eq_left']
    split
    · next h =>
      constructor
      · intro h
        cases h
      · rintro ⟨hr, hn⟩
        exact absurd ((hr.unique hs).1.trans h) hn
    · next h =>
      rw [Option.some.injEq]
      constructor
      · rintro rfl
        exact ⟨hs, h⟩
      · rintro ⟨hr, _⟩
        exact (Prod.ext (hr.unique hs).1 (hr.unique hs).2).symm

theorem rawText_eq_none_iff {c : Cursor} : c.rawText = none ↔ c.Free := by
  unfold rawText Free
  cases hp : c.pending with
  | none => simp
  | some element =>
    have hs : RawText element c.rest _ _ :=
      breakSuffix_shortest (startsIgnoringCase ('<' :: '/' :: element)) c.rest
    simp only [Option.mem_some_iff, forall_eq']
    constructor
    · intro h
      split at h
      · next hn =>
        have hb := hs.parts
        rw [hn, List.nil_append] at hb
        rw [← hb]
        exact hs.pass
      · cases h
    · intro h
      have hl := hs.least [] c.rest rfl h
      rw [if_pos (List.eq_nil_of_length_eq_zero (Nat.le_zero.mp hl))]

/-- What one step can be: raw text that is due and not empty, or else the piece of the grammar at
the front of the rest. -/
theorem next_cases {c c' : Cursor} {e : Event} (hc : c.Counts) (h : c.next = some (e, c')) :
    (∃ element, c.pending = some element ∧ RawText element c.rest e.raw c'.rest ∧ e.raw ≠ [] ∧
      e.kind = .cdata ∧ e.tagName = none) ∨
    (c.Free ∧ Reads c.rest ⟨e.kind, e.tagName, e.raw, c'.rest⟩) := by
  obtain ⟨u, hu, he⟩ := piece?_of_next h
  simp only [emit, Prod.mk.injEq] at he
  rw [← he.1, ← he.2]
  unfold piece? at hu
  split at hu
  · next parts hr =>
    obtain ⟨element, hp, hs, hn⟩ := rawText_eq_some_iff.mp hr
    rw [Option.some.injEq] at hu
    rw [← hu]
    exact Or.inl ⟨element, hp, hs, hn, rfl, rfl⟩
  · next hr =>
    refine Or.inr ⟨rawText_eq_none_iff.mp hr, ?_⟩
    split at hu
    · cases hu
    · next first others ht =>
      rw [ht]
      split at hu
      · next v hv =>
        rw [Option.some.injEq] at hu
        rw [← hu]
        exact .markup (scanPiece_eq_some_iff.mp hv)
      · next hv =>
        rw [Option.some.injEq] at hu
        rw [← hu]
        exact textRun_reads hc ht (scanPiece_eq_none_iff.mp hv)

/-- Raw text that is due and not empty comes next. -/
theorem next_of_rawText {c : Cursor} {element a b : List Char} (hp : c.pending = some element)
    (h : RawText element c.rest a b) (ha : a ≠ []) :
    c.next = some (c.emit ⟨.cdata, none, a, b⟩) := by
  have hr : c.rawText = some (a, b) := rawText_eq_some_iff.mpr ⟨element, hp, h, ha⟩
  rw [next, piece?, hr]
  rfl

/-- Where no raw text is due, the piece of the grammar comes next. -/
theorem next_of_reads {c : Cursor} {u : Piece} (hc : c.Counts) (hf : c.Free)
    (h : Reads c.rest u) : c.next = some (c.emit u) := by
  rw [next, piece?, rawText_eq_none_iff.mpr hf]
  cases hr : c.rest with
  | nil =>
    rw [hr] at h
    cases h with
    | markup ho =>
      obtain ⟨t, ht⟩ := ho.isMarkup.cons
      cases ht
    | text _ ht _ => cases ht
  | cons first others =>
    rw [hr] at h
    cases hs : scanPiece (first :: others) with
    | some v =>
      obtain rfl := (Reads.markup (scanPiece_eq_some_iff.mp hs)).unique h
      simp only [hs, Option.map_some]
    | none =>
      obtain rfl := (textRun_reads hc hr (scanPiece_eq_none_iff.mp hs)).unique h
      simp only [hs, Option.map_some]

end Cursor

/-! ## 4. The pieces of a text -/

/-- A name in a tag starts with a letter and goes on to the first blank, `/` or `>`. -/
def IsName (name : List Char) : Prop :=
  (∃ c t, name = c :: t ∧ c.isAlpha = true) ∧ ∀ c ∈ name, endsName c = false

theorem endsName_of_isAlpha {c : Char} (h : c.isAlpha = true) : endsName c = false := by
  have hg : c ≠ '>' := GrammarLemmas.ne_of_isAlpha h (by decide)
  have hs : c ≠ '/' := GrammarLemmas.ne_of_isAlpha h (by decide)
  simp [endsName, isBlank_of_isAlpha h, hg, hs]

theorem Named.isName {c : Char} {t name tail : List Char} (hc : c.isAlpha = true)
    (h : Named (c :: t) name tail) : IsName name := by
  obtain ⟨rfl, _⟩ := h.unique (elementName_named _)
  constructor
  · refine ⟨c, elementName t, ?_, hc⟩
    rw [elementName, List.takeWhile_cons, endsName_of_isAlpha hc]
    rfl
  · intro d hd
    simpa using List.all_eq_true.mp List.all_takeWhile d hd

theorem Opens.tagName {s : List Char} {u : Piece} (h : Opens s u) :
    (u.name.isSome = true ↔ u.kind = .tagStart ∨ u.kind = .tagEnd) ∧
    ∀ name ∈ u.name, IsName name := by
  cases h with
  | comment _ _ | openComment _ _ | declaration _ _ _ => simp
  | tagEnd _ _ he ht hn _ =>
    obtain ⟨⟨c, t, hs, hc⟩, _⟩ := he
    rw [hs] at ht
    simp only [List.cons.injEq, true_and] at ht
    subst ht
    simp [hn.isName hc]
  | tagStart _ _ _ ho ht hn _ =>
    obtain ⟨c, t, _, _, _, hs, hc, _, _⟩ := ho
    rw [hs] at ht
    simp only [List.cons.injEq, true_and] at ht
    subst ht
    simp [hn.isName hc]

theorem Reads.tagName {s : List Char} {u : Piece} (h : Reads s u) :
    (u.name.isSome = true ↔ u.kind = .tagStart ∨ u.kind = .tagEnd) ∧
    ∀ name ∈ u.name, IsName name := by
  cases h with
  | markup ho => exact ho.tagName
  | text _ _ _ => simp

open Cursor in
/-- Every event that is not raw text is the one piece of the grammar at its place, and it has an
element name exactly if it is a tag. -/
theorem tokenize_reads {s : List Char} {before after : List Event} {e : Event}
    (h : (tokenize s).1 = before ++ e :: after) :
    ∃ rest, s = written before ++ rest ∧
      (e.kind ≠ .cdata → ∀ u, Reads rest u ↔ u = ⟨e.kind, e.tagName, e.raw, written after⟩) ∧
      (e.tagName.isSome = true ↔ e.kind = .tagStart ∨ e.kind = .tagEnd) ∧
      ∀ name ∈ e.tagName, IsName name := by
  obtain ⟨c, d, _, ht, hd, hs, _, hc, _⟩ := tokenize_split h
  cases ht with
  | @cons _ c' _ _ _ hn ht =>
    have hw : c'.rest = written after := by
      rw [← ht.written, hd, List.append_nil]
    refine ⟨c.rest, hs, ?_⟩
    rw [← hw]
    rcases next_cases hc hn with ⟨_, _, _, _, hk, ht⟩ | ⟨_, hu⟩
    · simp [hk, ht]
    · refine ⟨fun _ u => ⟨fun hu' => hu'.unique hu, ?_⟩, hu.tagName⟩
      rintro rfl
      exact hu

/-- A quoted `>` does not end a tag, and a `<` before a blank opens none. -/
theorem tokenize_reads_quoted_close :
    (tokenize "a < <b c='>'>".toList).1 =
      [⟨.text, "a < ".toList, ⟨1, 1⟩, none⟩] ++
        ⟨.tagStart, "<b c='>'>".toList, ⟨1, 5⟩, some ['b']⟩ :: [] ∧
    ∀ u, Reads "<b c='>'>".toList u ↔ u = ⟨.tagStart, some ['b'], "<b c='>'>".toList, []⟩ := by
  have h : (tokenize "a < <b c='>'>".toList).1 =
      [⟨.text, "a < ".toList, ⟨1, 1⟩, none⟩] ++
        ⟨.tagStart, "<b c='>'>".toList, ⟨1, 5⟩, some ['b']⟩ :: [] := by decide +kernel
  refine ⟨h, ?_⟩
  obtain ⟨rest, hs, hr, _⟩ := tokenize_reads h
  have hs : "a < ".toList ++ "<b c='>'>".toList = "a < ".toList ++ rest := hs
  have hrest := List.append_cancel_left hs
  have hu := hr (by decide)
  rw [← hrest] at hu
  exact hu

/-! ## 5. The text of a tag -/

theorem prefix_of_append_cons {a x w y : List Char} {d : Char} (hd : d ∉ a)
    (h : a ++ x = w ++ d :: y) : a <+: w := by
  rcases List.append_eq_append_iff.mp h with ⟨u, rfl, _⟩ | ⟨u, rfl, hu⟩
  · exact List.prefix_append a u
  · cases u with
    | nil => simp
    | cons e u =>
      rw [List.cons_append, List.cons.injEq] at hu
      exact absurd (by simp [hu.1]) hd

theorem IsName.not_mem_close {name : List Char} (h : IsName name) : '>' ∉ name := fun hm =>
  absurd (h.2 '>' hm) (by decide)

theorem Opens.tag_raw {s name : List Char} {u : Piece} (h : Opens s u) (hn : u.name = some name) :
    ∃ inside, u.raw = nameLead u.kind ++ name ++ inside ++ ['>'] := by
  have hname := h.tagName.2 name hn
  cases h with
  | comment _ _ | openComment _ _ | declaration _ _ _ => cases hn
  | tagEnd _ _ _ ht hnamed hs =>
    obtain rfl := (Option.some.inj hn).symm
    obtain ⟨w, rfl, _, hw⟩ := shortest_endsWith_iff.mp hs
    rw [ht, ← hnamed.parts] at hw
    have hclose : '>' ∉ '<' :: '/' :: name := by simp [hname.not_mem_close]
    obtain ⟨inside, hi⟩ := prefix_of_append_cons hclose hw
    exact ⟨inside, by rw [← hi]; rfl⟩
  | tagStart _ _ _ _ _ _ hs =>
    obtain rfl := Option.some.inj hn
    obtain ⟨inside, hi, _⟩ := hs.pass
    exact ⟨inside, hi⟩

theorem Reads.tag_raw {s name : List Char} {u : Piece} (h : Reads s u) (hn : u.name = some name) :
    ∃ inside, u.raw = nameLead u.kind ++ name ++ inside ++ ['>'] := by
  cases h with
  | text _ _ _ => cases hn
  | markup ho => exact ho.tag_raw hn

/-- The text of a tag is `<` or `</`, its name, what follows the name, and `>`. -/
theorem tag_raw {s name : List Char} {e : Event} (he : e ∈ (tokenize s).1)
    (hn : e.tagName = some name) :
    ∃ inside, e.raw = nameLead e.kind ++ name ++ inside ++ ['>'] := by
  obtain ⟨before, after, h⟩ := List.append_of_mem he
  obtain ⟨c, c', _, hnext, hc, _⟩ := tokenize_step h
  rcases Cursor.next_cases hc hnext with ⟨_, _, _, _, _, ht⟩ | ⟨_, hu⟩
  · rw [hn] at ht
    cases ht
  · exact hu.tag_raw hn

end MarkupLint.Markup

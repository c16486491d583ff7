import MarkupLint.Proofs.Reading

/-!
# Raw text

What follows the opening tag of a script or style element is not read as markup. It is one event, up
to the first `</` with the name of the element in any case, or up to the end of the text.

The search for that place does not look at what follows the name. So raw text may end in front of
a closing tag with a longer name, or in front of a `</` that no `>` completes
(`rawText_ends_at_longer_name`).

Results:
1. `closesElement_congr`: where an element is closed does not depend on the case of its name.
2. `opensElement_of_pending`, `pending_of_opensElement`: when raw text is due.
3. `next_cdata_iff`, `next_rawText`: the step that yields raw text.
4. `tokenize_cdata_iff`: which events are raw text, and how far they go.
5. `Reads.tagEnd_or_text`: what is read where an element is closed.
6. `rawText_matched_iff`: when raw text ends at the closing tag of its element.
-/

namespace MarkupLint.Markup

open MarkupLint.Text

/-! ## Definitions -/

/-- The event is an opening tag with the given name, that of an element with raw text, and the last
thing before its `>` is no slash. -/
structure Event.OpensElement (t : Event) (name : List Char) : Prop where
  kind : t.kind = .tagStart
  tagName : t.tagName = some name
  hasRawText : ∃ element ∈ rawTextElements, sameIgnoringCase element name = true
  notClosed : ∃ inside, t.raw = inside ++ ['>'] ∧ (trimEnd inside).getLast? ≠ some '/'

/-- The event is a closing tag with the given name, in any case. -/
def Event.IsClosingTag (t : Event) (name : List Char) : Prop :=
  t.kind = .tagEnd ∧ ∃ n, t.tagName = some n ∧ sameIgnoringCase name n = true

/-! ## 1. The names of elements with raw text -/

theorem closesElement_congr {element name s : List Char}
    (h : sameIgnoringCase element name = true) :
    ClosesElement element s ↔ ClosesElement name s := by
  rw [closesElement_iff, closesElement_iff]
  constructor
  · rintro ⟨n, x, hs, hn⟩
    rw [sameIgnoringCase_comm] at h
    exact ⟨n, x, hs, sameIgnoringCase_trans h hn⟩
  · rintro ⟨n, x, hs, hn⟩
    exact ⟨n, x, hs, sameIgnoringCase_trans h hn⟩

theorem rawText_congr {element name s a b : List Char} (h : sameIgnoringCase element name = true) :
    RawText element s a b ↔ RawText name s a b := by
  have hc : ClosesElement element = ClosesElement name :=
    funext fun s => propext (closesElement_congr h)
  rw [RawText, RawText, hc]

theorem isAlpha_of_rawTextElements {element name : List Char} (he : element ∈ rawTextElements)
    (h : sameIgnoringCase element name = true) : ∀ c ∈ name, c.isAlpha = true := by
  have hall : ∀ e ∈ rawTextElements, (e.map Char.toLower).all Char.isAlpha = true := by decide
  have halpha := hall element he
  rw [sameIgnoringCase_iff.mp h] at halpha
  intro c hc
  exact isAlpha_of_toLower (List.all_eq_true.mp halpha _ (List.mem_map_of_mem hc))

theorem ne_nil_of_rawTextElements {element name : List Char} (he : element ∈ rawTextElements)
    (h : sameIgnoringCase element name = true) : name ≠ [] := by
  have hall : ∀ e ∈ rawTextElements, 0 < e.length := by decide
  have hl := hall element he
  rw [sameIgnoringCase_length h] at hl
  exact List.ne_nil_of_length_pos hl

/-! ## 2. When raw text is due -/

theorem Reads.tagStart_raw {s : List Char} {u : Piece} (h : Reads s u) (hk : u.kind = .tagStart) :
    ∃ inside, u.raw = inside ++ ['>'] := by
  cases h with
  | text _ _ _ => cases hk
  | markup ho =>
    cases ho with
    | comment _ _ | openComment _ _ | declaration _ _ _ | tagEnd _ _ _ _ _ _ => cases hk
    | tagStart _ _ _ _ _ _ hs =>
      obtain ⟨v, hv, _⟩ := hs.pass
      exact ⟨_, hv⟩

theorem raw_of_tagStart {s : List Char} {e : Event} (he : e ∈ (tokenize s).1)
    (hk : e.kind = .tagStart) : ∃ inside, e.raw = inside ++ ['>'] := by
  obtain ⟨before, after, h⟩ := List.append_of_mem he
  obtain ⟨c, c', _, hn, hc, _⟩ := tokenize_step h
  rcases Cursor.next_cases hc hn with ⟨_, _, _, _, hk', _⟩ | ⟨_, hu⟩
  · rw [hk] at hk'
    cases hk'
  · exact hu.tagStart_raw hk

/-- Raw text is due behind the opening tag of an element that has some. -/
theorem Event.OpensElement.opensRawText {t : Event} {name : List Char} (h : t.OpensElement name) :
    ∃ element, t.opensRawText = some element ∧ sameIgnoringCase element name = true := by
  obtain ⟨inside, hr, hs⟩ := h.notClosed
  obtain ⟨element, he, hn⟩ := h.hasRawText
  have hf : (rawTextElements.find? (sameIgnoringCase · name)).isSome = true :=
    List.find?_isSome.mpr ⟨element, he, hn⟩
  obtain ⟨found, hf⟩ := Option.isSome_iff_exists.mp hf
  refine ⟨found, ?_, List.find?_some (p := (sameIgnoringCase · name)) hf⟩
  have hc : selfClosing t.raw = false := by
    rw [selfClosing, hr, List.dropLast_concat]
    simpa using hs
  rw [Event.opensRawText, Piece.opensRawText]
  simp only [h.kind, h.tagName, hc, Bool.false_eq_true, if_false, hf]

/-- Raw text is due behind no other event. -/
theorem Event.opensElement_of_opensRawText {t : Event} {element : List Char}
    (h : t.opensRawText = some element)
    (hr : t.kind = .tagStart → ∃ inside, t.raw = inside ++ ['>']) :
    ∃ name, t.OpensElement name ∧ sameIgnoringCase element name = true := by
  have he := Cursor.opensRawText_mem h
  rw [Event.opensRawText, Piece.opensRawText] at h
  split at h
  · next name hk hn =>
    simp only at hk hn
    obtain ⟨inside, hi⟩ := hr hk
    split at h
    · cases h
    · next hc =>
      have hf : sameIgnoringCase element name = true :=
        List.find?_some (p := (sameIgnoringCase · name)) h
      refine ⟨name, ⟨hk, hn, ⟨element, he, hf⟩, inside, hi, ?_⟩, hf⟩
      simpa [selfClosing, hi] using hc
  · cases h

namespace Cursor

/-- What is due after some events of a text depends on the last of them. -/
theorem pending_of_trace {s : List Char} {es : List Event} {c : Cursor}
    (h : Trace (ofText s) es c) : c.pending = es.getLast?.bind Event.opensRawText := by
  rw [h.pending]
  cases es.getLast? with
  | none => rfl
  | some t => rfl

theorem pending_of_opensElement {s name : List Char} {es : List Event} {c : Cursor} {t : Event}
    (h : Trace (ofText s) es c) (ht : es.getLast? = some t) (hn : t.OpensElement name) :
    ∃ element, c.pending = some element ∧ sameIgnoringCase element name = true := by
  rw [pending_of_trace h, ht]
  exact hn.opensRawText

theorem opensElement_of_pending {s element : List Char} {es fs : List Event} {c : Cursor}
    (hes : (tokenize s).1 = es ++ fs) (h : Trace (ofText s) es c)
    (hp : c.pending = some element) :
    ∃ t name, es.getLast? = some t ∧ t.OpensElement name ∧
      sameIgnoringCase element name = true := by
  rw [pending_of_trace h] at hp
  obtain ⟨t, ht, ho⟩ := Option.bind_eq_some_iff.mp hp
  have hm : t ∈ (tokenize s).1 := by
    rw [hes]
    exact List.mem_append_left fs (List.mem_of_getLast? ht)
  obtain ⟨name, hn, hs⟩ := Event.opensElement_of_opensRawText ho (raw_of_tagStart hm)
  exact ⟨t, name, ht, hn, hs⟩

end Cursor

/-! ## 3. The step that yields raw text -/

theorem Reads.kind_ne_cdata {s : List Char} {u : Piece} (h : Reads s u) : u.kind ≠ .cdata := by
  cases h with
  | text _ _ _ => simp
  | markup ho => cases ho <;> simp

namespace Cursor

/-- Raw text comes next if it is due and the element is not closed at once. -/
theorem next_cdata_iff {c c' : Cursor} {e : Event} (hc : c.Counts) (h : c.next = some (e, c')) :
    e.kind = .cdata ↔ ∃ element, c.pending = some element ∧ ¬ ClosesElement element c.rest := by
  obtain ⟨hr, hne⟩ := next_append h
  rcases next_cases hc h with ⟨element, hp, hs, _, hk, _⟩ | ⟨hf, hu⟩
  · refine ⟨fun _ => ⟨element, hp, fun hcl => ?_⟩, fun _ => hk⟩
    have hl := hs.least [] c.rest rfl (Or.inr hcl)
    exact hne (List.eq_nil_of_length_eq_zero (Nat.le_zero.mp hl))
  · refine ⟨fun hk => absurd hk hu.kind_ne_cdata, ?_⟩
    rintro ⟨element, hp, hcl⟩
    rcases hf element hp with hnil | hcl'
    · rw [hnil] at hr
      exact absurd (List.append_eq_nil_iff.mp hr).1 hne
    · exact absurd hcl' hcl

/-- Raw text goes up to the first place where its element is closed. -/
theorem next_rawText {c c' : Cursor} {e : Event} {element : List Char} (hc : c.Counts)
    (h : c.next = some (e, c')) (hk : e.kind = .cdata) (hp : c.pending = some element) :
    RawText element c.rest e.raw c'.rest := by
  rcases next_cases hc h with ⟨element', hp', hs, _⟩ | ⟨_, hu⟩
  · rw [hp, Option.some.injEq] at hp'
    rw [hp']
    exact hs
  · exact absurd hk hu.kind_ne_cdata

end Cursor

/-! ## 4. The raw text of a text -/

/-- No event starts inside another one. -/
theorem eq_of_start {es before after before' after' : List Event} {e f : Event}
    (hn : ∀ e ∈ es, e.raw ≠ []) (h : es = before ++ e :: after) (h' : es = before' ++ f :: after')
    (hle : (written before).length ≤ (written before').length)
    (hlt : (written before').length < (written before).length + e.raw.length) : f = e := by
  rcases List.append_eq_append_iff.mp (h.symm.trans h') with ⟨u, rfl, hu⟩ | ⟨u, rfl, hu⟩
  · cases u with
    | nil => exact (List.cons.inj hu).1.symm
    | cons d u =>
      obtain ⟨rfl, _⟩ := List.cons.inj hu
      simp only [written_append, written_cons, List.length_append] at hlt
      omega
  · cases u with
    | nil => exact (List.cons.inj hu).1
    | cons d u =>
      obtain ⟨rfl, _⟩ := List.cons.inj hu
      have hpos := List.length_pos_iff.mpr (hn f (by simp [h']))
      simp only [written_append, written_cons, List.length_append] at hle
      omega

theorem raw_ne_nil (s : List Char) : ∀ e ∈ (tokenize s).1, e.raw ≠ [] := by
  obtain ⟨d, ht, _⟩ := Cursor.trace_run (Cursor.ofText s)
  exact ht.raw_ne_nil

/-- Raw text goes up to the first place where the element before it is closed. -/
theorem rawText_of_split {s name : List Char} {before after : List Event} {t e : Event}
    (h : (tokenize s).1 = before ++ e :: after) (hk : e.kind = .cdata)
    (hl : before.getLast? = some t) (ho : t.OpensElement name) :
    RawText name (e.raw ++ written after) e.raw (written after) := by
  obtain ⟨c, c', hb, hn, hc, hr, hr'⟩ := tokenize_step h
  obtain ⟨element, hp, hs⟩ := Cursor.pending_of_opensElement hb hl ho
  have hraw := (rawText_congr hs).mp (Cursor.next_rawText hc hn hk hp)
  rwa [hr, hr'] at hraw

/-- An event is raw text exactly if the event before it opens an element with raw text and the
element is not closed at once. It goes up to the first place where the element is closed, or to the
end of the text, and no other event starts inside it. -/
theorem tokenize_cdata_iff {s : List Char} {before after : List Event} {e : Event}
    (h : (tokenize s).1 = before ++ e :: after) :
    s = written before ++ (e.raw ++ written after) ∧
    (e.kind = .cdata ↔ ∃ t name, before.getLast? = some t ∧ t.OpensElement name ∧
      ¬ ClosesElement name (e.raw ++ written after)) ∧
    (e.kind = .cdata → ∀ t name, before.getLast? = some t → t.OpensElement name →
      RawText name (e.raw ++ written after) e.raw (written after)) ∧
    ∀ before' f after', (tokenize s).1 = before' ++ f :: after' →
      (written before).length ≤ (written before').length →
      (written before').length < (written before).length + e.raw.length → f = e := by
  refine ⟨eq_written_of_split h, ?_, fun hk t name hl ho => rawText_of_split h hk hl ho,
    fun _ f _ h' => eq_of_start (raw_ne_nil s) h h'⟩
  obtain ⟨c, c', hb, hn, hc, hr, _⟩ := tokenize_step h
  rw [← hr, Cursor.next_cdata_iff hc hn]
  constructor
  · rintro ⟨element, hp, hcl⟩
    obtain ⟨t, name, hl, ho, hs⟩ := Cursor.opensElement_of_pending h hb hp
    exact ⟨t, name, hl, ho, fun hcl' => hcl ((closesElement_congr hs).mpr hcl')⟩
  · rintro ⟨t, name, hl, ho, hcl⟩
    obtain ⟨element, hp, hs⟩ := Cursor.pending_of_opensElement hb hl ho
    exact ⟨element, hp, fun hcl' => hcl ((closesElement_congr hs).mp hcl')⟩

/-- A capital name opens raw text, which goes on over tags up to the closing tag. -/
theorem tokenize_cdata_script :
    (tokenize "<SCRIPT>a<b></Script>".toList).1 =
      [⟨.tagStart, "<SCRIPT>".toList, ⟨1, 1⟩, some "SCRIPT".toList⟩] ++
        ⟨.cdata, "a<b>".toList, ⟨1, 9⟩, none⟩ ::
          [⟨.tagEnd, "</Script>".toList, ⟨1, 13⟩, some "Script".toList⟩] ∧
    Event.OpensElement ⟨.tagStart, "<SCRIPT>".toList, ⟨1, 1⟩, some "SCRIPT".toList⟩
      "SCRIPT".toList ∧
    RawText "SCRIPT".toList "a<b></Script>".toList "a<b>".toList "</Script>".toList := by
  have h : (tokenize "<SCRIPT>a<b></Script>".toList).1 =
      [⟨.tagStart, "<SCRIPT>".toList, ⟨1, 1⟩, some "SCRIPT".toList⟩] ++
        ⟨.cdata, "a<b>".toList, ⟨1, 9⟩, none⟩ ::
          [⟨.tagEnd, "</Script>".toList, ⟨1, 13⟩, some "Script".toList⟩] := by decide +kernel
  have ho : Event.OpensElement ⟨.tagStart, "<SCRIPT>".toList, ⟨1, 1⟩, some "SCRIPT".toList⟩
      "SCRIPT".toList :=
    ⟨rfl, rfl, ⟨"script".toList, by decide, by decide⟩, "<SCRIPT".toList, by decide, by decide⟩
  exact ⟨h, ho, (tokenize_cdata_iff h).2.2.1 rfl _ _ rfl ho⟩

/-! ## 5. What is read where an element is closed -/

/-- `</` and a letter open a closing tag if a `>` follows, and a text run otherwise. -/
theorem Reads.tagEnd_or_text {c : Char} {t : List Char} {u : Piece} (hc : c.isAlpha = true)
    (h : Reads ('<' :: '/' :: c :: t) u) :
    '>' ∈ c :: t ∧ u.kind = .tagEnd ∧ u.name = some (elementName (c :: t)) ∨
      '>' ∉ c :: t ∧ u.kind = .text ∧ u.name = none := by
  have hcomment : ¬ IsComment ('<' :: '/' :: c :: t) :=
    GrammarLemmas.not_isComment_of_cons (by decide)
  by_cases hm : '>' ∈ c :: t
  · have ht : IsTagEnd ('<' :: '/' :: c :: t) := ⟨⟨c, t, rfl, hc⟩, by simpa using hm⟩
    refine Or.inl ⟨hm, ?_⟩
    cases h.opens (Or.inr (Or.inr (Or.inl ht))) with
    | comment hc' _ | openComment hc' _ => exact absurd hc' hcomment
    | declaration _ hd _ =>
      exact absurd hd (GrammarLemmas.not_isDeclaration_of_cons (by decide) (by decide))
    | tagEnd _ _ _ hs hn _ =>
      simp only [List.cons.injEq, true_and] at hs
      subst hs
      exact ⟨rfl, congrArg some (hn.unique (elementName_named _)).1⟩
    | tagStart _ _ hn _ _ _ _ => exact absurd ht hn
  · refine Or.inr ⟨hm, ?_⟩
    have hn : ¬ IsMarkup ('<' :: '/' :: c :: t) := fun hmark =>
      hcomment (hmark.isComment (by simpa using hm))
    cases h with
    | markup ho => exact absurd ho.isMarkup hn
    | text _ _ _ => exact ⟨rfl, rfl⟩

/-! ## 6. The end of raw text -/

theorem elementName_append_of_isAlpha {n : List Char} (hn : ∀ c ∈ n, c.isAlpha = true)
    (x : List Char) : elementName (n ++ x) = n ++ elementName x := by
  rw [elementName, elementName]
  refine List.takeWhile_append_of_pos fun c hc => ?_
  rw [endsName_of_isAlpha (hn c hc)]
  rfl

/-- The event behind raw text is read by the grammar. -/
theorem reads_after_rawText {s : List Char} {before fs : List Event} {e f : Event}
    (h : (tokenize s).1 = before ++ e :: f :: fs) (he : e.kind = .cdata) :
    Reads (f.raw ++ written fs) ⟨f.kind, f.tagName, f.raw, written fs⟩ := by
  rw [← List.singleton_append, ← List.append_assoc] at h
  obtain ⟨c, c', hb, hn, hc, hr, hr'⟩ := tokenize_step h
  rcases Cursor.next_cases hc hn with ⟨element, hp, _⟩ | ⟨_, hu⟩
  · rw [Cursor.pending_of_trace hb, List.getLast?_concat, Option.bind_some,
      Cursor.opensRawText_of_ne (by rw [he]; simp)] at hp
    cases hp
  · rwa [hr, hr'] at hu

/-- Behind raw text stands nothing, or `</` and the name of the element. What is read there is a
closing tag, whose name may go on behind that of the element, or a text run if no `>` follows. -/
theorem next_after_rawText {s name : List Char} {before after : List Event} {t e : Event}
    (h : (tokenize s).1 = before ++ t :: e :: after) (ht : t.OpensElement name)
    (he : e.kind = .cdata) :
    after = [] ∨ ∃ f fs n x, after = f :: fs ∧ written after = '<' :: '/' :: n ++ x ∧
      sameIgnoringCase name n = true ∧
      ('>' ∈ x ∧ f.kind = .tagEnd ∧ f.tagName = some (n ++ elementName x) ∨
        '>' ∉ x ∧ f.kind = .text ∧ f.tagName = none) := by
  cases after with
  | nil => exact Or.inl rfl
  | cons f fs =>
    have hsplit : (tokenize s).1 = (before ++ [t]) ++ e :: f :: fs := by
      rw [h, List.append_assoc, List.singleton_append]
    have hraw := rawText_of_split hsplit he List.getLast?_concat ht
    have hu := reads_after_rawText hsplit he
    have hne : written (f :: fs) ≠ [] := by
      have hf : f.raw ≠ [] := raw_ne_nil s f (by simp [h])
      simp [hf]
    obtain ⟨n, x, hw, hn⟩ := closesElement_iff.mp (hraw.pass.resolve_left hne)
    obtain ⟨element, hel, hs⟩ := ht.hasRawText
    have hen := sameIgnoringCase_trans hs hn
    have halpha := isAlpha_of_rawTextElements hel hen
    have hclose : '>' ∉ n := (not_mem_of_rawTextElements hel hen).1
    obtain ⟨c, m, rfl⟩ := List.exists_cons_of_ne_nil (ne_nil_of_rawTextElements hel hen)
    have hc : c.isAlpha = true := halpha c List.mem_cons_self
    refine Or.inr ⟨f, fs, c :: m, x, rfl, hw, hn, ?_⟩
    rw [← written_cons, hw, List.cons_append, List.cons_append, List.cons_append] at hu
    have hcases := hu.tagEnd_or_text hc
    rwa [← List.cons_append, elementName_append_of_isAlpha halpha, List.mem_append,
      or_iff_right hclose] at hcases

/-- Raw text ends with the text or at a closing tag of its element exactly if it ends with the text
or at a `</` with the name of the element, behind which the name ends and a `>` follows. -/
theorem rawText_matched_iff {s name : List Char} {before after : List Event} {t e : Event}
    (h : (tokenize s).1 = before ++ t :: e :: after) (ht : t.OpensElement name)
    (he : e.kind = .cdata) :
    (after = [] ∨ ∃ f fs, after = f :: fs ∧ f.IsClosingTag name) ↔
      after = [] ∨ ∃ n d x, written after = '<' :: '/' :: n ++ d :: x ∧
        sameIgnoringCase name n = true ∧ endsName d = true ∧ '>' ∈ d :: x := by
  rcases next_after_rawText h ht he with hnil | ⟨f, fs, n, x, rfl, hw, hn, hf⟩
  · simp [hnil]
  · simp only [reduceCtorEq, false_or]
    constructor
    · rintro ⟨f', fs', hfs, hk, m, hm, hs⟩
      obtain ⟨rfl, rfl⟩ := List.cons.inj hfs
      rcases hf with ⟨hx, _, hname⟩ | ⟨_, hk', _⟩
      · -- the name in the closing tag is no longer than that of the element
        rw [hname, Option.some.injEq] at hm
        have hl := sameIgnoringCase_length hs
        rw [← hm, List.length_append, ← sameIgnoringCase_length hn] at hl
        have hnil : elementName x = [] := List.eq_nil_of_length_eq_zero (by omega)
        obtain ⟨d, y, rfl⟩ := List.exists_cons_of_ne_nil (List.ne_nil_of_mem hx)
        refine ⟨n, d, y, hw, hn, ?_, hx⟩
        rw [elementName, List.takeWhile_cons] at hnil
        cases hd : endsName d with
        | true => rfl
        | false => simp [hd] at hnil
      · rw [hk] at hk'
        cases hk'
    · rintro ⟨m, d, y, hw', hm, hd, hy⟩
      have hl : m.length = n.length :=
        (sameIgnoringCase_length hm).symm.trans (sameIgnoringCase_length hn)
      have hp : m ++ d :: y = n ++ x := by
        rw [hw'] at hw
        simpa using hw
      obtain ⟨rfl, rfl⟩ := List.append_inj hp hl
      rcases hf with ⟨_, hk, hname⟩ | ⟨hx, _, _⟩
      · refine ⟨f, fs, rfl, hk, m, ?_, hm⟩
        rw [hname, elementName, List.takeWhile_cons, hd]
        simp
      · exact absurd hy hx

/-- The name of a closing tag may be followed by blanks. -/
theorem rawText_matched_blank :
    (tokenize "<style>p</STYLE >".toList).1 =
      [] ++ ⟨.tagStart, "<style>".toList, ⟨1, 1⟩, some "style".toList⟩ ::
        ⟨.cdata, "p".toList, ⟨1, 8⟩, none⟩ ::
          [⟨.tagEnd, "</STYLE >".toList, ⟨1, 9⟩, some "STYLE".toList⟩] ∧
    Event.OpensElement ⟨.tagStart, "<style>".toList, ⟨1, 1⟩, some "style".toList⟩
      "style".toList ∧
    Event.IsClosingTag ⟨.tagEnd, "</STYLE >".toList, ⟨1, 9⟩, some "STYLE".toList⟩
      "style".toList := by
  have h : (tokenize "<style>p</STYLE >".toList).1 =
      [] ++ ⟨.tagStart, "<style>".toList, ⟨1, 1⟩, some "style".toList⟩ ::
        ⟨.cdata, "p".toList, ⟨1, 8⟩, none⟩ ::
          [⟨.tagEnd, "</STYLE >".toList, ⟨1, 9⟩, some "STYLE".toList⟩] := by decide +kernel
  have ho : Event.OpensElement ⟨.tagStart, "<style>".toList, ⟨1, 1⟩, some "style".toList⟩
      "style".toList :=
    ⟨rfl, rfl, ⟨"style".toList, by decide, by decide⟩, "<style".toList, by decide, by decide⟩
  have hm := (rawText_matched_iff h ho rfl).mpr
    (Or.inr ⟨"STYLE".toList, ' ', ['>'], by decide, by decide, by decide, by decide⟩)
  obtain ⟨f, fs, hfs, hf⟩ := hm.resolve_left (by simp)
  obtain ⟨rfl, _⟩ := List.cons.inj hfs
  exact ⟨h, ho, hf⟩

/-- Raw text does not always end at the closing tag of its element: in a script, `</scripture>` ends
it. -/
theorem rawText_ends_at_longer_name :
    ¬ ∀ s before t e after name, (tokenize s).1 = before ++ t :: e :: after →
      Event.OpensElement t name → e.kind = .cdata →
      after = [] ∨ ∃ f fs, after = f :: fs ∧ Event.IsClosingTag f name := by
  intro h
  have hs : (tokenize "<script>a</scripture>b</script>".toList).1 =
      [] ++ ⟨.tagStart, "<script>".toList, ⟨1, 1⟩, some "script".toList⟩ ::
        ⟨.cdata, "a".toList, ⟨1, 9⟩, none⟩ ::
          [⟨.tagEnd, "</scripture>".toList, ⟨1, 10⟩, some "scripture".toList⟩,
            ⟨.text, "b".toList, ⟨1, 22⟩, none⟩,
            ⟨.tagEnd, "</script>".toList, ⟨1, 23⟩, some "script".toList⟩] := by decide +kernel
  have ho : Event.OpensElement ⟨.tagStart, "<script>".toList, ⟨1, 1⟩, some "script".toList⟩
      "script".toList :=
    ⟨rfl, rfl, ⟨"script".toList, by decide, by decide⟩, "<script".toList, by decide, by decide⟩
  rcases h _ _ _ _ _ _ hs ho rfl with hnil | ⟨f, fs, hfs, _, n, hn, hsame⟩
  · cases hnil
  · obtain ⟨rfl, _⟩ := List.cons.inj hfs
    rw [← Option.some.inj hn] at hsame
    exact absurd hsame (by decide)

end MarkupLint.Markup

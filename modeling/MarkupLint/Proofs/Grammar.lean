import MarkupLint.Markup.Piece
import MarkupLint.Proofs.Shortest

/-!
# The grammar of markup

`Reads s u` says, without a walk, that the text `s` starts with the piece `u`. The first of these
cases that applies decides:

1. a comment: `<!--`, up to the first `-->` that begins at offset 2 or later, or up to the end;
2. a declaration: `<!` or `<?` with a `>` somewhere, up to the first `>`;
3. a closing tag: `</` and a letter with a `>` somewhere, up to the first `>`;
4. an opening tag: `<` and a letter with a `>` after the name and outside quotes, up to the first
   such `>`;
5. a text run, up to the first later place at which one of the cases 1 to 4 applies, or up to the
   end.

Results:
1. `breakTag_closes`, `breakTag_of_closes`: the walk through a tag finds the first `>` outside
   quotes.
2. `scanPiece_opens`, `scanPiece_isSome`: scanning finds markup of the grammar, and finds it
   wherever a case of markup applies.
3. `Reads.unique`: the grammar determines the piece.
4. `scanPiece_eq_some_iff`: scanning recognises exactly the markup of the grammar.
-/

namespace MarkupLint.Markup

open MarkupLint.Text

/-! ## Definitions -/

/-- Every quote that opens in the text is closed in it: the text is made of characters that are no
quotes and of quoted stretches. -/
inductive QuotesClosed : List Char → Prop
  | nil : QuotesClosed []
  | plain {c : Char} {s : List Char} :
      c ≠ '"' → c ≠ '\'' → QuotesClosed s → QuotesClosed (c :: s)
  | quoted {q : Char} {a s : List Char} :
      q = '"' ∨ q = '\'' → q ∉ a → QuotesClosed s → QuotesClosed (q :: a ++ q :: s)

/-- `Named s name tail`: the name at the front of `s` goes up to the first blank, `/` or `>`. -/
def Named : List Char → List Char → List Char → Prop :=
  Shortest (Until fun b => ∃ c t, b = c :: t ∧ endsName c = true)

/-- Case 1: the text starts with a comment. -/
def IsComment (s : List Char) : Prop := ['<', '!', '-', '-'] <+: s

/-- Case 2: the text starts with a declaration. -/
def IsDeclaration (s : List Char) : Prop := (['<', '!'] <+: s ∨ ['<', '?'] <+: s) ∧ '>' ∈ s

/-- Case 3: the text starts with a closing tag. -/
def IsTagEnd (s : List Char) : Prop :=
  (∃ c t, s = '<' :: '/' :: c :: t ∧ c.isAlpha = true) ∧ '>' ∈ s

/-- Case 4: the text starts with an opening tag. -/
def IsTagStart (s : List Char) : Prop :=
  ∃ c t name a b, s = '<' :: c :: t ∧ c.isAlpha = true ∧ Named (c :: t) name (a ++ '>' :: b) ∧
    QuotesClosed a

/-- One of the cases of markup applies. -/
def IsMarkup (s : List Char) : Prop :=
  IsComment s ∨ IsDeclaration s ∨ IsTagEnd s ∨ IsTagStart s

/-- The first part ends with `-->`, which begins at offset 2 or later. -/
def EndsComment (a _ : List Char) : Prop := ∃ t, a = t ++ ['-', '-', '>'] ∧ 2 ≤ t.length

/-- The first part is an opening tag of the given name, up to a `>` outside quotes. -/
def EndsTag (name a _ : List Char) : Prop := ∃ t, a = '<' :: name ++ t ++ ['>'] ∧ QuotesClosed t

/-- `Opens s u`: the text `s` starts with the markup `u`, by the first of the cases 1 to 4 that
applies. -/
inductive Opens (s : List Char) : Piece → Prop
  | comment {raw rest : List Char} :
      IsComment s → Shortest EndsComment s raw rest → Opens s ⟨.comment, none, raw, rest⟩
  | openComment :
      IsComment s → (∀ a b, a ++ b = s → ¬ EndsComment a b) → Opens s ⟨.comment, none, s, []⟩
  | declaration {raw rest : List Char} :
      ¬ IsComment s → IsDeclaration s → Shortest (EndsWith '>') s raw rest →
      Opens s ⟨.doctype, none, raw, rest⟩
  | tagEnd {t name tail raw rest : List Char} :
      ¬ IsComment s → ¬ IsDeclaration s → IsTagEnd s → s = '<' :: '/' :: t → Named t name tail →
      Shortest (EndsWith '>') s raw rest → Opens s ⟨.tagEnd, some name, raw, rest⟩
  | tagStart {t name tail raw rest : List Char} :
      ¬ IsComment s → ¬ IsDeclaration s → ¬ IsTagEnd s → IsTagStart s → s = '<' :: t →
      Named t name tail → Shortest (EndsTag name) s raw rest →
      Opens s ⟨.tagStart, some name, raw, rest⟩

/-- `Reads s u`: the text `s` starts with the piece `u`, which is markup or, where no case of markup
applies, a text run. -/
inductive Reads (s : List Char) : Piece → Prop
  | markup {u : Piece} : Opens s u → Reads s u
  | text {c : Char} {t raw rest : List Char} :
      ¬ IsMarkup s → s = c :: t → Shortest (Until IsMarkup) t raw rest →
      Reads s ⟨.text, none, c :: raw, rest⟩

/-! ## 1. The end of an opening tag -/

namespace GrammarLemmas

theorem breakTagFrom_seen (quote : Option Char) (seen s : List Char) :
    breakTagFrom quote seen s =
      (breakTagFrom quote [] s).map fun r => (seen.reverse ++ r.1, r.2) := by
  induction s generalizing quote seen with
  | nil => simp [breakTagFrom]
  | cons c s ih =>
    cases quote with
    | some q =>
      rw [breakTagFrom, breakTagFrom, ih _ (c :: seen), ih _ [c]]
      simp [Function.comp_def]
    | none =>
      rw [breakTagFrom, breakTagFrom]
      split
      · rw [ih _ (c :: seen), ih _ [c]]
        simp [Function.comp_def]
      · split
        · simp
        · rw [ih _ (c :: seen), ih _ [c]]
          simp [Function.comp_def]

theorem breakTag_close (s : List Char) : breakTag ('>' :: s) = some (['>'], s) := rfl

theorem breakTag_plain {c : Char} (hd : c ≠ '"') (hs : c ≠ '\'') (hc : c ≠ '>') (s : List Char) :
    breakTag (c :: s) = (breakTag s).map fun r => (c :: r.1, r.2) := by
  rw [breakTag, breakTagFrom, if_neg (by simp [hd, hs]), if_neg hc, breakTagFrom_seen]
  rfl

theorem breakTagFrom_quote {q : Char} {a : List Char} (ha : q ∉ a) (seen s : List Char) :
    breakTagFrom (some q) seen (a ++ q :: s) = breakTagFrom none (q :: (a.reverse ++ seen)) s := by
  induction a generalizing seen with
  | nil => simp [breakTagFrom]
  | cons c a ih =>
    have hc : c ≠ q := fun he => ha (by simp [he])
    rw [List.cons_append, breakTagFrom, if_neg hc, ih (fun hm => ha (List.mem_cons_of_mem _ hm))]
    simp

theorem breakTagFrom_openQuote {q : Char} {s : List Char} (h : q ∉ s) (seen : List Char) :
    breakTagFrom (some q) seen s = none := by
  induction s generalizing seen with
  | nil => rfl
  | cons c s ih =>
    have hc : c ≠ q := fun he => h (by simp [he])
    rw [breakTagFrom, if_neg hc, ih (fun hm => h (List.mem_cons_of_mem _ hm))]

theorem breakTag_quote {q : Char} (hq : q = '"' ∨ q = '\'') (s : List Char) :
    breakTag (q :: s) = breakTagFrom (some q) [q] s := by
  rw [breakTag, breakTagFrom, if_pos hq]

theorem breakTag_quoted {q : Char} (hq : q = '"' ∨ q = '\'') {a : List Char} (ha : q ∉ a)
    (s : List Char) :
    breakTag (q :: a ++ q :: s) = (breakTag s).map fun r => (q :: a ++ q :: r.1, r.2) := by
  rw [List.cons_append, breakTag_quote hq, breakTagFrom_quote ha, breakTagFrom_seen, breakTag]
  simp

end GrammarLemmas

open GrammarLemmas

/-- The walk through a tag ends after a `>` that stands outside quotes. -/
theorem breakTag_closes {s a b : List Char} (h : breakTag s = some (a, b)) :
    ∃ t, a = t ++ ['>'] ∧ QuotesClosed t := by
  induction hn : s.length using Nat.strongRecOn generalizing s a with
  | _ n ih =>
    cases s with
    | nil => exact absurd h (by simp [breakTag, breakTagFrom])
    | cons c s =>
      by_cases hq : c = '"' ∨ c = '\''
      · by_cases hm : c ∈ s
        · obtain ⟨u, v, rfl, hu⟩ := List.eq_append_cons_of_mem hm
          rw [← List.cons_append, breakTag_quoted hq hu, Option.map_eq_some_iff] at h
          obtain ⟨⟨a', b'⟩, h, he⟩ := h
          rw [Prod.mk.injEq] at he
          obtain ⟨rfl, rfl⟩ := he
          obtain ⟨t, rfl, ht⟩ := ih _ (by simp at hn ⊢; omega) h rfl
          exact ⟨c :: u ++ c :: t, by simp, .quoted hq hu ht⟩
        · rw [breakTag_quote hq, breakTagFrom_openQuote hm] at h
          exact absurd h (by simp)
      · rw [not_or] at hq
        by_cases hc : c = '>'
        · subst hc
          rw [breakTag_close, Option.some.injEq, Prod.mk.injEq] at h
          exact ⟨[], h.1.symm, .nil⟩
        · rw [breakTag_plain hq.1 hq.2 hc, Option.map_eq_some_iff] at h
          obtain ⟨⟨a', b'⟩, h, he⟩ := h
          rw [Prod.mk.injEq] at he
          obtain ⟨rfl, rfl⟩ := he
          obtain ⟨t, rfl, ht⟩ := ih _ (by simp at hn; omega) h rfl
          exact ⟨c :: t, rfl, .plain hq.1 hq.2 ht⟩

/-- The walk through a tag does not pass a `>` that stands outside quotes. -/
theorem breakTag_of_closes {t : List Char} (h : QuotesClosed t) (x : List Char) :
    ∃ a b, breakTag (t ++ '>' :: x) = some (a, b) ∧ a.length ≤ t.length + 1 := by
  induction h with
  | nil => exact ⟨['>'], x, rfl, Nat.le_refl _⟩
  | @plain c t hd hs _ ih =>
    by_cases hc : c = '>'
    · subst hc
      exact ⟨['>'], t ++ '>' :: x, rfl, by simp⟩
    · obtain ⟨a, b, h, hl⟩ := ih
      refine ⟨c :: a, b, ?_, Nat.succ_le_succ hl⟩
      rw [List.cons_append, breakTag_plain hd hs hc, h]
      rfl
  | @quoted q u t hq hu _ ih =>
    obtain ⟨a, b, h, hl⟩ := ih
    refine ⟨q :: u ++ q :: a, b, ?_, ?_⟩
    · rw [List.append_assoc, List.cons_append, List.cons_append, ← List.cons_append,
        breakTag_quoted hq hu, h]
      rfl
    · simp only [List.length_append, List.length_cons]
      omega

/-- The walk through a tag stops at the first `>` outside quotes. -/
theorem breakTag_shortest {s a b : List Char} (h : breakTag s = some (a, b)) :
    Shortest (fun a _ => ∃ t, a = t ++ ['>'] ∧ QuotesClosed t) s a b := by
  refine ⟨breakTag_append h, breakTag_closes h, ?_⟩
  rintro _ b' hs ⟨t, rfl, ht⟩
  rw [List.append_assoc, List.singleton_append] at hs
  obtain ⟨a₁, b₁, h₁, hl⟩ := breakTag_of_closes ht b'
  rw [hs, h, Option.some.injEq, Prod.mk.injEq] at h₁
  rw [h₁.1]
  simpa using hl

/-! ## 2. Scanning finds the pieces of the grammar -/

theorem elementName_named (s : List Char) : Named s (elementName s) (afterName s) := by
  have h := takeWhile_shortest (fun c => !endsName c) s
  simp only [Bool.not_eq_false'] at h
  exact h

theorem closesComment_iff {s : List Char} :
    closesComment s = true ↔ ∃ t, s = '-' :: '-' :: '>' :: t := by
  rw [closesComment, List.isPrefixOf_iff_prefix]
  constructor
  · rintro ⟨t, rfl⟩
    exact ⟨t, rfl⟩
  · rintro ⟨t, rfl⟩
    exact ⟨t, rfl⟩

theorem opensComment_iff {s : List Char} : opensComment s = true ↔ IsComment s :=
  List.isPrefixOf_iff_prefix

namespace GrammarLemmas

/-- An end of a comment after the two characters `<!`. -/
theorem endsComment_iff {t a b : List Char} (h : a ++ b = '<' :: '!' :: t) :
    EndsComment a b ↔ ∃ u, a = '<' :: '!' :: u ++ ['-', '-', '>'] ∧
      t = u ++ '-' :: '-' :: '>' :: b := by
  constructor
  · rintro ⟨u, rfl, hu⟩
    match u, hu with
    | c :: d :: u, _ =>
      simp only [List.cons_append, List.append_assoc, List.cons.injEq, List.nil_append] at h
      obtain ⟨rfl, rfl, h⟩ := h
      exact ⟨u, rfl, h.symm⟩
  · rintro ⟨u, rfl, _⟩
    exact ⟨'<' :: '!' :: u, rfl, by simp⟩

theorem scanComment_opens {t : List Char} (h : ['-', '-'] <+: t) :
    Opens ('<' :: '!' :: t) (scanComment t) := by
  have hc : IsComment ('<' :: '!' :: t) := by
    obtain ⟨r, rfl⟩ := h
    exact ⟨r, rfl⟩
  have hs := breakSuffix_shortest closesComment t
  -- the comment goes up to its `-->` if there is one, else up to the end
  rcases hs.pass with hn | hp
  · have ht : (breakSuffix closesComment t).1 = t := by
      have := hs.parts
      rwa [hn, List.append_nil] at this
    have hu : scanComment t = ⟨.comment, none, '<' :: '!' :: t, []⟩ := by
      simp [scanComment, Piece.of, hn, ht]
    rw [hu]
    refine .openComment hc fun a b hab he => ?_
    obtain ⟨u, _, hu⟩ := (endsComment_iff hab).mp he
    have hl := hs.least u _ hu.symm (Or.inr (closesComment_iff.mpr ⟨b, rfl⟩))
    rw [ht, hu, List.length_append] at hl
    simp only [List.length_cons] at hl
    omega
  · obtain ⟨r, hr⟩ := closesComment_iff.mp hp
    have hu : scanComment t = ⟨.comment, none,
        '<' :: '!' :: (breakSuffix closesComment t).1 ++ ['-', '-', '>'], r⟩ := by
      simp [scanComment, Piece.of, hr]
    have ht := hs.parts
    rw [hr] at ht
    rw [hu]
    refine .comment hc ⟨by simp [ht], ⟨_, rfl, by simp⟩, fun a b hab he => ?_⟩
    obtain ⟨u, rfl, hu⟩ := (endsComment_iff hab).mp he
    have hl := hs.least u _ hu.symm (Or.inr (closesComment_iff.mpr ⟨b, rfl⟩))
    simpa using hl

/-- A text up to its first `>`, with another character in front. -/
theorem endsWith_cons {c : Char} (hc : c ≠ '>') {s a b : List Char}
    (h : Shortest (EndsWith '>') s a b) : Shortest (EndsWith '>') (c :: s) (c :: a) b := by
  obtain ⟨t, rfl, ht, rfl⟩ := shortest_endsWith_iff.mp h
  exact shortest_endsWith_iff.mpr ⟨c :: t, rfl, by simp [ht, Ne.symm hc], rfl⟩

theorem mem_of_endsWith {s a b : List Char} (h : Shortest (EndsWith '>') s a b) : '>' ∈ s := by
  obtain ⟨t, _, _, rfl⟩ := shortest_endsWith_iff.mp h
  simp

/-- The first two characters decide between the first cases. -/
theorem not_isComment_of_cons {c d : Char} {t : List Char} (hd : d ≠ '!') :
    ¬ IsComment (c :: d :: t) := by
  rintro ⟨r, hr⟩
  simp only [List.cons_append, List.cons.injEq] at hr
  exact hd hr.2.1.symm

theorem not_isDeclaration_of_cons {c d : Char} {t : List Char} (hd : d ≠ '!') (hd' : d ≠ '?') :
    ¬ IsDeclaration (c :: d :: t) := by
  rintro ⟨⟨r, hr⟩ | ⟨r, hr⟩, _⟩
  · simp only [List.cons_append, List.cons.injEq] at hr
    exact hd hr.2.1.symm
  · simp only [List.cons_append, List.cons.injEq] at hr
    exact hd' hr.2.1.symm

theorem not_isTagEnd_of_cons {c d : Char} {t : List Char} (hd : d ≠ '/') :
    ¬ IsTagEnd (c :: d :: t) := by
  rintro ⟨⟨e, r, hr, _⟩, _⟩
  simp only [List.cons.injEq] at hr
  exact hd hr.2.1

theorem ne_of_isAlpha {c d : Char} (h : c.isAlpha = true) (hd : d.isAlpha = false) : c ≠ d := by
  rintro rfl
  exact absurd (h.symm.trans hd) (by simp)

theorem scanTagEnd_opens {c : Char} {t : List Char} {u : Piece} (hc : c.isAlpha = true)
    (h : scanTagEnd (c :: t) = some u) : Opens ('<' :: '/' :: c :: t) u := by
  rw [scanTagEnd, Option.map_eq_some_iff] at h
  obtain ⟨⟨a, b⟩, h, rfl⟩ := h
  have hs : Shortest (EndsWith '>') ('<' :: '/' :: c :: t) ('<' :: '/' :: a) b :=
    endsWith_cons (by decide) (endsWith_cons (by decide) (breakAfter_eq_some_iff.mp h))
  exact .tagEnd (not_isComment_of_cons (by decide))
    (not_isDeclaration_of_cons (by decide) (by decide))
    ⟨⟨c, t, rfl, hc⟩, mem_of_endsWith hs⟩ rfl (elementName_named _) hs

theorem scanTagStart_opens {c : Char} {t : List Char} {u : Piece} (hc : c.isAlpha = true)
    (h : scanTagStart (c :: t) = some u) : Opens ('<' :: c :: t) u := by
  rw [scanTagStart, Option.map_eq_some_iff] at h
  obtain ⟨⟨a, b⟩, h, rfl⟩ := h
  obtain ⟨v, rfl, hv⟩ := breakTag_closes h
  have hs := breakTag_shortest h
  have hp := hs.parts
  have ht : IsTagStart ('<' :: c :: t) := by
    refine ⟨c, t, elementName (c :: t), v, b, rfl, hc, ?_, hv⟩
    have hn := elementName_named (c :: t)
    rwa [← hp, List.append_assoc] at hn
  refine .tagStart (not_isComment_of_cons (ne_of_isAlpha hc (by decide)))
    (not_isDeclaration_of_cons (ne_of_isAlpha hc (by decide)) (ne_of_isAlpha hc (by decide)))
    (not_isTagEnd_of_cons (ne_of_isAlpha hc (by decide))) ht rfl (elementName_named _)
    ⟨?_, ⟨v, by simp, hv⟩, ?_⟩
  · show '<' :: elementName (c :: t) ++ (v ++ ['>']) ++ b = _
    rw [List.append_assoc, hp, List.cons_append, elementName_append_afterName]
  · rintro _ b' hab ⟨w, rfl, hw⟩
    have hab' : elementName (c :: t) ++ (w ++ ['>'] ++ b') =
        elementName (c :: t) ++ afterName (c :: t) := by
      rw [elementName_append_afterName]
      simpa using hab
    replace hab' := List.append_cancel_left hab'
    have hl := hs.least _ b' hab' ⟨w, rfl, hw⟩
    simp only [List.length_append, List.length_cons] at hl ⊢
    omega

theorem scanDeclaration_opens {m : Char} {t : List Char} {u : Piece} (hm : m = '!' ∨ m = '?')
    (hc : ¬ IsComment ('<' :: m :: t))
    (h : (breakAfter (· == '>') t).map (.of .doctype none ['<', m]) = some u) :
    Opens ('<' :: m :: t) u := by
  rw [Option.map_eq_some_iff] at h
  obtain ⟨⟨a, b⟩, h, rfl⟩ := h
  have hm' : m ≠ '>' := by
    rcases hm with rfl | rfl
    · decide
    · decide
  have hs : Shortest (EndsWith '>') ('<' :: m :: t) ('<' :: m :: a) b :=
    endsWith_cons (by decide) (endsWith_cons hm' (breakAfter_eq_some_iff.mp h))
  refine .declaration hc ⟨?_, mem_of_endsWith hs⟩ hs
  rcases hm with rfl | rfl
  · exact Or.inl ⟨t, rfl⟩
  · exact Or.inr ⟨t, rfl⟩

end GrammarLemmas

/-- What scanning finds is a piece of the grammar. -/
theorem scanPiece_opens {s : List Char} {u : Piece} (h : scanPiece s = some u) : Opens s u := by
  unfold scanPiece at h
  split at h
  · next t =>
    split at h
    · next hp =>
      rw [Option.some.injEq] at h
      rw [← h]
      exact scanComment_opens (List.isPrefixOf_iff_prefix.mp hp)
    · next hp =>
      refine scanDeclaration_opens (Or.inl rfl) (fun hc => hp ?_) h
      obtain ⟨r, hr⟩ := hc
      simp only [List.cons_append, List.cons.injEq, true_and] at hr
      exact List.isPrefixOf_iff_prefix.mpr ⟨r, hr⟩
  · exact scanDeclaration_opens (Or.inr rfl) (not_isComment_of_cons (by decide)) h
  · split at h
    · next hc => exact scanTagEnd_opens hc h
    · exact absurd h (by simp)
  · split at h
    · next hc => exact scanTagStart_opens hc h
    · exact absurd h (by simp)
  · exact absurd h (by simp)

/-- Where a case of markup applies, scanning finds a piece. -/
theorem scanPiece_isSome {s : List Char} (h : IsMarkup s) : (scanPiece s).isSome := by
  rcases h with ⟨r, rfl⟩ | ⟨hp, hm⟩ | ⟨⟨c, t, rfl, hc⟩, hm⟩ | ⟨c, t, name, a, b, rfl, hc, hn, ha⟩
  · rfl
  · rcases hp with ⟨t, rfl⟩ | ⟨t, rfl⟩
    · show (if ['-', '-'].isPrefixOf t then some (scanComment t) else _).isSome = true
      split
      · rfl
      · rw [Option.isSome_map, breakAfter_isSome_iff]
        simpa using hm
    · show (Option.map _ (breakAfter (· == '>') t)).isSome = true
      rw [Option.isSome_map, breakAfter_isSome_iff]
      simpa using hm
  · show (if c.isAlpha then scanTagEnd (c :: t) else none).isSome = true
    rw [if_pos hc, scanTagEnd, Option.isSome_map, breakAfter_isSome_iff]
    simpa using hm
  · have hs : scanPiece ('<' :: c :: t) = scanTagStart (c :: t) := by
      unfold scanPiece
      split
      · next h => simp only [List.cons.injEq] at h; exact absurd hc (by rw [h.2.1]; decide)
      · next h => simp only [List.cons.injEq] at h; exact absurd hc (by rw [h.2.1]; decide)
      · next h => simp only [List.cons.injEq] at h; exact absurd hc (by rw [h.2.1]; decide)
      · next h =>
        simp only [List.cons.injEq, true_and] at h
        rw [← h.1, ← h.2, if_pos hc]
      · next h => exact absurd rfl (h c t)
    have ht : afterName (c :: t) = a ++ '>' :: b := ((elementName_named _).unique hn).2
    obtain ⟨a', b', h', _⟩ := breakTag_of_closes ha b
    rw [hs, scanTagStart, ht, h']
    rfl

theorem Opens.isMarkup {s : List Char} {u : Piece} (h : Opens s u) : IsMarkup s := by
  cases h with
  | comment h _ | openComment h _ => exact Or.inl h
  | declaration _ h _ => exact Or.inr (Or.inl h)
  | tagEnd _ _ h _ _ _ => exact Or.inr (Or.inr (Or.inl h))
  | tagStart _ _ _ h _ _ _ => exact Or.inr (Or.inr (Or.inr h))

theorem opensPiece_iff {s : List Char} : opensPiece s = true ↔ IsMarkup s := by
  constructor
  · intro h
    obtain ⟨u, hu⟩ := Option.isSome_iff_exists.mp h
    exact (scanPiece_opens hu).isMarkup
  · exact scanPiece_isSome

theorem scanPiece_eq_none_iff {s : List Char} : scanPiece s = none ↔ ¬ IsMarkup s := by
  rw [← opensPiece_iff, opensPiece]
  cases scanPiece s with
  | none => simp
  | some u => simp

/-! ## 3. The grammar determines the piece -/

theorem Opens.unique {s : List Char} {u v : Piece} (h : Opens s u) (h' : Opens s v) : u = v := by
  -- different cases exclude each other, and in one case the shortest splits agree
  cases h with
  | comment hc hs =>
    cases h' with
    | comment _ hs' => rw [(hs.unique hs').1, (hs.unique hs').2]
    | openComment _ hn => exact absurd hs.pass (hn _ _ hs.parts)
    | declaration hn _ _ | tagEnd hn _ _ _ _ _ | tagStart hn _ _ _ _ _ _ => exact absurd hc hn
  | openComment hc hn =>
    cases h' with
    | comment _ hs' => exact absurd hs'.pass (hn _ _ hs'.parts)
    | openComment _ _ => rfl
    | declaration hn _ _ | tagEnd hn _ _ _ _ _ | tagStart hn _ _ _ _ _ _ => exact absurd hc hn
  | declaration hc hd hs =>
    cases h' with
    | comment hc' _ | openComment hc' _ => exact absurd hc' hc
    | declaration _ _ hs' => rw [(hs.unique hs').1, (hs.unique hs').2]
    | tagEnd _ hn _ _ _ _ | tagStart _ hn _ _ _ _ _ => exact absurd hd hn
  | tagEnd hc hd he ht hn hs =>
    cases h' with
    | comment hc' _ | openComment hc' _ => exact absurd hc' hc
    | declaration _ hd' _ => exact absurd hd' hd
    | tagEnd _ _ _ ht' hn' hs' =>
      rw [ht] at ht'
      simp only [List.cons.injEq, true_and] at ht'
      subst ht'
      rw [(hn.unique hn').1, (hs.unique hs').1, (hs.unique hs').2]
    | tagStart _ _ he' _ _ _ _ => exact absurd he he'
  | tagStart hc hd he _ ht hn hs =>
    cases h' with
    | comment hc' _ | openComment hc' _ => exact absurd hc' hc
    | declaration _ hd' _ => exact absurd hd' hd
    | tagEnd _ _ he' _ _ _ => exact absurd he' he
    | tagStart _ _ _ _ ht' hn' hs' =>
      rw [ht] at ht'
      simp only [List.cons.injEq, true_and] at ht'
      subst ht'
      obtain ⟨rfl, _⟩ := hn.unique hn'
      rw [(hs.unique hs').1, (hs.unique hs').2]

/-- The grammar determines the piece at the front of a text. -/
theorem Reads.unique {s : List Char} {u v : Piece} (h : Reads s u) (h' : Reads s v) : u = v := by
  cases h with
  | markup ho =>
    cases h' with
    | markup ho' => exact ho.unique ho'
    | text hn _ _ => exact absurd ho.isMarkup hn
  | text hn ht hs =>
    cases h' with
    | markup ho' => exact absurd ho'.isMarkup hn
    | text _ ht' hs' =>
      rw [ht, List.cons.injEq] at ht'
      obtain ⟨rfl, rfl⟩ := ht'
      rw [(hs.unique hs').1, (hs.unique hs').2]

theorem Reads.opens {s : List Char} {u : Piece} (h : Reads s u) (hm : IsMarkup s) :
    Opens s u := by
  cases h with
  | markup ho => exact ho
  | text hn _ _ => exact absurd hm hn

/-- A text run ends at markup or with the text. -/
theorem Reads.text_rest {s : List Char} {u : Piece} (h : Reads s u) (hk : u.kind = .text) :
    u.rest = [] ∨ IsMarkup u.rest := by
  cases h with
  | markup ho => cases ho <;> cases hk
  | text _ _ hs => exact hs.pass

/-! ## 4. Scanning recognises the markup of the grammar -/

/-- Scanning finds exactly the markup of the grammar. -/
theorem scanPiece_eq_some_iff {s : List Char} {u : Piece} : scanPiece s = some u ↔ Opens s u := by
  constructor
  · exact scanPiece_opens
  · intro h
    obtain ⟨v, hv⟩ := Option.isSome_iff_exists.mp (scanPiece_isSome h.isMarkup)
    rw [hv, (scanPiece_opens hv).unique h]

end MarkupLint.Markup

import MarkupLint.Proofs.Findings
import MarkupLint.Proofs.RawText

/-!
# What is reported on indentation

The mode for tabs forbids the space, the mode for spaces the tab. A linter with one of these modes
alone reports each run of text that contains the forbidden character, once and in the order of the
page. Each character of a page stands in one piece of it, so what is reported depends on the pieces
in which the forbidden character stands: nothing is said about one in a tag, a comment, a
declaration, or the raw text of a script or style element.

Results:
1. `exists_event_at`, `StandsIn.unique`: each character stands in one piece.
2. `kind_mem`, `not_mem_text_iff`: the kinds of pieces.
3. `lint_indent_alone`, `forbids_of_pattern`: a linter with one of the modes.
4. `indent_verdicts`: what the modes forbid, and what is reported.
-/

namespace MarkupLint.Markup

/-! ## Definitions -/

/-- The character behind some text at the front of a page stands in a piece of the kind. -/
def StandsIn (page front : List Char) (c : Char) (k : EventKind) : Prop :=
  ∃ before e after u v, (tokenize page).1 = before ++ e :: after ∧ e.kind = k ∧
    front = written before ++ u ∧ e.raw = u ++ c :: v

/-- The kinds of pieces that are no text: tags with all that stands in them, comments, declarations,
and the raw text of script and style elements. -/
def unlintedKinds : List EventKind := [.tagStart, .tagEnd, .comment, .doctype, .cdata]

/-! ## 1. Places in a page -/

/-- Each character in the text of some events stands in one of them. -/
theorem exists_event_at {es : List Event} {front rest : List Char} {c : Char}
    (h : written es = front ++ c :: rest) : ∃ before e after u v, es = before ++ e :: after ∧
      front = written before ++ u ∧ e.raw = u ++ c :: v := by
  induction es generalizing front with
  | nil => simp at h
  | cons e es ih =>
    have later : ∀ t, written es = t ++ c :: rest → front = e.raw ++ t →
        ∃ before f after u v, e :: es = before ++ f :: after ∧ front = written before ++ u ∧
          f.raw = u ++ c :: v := by
      intro t ht hf
      obtain ⟨before, f, after, u, v, rfl, rfl, hv⟩ := ih ht
      exact ⟨e :: before, f, after, u, v, rfl, by simpa using hf, hv⟩
    rw [written_cons] at h
    rcases List.append_eq_append_iff.mp h with ⟨t, hf, ht⟩ | ⟨t, hf, ht⟩
    · exact later t ht hf
    · cases t with
      | nil => exact later [] ht.symm (by simpa using hf.symm)
      | cons d t =>
        obtain ⟨rfl, -⟩ := List.cons.inj ht
        exact ⟨[], e, es, front, t, rfl, rfl, hf⟩

theorem StandsIn.unique {page front : List Char} {c : Char} {k k' : EventKind}
    (h : StandsIn page front c k) (h' : StandsIn page front c k') : k = k' := by
  obtain ⟨before, e, after, u, v, hes, rfl, hf, hv⟩ := h
  obtain ⟨before', e', after', u', v', hes', rfl, hf', hv'⟩ := h'
  have hl : (written before).length + u.length = (written before').length + u'.length := by
    rw [← List.length_append, ← List.length_append, ← hf, ← hf']
  have hraw : u.length < e.raw.length := by simp [hv]
  have hraw' : u'.length < e'.raw.length := by simp [hv']
  rcases Nat.le_total (written before).length (written before').length with ht | ht
  · rw [eq_of_start (raw_ne_nil page) hes hes' ht (by omega)]
  · rw [eq_of_start (raw_ne_nil page) hes' hes ht (by omega)]

/-- A character of a piece stands in it. -/
theorem standsIn_of_mem {page : List Char} {e : Event} (he : e ∈ (tokenize page).1) {c : Char}
    (hc : c ∈ e.raw) :
    ∃ front rest, page = front ++ c :: rest ∧ StandsIn page front c e.kind := by
  obtain ⟨before, after, hes⟩ := List.append_of_mem he
  obtain ⟨u, v, hv⟩ := List.append_of_mem hc
  refine ⟨written before ++ u, v ++ written after, ?_, before, e, after, u, v, hes, rfl, rfl, hv⟩
  rw [eq_written_of_split hes, hv]
  simp

/-! ## 2. The kinds of pieces -/

theorem Reads.kind_mem {s : List Char} {u : Piece} (h : Reads s u) :
    u.kind = .text ∨ u.kind ∈ unlintedKinds := by
  cases h with
  | markup ho => cases ho <;> simp [unlintedKinds]
  | text _ _ _ => exact Or.inl rfl

theorem kind_mem {page : List Char} {e : Event} (he : e ∈ (tokenize page).1) :
    e.kind = .text ∨ e.kind ∈ unlintedKinds := by
  obtain ⟨before, after, h⟩ := List.append_of_mem he
  obtain ⟨c, c', _, hn, hc, _⟩ := tokenize_step h
  rcases Cursor.next_cases hc hn with ⟨_, _, _, _, hk, _⟩ | ⟨_, hu⟩
  · rw [hk]
    exact Or.inr (by decide)
  · exact hu.kind_mem

/-- No run of text has a character exactly if the character stands in other pieces wherever it
occurs. -/
theorem not_mem_text_iff {page : List Char} {c : Char} :
    (∀ e ∈ (tokenize page).1, e.kind = .text → c ∉ e.raw) ↔
      ∀ front rest, page = front ++ c :: rest →
        ∃ k ∈ unlintedKinds, StandsIn page front c k := by
  constructor
  · intro h front rest hp
    have hw : written (tokenize page).1 = front ++ c :: rest := (written_tokenize page).trans hp
    obtain ⟨before, e, after, u, v, hes, hf, hv⟩ := exists_event_at hw
    have he : e ∈ (tokenize page).1 := by simp [hes]
    rcases kind_mem he with hk | hk
    · exact absurd (by simp [hv]) (h e he hk)
    · exact ⟨e.kind, hk, before, e, after, u, v, hes, rfl, hf, hv⟩
  · intro h e he hk hc
    obtain ⟨front, rest, hp, hs⟩ := standsIn_of_mem he hc
    obtain ⟨k, hm, hs'⟩ := h front rest hp
    rw [← hs.unique hs', hk] at hm
    exact absurd hm (by decide)

end MarkupLint.Markup

namespace MarkupLint.Lint

open Markup

/-! ## Definitions -/

/-- The mode of the given name forbids the character. -/
structure Forbids (mode : Rules.IndentMode) (name : String) (c : Char) : Prop where
  named : Rules.IndentMode.ofOptions (.mode name) = .ok mode
  /-- The forbidden pattern is the character, once or more. -/
  pattern : mode.pattern = String.ofList [c, '+']
  /-- The check of the mode is violated by the texts with the character, and so is the one that the
  user makes of the same pattern. -/
  verdict : ∃ check, Rules.IndentCheck.ofMode mode = .ok check ∧
    (∀ s, check.isViolatedBy s = true ↔ c ∈ s) ∧
    ∀ message, ∃ own custom, Rules.IndentMode.ofOptions (.custom mode.pattern message) = .ok own ∧
      Rules.IndentCheck.ofMode own = .ok custom ∧ custom.message = message ∧
      ∀ s, custom.isViolatedBy s = check.isViolatedBy s
  /-- A linter with the mode alone reports each run of text with the character, in their order. -/
  reports : ∀ page,
    (Linter.ofTable Rules.builtinRegistry (IdMap.empty.set Rules.indentId (.mode name))).lint page =
      ((tokenize page).1.filter fun e => e.kind = .text ∧ c ∈ e.raw).map fun e =>
        ⟨.warning, mode.message, ⟨1, 1⟩, Rules.indent.ref, e.raw⟩
  /-- It reports nothing exactly if the character stands in no run of text. -/
  silent : ∀ page,
    (Linter.ofTable Rules.builtinRegistry (IdMap.empty.set Rules.indentId (.mode name))).lint page =
      [] ↔
    ∀ front rest, page = front ++ c :: rest → ∃ k ∈ unlintedKinds, StandsIn page front c k

/-! ## 3. A linter with one mode -/

/-- What a linter with the rule for indentation alone reports. -/
theorem lint_indent_alone {o : RuleOptions} {mode : Rules.IndentMode} {check : Rules.IndentCheck}
    (hm : o = .mode "tab" ∨ o = .mode "space") (hc : Rules.indentCheck o = .ok (mode, check))
    (page : List Char) :
    (Linter.ofTable Rules.builtinRegistry (IdMap.empty.set Rules.indentId o)).lint page =
      (Check.indentation check).reports (tokenize page).1 := by
  have ho : (IdMap.empty.set Rules.indentId o).get? Rules.indentId = some o := by
    rw [IdMap.get?_set, if_pos rfl]
  obtain ⟨o', mode', check', ho', hc', hf⟩ := found_indent (indent_active ho hm)
  obtain rfl := Option.some.inj (ho.symm.trans ho')
  obtain ⟨-, rfl⟩ := Prod.mk.inj (Except.ok.inj (hc.symm.trans hc'))
  rw [← hf page, found]
  exact (lint_sole (Registry.Built.ofRules Rules.builtin).keyed builtinRegistry_reportsAsHanded
    Rules.indentId o page).symm

theorem ofMode_of_read {mode : Rules.IndentMode} {pattern : Regex.Pattern}
    (h : Regex.Pattern.ofText mode.pattern = .ok pattern) :
    Rules.IndentCheck.ofMode mode = .ok ⟨pattern, mode.message⟩ := by
  rw [Rules.IndentCheck.ofMode, h]

theorem isViolatedBy_iff_mem (text message : String) (c : Char) (s : List Char) :
    Rules.IndentCheck.isViolatedBy ⟨⟨text, Regex.oneOrMore c⟩, message⟩ s = true ↔ c ∈ s := by
  rw [Rules.isViolatedBy_oneOrMore]
  simp

/-- What forbids a character, once or more, is offended by the runs of text that contain it. -/
theorem offends_oneOrMore (text message : String) (c : Char) (e : Event) :
    (Check.indentation ⟨⟨text, Regex.oneOrMore c⟩, message⟩).offends e =
      decide (e.kind = .text ∧ c ∈ e.raw) := by
  rw [Bool.eq_iff_iff, Check.indentation, Bool.and_eq_true, beq_iff_eq, isViolatedBy_iff_mem,
    decide_eq_true_eq]

/-- A mode forbids a character if its pattern is read as the character, once or more. -/
theorem forbids_of_pattern {mode : Rules.IndentMode} {name : String} {c : Char}
    (hname : name = "tab" ∨ name = "space")
    (hmode : Rules.IndentMode.ofOptions (.mode name) = .ok mode)
    (hpattern : mode.pattern = String.ofList [c, '+'])
    (hread : Regex.Pattern.ofText mode.pattern = .ok ⟨mode.pattern, Regex.oneOrMore c⟩) :
    Forbids mode name c := by
  have hcheck := ofMode_of_read hread
  have hindent : Rules.indentCheck (.mode name) =
      .ok (mode, ⟨⟨mode.pattern, Regex.oneOrMore c⟩, mode.message⟩) := by
    simp only [Rules.indentCheck, hmode, hcheck]
    rfl
  have hlint := lint_indent_alone (by simpa using hname) hindent
  refine ⟨hmode, hpattern, ⟨_, hcheck, isViolatedBy_iff_mem _ _ c, fun message => ?_⟩, ?_, ?_⟩
  · refine ⟨.custom mode.pattern message, _, rfl, ofMode_of_read hread, rfl, fun s => ?_⟩
    rw [Bool.eq_iff_iff, isViolatedBy_iff_mem, isViolatedBy_iff_mem]
  · intro page
    rw [hlint, Check.reports, List.filter_congr fun e _ => offends_oneOrMore _ _ c e]
    rfl
  · intro page
    rw [hlint, Check.reports, List.map_eq_nil_iff, List.filter_eq_nil_iff, ← not_mem_text_iff]
    simp only [offends_oneOrMore, decide_eq_true_eq, not_and]

/-! ## 4. The modes -/

/-- Tabs and spaces: each mode forbids the other character, in runs of text and nowhere else. -/
theorem indent_verdicts : Forbids .tab "tab" ' ' ∧ Forbids .space "space" '\t' :=
  ⟨forbids_of_pattern (.inl rfl) rfl rfl rfl, forbids_of_pattern (.inr rfl) rfl rfl rfl⟩

/-- Of all spaces in the page, only the one in a run of text is reported, and the one in a tag that
is not closed. -/
example :
    ((Linter.ofTable Rules.builtinRegistry
      (IdMap.empty.set Rules.indentId (.mode "tab"))).lint
        "<a b=\"c d\">e f</a><!-- g h --><STYLE>i j</STYLE><k l".toList).map (·.evidence) =
      ["e f".toList, "<k l".toList] := by decide +kernel

end MarkupLint.Lint

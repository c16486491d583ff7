import MarkupLint.Proofs.Findings
import MarkupLint.Proofs.Positions
import MarkupLint.Proofs.Reading

/-!
# Where findings point

The rules for element names and for style sheets report a tag where it stands: the evidence is the
text of the tag, and the position is the one behind the text before it. The rule for indentation
reports all runs of text at the start of the page; their texts follow each other in the page.

Results:
1. `pointsAtTag_of_mem`: a report on a tag points at it.
2. `ReportsTags.pointsAtTag`, `ReportsTags.ascending`: what a rule reports on tags, in which order.
3. `inOrder_filter`: the texts of some events of a page follow each other in it.
4. `findings_point_at_source`: the findings of the built-in rules.
-/

namespace MarkupLint.Lint

open Markup

/-! ## Definitions -/

/-- The diagnostic points at a tag of the text with the name: its evidence stands in the text at its
position, and is `<` or `</`, the name, what follows the name, and `>`. Two counters of 32 bits hold
the position if the text has fewer than `2 ^ 32 - 1` characters. -/
structure Diagnostic.PointsAtTag (d : Diagnostic) (text name : List Char) : Prop where
  event : ∃ e ∈ (tokenize text).1, e.tagName = some name ∧ e.position = d.position ∧
    e.raw = d.evidence
  place : ∃ before after, text = before ++ (d.evidence ++ after) ∧ d.position = .ofText before ∧
    (text.length < UInt32.size - 1 →
      ∃ q, ({} : WordPosition).advance? before = some q ∧ q.toPosition = d.position)
  tag : ∃ lead inside, (lead = ['<'] ∨ lead = ['<', '/']) ∧
    d.evidence = lead ++ name ++ inside ++ ['>']

/-- The check reports tags where they stand, and their names have the property. -/
structure Check.ReportsTags (c : Check) (P : List Char → Prop) : Prop where
  position : ∀ e, (c.diagnostic e).position = e.position
  evidence : ∀ e, (c.diagnostic e).evidence = e.raw
  name : ∀ e, c.offends e = true → ∃ name, e.tagName = some name ∧ P name

/-- The texts follow each other in a text, without sharing a character. -/
inductive InOrder : List (List Char) → List Char → Prop
  | nil (rest : List Char) : InOrder [] rest
  | cons {u rest : List Char} {us : List (List Char)} (skipped : List Char) :
      InOrder us rest → InOrder (u :: us) (skipped ++ (u ++ rest))

/-! ## 1. A report on a tag -/

theorem pointsAtTag_of_mem {s name : List Char} {e : Event} {d : Diagnostic}
    (he : e ∈ (tokenize s).1) (hn : e.tagName = some name) (hp : d.position = e.position)
    (hr : d.evidence = e.raw) : d.PointsAtTag s name := by
  obtain ⟨before, after, h⟩ := List.append_of_mem he
  have hs : s = written before ++ (d.evidence ++ written after) := by
    rw [hr]
    exact eq_written_of_split h
  have hpos : d.position = .ofText (written before) := hp.trans (position_of_split h)
  refine ⟨⟨e, he, hn, hp.symm, hr.symm⟩,
    ⟨written before, written after, hs, hpos, fun hlength => ?_⟩, ?_⟩
  · obtain ⟨q, hq, he⟩ := WordPosition.advance?_prefix hlength ⟨_, hs.symm⟩
    exact ⟨q, hq, he.trans hpos.symm⟩
  · obtain ⟨inside, hi⟩ := tag_raw he hn
    refine ⟨nameLead e.kind, inside, ?_, hr.trans hi⟩
    cases e.kind <;> simp [nameLead]

/-! ## 2. The reports of a rule on tags -/

namespace Check.ReportsTags

variable {c : Check} {P : List Char → Prop}

theorem pointsAtTag (hc : c.ReportsTags P) (s : List Char) :
    ∀ d ∈ c.reports (tokenize s).1, ∃ name, P name ∧ d.PointsAtTag s name := by
  intro d hd
  obtain ⟨e, he, rfl⟩ := List.mem_map.mp hd
  obtain ⟨he, ho⟩ := List.mem_filter.mp he
  obtain ⟨name, hn, hname⟩ := hc.name e ho
  exact ⟨name, hname, pointsAtTag_of_mem he hn (hc.position e) (hc.evidence e)⟩

theorem ascending (hc : c.ReportsTags P) (s : List Char) :
    (c.reports (tokenize s).1).Pairwise fun d d' => d.position < d'.position := by
  rw [reports, List.pairwise_map]
  refine ((tokenize_ascending s).filter _).imp ?_
  intro e f hlt
  rw [hc.position, hc.position]
  exact hlt

end Check.ReportsTags

theorem Check.style_reportsTags :
    Check.style.ReportsTags fun name => name.map Char.toLower = "style".toList where
  position _ := rfl
  evidence _ := rfl
  name e h := by
    simp only [style, Bool.and_eq_true] at h
    obtain ⟨name, hn, hs⟩ := (Option.any_eq_true ..).mp h.2
    exact ⟨name, hn, beq_iff_eq.mp hs⟩

theorem Check.lowercase_reportsTags :
    Check.lowercase.ReportsTags fun name => ∃ c ∈ name, 'A' ≤ c ∧ c ≤ 'Z' where
  position _ := rfl
  evidence _ := rfl
  name e h := by
    simp only [lowercase, Bool.and_eq_true] at h
    obtain ⟨name, hn, hc⟩ := (Option.any_eq_true ..).mp h.2
    exact ⟨name, hn, by simpa using hc⟩

/-! ## 3. Runs of text -/

theorem InOrder.skip {us : List (List Char)} {rest : List Char} (h : InOrder us rest)
    (w : List Char) : InOrder us (w ++ rest) := by
  cases h with
  | nil => exact .nil _
  | cons skipped h =>
    rw [← List.append_assoc]
    exact .cons (w ++ skipped) h

/-- The texts of some events follow each other in the text of all of them. -/
theorem inOrder_filter (p : Event → Bool) (es : List Event) :
    InOrder ((es.filter p).map (·.raw)) (written es) := by
  induction es with
  | nil => exact .nil _
  | cons e es ih =>
    rw [List.filter_cons, written_cons]
    split
    · exact .cons [] ih
    · exact ih.skip e.raw

/-! ## 4. The built-in rules -/

variable {table : RuleTable} {id : RuleId} {text : List Char} {ds : List Diagnostic}

/-- Under an identifier stands what its rule reports, or nothing. -/
theorem found_eq_or_nil
    (h : id ∈ (Linter.ofTable Rules.builtinRegistry table).activeRules → found table text id = ds) :
    found table text id = ds ∨ found table text id = [] := by
  by_cases hid : id ∈ (Linter.ofTable Rules.builtinRegistry table).activeRules
  · exact Or.inl (h hid)
  · exact Or.inr (found_of_not_active hid text)

theorem found_tags {c : Check} {P : List Char → Prop} (hc : c.ReportsTags P)
    (h : id ∈ (Linter.ofTable Rules.builtinRegistry table).activeRules →
      found table text id = c.reports (tokenize text).1) :
    (∀ d ∈ found table text id, ∃ name, P name ∧ d.PointsAtTag text name) ∧
      (found table text id).Pairwise fun d d' => d.position < d'.position := by
  rcases found_eq_or_nil h with h | h
  · rw [h]
    exact ⟨hc.pointsAtTag text, hc.ascending text⟩
  · simp [h]

theorem found_runs (table : RuleTable) (text : List Char) :
    (∀ d ∈ found table text Rules.indentId, d.position = ⟨1, 1⟩ ∧
      ∃ e ∈ (tokenize text).1, e.kind = .text ∧ d.evidence = e.raw) ∧
    InOrder ((found table text Rules.indentId).map (·.evidence)) text := by
  by_cases hid : Rules.indentId ∈ (Linter.ofTable Rules.builtinRegistry table).activeRules
  · obtain ⟨_, _, check, _, _, h⟩ := found_indent hid
    rw [h]
    constructor
    · intro d hd
      obtain ⟨e, he, rfl⟩ := List.mem_map.mp hd
      obtain ⟨he, ho⟩ := List.mem_filter.mp he
      simp only [Check.indentation, Bool.and_eq_true, beq_iff_eq] at ho
      exact ⟨rfl, e, he, ho.1, rfl⟩
    · have ho := inOrder_filter (Check.indentation check).offends (tokenize text).1
      rw [written_tokenize] at ho
      rw [Check.reports, List.map_map]
      exact ho
  · rw [found_of_not_active hid]
    exact ⟨by simp, .nil _⟩

/-- The findings of the rules for element names and for style sheets point at the tags that offend
them, each at its place and in the order of the text; an active rule reports each such tag once.
The findings of the rule for indentation are whole runs of text, in the order of the text. -/
theorem findings_point_at_source (table : RuleTable) (text : List Char) :
    (∀ d ∈ found table text Rules.tagNameLowercaseId,
      ∃ name, (∃ c ∈ name, 'A' ≤ c ∧ c ≤ 'Z') ∧ d.PointsAtTag text name) ∧
    (found table text Rules.tagNameLowercaseId).Pairwise (fun d d' => d.position < d'.position) ∧
    (Rules.tagNameLowercaseId ∈ (Linter.ofTable Rules.builtinRegistry table).activeRules →
      found table text Rules.tagNameLowercaseId = Check.lowercase.reports (tokenize text).1) ∧
    (∀ d ∈ found table text Rules.styleDisabledId,
      ∃ name, name.map Char.toLower = "style".toList ∧ d.PointsAtTag text name) ∧
    (found table text Rules.styleDisabledId).Pairwise (fun d d' => d.position < d'.position) ∧
    (Rules.styleDisabledId ∈ (Linter.ofTable Rules.builtinRegistry table).activeRules →
      found table text Rules.styleDisabledId = Check.style.reports (tokenize text).1) ∧
    (∀ d ∈ found table text Rules.indentId, d.position = ⟨1, 1⟩ ∧
      ∃ e ∈ (tokenize text).1, e.kind = .text ∧ d.evidence = e.raw) ∧
    InOrder ((found table text Rules.indentId).map (·.evidence)) text := by
  have hl : Rules.tagNameLowercaseId ∈ (Linter.ofTable Rules.builtinRegistry table).activeRules →
      found table text Rules.tagNameLowercaseId = Check.lowercase.reports (tokenize text).1 :=
    fun h => found_tagNameLowercase h text
  have hs : Rules.styleDisabledId ∈ (Linter.ofTable Rules.builtinRegistry table).activeRules →
      found table text Rules.styleDisabledId = Check.style.reports (tokenize text).1 :=
    fun h => found_styleDisabled h text
  obtain ⟨hlp, hla⟩ := found_tags Check.lowercase_reportsTags hl
  obtain ⟨hsp, hsa⟩ := found_tags Check.style_reportsTags hs
  obtain ⟨hir, hio⟩ := found_runs table text
  exact ⟨hlp, hla, hl, hsp, hsa, hs, hir, hio⟩

theorem findings_point_at_source_capital :
    Rules.tagNameLowercaseId ∈ (Linter.ofTable Rules.builtinRegistry mixedTable).activeRules ∧
    found mixedTable "<p>\n <B>".toList Rules.tagNameLowercaseId =
      Check.lowercase.reports (tokenize "<p>\n <B>".toList).1 ∧
    (Check.lowercase.reports (tokenize "<p>\n <B>".toList).1).map
      (fun d => (d.position, d.evidence)) = [(⟨2, 2⟩, "<B>".toList)] ∧
    (found mixedTable "<p>\n <B>".toList Rules.indentId).map (·.evidence) = ["\n ".toList] := by
  have hm : Rules.tagNameLowercaseId ∈
      (Linter.ofTable Rules.builtinRegistry mixedTable).activeRules := by decide +kernel
  obtain ⟨_, _, hl, _⟩ := findings_point_at_source mixedTable "<p>\n <B>".toList
  exact ⟨hm, hl hm, by decide +kernel, by decide +kernel⟩

end MarkupLint.Lint

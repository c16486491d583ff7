import MarkupLint.Proofs.Findings
import MarkupLint.Proofs.LetterCase

/-!
# Findings in texts that differ in case

Two texts that differ in the case of ASCII letters alone have events that differ in case alone. A
rule that does not see the case reports corresponding events in both. The rule for element names
sees nothing but the case of the names: when they are written in small letters, it is silent.

Results:
1. `style_caseBlind`, `indentation_caseBlind`: rules that do not see the case.
2. `CaseBlind.reports`, `reportedAlike_of_caseBlind`: what such rules report in two texts.
3. `found_withSmallNames`: element names in small letters.
4. `lint_case_blind`: all of it.
-/

namespace MarkupLint.Lint

open Markup

/-! ## Definitions -/

/-- The diagnostics differ in the case of their evidence at most. -/
structure Diagnostic.SameIgnoringCase (d d' : Diagnostic) : Prop where
  severity : d.severity = d'.severity
  message : d.message = d'.message
  position : d.position = d'.position
  rule : d.rule = d'.rule
  evidence : Text.sameIgnoringCase d.evidence d'.evidence = true

/-- The check does not see the case of letters. -/
structure Check.CaseBlind (c : Check) : Prop where
  offends : ∀ e f, e.SameIgnoringCase f → c.offends e = c.offends f
  diagnostic : ∀ e f, e.SameIgnoringCase f → (c.diagnostic e).SameIgnoringCase (c.diagnostic f)
  evidence : ∀ e, (c.diagnostic e).evidence = e.raw

/-- Under the identifier the same is found in both texts, up to the case of the evidence, and it is
found in events that stand at the same places of both. -/
structure ReportedAlike (table : RuleTable) (id : RuleId) (s t : List Char) : Prop where
  diagnostics : List.Forall₂ Diagnostic.SameIgnoringCase (found table s id) (found table t id)
  events : ∃ offends : Event → Bool,
    List.Forall₂ (fun e f => offends e = offends f) (tokenize s).1 (tokenize t).1 ∧
    (found table s id).map (·.evidence) = ((tokenize s).1.filter offends).map (·.raw) ∧
    (found table t id).map (·.evidence) = ((tokenize t).1.filter offends).map (·.raw)

/-! ## 1. Rules that do not see the case -/

theorem any_congr_of_rel {α : Type} {r : α → α → Prop} {p : α → Bool} {a b : Option α}
    (h : Option.Rel r a b) (hp : ∀ x y, r x y → p x = p y) : a.any p = b.any p := by
  cases h with
  | none => rfl
  | some hxy => exact hp _ _ hxy

theorem opensStyle_congr {e f : Event} (h : e.SameIgnoringCase f) :
    Rules.opensStyle e = Rules.opensStyle f :=
  any_congr_of_rel h.tagName fun _ _ hs => Text.sameIgnoringCase_congr hs Rules.styleName

theorem style_caseBlind : Check.style.CaseBlind where
  offends e f h := by simp only [Check.offends_style, h.kind, opensStyle_congr h]
  diagnostic e f h := ⟨rfl, rfl, h.position, rfl, h.raw⟩
  evidence _ := rfl

/-- A check that forbids a character which is no letter does not see the case. -/
theorem indentation_caseBlind {check : Rules.IndentCheck} {c : Char} (hc : c.isAlpha = false)
    (h : ∀ s, check.isViolatedBy s = s.any (· == c)) : (Check.indentation check).CaseBlind where
  offends e f hef := by
    have hany : e.raw.any (· == c) = f.raw.any (· == c) := by
      rw [← Text.any_beq_lower hc, Text.sameIgnoringCase_iff_lower.mp hef.raw,
        Text.any_beq_lower hc]
    simp only [Check.indentation, hef.kind, h, hany]
  diagnostic e f hef := ⟨rfl, rfl, rfl, rfl, hef.raw⟩
  evidence _ := rfl

/-! ## 2. Two texts -/

variable {table : RuleTable} {id : RuleId} {s t : List Char}

theorem Check.CaseBlind.reports {c : Check} (hc : c.CaseBlind) {es fs : List Event}
    (h : List.Forall₂ Event.SameIgnoringCase es fs) :
    List.Forall₂ Diagnostic.SameIgnoringCase (c.reports es) (c.reports fs) := by
  have hf : List.Forall₂ Event.SameIgnoringCase (es.filter c.offends) (fs.filter c.offends) :=
    List.rel_filter (fun e f hef => Bool.eq_iff_iff.mp (hc.offends e f hef)) h
  rw [Check.reports, Check.reports, List.forall₂_map_left_iff, List.forall₂_map_right_iff]
  exact hf.imp hc.diagnostic

theorem reportedAlike_of_caseBlind {c : Check} (hc : c.CaseBlind)
    (h : List.Forall₂ Event.SameIgnoringCase (tokenize s).1 (tokenize t).1)
    (hf : ∀ text, found table text id = c.reports (tokenize text).1) :
    ReportedAlike table id s t := by
  have hraw : ∀ text, (found table text id).map (·.evidence) =
      ((tokenize text).1.filter c.offends).map (·.raw) := by
    intro text
    rw [hf, Check.reports, List.map_map]
    exact List.map_congr_left fun e _ => hc.evidence e
  refine ⟨?_, c.offends, h.imp hc.offends, hraw s, hraw t⟩
  rw [hf s, hf t]
  exact hc.reports h

theorem reportedAlike_of_not_active
    (h : List.Forall₂ Event.SameIgnoringCase (tokenize s).1 (tokenize t).1)
    (hid : id ∉ (Linter.ofTable Rules.builtinRegistry table).activeRules) :
    ReportedAlike table id s t := by
  refine ⟨?_, fun _ => false, h.imp fun _ _ _ => rfl, ?_, ?_⟩
  · rw [found_of_not_active hid, found_of_not_active hid]
    exact .nil
  · simp [found_of_not_active hid]
  · simp [found_of_not_active hid]

theorem styleDisabled_alike
    (h : List.Forall₂ Event.SameIgnoringCase (tokenize s).1 (tokenize t).1) (table : RuleTable) :
    ReportedAlike table Rules.styleDisabledId s t := by
  by_cases hid : Rules.styleDisabledId ∈ (Linter.ofTable Rules.builtinRegistry table).activeRules
  · exact reportedAlike_of_caseBlind style_caseBlind h (found_styleDisabled hid)
  · exact reportedAlike_of_not_active h hid

theorem indent_alike (h : List.Forall₂ Event.SameIgnoringCase (tokenize s).1 (tokenize t).1)
    {o : RuleOptions} (ho : table.get? Rules.indentId = some o)
    (hm : o = .mode "tab" ∨ o = .mode "space") : ReportedAlike table Rules.indentId s t := by
  obtain ⟨o', _, check, ho', hcheck, hf⟩ := found_indent (indent_active ho hm)
  obtain rfl : o = o' := Option.some.inj (ho.symm.trans ho')
  obtain ⟨_, check', c, hcheck', hc, hv⟩ := Rules.indentCheck_mode hm
  obtain ⟨-, rfl⟩ := Prod.mk.inj (Except.ok.inj (hcheck.symm.trans hcheck'))
  exact reportedAlike_of_caseBlind (indentation_caseBlind hc hv) h hf

/-! ## 3. Element names in small letters -/

theorem hasCapital_lower (name : List Char) : Rules.hasCapital (Text.lower name) = false := by
  rw [Rules.hasCapital, Text.lower, List.any_map, List.any_eq_false]
  intro c _
  simp

theorem found_withSmallNames (table : RuleTable) (s : List Char) :
    found table (withSmallNames s) Rules.tagNameLowercaseId = [] := by
  by_cases hid : Rules.tagNameLowercaseId ∈ (Linter.ofTable Rules.builtinRegistry table).activeRules
  · rw [found_tagNameLowercase hid, tokenize_withSmallNames, Check.reports, List.map_eq_nil_iff,
      List.filter_eq_nil_iff]
    intro f hf
    obtain ⟨e, _, rfl⟩ := List.mem_map.mp hf
    cases hn : e.tagName with
    | none => simp [Check.offends_lowercase, Event.withSmallName, hn]
    | some name => simp [Check.offends_lowercase, Event.withSmallName, hn, hasCapital_lower]
  · exact found_of_not_active hid _

/-! ## 4. All of it -/

/-- Texts of the same characters, up to the case of ASCII letters, fall into the same events at the
same places, up to case, and what the rules for style sheets and for indentation by tabs or spaces
find in them is the same, up to the case of the evidence. A text with its element names in small
letters differs in case alone and keeps its events, and the rule for element names finds nothing in
it. -/
theorem lint_case_blind (table : RuleTable) (s : List Char) :
    (∀ t, Text.sameIgnoringCase s t = true →
      List.Forall₂ Event.SameIgnoringCase (tokenize s).1 (tokenize t).1 ∧
      (tokenize s).2 = (tokenize t).2 ∧
      (∀ n, Text.byteLength (written ((tokenize s).1.take n)) =
        Text.byteLength (written ((tokenize t).1.take n))) ∧
      ReportedAlike table Rules.styleDisabledId s t ∧
      ∀ o, table.get? Rules.indentId = some o → o = .mode "tab" ∨ o = .mode "space" →
        ReportedAlike table Rules.indentId s t) ∧
    Text.sameIgnoringCase s (withSmallNames s) = true ∧
    (tokenize (withSmallNames s)).1 = (tokenize s).1.map Event.withSmallName ∧
    found table (withSmallNames s) Rules.tagNameLowercaseId = [] := by
  refine ⟨fun t h => ?_, Text.sameIgnoringCase_iff_lower.mpr (withSmallNames_lower s).symm,
    tokenize_withSmallNames s, found_withSmallNames table s⟩
  have hl : Text.lower s = Text.lower t := Text.sameIgnoringCase_iff_lower.mp h
  have he := forall₂_of_lower_eq (tokenize_congr hl).1
  exact ⟨he, (tokenize_congr hl).2, boundary_congr hl, styleDisabled_alike he table,
    fun o ho hm => indent_alike he ho hm⟩

/-- A table for style sheets and for indentation by spaces. -/
def styleAndSpaces : RuleTable :=
  (IdMap.empty.set Rules.styleDisabledId (.switch true)).set Rules.indentId (.mode "space")

theorem lint_case_blind_style :
    Text.sameIgnoringCase "\tA<STYLE>".toList "\ta<Style>".toList = true ∧
    ReportedAlike styleAndSpaces Rules.styleDisabledId "\tA<STYLE>".toList "\ta<Style>".toList ∧
    ReportedAlike styleAndSpaces Rules.indentId "\tA<STYLE>".toList "\ta<Style>".toList ∧
    (found styleAndSpaces "\tA<STYLE>".toList Rules.styleDisabledId).length = 1 ∧
    (found styleAndSpaces "\tA<STYLE>".toList Rules.indentId).length = 1 := by
  have h : Text.sameIgnoringCase "\tA<STYLE>".toList "\ta<Style>".toList = true := by decide
  obtain ⟨_, _, _, hstyle, hindent⟩ :=
    (lint_case_blind styleAndSpaces "\tA<STYLE>".toList).1 "\ta<Style>".toList h
  exact ⟨h, hstyle, hindent (.mode "space") rfl (Or.inr rfl), by decide +kernel, by decide +kernel⟩

end MarkupLint.Lint

import MarkupLint.Proofs.Selection

/-!
# What the built-in rules find

Each built-in rule looks at the events of a page one by one: some of them offend it, and it reports
each of these by one diagnostic. So what a linter says under the identifier of a rule is a list of
events, filtered and written out, whatever other rules the table has.

Results:
1. `search_oneOrMore`, `indentCheck_tab`, `indentCheck_space`, `indentCheck_mode`: a mode forbids a
   character, once or more, which occurs in a text exactly if the character does.
2. `findings_eq`: what an active rule finds in an event, by its listeners.
3. `styleDisabled_findings`, `tagNameLowercase_findings`, `indent_findings`: what offends each of
   the built-in rules.
4. `found_of_not_active`, `found_eq`: what a linter finds under one identifier.
5. `found_styleDisabled`, `found_tagNameLowercase`, `found_indent`: the same for each of the
   built-in rules.
-/

namespace MarkupLint.Lint

open Markup

/-! ## Definitions -/

/-- Which events a rule reports, and how. -/
structure Check where
  offends : Event → Bool
  diagnostic : Event → Diagnostic

namespace Check

def reports (c : Check) (es : List Event) : List Diagnostic :=
  (es.filter c.offends).map c.diagnostic

/-- Opening tags with the name `style`, in whatever case, are reported where they stand. -/
def style : Check where
  offends e :=
    e.kind == .tagStart && e.tagName.any fun name => name.map Char.toLower == "style".toList
  diagnostic e :=
    ⟨.warning, "The <style> tag cannot be used.", e.position, Rules.styleDisabled.ref, e.raw⟩

/-- Tags with an ASCII capital in their names are reported where they stand. -/
def lowercase : Check where
  offends e :=
    (e.kind == .tagStart || e.kind == .tagEnd) &&
      e.tagName.any fun name => name.any fun c => 'A' ≤ c && c ≤ 'Z'
  diagnostic e :=
    ⟨.warning, Rules.lowercaseMessage (e.tagName.getD []), e.position, Rules.tagNameLowercase.ref,
      e.raw⟩

/-- Runs of text that violate a check are reported at the start of the page. -/
def indentation (check : Rules.IndentCheck) : Check where
  offends e := e.kind == .text && check.isViolatedBy e.raw
  diagnostic e := ⟨.warning, check.message, {}, Rules.indent.ref, e.raw⟩

/-- Only pieces of the text are reported, neither the start of the page nor its finish. -/
def OnPieces (c : Check) : Prop := ∀ e, c.offends e = true → e.kind ≠ .start ∧ e.kind ≠ .finish

end Check

/-- The active rule reports what the check says. -/
def ActiveRule.Reports (a : ActiveRule) (c : Check) : Prop :=
  ∀ e, a.findings e = if c.offends e then [c.diagnostic e] else []

/-- What the linter of a table with the built-in rules finds in a text under one identifier. -/
def found (table : RuleTable) (text : List Char) (id : RuleId) : List Diagnostic :=
  ((Linter.ofTable Rules.builtinRegistry table).lint text).filter (·.rule.id = id)

end MarkupLint.Lint

/-! ## 1. The modes of indentation -/

namespace MarkupLint.Regex

/-- A character, once or more, without marks. -/
def oneOrMore (c : Char) : Marked :=
  .cat (.one false (.single c)) (.star (.one false (.single c)))

/-- The same after a character that its first class may have consumed. -/
def oneOrMoreMet (c : Char) : Marked :=
  .cat (.one true (.single c)) (.star (.one false (.single c)))

theorem search_oneOrMoreMet (c : Char) (before : Option Char) (s : List Char) :
    (oneOrMoreMet c).search before s = true := by
  cases s with
  | nil => rfl
  | cons d s => rfl

theorem step_oneOrMore (c d : Char) (p : Place) :
    (oneOrMore c).step p d true =
      (if d = c then oneOrMoreMet c else oneOrMore c, ⟨false, false⟩) := by
  by_cases h : d = c
  · simp [oneOrMore, oneOrMoreMet, Marked.step, Marked.standing, Standing.passes, Standing.andThen,
      CharClass.single, h]
  · simp [oneOrMore, Marked.step, Marked.standing, Standing.passes, Standing.andThen,
      CharClass.single, h]

/-- A character, once or more, occurs exactly if the character does. -/
theorem search_oneOrMore (c : Char) (before : Option Char) (s : List Char) :
    (oneOrMore c).search before s = s.any (· == c) := by
  induction s generalizing before with
  | nil => rfl
  | cons d s ih =>
    rw [Marked.search, step_oneOrMore, List.any_cons]
    by_cases h : d = c
    · simp [h, search_oneOrMoreMet]
    · simp [h, ih, Standing.accepts]

end MarkupLint.Regex

namespace MarkupLint.Rules

open Lint Regex

theorem indentCheck_tab : indentCheck (.mode "tab") =
    .ok (.tab, ⟨⟨IndentMode.tab.pattern, oneOrMore ' '⟩, IndentMode.tab.message⟩) := rfl

theorem indentCheck_space : indentCheck (.mode "space") =
    .ok (.space, ⟨⟨IndentMode.space.pattern, oneOrMore '\t'⟩, IndentMode.space.message⟩) := rfl

/-- What forbids a character is violated by the texts that contain it. -/
theorem isViolatedBy_oneOrMore (text message : String) (c : Char) (s : List Char) :
    IndentCheck.isViolatedBy ⟨⟨text, oneOrMore c⟩, message⟩ s = s.any (· == c) :=
  search_oneOrMore c none s

/-- The modes for tabs and for spaces forbid a character that is no letter. -/
theorem indentCheck_mode {options : RuleOptions}
    (h : options = .mode "tab" ∨ options = .mode "space") :
    ∃ mode check c, indentCheck options = .ok (mode, check) ∧ c.isAlpha = false ∧
      ∀ s, check.isViolatedBy s = s.any (· == c) := by
  rcases h with rfl | rfl
  · exact ⟨_, _, ' ', indentCheck_tab, rfl, isViolatedBy_oneOrMore _ _ ' '⟩
  · exact ⟨_, _, '\t', indentCheck_space, rfl, isViolatedBy_oneOrMore _ _ '\t'⟩

end MarkupLint.Rules

namespace MarkupLint.Lint

open Markup

/-! ## 2. One event -/

theorem Check.reports_eq_flatMap (c : Check) (es : List Event) :
    c.reports es = es.flatMap fun e => if c.offends e then [c.diagnostic e] else [] := by
  induction es with
  | nil => rfl
  | cons e es ih =>
    rw [List.flatMap_cons, ← ih, reports, List.filter_cons]
    cases c.offends e <;> rfl

/-- An event is heard by the listeners for its kind. -/
theorem findings_eq {a : ActiveRule} {ls : List Listener}
    (h : (a.rule.activate a.options).listeners = ls) (e : Event) :
    a.findings e = ls.flatMap fun l => if l.kind = e.kind then l.hear e a.rule.ref else [] := by
  rw [ActiveRule.findings, ActiveRule.listeners, h]
  clear h
  induction ls with
  | nil => rfl
  | cons l ls ih =>
    rw [List.filter_cons, List.flatMap_cons, ← ih]
    by_cases hk : l.kind = e.kind <;> simp [hk]

/-! ## 3. The built-in rules -/

theorem builtin_unique {rule rule' : Rule} (h : rule ∈ Rules.builtin) (h' : rule' ∈ Rules.builtin)
    (hid : rule.id = rule'.id) : rule = rule' := by
  simp only [Rules.builtin, List.mem_cons, List.not_mem_nil, or_false] at h h'
  rcases h with rfl | rfl | rfl <;> rcases h' with rfl | rfl | rfl
  all_goals first | rfl | exact absurd hid (by decide)

/-- Under the identifier of a built-in rule stands this rule. -/
theorem selected_rule {table : RuleTable} {a : ActiveRule} {rule : Rule}
    (h : a.IsSelected Rules.builtinRegistry table) (hr : rule ∈ Rules.builtin)
    (hid : a.id = rule.id) : a.rule = rule := by
  obtain ⟨hm, hk⟩ := Registry.mem_of_find?_ofRules h.known
  exact builtin_unique hm hr (hk.trans hid)

/-- A rule that accepts nothing but the switch that is on has its listeners if it is accepted. -/
theorem listeners_of_accepted {rule : Rule} {ls : List Listener}
    (h : ∀ o, rule.activate o = match o.expectSwitch rule.id with
      | .error e => ⟨[], .error e, []⟩
      | .ok _ => ⟨ls, .ok (), []⟩)
    {o : RuleOptions} (ho : (rule.activate o).outcome = .ok ()) :
    (rule.activate o).listeners = ls := by
  rw [h] at ho ⊢
  split at ho
  · cases ho
  · rfl

theorem Check.offends_style (e : Event) :
    style.offends e = (e.kind == .tagStart && Rules.opensStyle e) := rfl

theorem hasCapital_eq (name : List Char) :
    Rules.hasCapital name = name.any fun c => 'A' ≤ c && c ≤ 'Z' := by
  have hupper : Char.isUpper = fun c => 'A' ≤ c && c ≤ 'Z' := by
    funext c
    have h : c.isUpper = decide ('A'.val ≤ c.val ∧ c.val ≤ 'Z'.val) := rfl
    exact h.trans (Bool.decide_and _ _)
  rw [Rules.hasCapital, hupper]

theorem Check.offends_lowercase (e : Event) : lowercase.offends e =
    ((e.kind == .tagStart || e.kind == .tagEnd) && e.tagName.any Rules.hasCapital) := by
  rw [lowercase, ← funext hasCapital_eq]

variable {a : ActiveRule}

theorem styleDisabled_findings (hr : a.rule = Rules.styleDisabled)
    (ho : (a.rule.activate a.options).outcome = .ok ()) : a.Reports .style := by
  rw [hr] at ho
  have hl : (a.rule.activate a.options).listeners = [Rules.styleListener] := by
    rw [hr]
    exact listeners_of_accepted (fun _ => rfl) ho
  intro e
  rw [findings_eq hl, List.flatMap_singleton, hr, Check.offends_style]
  by_cases hk : e.kind = .tagStart
  · simp [Rules.styleListener, Check.style, hk]
  · simp [Rules.styleListener, hk, Ne.symm hk]

theorem tagNameLowercase_findings (hr : a.rule = Rules.tagNameLowercase)
    (ho : (a.rule.activate a.options).outcome = .ok ()) : a.Reports .lowercase := by
  rw [hr] at ho
  have hl : (a.rule.activate a.options).listeners =
      [Rules.lowercaseListener .tagStart, Rules.lowercaseListener .tagEnd] := by
    rw [hr]
    exact listeners_of_accepted (fun _ => rfl) ho
  intro e
  rw [findings_eq hl, hr, Check.offends_lowercase]
  obtain ⟨kind, raw, position, name⟩ := e
  cases name with
  | none => simp [Rules.lowercaseListener]
  | some name => cases kind <;> simp [Rules.lowercaseListener, Check.lowercase]

theorem indent_findings (hr : a.rule = Rules.indent)
    (ho : (a.rule.activate a.options).outcome = .ok ()) :
    ∃ mode check, Rules.indentCheck a.options = .ok (mode, check) ∧
      a.Reports (.indentation check) := by
  rw [hr] at ho
  cases hc : Rules.indentCheck a.options with
  | error e => simp [Rules.indent, hc] at ho
  | ok parts =>
    obtain ⟨mode, check⟩ := parts
    have hl : (a.rule.activate a.options).listeners = [check.listener] := by
      rw [hr]
      simp only [Rules.indent, hc]
    refine ⟨mode, check, rfl, fun e => ?_⟩
    rw [findings_eq hl, List.flatMap_singleton, hr]
    by_cases hk : e.kind = .text
    · simp [Rules.IndentCheck.listener, Check.indentation, hk]
    · simp [Rules.IndentCheck.listener, Check.indentation, hk, Ne.symm hk]

theorem Check.onPieces_style : Check.style.OnPieces := by
  intro e h
  simp only [style, Bool.and_eq_true, beq_iff_eq] at h
  rw [h.1]
  decide

theorem Check.onPieces_lowercase : Check.lowercase.OnPieces := by
  intro e h
  simp only [lowercase, Bool.and_eq_true, Bool.or_eq_true, beq_iff_eq] at h
  rcases h.1 with hk | hk <;> rw [hk] <;> decide

theorem Check.onPieces_indentation (check : Rules.IndentCheck) :
    (Check.indentation check).OnPieces := by
  intro e h
  simp only [indentation, Bool.and_eq_true, beq_iff_eq] at h
  rw [h.1]
  decide

/-! ## 4. One identifier -/

variable {table : RuleTable} {id : RuleId}

theorem found_entries (table : RuleTable) (text : List Char) (id : RuleId) :
    found table text id = (pageEvents text).flatMap fun e => (table.get? id).toList.flatMap fun o =>
      if o.isEnabled then entryFindings Rules.builtinRegistry e (id, o) else [] :=
  lint_filter (Registry.Built.ofRules Rules.builtin).keyed builtinRegistry_reportsAsHanded table
    text id

theorem exists_selected {registry : Registry}
    (h : id ∈ (Linter.ofTable registry table).activeRules) :
    ∃ a : ActiveRule, a.id = id ∧ a.IsSelected registry table := by
  obtain ⟨o, ⟨ho, hne⟩, hsome⟩ := mem_active_iff.mp h
  obtain ⟨a, ha⟩ := Option.isSome_iff_exists.mp hsome
  have hm : a ∈ activeRules registry table :=
    List.mem_filterMap.mpr ⟨(id, o), RuleTable.mem_enabled_iff.mpr ⟨ho, hne⟩, ha⟩
  exact ⟨a, activeRule?_id ha, mem_activeRules_iff.mp hm⟩

/-- Nothing is found under an identifier that is not active. -/
theorem found_of_not_active
    (h : id ∉ (Linter.ofTable Rules.builtinRegistry table).activeRules) (text : List Char) :
    found table text id = [] := by
  rw [found_entries, List.flatMap_eq_nil_iff]
  intro e _
  rw [List.flatMap_eq_nil_iff]
  intro o ho
  split
  · next he =>
    have hnone : activeRule? Rules.builtinRegistry (id, o) = none := by
      refine Option.not_isSome_iff_eq_none.mp fun hsome => h ?_
      refine mem_active_iff.mpr ⟨o, ⟨Option.mem_toList.mp ho, ?_⟩, hsome⟩
      rintro rfl
      cases he
    rw [entryFindings, hnone]
    rfl
  · rfl

/-- Under the identifier of an active rule stands what its check reports on the pieces of the
text. -/
theorem found_eq (h : a.IsSelected Rules.builtinRegistry table) {c : Check} (hc : a.Reports c)
    (hp : c.OnPieces) (text : List Char) :
    found table text a.id = c.reports (tokenize text).1 := by
  have ha : activeRule? Rules.builtinRegistry (a.id, a.options) = some a :=
    activeRule?_eq_some_iff.mpr ⟨rfl, h.known, h.accepts⟩
  have hf : ∀ e, ((table.get? a.id).toList.flatMap fun o =>
      if o.isEnabled then entryFindings Rules.builtinRegistry e (a.id, o) else []) =
        if c.offends e then [c.diagnostic e] else [] := by
    intro e
    rw [h.configured, Option.toList_some, List.flatMap_singleton, if_pos h.enabled, entryFindings,
      ha, Option.toList_some, List.flatMap_singleton]
    exact hc e
  have hout : ∀ e : Event, e.kind = .start ∨ e.kind = .finish → c.offends e = false := by
    intro e he
    cases ho : c.offends e with
    | false => rfl
    | true =>
      have hk := hp e ho
      rcases he with he | he
      · exact absurd he hk.1
      · exact absurd he hk.2
  rw [found_entries]
  simp only [hf]
  rw [← Check.reports_eq_flatMap, pageEvents, Check.reports, List.filter_cons, List.filter_append,
    List.filter_singleton, hout _ (Or.inl rfl), hout _ (Or.inr rfl)]
  simp [Check.reports]

/-! ## 5. The built-in rules in a linter -/

theorem found_styleDisabled
    (h : Rules.styleDisabledId ∈ (Linter.ofTable Rules.builtinRegistry table).activeRules)
    (text : List Char) :
    found table text Rules.styleDisabledId = Check.style.reports (tokenize text).1 := by
  obtain ⟨a, hid, ha⟩ := exists_selected h
  have hr : a.rule = Rules.styleDisabled := selected_rule ha (by simp [Rules.builtin]) hid
  rw [← hid]
  exact found_eq ha (styleDisabled_findings hr ha.accepts) Check.onPieces_style text

theorem found_tagNameLowercase
    (h : Rules.tagNameLowercaseId ∈ (Linter.ofTable Rules.builtinRegistry table).activeRules)
    (text : List Char) :
    found table text Rules.tagNameLowercaseId = Check.lowercase.reports (tokenize text).1 := by
  obtain ⟨a, hid, ha⟩ := exists_selected h
  have hr : a.rule = Rules.tagNameLowercase := selected_rule ha (by simp [Rules.builtin]) hid
  rw [← hid]
  exact found_eq ha (tagNameLowercase_findings hr ha.accepts) Check.onPieces_lowercase text

theorem found_indent
    (h : Rules.indentId ∈ (Linter.ofTable Rules.builtinRegistry table).activeRules) :
    ∃ o mode check, table.get? Rules.indentId = some o ∧
      Rules.indentCheck o = .ok (mode, check) ∧
      ∀ text, found table text Rules.indentId =
        (Check.indentation check).reports (tokenize text).1 := by
  obtain ⟨a, hid, ha⟩ := exists_selected h
  have hr : a.rule = Rules.indent := selected_rule ha (by simp [Rules.builtin]) hid
  obtain ⟨mode, check, hc, hreports⟩ := indent_findings hr ha.accepts
  rw [← hid]
  exact ⟨a.options, mode, check, ha.configured, hc,
    found_eq ha hreports (Check.onPieces_indentation check)⟩

/-- The modes for tabs and for spaces are accepted. -/
theorem indent_active {o : RuleOptions} (ho : table.get? Rules.indentId = some o)
    (hm : o = .mode "tab" ∨ o = .mode "space") :
    Rules.indentId ∈ (Linter.ofTable Rules.builtinRegistry table).activeRules := by
  refine mem_active_iff.mpr ⟨o, ⟨ho, ?_⟩, ?_⟩
  · rcases hm with rfl | rfl <;> simp
  · rcases hm with rfl | rfl <;> decide +kernel

end MarkupLint.Lint

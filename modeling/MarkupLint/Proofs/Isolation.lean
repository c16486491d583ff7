import Mathlib.Data.List.Basic
import MarkupLint.Proofs.Dispatch
import MarkupLint.Rules.Builtin

/-!
# Rules do not disturb each other

A linter activates the rules of a table one after the other and lets all of them report through one
reporter. What it says about one identifier depends on the entry of the table under that identifier
and on no other entry: whether the rule is active, why it could not be activated, and what it finds
in a page, in which order.

Results:
1. `Registry.Built.keyed`: in each registry that can be made, a rule stands under its own
   identifier.
2. `builtinRegistry_reportsAsHanded`: the built-in rules report only under their own names.
3. `filter_enabled`: of all that the entries of a table yield, the part that belongs to an
   identifier is what its own entry yields.
4. `activeRules_filter`, `activationErrors_filter`, `lint_filter`: what a linter says about one
   identifier.
5. `lint_isolated`: the other entries do not matter.
-/

namespace MarkupLint.Lint

open Markup

/-! ## Definitions -/

/-- The listener reports only under the rule that it is handed. -/
def Listener.ReportsAsHanded (l : Listener) : Prop := ∀ e ref, ∀ d ∈ l.hear e ref, d.rule = ref

/-- All listeners of the rule report only under the rule that they are handed. -/
def Rule.ReportsAsHanded (rule : Rule) : Prop :=
  ∀ options, ∀ l ∈ (rule.activate options).listeners, l.ReportsAsHanded

namespace Registry

/-- The registries that can be made: from a list of rules, and by adding one rule more. -/
inductive Built : Registry → Prop
  | ofRules (rules : List Rule) : Built (ofRules rules)
  | register {r r' : Registry} {rule : Rule} : Built r → r.register rule = .ok r' → Built r'

/-- Each rule stands under its own identifier. -/
def Keyed (r : Registry) : Prop := ∀ id rule, r.find? id = some rule → rule.id = id

/-- All rules of the registry report only under the rule that their listeners are handed. -/
def ReportsAsHanded (r : Registry) : Prop :=
  ∀ id rule, r.find? id = some rule → rule.ReportsAsHanded

end Registry

/-- What the rule of an entry finds in an event. -/
def entryFindings (registry : Registry) (e : Event) (entry : RuleId × RuleOptions) :
    List Diagnostic :=
  (activeRule? registry entry).toList.flatMap (·.findings e)

/-! ## 1. Registries -/

namespace IdMap

theorem get?_foldl_set {α : Type} {es : List (RuleId × α)} {m : IdMap α} {id : RuleId} {a : α}
    (h : (es.foldl (fun m e => m.set e.1 e.2) m).get? id = some a) :
    (id, a) ∈ es ∨ m.get? id = some a := by
  induction es generalizing m with
  | nil => exact Or.inr h
  | cons e es ih =>
    rcases ih h with hm | hm
    · exact Or.inl (List.mem_cons_of_mem e hm)
    · rw [get?_set] at hm
      split at hm
      · next hid =>
        obtain rfl := hid
        obtain rfl := Option.some.inj hm
        exact Or.inl List.mem_cons_self
      · exact Or.inr hm

theorem mem_of_get?_ofList {α : Type} {es : List (RuleId × α)} {id : RuleId} {a : α}
    (h : (ofList es).get? id = some a) : (id, a) ∈ es := by
  rcases get?_foldl_set h with hm | hm
  · exact hm
  · cases hm

end IdMap

namespace Registry

theorem mem_of_find?_ofRules {rules : List Rule} {id : RuleId} {rule : Rule}
    (h : (ofRules rules).find? id = some rule) : rule ∈ rules ∧ rule.id = id := by
  obtain ⟨rule', hm, he⟩ := List.mem_map.mp (IdMap.mem_of_get?_ofList h)
  obtain ⟨rfl, rfl⟩ := Prod.mk.inj he
  exact ⟨hm, rfl⟩

theorem find?_register {r r' : Registry} {rule : Rule} (h : r.register rule = .ok r')
    (id : RuleId) : r'.find? id = if id = rule.id then some rule else r.find? id := by
  cases hg : r.rules.get? rule.id with
  | some known => simp [register, step, hg, Except.map] at h
  | none =>
    simp only [register, step, hg, Except.map, Except.ok.injEq] at h
    subst h
    exact IdMap.get?_set r.rules rule.id rule id

theorem Built.keyed {r : Registry} (h : r.Built) : r.Keyed := by
  induction h with
  | ofRules rules => exact fun id rule hf => (mem_of_find?_ofRules hf).2
  | @register r r' rule _ hr ih =>
    intro id rule' hf
    rw [find?_register hr] at hf
    split at hf
    · next hid => rw [← Option.some.inj hf, hid]
    · exact ih id rule' hf

end Registry

/-! ## 2. The built-in rules -/

theorem indentListener_reportsAsHanded (check : Rules.IndentCheck) :
    check.listener.ReportsAsHanded := by
  intro e ref d hd
  simp only [Rules.IndentCheck.listener] at hd
  split at hd
  · rw [List.mem_singleton.mp hd]
  · cases hd

theorem styleListener_reportsAsHanded : Rules.styleListener.ReportsAsHanded := by
  intro e ref d hd
  simp only [Rules.styleListener] at hd
  split at hd
  · rw [List.mem_singleton.mp hd]
  · cases hd

theorem lowercaseListener_reportsAsHanded (k : EventKind) :
    (Rules.lowercaseListener k).ReportsAsHanded := by
  intro e ref d hd
  simp only [Rules.lowercaseListener] at hd
  split at hd
  · cases hd
  · split at hd
    · rw [List.mem_singleton.mp hd]
    · cases hd

theorem builtin_reportsAsHanded {rule : Rule} (h : rule ∈ Rules.builtin) :
    rule.ReportsAsHanded := by
  intro options l hl
  simp only [Rules.builtin, List.mem_cons, List.not_mem_nil, or_false] at h
  rcases h with rfl | rfl | rfl
  · simp only [Rules.indent] at hl
    split at hl
    · cases hl
    · rw [List.mem_singleton.mp hl]
      exact indentListener_reportsAsHanded _
  · simp only [Rules.styleDisabled] at hl
    split at hl
    · cases hl
    · rw [List.mem_singleton.mp hl]
      exact styleListener_reportsAsHanded
  · simp only [Rules.tagNameLowercase] at hl
    split at hl
    · cases hl
    · rcases List.mem_cons.mp hl with rfl | hl
      · exact lowercaseListener_reportsAsHanded _
      · rw [List.mem_singleton.mp hl]
        exact lowercaseListener_reportsAsHanded _

theorem builtinRegistry_reportsAsHanded : Rules.builtinRegistry.ReportsAsHanded :=
  fun _ _ hf => builtin_reportsAsHanded (Registry.mem_of_find?_ofRules hf).1

/-! ## 3. What belongs to an identifier -/

theorem filter_flatMap_of_ascending {α β : Type} (key : β → RuleId) {es : List (RuleId × α)}
    {f : RuleId × α → List β} (hes : es.Pairwise fun d e => d.1 < e.1)
    (hf : ∀ e, ∀ b ∈ f e, key b = e.1) (r : RuleId) :
    (es.flatMap f).filter (key · = r) = (es.find? (·.1 = r)).toList.flatMap f := by
  induction es with
  | nil => rfl
  | cons e es ih =>
    obtain ⟨he, hes⟩ := List.pairwise_cons.mp hes
    rw [List.flatMap_cons, List.filter_append, List.find?_cons]
    by_cases hr : e.1 = r
    · -- all other entries have greater identifiers
      have hown : (f e).filter (key · = r) = f e := by
        refine List.filter_eq_self.mpr fun b hb => ?_
        rw [hf e b hb]
        simpa using hr
      have hothers : (es.flatMap f).filter (key · = r) = [] := by
        refine List.filter_eq_nil_iff.mpr fun b hb => ?_
        obtain ⟨d, hd, hb⟩ := List.mem_flatMap.mp hb
        rw [hf d b hb, decide_eq_true_eq, ← hr]
        intro hd'
        exact RuleId.lt_irrefl e.1 (hd' ▸ he d hd)
      rw [hown, hothers]
      simp [hr]
    · have hnone : (f e).filter (key · = r) = [] := by
        refine List.filter_eq_nil_iff.mpr fun b hb => ?_
        rw [hf e b hb]
        simpa using hr
      rw [hnone, ih hes]
      simp [hr]

theorem enabled_flatMap {β : Type} (table : RuleTable) (f : RuleId × RuleOptions → List β) :
    table.enabled.flatMap f = table.entries.flatMap fun e => if e.2.isEnabled then f e else [] := by
  rw [RuleTable.enabled]
  induction table.entries with
  | nil => rfl
  | cons e es ih =>
    rw [List.filter_cons, List.flatMap_cons, ← ih]
    split <;> simp

/-- Of all that the enabled entries yield, what belongs to an identifier is what its own entry
yields. -/
theorem filter_enabled {β : Type} (key : β → RuleId) {f : RuleId × RuleOptions → List β}
    (hf : ∀ e, ∀ b ∈ f e, key b = e.1) (table : RuleTable) (r : RuleId) :
    (table.enabled.flatMap f).filter (key · = r) =
      (table.get? r).toList.flatMap fun o => if o.isEnabled then f (r, o) else [] := by
  have hkey : ∀ e : RuleId × RuleOptions, ∀ b ∈ (if e.2.isEnabled then f e else []),
      key b = e.1 := by
    intro e b hb
    split at hb
    · exact hf e b hb
    · cases hb
  rw [enabled_flatMap, filter_flatMap_of_ascending key table.ascending hkey, IdMap.get?]
  cases hfind : table.entries.find? (·.1 = r) with
  | none => rfl
  | some e =>
    have he : e.1 = r := by simpa using List.find?_some hfind
    simp [← he]

/-! ## 4. What a linter says about one identifier -/

variable {registry : Registry}

theorem activeRule?_id {entry : RuleId × RuleOptions} {a : ActiveRule}
    (h : activeRule? registry entry = some a) : a.id = entry.1 := by
  rw [(activeRule?_eq_some_iff.mp h).1]

theorem activationError?_rule {entry : RuleId × RuleOptions} {e : ActivationError}
    (h : activationError? registry entry = some e) : e.rule = entry.1 := by
  unfold activationError? at h
  split at h
  · rw [← Option.some.inj h]
  · split at h
    · cases h
    · rw [← Option.some.inj h]

theorem select_activeRules (l : Linter) (entry : RuleId × RuleOptions) :
    (Linter.select registry l entry).activeRules =
      l.activeRules ++ (activeRule? registry entry).toList.map (·.id) := by
  rcases activated_cases registry l.dispatcher entry with
    ⟨a, d, ha, -, hid, hd, -⟩ | ⟨cause, ha, -, hd⟩
  · simp [Linter.select, hd, ha, hid]
  · simp [Linter.select, hd, ha]

theorem select_activationErrors (l : Linter) (entry : RuleId × RuleOptions) :
    (Linter.select registry l entry).activationErrors =
      l.activationErrors ++ (activationError? registry entry).toList := by
  rcases activated_cases registry l.dispatcher entry with
    ⟨a, d, -, he, -, hd, -⟩ | ⟨cause, -, he, hd⟩
  · simp [Linter.select, hd, he]
  · simp [Linter.select, hd, he]

theorem ofTable_activeRules (registry : Registry) (table : RuleTable) :
    (Linter.ofTable registry table).activeRules =
      table.enabled.flatMap fun entry => (activeRule? registry entry).toList.map (·.id) :=
  foldl_view Linter.activeRules select_activeRules {} table.enabled

theorem ofTable_activationErrors (registry : Registry) (table : RuleTable) :
    (Linter.ofTable registry table).activationErrors =
      table.enabled.flatMap fun entry => (activationError? registry entry).toList :=
  foldl_view Linter.activationErrors select_activationErrors {} table.enabled

/-- An identifier is active by its own entry. -/
theorem activeRules_filter (registry : Registry) (table : RuleTable) (r : RuleId) :
    (Linter.ofTable registry table).activeRules.filter (· = r) =
      (table.get? r).toList.flatMap fun o =>
        if o.isEnabled then (activeRule? registry (r, o)).toList.map (·.id) else [] := by
  rw [ofTable_activeRules]
  refine filter_enabled id (fun e id hid => ?_) table r
  obtain ⟨a, ha, rfl⟩ := List.mem_map.mp hid
  exact activeRule?_id (Option.mem_toList.mp ha)

/-- An identifier has the error of its own entry. -/
theorem activationErrors_filter (registry : Registry) (table : RuleTable) (r : RuleId) :
    (Linter.ofTable registry table).activationErrors.filter (·.rule = r) =
      (table.get? r).toList.flatMap fun o =>
        if o.isEnabled then (activationError? registry (r, o)).toList else [] := by
  rw [ofTable_activationErrors]
  exact filter_enabled ActivationError.rule
    (fun e b hb => activationError?_rule (Option.mem_toList.mp hb)) table r

theorem lint_entries (table : RuleTable) (text : List Char) :
    (Linter.ofTable registry table).lint text =
      (pageEvents text).flatMap fun e => table.enabled.flatMap (entryFindings registry e) := by
  have hf : ∀ e, (activeRules registry table).flatMap (·.findings e) =
      table.enabled.flatMap (entryFindings registry e) := by
    intro e
    rw [activeRules, List.filterMap_eq_flatMap_toList, List.flatMap_assoc]
    rfl
  rw [Linter.lint, diagnostics_page, Reporter.diagnostics_empty, List.nil_append]
  simp only [queue_hear, hf]

/-- What an entry finds belongs to its identifier. -/
theorem entryFindings_rule (hk : registry.Keyed) (hr : registry.ReportsAsHanded) (e : Event)
    (entry : RuleId × RuleOptions) : ∀ d ∈ entryFindings registry e entry, d.rule.id = entry.1 := by
  intro d hd
  obtain ⟨a, ha, hfound⟩ := List.mem_flatMap.mp hd
  obtain ⟨rfl, hf, _⟩ := activeRule?_eq_some_iff.mp (Option.mem_toList.mp ha)
  obtain ⟨l, hl, hheard⟩ := List.mem_flatMap.mp hfound
  rw [hr a.id a.rule hf a.options l (List.mem_filter.mp hl).1 e a.rule.ref d hheard]
  exact hk a.id a.rule hf

/-- What is found under an identifier is found by its own entry. -/
theorem lint_filter (hk : registry.Keyed) (hr : registry.ReportsAsHanded) (table : RuleTable)
    (text : List Char) (r : RuleId) :
    ((Linter.ofTable registry table).lint text).filter (·.rule.id = r) =
      (pageEvents text).flatMap fun e => (table.get? r).toList.flatMap fun o =>
        if o.isEnabled then entryFindings registry e (r, o) else [] := by
  have hf : ∀ e, (table.enabled.flatMap (entryFindings registry e)).filter (·.rule.id = r) =
      (table.get? r).toList.flatMap fun o =>
        if o.isEnabled then entryFindings registry e (r, o) else [] :=
    fun e => filter_enabled (fun d : Diagnostic => d.rule.id) (entryFindings_rule hk hr e) table r
  rw [lint_entries, List.filter_flatMap]
  simp only [hf]

/-- A linter with one entry finds nothing under other identifiers. -/
theorem lint_sole (hk : registry.Keyed) (hr : registry.ReportsAsHanded) (r : RuleId)
    (options : RuleOptions) (text : List Char) :
    ((Linter.ofTable registry (IdMap.empty.set r options)).lint text).filter (·.rule.id = r) =
      (Linter.ofTable registry (IdMap.empty.set r options)).lint text := by
  refine List.filter_eq_self.mpr fun d hd => ?_
  rw [lint_entries] at hd
  obtain ⟨e, _, hd⟩ := List.mem_flatMap.mp hd
  obtain ⟨entry, hm, hd⟩ := List.mem_flatMap.mp hd
  have he : entry = (r, options) := List.mem_singleton.mp (List.mem_filter.mp hm).1
  rw [decide_eq_true_eq, entryFindings_rule hk hr e entry d hd, he]

/-! ## 5. The other entries do not matter -/

theorem mem_iff_of_filter {l l' : List RuleId} {r : RuleId}
    (h : l.filter (· = r) = l'.filter (· = r)) : r ∈ l ↔ r ∈ l' := by
  have hm : ∀ k : List RuleId, r ∈ k ↔ r ∈ k.filter (· = r) := by simp
  rw [hm l, h, ← hm l']

/-- What an active rule finds beside others it finds alone. A table that has the same entry for an
identifier, whatever its other entries are, does not change whether the identifier is active, nor
why it could not be activated, nor what is found under it. -/
theorem lint_isolated (hb : registry.Built) (hr : registry.ReportsAsHanded) (table : RuleTable)
    (r : RuleId) :
    (r ∈ (Linter.ofTable registry table).activeRules →
      ∃ options, table.get? r = some options ∧ ∀ text,
        ((Linter.ofTable registry table).lint text).filter (·.rule.id = r) =
          (Linter.ofTable registry (IdMap.empty.set r options)).lint text) ∧
    ∀ table' : RuleTable, table'.get? r = table.get? r →
      (r ∈ (Linter.ofTable registry table').activeRules ↔
        r ∈ (Linter.ofTable registry table).activeRules) ∧
      (Linter.ofTable registry table').activationErrors.filter (·.rule = r) =
        (Linter.ofTable registry table).activationErrors.filter (·.rule = r) ∧
      ∀ text, ((Linter.ofTable registry table').lint text).filter (·.rule.id = r) =
        ((Linter.ofTable registry table).lint text).filter (·.rule.id = r) := by
  have hk := hb.keyed
  have same : ∀ t t' : RuleTable, t'.get? r = t.get? r → ∀ text,
      ((Linter.ofTable registry t').lint text).filter (·.rule.id = r) =
        ((Linter.ofTable registry t).lint text).filter (·.rule.id = r) := by
    intro t t' ht text
    rw [lint_filter hk hr, lint_filter hk hr, ht]
  refine ⟨fun hm => ?_, fun table' ht => ⟨mem_iff_of_filter ?_, ?_, same table table' ht⟩⟩
  · cases hg : table.get? r with
    | none =>
      have hnil := activeRules_filter registry table r
      rw [hg] at hnil
      exact absurd (decide_eq_true rfl) (List.filter_eq_nil_iff.mp hnil r hm)
    | some options =>
      refine ⟨options, rfl, fun text => ?_⟩
      rw [← lint_sole hk hr]
      refine same _ _ ?_ text
      rw [hg, IdMap.get?_set, if_pos rfl]
  · rw [activeRules_filter, activeRules_filter, ht]
  · rw [activationErrors_filter, activationErrors_filter, ht]

/-- A table with a rule that refuses its options between two that are active. -/
def mixedTable : RuleTable :=
  ((IdMap.empty.set Rules.indentId (.mode "tab")).set Rules.styleDisabledId (.mode "tab")).set
    Rules.tagNameLowercaseId (.switch true)

/-- The rule for element names does not notice the rules before it. -/
theorem lint_isolated_mixed :
    Rules.builtinRegistry.Built ∧ Rules.builtinRegistry.ReportsAsHanded ∧
    Rules.tagNameLowercaseId ∈ (Linter.ofTable Rules.builtinRegistry mixedTable).activeRules ∧
    ∃ options, mixedTable.get? Rules.tagNameLowercaseId = some options ∧ ∀ text,
      ((Linter.ofTable Rules.builtinRegistry mixedTable).lint text).filter
          (·.rule.id = Rules.tagNameLowercaseId) =
        (Linter.ofTable Rules.builtinRegistry
          (IdMap.empty.set Rules.tagNameLowercaseId options)).lint text := by
  have hb : Rules.builtinRegistry.Built := .ofRules Rules.builtin
  have hm : Rules.tagNameLowercaseId ∈
      (Linter.ofTable Rules.builtinRegistry mixedTable).activeRules := by decide +kernel
  exact ⟨hb, builtinRegistry_reportsAsHanded, hm,
    (lint_isolated hb builtinRegistry_reportsAsHanded mixedTable _).1 hm⟩

end MarkupLint.Lint

import MarkupLint.Cli.Run
import MarkupLint.Proofs.Identifiers
import MarkupLint.Proofs.Isolation

/-!
# Selection of rules

A table enables some identifiers. A linter sorts each of them out: it is active, or it is refused,
with an error. The listing of the rules reads the same table anew. All of them mean the same by
"enabled": the table has the identifier, with anything but the explicit `false`.

Results:
1. `IdMap.ext_get?`, `IdMap.ofList_of_perm`: a table is determined by its values, in whichever order
   they are set.
2. `mem_active_iff`, `mem_errors_iff`, `active_or_refused`, `active_refused_disjoint`: how the
   enabled identifiers are sorted out.
3. `listings_filter`, `stateIn_enabled_iff`, `stateIn_disabled_iff`, `stateIn_unconfigured_iff`:
   what is listed.
4. `selection_agrees`: the linter and the listing agree.
-/

namespace MarkupLint.Lint

open Markup

/-! ## Definitions -/

def RuleTable.enabledIds (table : RuleTable) : List RuleId := table.enabled.map (·.1)

/-- The identifiers of the rules that could not be activated. -/
def Linter.refused (l : Linter) : List RuleId := l.activationErrors.map (·.rule)

/-- The rule is refused with an error: it is not known, or it does not accept the options. -/
def Refuses (registry : Registry) (id : RuleId) (options : RuleOptions) (cause : RuleError) :
    Prop :=
  registry.find? id = none ∧ cause = .notFound id.text ∨
    ∃ rule, registry.find? id = some rule ∧ (rule.activate options).outcome = .error cause

/-- The identifiers stand in strictly ascending order of their bytes. -/
def ByteAscending (ids : List RuleId) : Prop :=
  ids.Pairwise fun a b => Text.utf8 a.text.toList < Text.utf8 b.text.toList

/-! ## 1. Tables -/

namespace IdMap

variable {α : Type}

/-- Tables with the same values are the same. -/
theorem ext_get? {m n : IdMap α} (h : ∀ id, m.get? id = n.get? id) : m = n := by
  obtain ⟨es, hes⟩ := m
  obtain ⟨fs, hfs⟩ := n
  have nodup : ∀ {l : List (RuleId × α)}, (l.Pairwise fun d e => d.1 < e.1) → l.Nodup := by
    intro l hl
    refine hl.imp ?_
    rintro d e hlt rfl
    exact RuleId.lt_irrefl _ hlt
  have hmem : ∀ e, e ∈ es ↔ e ∈ fs := by
    intro e
    have he := h e.1
    constructor
    · intro hm
      exact get?_eq_some_iff.mp (he.symm.trans (get?_eq_some_iff.mpr hm))
    · intro hm
      exact get?_eq_some_iff.mp (he.trans (get?_eq_some_iff.mpr hm))
  -- a list in strictly ascending order is determined by its members
  have hperm : es.Perm fs := (List.perm_ext_iff_of_nodup (nodup hes) (nodup hfs)).mpr hmem
  obtain rfl : es = fs :=
    hperm.eq_of_pairwise (fun _ _ _ _ hlt hgt => absurd hgt (RuleId.lt_asymm hlt)) hes hfs
  rfl

theorem isSome_foldl_set {es : List (RuleId × α)} {m : IdMap α} {id : RuleId}
    (h : id ∈ es.map (·.1) ∨ (m.get? id).isSome) :
    ((es.foldl (fun m e => m.set e.1 e.2) m).get? id).isSome := by
  induction es generalizing m with
  | nil =>
    rcases h with h | h
    · cases h
    · exact h
  | cons e es ih =>
    refine ih ?_
    rw [get?_set]
    by_cases hid : id = e.1
    · simp [hid]
    · simpa [hid] using h

/-- It does not matter in which order the entries are set. -/
theorem ofList_of_perm {m : IdMap α} {es : List (RuleId × α)} (h : es.Perm m.entries) :
    ofList es = m := by
  refine ext_get? fun id => ?_
  cases hl : (ofList es).get? id with
  | some a => exact (get?_eq_some_iff.mpr (h.mem_iff.mp (mem_of_get?_ofList hl))).symm
  | none =>
    cases hm : m.get? id with
    | none => rfl
    | some a =>
      have hin : id ∈ es.map (·.1) :=
        List.mem_map_of_mem (h.mem_iff.mpr (get?_eq_some_iff.mp hm))
      have hsome : ((ofList es).get? id).isSome := isSome_foldl_set (Or.inl hin)
      rw [hl] at hsome
      cases hsome

theorem filter_entries {m : IdMap α} {id : RuleId} {a : α} (h : m.get? id = some a) :
    m.entries.filter (·.1 = id) = [(id, a)] := by
  have hf := filter_flatMap_of_ascending (·.1) (f := fun e => [e]) m.ascending
    (fun e b hb => by rw [List.mem_singleton.mp hb]) id
  rw [List.flatMap_singleton', List.flatMap_singleton'] at hf
  rw [hf]
  obtain ⟨e, he, rfl⟩ := Option.map_eq_some_iff.mp h
  have hid : e.1 = id := by simpa using List.find?_some he
  rw [he, ← hid]
  rfl

end IdMap

theorem RuleTable.mem_enabled_iff {table : RuleTable} {id : RuleId} {o : RuleOptions} :
    (id, o) ∈ table.enabled ↔ table.get? id = some o ∧ o ≠ .switch false := by
  rw [RuleTable.enabled, List.mem_filter, IdMap.get?_eq_some_iff, Ne,
    ← RuleOptions.isEnabled_eq_false_iff, Bool.not_eq_false]

theorem RuleTable.mem_enabledIds_iff {table : RuleTable} {id : RuleId} :
    id ∈ table.enabledIds ↔ ∃ o, table.get? id = some o ∧ o ≠ .switch false := by
  rw [RuleTable.enabledIds, List.mem_map]
  constructor
  · rintro ⟨⟨_, o⟩, hm, rfl⟩
    exact ⟨o, mem_enabled_iff.mp hm⟩
  · rintro ⟨o, ho⟩
    exact ⟨(id, o), mem_enabled_iff.mpr ho, rfl⟩

/-! ## 2. The linter -/

variable {registry : Registry} {table : RuleTable}

theorem activationError?_eq_some_iff {id : RuleId} {o : RuleOptions} {e : ActivationError} :
    activationError? registry (id, o) = some e ↔ e.rule = id ∧ Refuses registry id o e.cause := by
  obtain ⟨rule, cause⟩ := e
  unfold activationError? Refuses
  cases hf : registry.find? id with
  | none => simp [eq_comm]
  | some r =>
    cases ho : (r.activate o).outcome with
    | ok _ => simp [ho]
    | error c => simp [ho, eq_comm]

/-- An entry is refused exactly if its rule does not become active. -/
theorem activationError?_isSome (registry : Registry) (entry : RuleId × RuleOptions) :
    (activationError? registry entry).isSome = !(activeRule? registry entry).isSome := by
  unfold activationError? activeRule?
  cases registry.find? entry.1 with
  | none => rfl
  | some rule =>
    cases ho : (rule.activate entry.2).outcome with
    | ok _ => simp [ho]
    | error c => simp [ho]

theorem mem_active_iff {id : RuleId} :
    id ∈ (Linter.ofTable registry table).activeRules ↔
      ∃ o, (table.get? id = some o ∧ o ≠ .switch false) ∧
        (activeRule? registry (id, o)).isSome = true := by
  rw [ofTable_activeRules, List.mem_flatMap]
  constructor
  · rintro ⟨entry, hm, hid⟩
    obtain ⟨a, ha, rfl⟩ := List.mem_map.mp hid
    have ha := Option.mem_toList.mp ha
    obtain ⟨rfl, -⟩ := activeRule?_eq_some_iff.mp ha
    exact ⟨a.options, RuleTable.mem_enabled_iff.mp hm, by rw [ha]; rfl⟩
  · rintro ⟨o, ho, hsome⟩
    obtain ⟨a, ha⟩ := Option.isSome_iff_exists.mp hsome
    exact ⟨(id, o), RuleTable.mem_enabled_iff.mpr ho,
      List.mem_map.mpr ⟨a, Option.mem_toList.mpr ha, activeRule?_id ha⟩⟩

theorem mem_errors_iff {e : ActivationError} :
    e ∈ (Linter.ofTable registry table).activationErrors ↔
      ∃ o, (table.get? e.rule = some o ∧ o ≠ .switch false) ∧
        Refuses registry e.rule o e.cause := by
  rw [ofTable_activationErrors, List.mem_flatMap]
  constructor
  · rintro ⟨⟨id, o⟩, hm, he⟩
    obtain ⟨rfl, hr⟩ := activationError?_eq_some_iff.mp (Option.mem_toList.mp he)
    exact ⟨o, RuleTable.mem_enabled_iff.mp hm, hr⟩
  · rintro ⟨o, ho, hr⟩
    exact ⟨(e.rule, o), RuleTable.mem_enabled_iff.mpr ho,
      Option.mem_toList.mpr (activationError?_eq_some_iff.mpr ⟨rfl, hr⟩)⟩

theorem mem_refused_iff {id : RuleId} :
    id ∈ (Linter.ofTable registry table).refused ↔
      ∃ o, (table.get? id = some o ∧ o ≠ .switch false) ∧
        (activeRule? registry (id, o)).isSome = false := by
  rw [Linter.refused, List.mem_map]
  constructor
  · rintro ⟨e, hm, rfl⟩
    obtain ⟨o, ho, hr⟩ := mem_errors_iff.mp hm
    have he := activationError?_isSome registry (e.rule, o)
    rw [activationError?_eq_some_iff.mpr ⟨rfl, hr⟩] at he
    exact ⟨o, ho, by simpa using he⟩
  · rintro ⟨o, ho, hnone⟩
    have he := activationError?_isSome registry (id, o)
    rw [hnone] at he
    obtain ⟨e, he⟩ := Option.isSome_iff_exists.mp he
    obtain ⟨rfl, hr⟩ := activationError?_eq_some_iff.mp he
    exact ⟨e, mem_errors_iff.mpr ⟨o, ho, hr⟩, rfl⟩

theorem active_or_refused (id : RuleId) :
    id ∈ (Linter.ofTable registry table).activeRules ∨
        id ∈ (Linter.ofTable registry table).refused ↔ id ∈ table.enabledIds := by
  rw [mem_active_iff, mem_refused_iff, RuleTable.mem_enabledIds_iff]
  constructor
  · rintro (⟨o, ho, -⟩ | ⟨o, ho, -⟩)
    · exact ⟨o, ho⟩
    · exact ⟨o, ho⟩
  · rintro ⟨o, ho⟩
    cases ha : (activeRule? registry (id, o)).isSome with
    | true => exact Or.inl ⟨o, ho, ha⟩
    | false => exact Or.inr ⟨o, ho, ha⟩

theorem active_refused_disjoint (id : RuleId) :
    ¬(id ∈ (Linter.ofTable registry table).activeRules ∧
      id ∈ (Linter.ofTable registry table).refused) := by
  rintro ⟨ha, hr⟩
  obtain ⟨o, ⟨ho, -⟩, hsome⟩ := mem_active_iff.mp ha
  obtain ⟨o', ⟨ho', -⟩, hnone⟩ := mem_refused_iff.mp hr
  obtain rfl : o = o' := Option.some.inj (ho.symm.trans ho')
  rw [hsome] at hnone
  cases hnone

/-- What the entries of a table yield, at most one thing each, under their own identifiers, stands
in the order of the identifiers. -/
theorem enabled_ascending {β : Type} (key : β → RuleId) {f : RuleId × RuleOptions → Option β}
    (hf : ∀ entry b, f entry = some b → key b = entry.1) (table : RuleTable) :
    ByteAscending ((table.enabled.flatMap fun entry => (f entry).toList).map key) := by
  rw [← List.filterMap_eq_flatMap_toList, ByteAscending, List.pairwise_map,
    List.pairwise_filterMap]
  refine (table.ascending.filter _).imp ?_
  intro d e hlt a ha b hb
  rw [hf d a ha, hf e b hb]
  exact RuleId.lt_iff_bytes.mp hlt

theorem active_ascending : ByteAscending (Linter.ofTable registry table).activeRules := by
  have h := enabled_ascending (f := activeRule? registry) ActiveRule.id
    (fun _ _ => activeRule?_id) table
  rwa [List.map_flatMap, ← ofTable_activeRules] at h

theorem refused_ascending : ByteAscending (Linter.ofTable registry table).refused := by
  rw [Linter.refused, ofTable_activationErrors]
  exact enabled_ascending _ (fun _ _ => activationError?_rule) table

end MarkupLint.Lint

/-! ## 3. The listing -/

namespace MarkupLint.Cli

open Lint Report

variable {registry : Registry} {table : RuleTable}

theorem stateIn_enabled_iff {id : RuleId} :
    (stateIn table id).isEnabled = true ↔ id ∈ table.enabledIds := by
  rw [RuleTable.mem_enabledIds_iff, stateIn]
  cases table.get? id with
  | none => simp [RuleState.isEnabled]
  | some o =>
    have ho := RuleOptions.isEnabled_eq_false_iff (o := o)
    cases he : o.isEnabled with
    | true => simpa [RuleState.isEnabled, he] using ho
    | false => simpa [RuleState.isEnabled, he] using ho

theorem stateIn_disabled_iff {id : RuleId} :
    stateIn table id = .disabled ↔ table.get? id = some (.switch false) := by
  rw [stateIn]
  cases table.get? id with
  | none => simp
  | some o =>
    have ho := RuleOptions.isEnabled_eq_false_iff (o := o)
    cases he : o.isEnabled with
    | true => simpa [he] using ho
    | false => simpa [he] using ho

theorem stateIn_unconfigured_iff {id : RuleId} :
    stateIn table id = .unconfigured ↔ table.get? id = none := by
  rw [stateIn]
  cases table.get? id with
  | none => simp
  | some o => cases he : o.isEnabled <;> simp [he]

theorem listings_eq (hk : registry.Keyed) (table : RuleTable) :
    listings registry table = registry.rules.entries.map fun e =>
      ⟨e.1.text, e.2.description, e.2.optionsHint, stateIn table e.1⟩ := by
  rw [listings, Registry.toList, IdMap.values, List.map_map]
  refine List.map_congr_left fun e he => ?_
  have hid : e.2.id = e.1 := hk e.1 e.2 (IdMap.get?_eq_some_iff.mpr he)
  simp only [Function.comp_apply, hid]

theorem listings_ascending (hk : registry.Keyed) (table : RuleTable) :
    (listings registry table).Pairwise fun l m =>
      Text.utf8 l.ruleId.toList < Text.utf8 m.ruleId.toList := by
  rw [listings_eq hk, List.pairwise_map]
  exact registry.rules.ascending.imp RuleId.lt_iff_bytes.mp

theorem listings_filter (hk : registry.Keyed) {id : RuleId} {rule : Rule}
    (h : registry.find? id = some rule) (table : RuleTable) :
    (listings registry table).filter (·.ruleId = id.text) =
      [⟨id.text, rule.description, rule.optionsHint, stateIn table id⟩] := by
  have hf := IdMap.filter_entries h
  rw [listings_eq hk, List.filter_map]
  have hp : ((fun l : RuleListing => decide (l.ruleId = id.text)) ∘ fun e : RuleId × Rule =>
      ⟨e.1.text, e.2.description, e.2.optionsHint, stateIn table e.1⟩) =
        fun e : RuleId × Rule => decide (e.1 = id) := by
    funext e
    exact decide_eq_decide.mpr RuleId.ext_iff.symm
  rw [hp, hf]
  rfl

theorem listings_known (hk : registry.Keyed) {l : RuleListing} (h : l ∈ listings registry table) :
    ∃ id rule, registry.find? id = some rule ∧ l.ruleId = id.text := by
  rw [listings_eq hk] at h
  obtain ⟨e, he, rfl⟩ := List.mem_map.mp h
  exact ⟨e.1, e.2, IdMap.get?_eq_some_iff.mpr he, rfl⟩

/-! ## 4. The linter and the listing agree -/

/-- What the linter of a table and the listing say about the identifiers that the table enables. -/
structure SelectionAgrees (registry : Registry) (table : RuleTable) : Prop where
  /-- The enabled identifiers are those of the entries that are not the explicit `false`. -/
  enabled : ∀ id, id ∈ table.enabledIds ↔ ∃ o, table.get? id = some o ∧ o ≠ .switch false
  active_ascending : ByteAscending (Linter.ofTable registry table).activeRules
  refused_ascending : ByteAscending (Linter.ofTable registry table).refused
  /-- No identifier is both active and refused. -/
  disjoint : ∀ id, ¬(id ∈ (Linter.ofTable registry table).activeRules ∧
    id ∈ (Linter.ofTable registry table).refused)
  /-- Each enabled identifier is one of both, and no other is. -/
  union : ∀ id, id ∈ (Linter.ofTable registry table).activeRules ∨
    id ∈ (Linter.ofTable registry table).refused ↔ id ∈ table.enabledIds
  /-- The active rules are known and accept their options. -/
  active : ∀ id, id ∈ (Linter.ofTable registry table).activeRules ↔
    ∃ o rule, (table.get? id = some o ∧ o ≠ .switch false) ∧
      registry.find? id = some rule ∧ (rule.activate o).outcome = .ok ()
  /-- An unknown rule is not found; the error of any other rule is its own. -/
  errors : ∀ id cause, ⟨id, cause⟩ ∈ (Linter.ofTable registry table).activationErrors ↔
    ∃ o, (table.get? id = some o ∧ o ≠ .switch false) ∧
      (registry.find? id = none ∧ cause = .notFound id.text ∨
        ∃ rule, registry.find? id = some rule ∧ (rule.activate o).outcome = .error cause)
  listed_ascending : (listings registry table).Pairwise fun l m =>
    Text.utf8 l.ruleId.toList < Text.utf8 m.ruleId.toList
  /-- Each known rule is listed once, with the state that the table gives it. -/
  listed : ∀ id rule, registry.find? id = some rule →
    ∃ l, (listings registry table).filter (·.ruleId = id.text) = [l] ∧
      (l.state.isEnabled = true ↔ id ∈ table.enabledIds) ∧
      (l.state = .disabled ↔ table.get? id = some (.switch false)) ∧
      (l.state = .unconfigured ↔ table.get? id = none)
  /-- No other rule is listed. -/
  known : ∀ l ∈ listings registry table,
    ∃ id rule, registry.find? id = some rule ∧ l.ruleId = id.text
  /-- It does not matter in which order the entries of the table were set. -/
  unordered : ∀ es, es.Perm table.entries →
    Linter.ofTable registry (IdMap.ofList es) = Linter.ofTable registry table ∧
      listings registry (IdMap.ofList es) = listings registry table

/-- The linter activates or refuses exactly the rules that the configuration enables, and the
listing shows just these as enabled. -/
theorem selection_agrees (hb : registry.Built) (table : RuleTable) :
    SelectionAgrees registry table where
  enabled _ := RuleTable.mem_enabledIds_iff
  active_ascending := Lint.active_ascending
  refused_ascending := Lint.refused_ascending
  disjoint := active_refused_disjoint
  union := active_or_refused
  active id := by
    rw [mem_active_iff]
    constructor
    · rintro ⟨o, ho, hsome⟩
      obtain ⟨a, ha⟩ := Option.isSome_iff_exists.mp hsome
      obtain ⟨he, hf, hok⟩ := activeRule?_eq_some_iff.mp ha
      obtain ⟨rfl, rfl⟩ := Prod.mk.inj he
      exact ⟨a.options, a.rule, ho, hf, hok⟩
    · rintro ⟨o, rule, ho, hf, hok⟩
      have ha : activeRule? registry (id, o) = some ⟨id, rule, o⟩ :=
        activeRule?_eq_some_iff.mpr ⟨rfl, hf, hok⟩
      exact ⟨o, ho, Option.isSome_of_eq_some ha⟩
  errors _ _ := mem_errors_iff
  listed_ascending := listings_ascending hb.keyed table
  listed id rule hf :=
    ⟨_, listings_filter hb.keyed hf table, stateIn_enabled_iff, stateIn_disabled_iff,
      stateIn_unconfigured_iff⟩
  known _ := listings_known hb.keyed
  unordered es hes := by
    rw [IdMap.ofList_of_perm hes]
    exact ⟨rfl, rfl⟩

/-- A table with a rule that is active, one that refuses its options, one that is switched off and
one that is not known. -/
def mixedSelection : RuleTable :=
  (((IdMap.empty.set Rules.indentId (.mode "tab")).set Rules.styleDisabledId (.mode "tab")).set
    Rules.tagNameLowercaseId (.switch false)).set ⟨"unknown", by decide⟩ (.switch true)

theorem selection_agrees_mixed :
    Rules.builtinRegistry.Built ∧ SelectionAgrees Rules.builtinRegistry mixedSelection ∧
    (Linter.ofTable Rules.builtinRegistry mixedSelection).activeRules = [Rules.indentId] ∧
    (Linter.ofTable Rules.builtinRegistry mixedSelection).refused =
      [Rules.styleDisabledId, ⟨"unknown", by decide⟩] := by
  have hb : Rules.builtinRegistry.Built := .ofRules Rules.builtin
  exact ⟨hb, selection_agrees hb mixedSelection, by decide +kernel, by decide +kernel⟩

end MarkupLint.Cli

import Mathlib.Data.List.Dedup
import MarkupLint.Proofs.Selection

/-!
# Registrations one after the other

A registry takes in rules one by one, from the empty registry or from that of the built-in rules. It
refuses a rule whose identifier is taken, and then stays as it is. So under each identifier stands
the rule that came first, the built-in rules before all others, and this says everything about the
registry: a table is determined by what is found under each identifier.

Results:
1. `step_eq`, `find?_step`, `find?_run`: what is found after one registration, and after a run of
   them.
2. `find?_ofRules`, `Origin.find?_run`: the rule that came first.
3. `mem_toList_iff`, `toList_ascending`, `size_eq`: the rules of a registry.
4. `run_of_perm`: registrations in another order.
5. `registry_runs`: all of it.
-/

namespace MarkupLint.Lint

/-! ## Definitions -/

/-- The registries from which registrations start. -/
inductive Origin where
  | empty
  | builtin

namespace Origin

/-- The rules that are there before the first registration. -/
def rules : Origin → List Rule
  | empty => []
  | builtin => Rules.builtin

/-- The registry before the first registration. -/
def registry : Origin → Registry
  | empty => {}
  | builtin => Rules.builtinRegistry

end Origin

/-- The rule that comes first under an identifier. -/
def firstRule (rules : List Rule) (id : RuleId) : Option Rule := rules.find? (·.id = id)

namespace Registry

/-- The registry after some registrations. -/
def run (r : Registry) (rules : List Rule) : Registry :=
  rules.foldl (fun r rule => (r.step rule).2) r

/-! ## 1. What is found after registrations -/

variable {r : Registry} {rule : Rule} {rules : List Rule} {id : RuleId}

/-- A registration is refused exactly if the identifier is taken. -/
theorem step_eq (r : Registry) (rule : Rule) :
    (∃ known, r.find? rule.id = some known) ∧
        r.step rule = (.error (.duplicate rule.id.text), r) ∨
      r.find? rule.id = none ∧ (r.step rule).1 = .ok () ∧
        ∀ id, (r.step rule).2.find? id = if id = rule.id then some rule else r.find? id := by
  cases hf : r.find? rule.id with
  | some known =>
    refine Or.inl ⟨⟨known, rfl⟩, ?_⟩
    have hr : r.rules.get? rule.id = some known := hf
    simp only [step, hr]
  | none =>
    have hr : r.rules.get? rule.id = none := hf
    refine Or.inr ⟨rfl, ?_, fun id => ?_⟩
    · simp only [step, hr]
    · simp only [step, hr, find?, IdMap.get?_set]

/-- A registration adds a rule under its identifier if there is none. -/
theorem find?_step (r : Registry) (rule : Rule) (id : RuleId) :
    (r.step rule).2.find? id = (r.find? id).or (firstRule [rule] id) := by
  rcases step_eq r rule with ⟨⟨known, hk⟩, hs⟩ | ⟨hn, -, hs⟩
  · rw [hs]
    by_cases hid : id = rule.id
    · rw [hid, hk]
      rfl
    · simp [firstRule, Ne.symm hid]
  · rw [hs]
    by_cases hid : id = rule.id
    · simp [firstRule, hid, hn]
    · simp [firstRule, hid, Ne.symm hid]

theorem firstRule_append (rules rules' : List Rule) (id : RuleId) :
    firstRule (rules ++ rules') id = (firstRule rules id).or (firstRule rules' id) :=
  List.find?_append

/-- After some registrations, what was there is found, and else the rule that came first. -/
theorem find?_run (r : Registry) (rules : List Rule) (id : RuleId) :
    (r.run rules).find? id = (r.find? id).or (firstRule rules id) := by
  induction rules generalizing r with
  | nil => simp [run, firstRule]
  | cons rule rules ih =>
    have hc : firstRule (rule :: rules) id = (firstRule [rule] id).or (firstRule rules id) :=
      firstRule_append [rule] rules id
    rw [hc, ← Option.or_assoc, ← find?_step]
    exact ih (r.step rule).2

/-! ## 2. The rule that came first -/

theorem firstRule_id (h : firstRule rules id = some rule) : rule.id = id := by
  simpa using List.find?_some h

/-- Among rules with different identifiers, each comes first. -/
theorem firstRule_eq_some_iff (hn : (rules.map (·.id)).Nodup) :
    firstRule rules id = some rule ↔ rule ∈ rules ∧ rule.id = id := by
  refine ⟨fun h => ⟨List.mem_of_find?_eq_some h, firstRule_id h⟩, ?_⟩
  rintro ⟨hm, rfl⟩
  cases hf : firstRule rules rule.id with
  | none => simpa using List.find?_eq_none.mp hf rule hm
  | some first =>
    rw [List.inj_on_of_nodup_map hn (List.mem_of_find?_eq_some hf) hm (firstRule_id hf)]

theorem find?_ofRules (hn : (rules.map (·.id)).Nodup) (id : RuleId) :
    (ofRules rules).find? id = firstRule rules id := by
  cases hf : firstRule rules id with
  | none =>
    cases ho : (ofRules rules).find? id with
    | none => rfl
    | some rule =>
      rw [(firstRule_eq_some_iff hn).mpr (mem_of_find?_ofRules ho)] at hf
      cases hf
  | some rule =>
    obtain ⟨hm, rfl⟩ := (firstRule_eq_some_iff hn).mp hf
    have hin : rule.id ∈ (rules.map fun rule => (rule.id, rule)).map (·.1) := by
      rw [List.map_map]
      exact List.mem_map_of_mem hm
    have hsome : ((ofRules rules).find? rule.id).isSome := IdMap.isSome_foldl_set (Or.inl hin)
    obtain ⟨rule', ho⟩ := Option.isSome_iff_exists.mp hsome
    have hf' := (firstRule_eq_some_iff hn).mpr (mem_of_find?_ofRules ho)
    rw [ho, ← hf, ← hf']

end Registry

theorem Origin.find?_registry (o : Origin) (id : RuleId) :
    o.registry.find? id = firstRule o.rules id := by
  cases o with
  | empty => rfl
  | builtin => exact Registry.find?_ofRules (by decide) id

/-- After some registrations, the rule that came first is found. -/
theorem Origin.find?_run (o : Origin) (rules : List Rule) (id : RuleId) :
    (o.registry.run rules).find? id = firstRule (o.rules ++ rules) id := by
  rw [Registry.find?_run, find?_registry, Registry.firstRule_append]

/-! ## 3. The rules of a registry -/

namespace Registry

variable {r r' : Registry} {rule : Rule} {rules : List Rule} {id : RuleId}

/-- Registries in which the same is found are the same. -/
theorem ext_find? (h : ∀ id, r.find? id = r'.find? id) : r = r' :=
  congrArg Registry.mk (IdMap.ext_get? h)

theorem mem_toList_iff (hk : r.Keyed) : rule ∈ r.toList ↔ r.find? rule.id = some rule := by
  rw [toList, IdMap.values, List.mem_map]
  constructor
  · rintro ⟨⟨id, rule⟩, hm, rfl⟩
    have hf : r.find? id = some rule := IdMap.get?_eq_some_iff.mpr hm
    rw [hk id rule hf]
    exact hf
  · intro hf
    exact ⟨(rule.id, rule), IdMap.get?_eq_some_iff.mp hf, rfl⟩

theorem ids_toList (hk : r.Keyed) : r.toList.map (·.id) = r.rules.ids := by
  rw [toList, IdMap.values, IdMap.ids, List.map_map]
  refine List.map_congr_left ?_
  rintro ⟨id, rule⟩ hm
  exact hk id rule (IdMap.get?_eq_some_iff.mpr hm)

/-- The rules stand in strictly ascending order of identifiers. -/
theorem toList_ascending (hk : r.Keyed) : ByteAscending (r.toList.map (·.id)) := by
  rw [ids_toList hk, ByteAscending, IdMap.ids, List.pairwise_map]
  exact r.rules.ascending.imp RuleId.lt_iff_bytes.mp

/-- There are as many rules as identifiers. -/
theorem size_eq {ids : List RuleId} (h : ∀ id, (∃ rule, r.find? id = some rule) ↔ id ∈ ids) :
    r.size = ids.dedup.length := by
  have hn : r.rules.ids.Nodup := by
    rw [IdMap.ids, List.Nodup, List.pairwise_map]
    refine r.rules.ascending.imp ?_
    intro d e hlt he
    exact RuleId.lt_irrefl _ (he ▸ hlt)
  have hm : ∀ id, id ∈ r.rules.ids ↔ id ∈ ids.dedup := by
    intro id
    rw [List.mem_dedup, ← h id, IdMap.ids, List.mem_map]
    constructor
    · rintro ⟨⟨id, rule⟩, hm, rfl⟩
      exact ⟨rule, IdMap.get?_eq_some_iff.mpr hm⟩
    · rintro ⟨rule, hf⟩
      exact ⟨(id, rule), IdMap.get?_eq_some_iff.mp hf, rfl⟩
  have hl : r.size = r.rules.ids.length := (List.length_map _).symm
  rw [hl]
  exact ((List.perm_ext_iff_of_nodup hn (List.nodup_dedup ids)).mpr hm).length_eq

end Registry

theorem exists_firstRule_iff {rules : List Rule} {id : RuleId} :
    (∃ rule, firstRule rules id = some rule) ↔ id ∈ rules.map (·.id) := by
  rw [← Option.isSome_iff_exists, firstRule, List.find?_isSome, List.mem_map]
  simp

/-! ## 4. Another order -/

/-- Rules with different identifiers can be registered in any order. -/
theorem Registry.run_of_perm {rules rules' : List Rule} (hn : (rules.map (·.id)).Nodup)
    (h : rules'.Perm rules) (r : Registry) : r.run rules' = r.run rules := by
  refine ext_find? fun id => ?_
  have hn' : (rules'.map (·.id)).Nodup := (h.map _).nodup_iff.mpr hn
  have hf : firstRule rules' id = firstRule rules id := by
    refine Option.ext fun rule => ?_
    rw [firstRule_eq_some_iff hn', firstRule_eq_some_iff hn, h.mem_iff]
  rw [find?_run, find?_run, hf]

/-! ## 5. Runs -/

/-- What a registry is after some registrations. -/
structure RegistryRun (o : Origin) (rules : List Rule) (r : Registry) : Prop where
  /-- The next registration is refused exactly if the identifier is taken. -/
  refused : ∀ rule, (r.step rule).1 = .error (.duplicate rule.id.text) ↔
    ∃ known, r.find? rule.id = some known
  /-- No registration is refused for another reason, and none that is refused changes anything. -/
  unchanged : ∀ rule e, (r.step rule).1 = .error e →
    e = .duplicate rule.id.text ∧ (r.step rule).2 = r
  /-- Under each identifier stands the rule that came first, and it has this identifier. -/
  found : ∀ id, r.find? id = firstRule (o.rules ++ rules) id
  keyed : ∀ id rule, r.find? id = some rule → rule.id = id
  /-- The rules that came first are listed, in strictly ascending order of identifiers. -/
  listed : ∀ rule, rule ∈ r.toList ↔ firstRule (o.rules ++ rules) rule.id = some rule
  ascending : ByteAscending (r.toList.map (·.id))
  /-- There are as many rules as identifiers. -/
  size : r.size = ((o.rules ++ rules).map (·.id)).dedup.length
  isEmpty : r.isEmpty = true ↔ r.size = 0
  /-- Rules with different identifiers can be registered in any order. -/
  unordered : (rules.map (·.id)).Nodup → ∀ rules' : List Rule, rules'.Perm rules →
    (o.registry.run rules').toList = r.toList ∧
      ∀ id, (o.registry.run rules').find? id = r.find? id

/-- What a registry is after any registrations, from the empty registry or from that of the built-in
rules. -/
theorem registry_runs (o : Origin) (rules : List Rule) :
    RegistryRun o rules (o.registry.run rules) := by
  have hfound := o.find?_run rules
  have hkeyed : (o.registry.run rules).Keyed := by
    intro id rule hf
    rw [hfound] at hf
    exact Registry.firstRule_id hf
  refine ⟨fun rule => ?_, fun rule e he => ?_, hfound, hkeyed, fun rule => ?_,
    Registry.toList_ascending hkeyed, Registry.size_eq fun id => ?_, beq_iff_eq, ?_⟩
  · rcases (o.registry.run rules).step_eq rule with ⟨hk, hs⟩ | ⟨hn, hs, -⟩
    · simp [hk, hs]
    · simp [hn, hs]
  · rcases (o.registry.run rules).step_eq rule with ⟨-, hs⟩ | ⟨-, hs, -⟩
    · rw [hs] at he ⊢
      exact ⟨(Except.error.inj he).symm, rfl⟩
    · rw [hs] at he
      cases he
  · rw [Registry.mem_toList_iff hkeyed, hfound]
  · rw [hfound, exists_firstRule_iff]
  · intro hn rules' hp
    rw [Registry.run_of_perm hn hp]
    exact ⟨rfl, fun _ => rfl⟩

example : ((Origin.builtin.registry.run
    [{ Rules.styleDisabled with description := "another" }]).find? Rules.styleDisabledId).map
      (·.description) = some "<style> tags cannot be used." := by decide +kernel

end MarkupLint.Lint

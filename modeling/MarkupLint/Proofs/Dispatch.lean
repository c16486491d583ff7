import MarkupLint.Lint.Linter
import MarkupLint.Proofs.Trace

/-!
# What a linter reports

A linter fills a queue of listeners for each kind of event, rule by rule, and its listeners report
through one reporter while the events of a page are fired. Said without queues and without the
reporter, it reports, event by event, what each active rule finds in the event.

Results:
1. `mem_activeRules_iff`, `activeRules_ascending`: the active rules are those that the table
   enables, the registry knows and that accept their options, in ascending order of identifiers.
2. `activated_cases`: a rule is activated with its listeners, or not at all and for a cause.
   `select_queue`, `queue_ofTable`: the queue for a kind holds the listeners of the active rules.
3. `diagnostics_fire`, `diagnostics_page`: what the reporter takes in.
4. `lint_eq`: what a linter reports.
-/

namespace MarkupLint.Lint

open Markup

/-! ## Definitions -/

/-- A rule and the options under which it is active. -/
structure ActiveRule where
  id : RuleId
  rule : Rule
  options : RuleOptions

namespace ActiveRule

/-- The listeners of the rule for events of a kind, in the order in which the rule adds them. -/
def listeners (a : ActiveRule) (k : EventKind) : List Listener :=
  (a.rule.activate a.options).listeners.filter (·.kind = k)

/-- The entries of the rule in the queue for a kind. -/
def subscriptions (a : ActiveRule) (k : EventKind) : List Subscription :=
  (a.listeners k).map (⟨a.rule.ref, ·⟩)

/-- What the rule finds in an event. -/
def findings (a : ActiveRule) (e : Event) : List Diagnostic :=
  (a.listeners e.kind).flatMap (·.hear e a.rule.ref)

/-- The table enables the rule, the registry knows it, and it accepts its options. -/
structure IsSelected (a : ActiveRule) (registry : Registry) (table : RuleTable) : Prop where
  configured : table.get? a.id = some a.options
  enabled : a.options.isEnabled = true
  known : registry.find? a.id = some a.rule
  accepts : (a.rule.activate a.options).outcome = .ok ()

end ActiveRule

/-- The active rule of an entry, if the registry knows it and it accepts its options. -/
def activeRule? (registry : Registry) (entry : RuleId × RuleOptions) : Option ActiveRule :=
  match registry.find? entry.1 with
  | none => none
  | some rule =>
    match (rule.activate entry.2).outcome with
    | .ok _ => some ⟨entry.1, rule, entry.2⟩
    | .error _ => none

/-- Why the rule of an entry cannot be activated, if it cannot. -/
def activationError? (registry : Registry) (entry : RuleId × RuleOptions) :
    Option ActivationError :=
  match registry.find? entry.1 with
  | none => some ⟨entry.1, .notFound entry.1.text⟩
  | some rule =>
    match (rule.activate entry.2).outcome with
    | .ok _ => none
    | .error cause => some ⟨entry.1, cause⟩

def activeRules (registry : Registry) (table : RuleTable) : List ActiveRule :=
  table.enabled.filterMap (activeRule? registry)

/-! ## 1. The active rules -/

variable {registry : Registry} {table : RuleTable}

theorem activeRule?_eq_some_iff {entry : RuleId × RuleOptions} {a : ActiveRule} :
    activeRule? registry entry = some a ↔
      entry = (a.id, a.options) ∧ registry.find? a.id = some a.rule ∧
        (a.rule.activate a.options).outcome = .ok () := by
  obtain ⟨id, options⟩ := entry
  unfold activeRule?
  constructor
  · intro h
    split at h
    · cases h
    · next rule hr =>
      split at h
      · next ho =>
        rw [Option.some.injEq] at h
        subst h
        exact ⟨rfl, hr, ho⟩
      · cases h
  · rintro ⟨he, hr, ho⟩
    cases he
    simp only [hr, ho]

theorem mem_activeRules_iff {a : ActiveRule} :
    a ∈ activeRules registry table ↔ a.IsSelected registry table := by
  rw [activeRules, List.mem_filterMap]
  constructor
  · rintro ⟨entry, hm, ha⟩
    obtain ⟨rfl, hr, ho⟩ := activeRule?_eq_some_iff.mp ha
    obtain ⟨hm, he⟩ := List.mem_filter.mp hm
    exact ⟨IdMap.get?_eq_some_iff.mpr hm, he, hr, ho⟩
  · intro h
    refine ⟨(a.id, a.options), List.mem_filter.mpr ⟨?_, h.enabled⟩, ?_⟩
    · exact IdMap.get?_eq_some_iff.mp h.configured
    · exact activeRule?_eq_some_iff.mpr ⟨rfl, h.known, h.accepts⟩

theorem activeRules_ascending :
    (activeRules registry table).Pairwise fun a b => a.id < b.id := by
  rw [activeRules, List.pairwise_filterMap]
  refine (table.ascending.filter _).imp ?_
  intro x y hlt a ha b hb
  obtain ⟨rfl, _⟩ := activeRule?_eq_some_iff.mp ha
  obtain ⟨rfl, _⟩ := activeRule?_eq_some_iff.mp hb
  exact hlt

/-! ## 2. The queues -/

/-- The rule of an entry is activated with its listeners, or not at all and for a cause. -/
theorem activated_cases (registry : Registry) (d : Dispatcher) (entry : RuleId × RuleOptions) :
    (∃ a d', activeRule? registry entry = some a ∧ activationError? registry entry = none ∧
      a.id = entry.1 ∧ Linter.activated registry d entry.1 entry.2 = (.ok (), d') ∧
      ∀ k, d'.queue k = d.queue k ++ a.subscriptions k) ∨
    ∃ cause, activeRule? registry entry = none ∧
      activationError? registry entry = some ⟨entry.1, cause⟩ ∧
      Linter.activated registry d entry.1 entry.2 = (.error cause, d) := by
  unfold Linter.activated activeRule? activationError?
  cases registry.find? entry.1 with
  | none => exact .inr ⟨_, rfl, rfl, rfl⟩
  | some rule =>
    cases ho : (rule.activate entry.2).outcome with
    | error cause =>
      exact .inr ⟨cause, by simp [ho], by simp [ho], Dispatcher.activate_of_error ho d⟩
    | ok _ =>
      refine .inl ⟨⟨entry.1, rule, entry.2⟩, _, by simp [ho], by simp [ho], rfl,
        Dispatcher.activate_of_ok ho d, fun k => ?_⟩
      exact Dispatcher.queue_subscribeAll d rule.ref (rule.activate entry.2).listeners k

/-- One more entry adds the listeners of its rule if the rule is active, and nothing otherwise. -/
theorem select_queue (l : Linter) (entry : RuleId × RuleOptions) (k : EventKind) :
    (Linter.select registry l entry).dispatcher.queue k =
      l.dispatcher.queue k ++ (activeRule? registry entry).toList.flatMap (·.subscriptions k) := by
  rcases activated_cases registry l.dispatcher entry with
    ⟨a, d, ha, -, -, hd, hq⟩ | ⟨cause, ha, -, hd⟩
  · simp [Linter.select, hd, ha, hq]
  · simp [Linter.select, hd, ha]

theorem foldl_select_queue (entries : List (RuleId × RuleOptions)) (l : Linter) (k : EventKind) :
    (entries.foldl (Linter.select registry) l).dispatcher.queue k =
      l.dispatcher.queue k ++
        (entries.filterMap (activeRule? registry)).flatMap (·.subscriptions k) := by
  induction entries generalizing l with
  | nil => simp
  | cons entry entries ih =>
    rw [List.foldl_cons, ih, select_queue, List.append_assoc, List.filterMap_cons]
    cases activeRule? registry entry with
    | none => rfl
    | some a => simp

/-- The queue for a kind holds the listeners of the active rules for that kind. -/
theorem queue_ofTable (k : EventKind) :
    (Linter.ofTable registry table).dispatcher.queue k =
      (activeRules registry table).flatMap (·.subscriptions k) :=
  foldl_select_queue table.enabled {} k

/-! ## 3. The reporter -/

/-- What each step adds at the end of a list, the steps add one after the other. -/
theorem foldl_view {σ α β : Type} (view : σ → List β) {f : σ → α → σ} {g : α → List β}
    (h : ∀ s x, view (f s x) = view s ++ g x) (s : σ) (xs : List α) :
    view (xs.foldl f s) = view s ++ xs.flatMap g := by
  induction xs generalizing s with
  | nil => simp
  | cons x xs ih => rw [List.foldl_cons, ih, h, List.append_assoc, List.flatMap_cons]

/-- One event adds what the listeners in the queue for its kind find. -/
theorem diagnostics_fire (d : Dispatcher) (e : Event) (r : Reporter) :
    (d.fire e r).diagnostics =
      r.diagnostics ++ (d.queue e.kind).flatMap fun s => s.listener.hear e s.rule :=
  foldl_view Reporter.diagnostics
    (fun r s => Reporter.diagnostics_reportAll r (s.listener.hear e s.rule)) r _

/-- A page adds what its events add, one after the other. -/
theorem diagnostics_page (d : Dispatcher) (text : List Char) (r : Reporter) :
    (d.page text r).diagnostics = r.diagnostics ++ (pageEvents text).flatMap fun e =>
      (d.queue e.kind).flatMap fun s => s.listener.hear e s.rule :=
  foldl_view Reporter.diagnostics (fun r e => diagnostics_fire d e r) r _

/-! ## 4. The linter -/

/-- The queues of a linter hear in an event what its active rules find in it. -/
theorem queue_hear (e : Event) :
    (((Linter.ofTable registry table).dispatcher.queue e.kind).flatMap
      fun s => s.listener.hear e s.rule) =
        (activeRules registry table).flatMap (·.findings e) := by
  have h : ∀ a : ActiveRule,
      ((a.subscriptions e.kind).flatMap fun s => s.listener.hear e s.rule) = a.findings e := by
    intro a
    rw [ActiveRule.subscriptions, List.flatMap_map]
    rfl
  rw [queue_ofTable, List.flatMap_assoc]
  simp only [h]

/-- A linter reports what the active rules find, for each event of the page in order, and for each
event rule by rule in ascending order of identifiers. -/
theorem lint_eq (registry : Registry) (table : RuleTable) (text : List Char) :
    (∀ a, a ∈ activeRules registry table ↔ a.IsSelected registry table) ∧
    ((activeRules registry table).Pairwise fun a b => a.id < b.id) ∧
    (Linter.ofTable registry table).lint text =
      (⟨.start, [], ⟨1, 1⟩, none⟩ ::
        ((tokenize text).1 ++ [⟨.finish, [], ({} : Position).advance text, none⟩])).flatMap
          fun e => (activeRules registry table).flatMap (·.findings e) := by
  refine ⟨fun _ => mem_activeRules_iff, activeRules_ascending, ?_⟩
  have hp : pageEvents text = ⟨.start, [], ⟨1, 1⟩, none⟩ ::
      ((tokenize text).1 ++ [⟨.finish, [], ({} : Position).advance text, none⟩]) := by
    rw [pageEvents, tokenize_position]
  rw [Linter.lint, diagnostics_page, hp, Reporter.diagnostics_empty, List.nil_append]
  simp only [queue_hear]

end MarkupLint.Lint

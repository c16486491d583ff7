import Mathlib
import MarkupLint.Lint.Session
import MarkupLint.Proofs.Dispatch
import MarkupLint.Rules.Builtin

/-!
# Sessions with failures

In a session rules are activated, pages read, events fired, findings reported and taken out, in any
order. An activation that fails leaves no trace: without it, every other step answers the same and
leaves the same session. The listeners are those of the activations that succeed, and the findings
grow at their end until they are taken out.

Results:
1. `step_of_fails`, `refused_iff_fails`: the failing steps are those that are refused, and they
   change nothing.
2. `run_filter`: a run without its failing steps.
3. `step_queue`, `queue_last`, `listenerCount_last`: the listeners after a run.
4. `step_grows`, `last_grows`: the findings.
5. `session_ignores_failures`: all of it, from the empty session.
-/

namespace MarkupLint.Lint

open Markup

/-! ## Definitions -/

namespace Step

/-- The step activates a rule that does not accept its options. -/
def fails : Step → Bool
  | activate rule options =>
    match (rule.activate options).outcome with
    | .ok _ => false
    | .error _ => true
  | _ => false

/-- The listeners that an activation adds if it succeeds, in the name of its rule. -/
def offers : Step → List Subscription
  | activate rule options => (rule.activate options).listeners.map (⟨rule.ref, ·⟩)
  | _ => []

def isActivation : Step → Bool
  | activate _ _ => true
  | _ => false

end Step

/-- One step of a run, between the sessions before and after it. -/
structure Moment where
  before : Session
  step : Step
  reply : Reply
  after : Session

/-- The findings that are there after the step, behind those that were there before it. -/
def Moment.added (m : Moment) : List Diagnostic :=
  m.after.findings.drop m.before.findings.length

namespace Session

/-- The moments of a run. -/
def run (s : Session) : List Step → List Moment
  | [] => []
  | x :: xs => ⟨s, x, (s.step x).1, (s.step x).2⟩ :: (s.step x).2.run xs

/-- The session after all steps. -/
def last (s : Session) (steps : List Step) : Session := steps.foldl (fun s x => (s.step x).2) s

/-! ## 1. Failing steps -/

theorem step_of_fails {x : Step} (h : x.fails = true) (s : Session) : (s.step x).2 = s := by
  cases x with
  | activate rule options =>
    cases ho : (rule.activate options).outcome with
    | ok _ => simp [Step.fails, ho] at h
    | error e => simp [step, Dispatcher.activate_of_error ho]
  | read page => cases h
  | fire event => cases h
  | report finding => cases h
  | take => cases h

theorem refused_iff_fails (s : Session) (x : Step) :
    (∃ e, (s.step x).1 = .refused e) ↔ x.fails = true := by
  cases x with
  | activate rule options =>
    cases ho : (rule.activate options).outcome with
    | ok _ => simp [Step.fails, step, Dispatcher.activate_of_ok ho, ho]
    | error e => simp [Step.fails, step, Dispatcher.activate_of_error ho, ho]
  | read page => simp [Step.fails, step]
  | fire event => simp [Step.fails, step]
  | report finding => simp [Step.fails, step]
  | take => simp [Step.fails, step]

/-! ## 2. Runs -/

/-- Without its failing steps a run has the same moments, except for those of these steps. -/
theorem run_filter (s : Session) (steps : List Step) :
    s.run (steps.filter fun x => !x.fails) = (s.run steps).filter fun m => !m.step.fails := by
  induction steps generalizing s with
  | nil => rfl
  | cons x xs ih =>
    rw [run]
    cases hx : x.fails with
    | false => simp [hx, run, ih]
    | true => simp [hx, ih, step_of_fails hx]

/-- What holds of each step holds of all moments of a run. -/
theorem forall_run {P : Moment → Prop} (h : ∀ s x, P ⟨s, x, (s.step x).1, (s.step x).2⟩)
    (s : Session) (steps : List Step) : ∀ m ∈ s.run steps, P m := by
  induction steps generalizing s with
  | nil =>
    intro m hm
    cases hm
  | cons x xs ih =>
    intro m hm
    rcases List.mem_cons.mp hm with rfl | hm
    · exact h s x
    · exact ih _ m hm

/-! ## 3. The listeners -/

/-- A step adds what it offers, each listener to the queue for its kind, unless it fails. -/
theorem step_queue (s : Session) (x : Step) (k : EventKind) :
    (s.step x).2.dispatcher.queue k =
      s.dispatcher.queue k ++ if x.fails then [] else x.offers.filter (·.listener.kind = k) := by
  cases hx : x.fails with
  | true => simp [step_of_fails hx]
  | false =>
    cases x with
    | activate rule options =>
      cases ho : (rule.activate options).outcome with
      | error e => simp [Step.fails, ho] at hx
      | ok _ =>
        simp only [step, Dispatcher.activate_of_ok ho, Dispatcher.queue_subscribeAll,
          Step.offers, List.filter_map]
        rfl
    | read page => simp [step, Step.offers]
    | fire event => simp [step, Step.offers]
    | report finding => simp [step, Step.offers]
    | take => simp [step, Step.offers]

theorem step_dispatcher {x : Step} (h : x.isActivation = false) (s : Session) :
    (s.step x).2.dispatcher = s.dispatcher := by
  cases x with
  | activate rule options => cases h
  | read page => rfl
  | fire event => rfl
  | report finding => rfl
  | take => rfl

/-- The queue for a kind after a run holds what the successful activations offer for it. -/
theorem queue_last (s : Session) (steps : List Step) (k : EventKind) :
    (s.last steps).dispatcher.queue k = s.dispatcher.queue k ++
      ((steps.filter fun x => !x.fails).flatMap Step.offers).filter (·.listener.kind = k) := by
  induction steps generalizing s with
  | nil => simp [last]
  | cons x xs ih =>
    have hl : s.last (x :: xs) = (s.step x).2.last xs := rfl
    rw [hl, ih, step_queue, List.append_assoc]
    cases hx : x.fails with
    | true => simp [hx]
    | false => simp [hx]

/-- Each listener has one of the kinds. -/
theorem length_by_kind (subs : List Subscription) :
    (EventKind.all.flatMap fun k => subs.filter (·.listener.kind = k)).length = subs.length := by
  rw [List.length_flatMap]
  induction subs with
  | nil => rfl
  | cons sub subs ih =>
    -- the kinds are all there and different, so the new entry goes to one of the queues
    have hone : (EventKind.all.map fun k => if sub.listener.kind = k then 1 else 0).sum = 1 := by
      have hcount := List.count_eq_one_of_mem EventKind.nodup_all
        (EventKind.mem_all sub.listener.kind)
      rw [List.count_eq_length_filter] at hcount
      simpa [List.sum_map_ite, eq_comm, beq_eq_decide] using hcount
    have hlength : ∀ k, ((sub :: subs).filter (·.listener.kind = k)).length =
        (subs.filter (·.listener.kind = k)).length + if sub.listener.kind = k then 1 else 0 := by
      intro k
      rw [List.filter_cons]
      by_cases hk : sub.listener.kind = k <;> simp [hk]
    simp only [hlength, List.sum_map_add, ih, hone, List.length_cons]

/-- The number of listeners after a run is the number of those that its successful activations
offer. -/
theorem listenerCount_last (steps : List Step) :
    (({} : Session).last steps).dispatcher.listenerCount =
      ((steps.filter fun x => !x.fails).map (·.offers.length)).sum := by
  have hq : (({} : Session).last steps).dispatcher.queue = fun k =>
      ((steps.filter fun x => !x.fails).flatMap Step.offers).filter (·.listener.kind = k) :=
    funext fun k => queue_last {} steps k
  rw [Dispatcher.listenerCount, hq, length_by_kind, List.length_flatMap]

/-! ## 4. The findings -/

/-- A step that does not take the findings out adds some at their end. -/
theorem step_grows {x : Step} (h : x ≠ .take) (s : Session) :
    s.findings <+: (s.step x).2.findings := by
  cases x with
  | activate rule options =>
    have hr : (s.step (.activate rule options)).2.reporter = s.reporter := by
      rw [step]
      split <;> rfl
    exact ⟨[], by rw [List.append_nil, findings, findings, hr]⟩
  | read page => exact ⟨_, (diagnostics_page s.dispatcher page s.reporter).symm⟩
  | fire event => exact ⟨_, (diagnostics_fire s.dispatcher event s.reporter).symm⟩
  | report finding => exact ⟨_, (Reporter.diagnostics_report s.reporter finding).symm⟩
  | take => exact absurd rfl h

/-- Until the findings are taken out, those that are there stay. -/
theorem last_grows {steps : List Step} (h : ∀ x ∈ steps, x ≠ .take) (s : Session) :
    s.findings <+: (s.last steps).findings := by
  induction steps generalizing s with
  | nil => exact List.prefix_rfl
  | cons x xs ih =>
    obtain ⟨hx, hxs⟩ := List.forall_mem_cons.mp h
    exact (step_grows hx s).trans (ih hxs _)

theorem last_append (s : Session) (xs ys : List Step) :
    s.last (xs ++ ys) = (s.last xs).last ys := List.foldl_append

/-! ## 5. All of it -/

/-- Failed activations are invisible. In a run from the empty session they are the steps that are
refused; all other steps are in the same moments without them. The listeners are those that the
successful activations offer, and only activations change them. The findings grow at their end,
unless they are taken out. -/
theorem session_ignores_failures (steps : List Step) :
    ({} : Session).run (steps.filter fun x => !x.fails) =
      (({} : Session).run steps).filter (fun m => !m.step.fails) ∧
    (∀ m ∈ ({} : Session).run steps,
      ((∃ e, m.reply = .refused e) ↔ m.step.fails = true) ∧
      (m.step.fails = true → m.after = m.before) ∧
      (m.step.isActivation = false → m.after.dispatcher = m.before.dispatcher) ∧
      (m.step ≠ .take → m.after.findings = m.before.findings ++ m.added)) ∧
    (({} : Session).last steps).dispatcher.listenerCount =
      ((steps.filter fun x => !x.fails).map (·.offers.length)).sum ∧
    ∀ more, (∀ x ∈ more, x ≠ .take) →
      (({} : Session).last steps).findings <+: (({} : Session).last (steps ++ more)).findings := by
  refine ⟨run_filter {} steps, forall_run (fun s x => ?_) {} steps, listenerCount_last steps, ?_⟩
  · refine ⟨refused_iff_fails s x, fun hx => step_of_fails hx s, fun hx => step_dispatcher hx s,
      fun hx => ?_⟩
    exact (List.prefix_iff_eq_append.mp (step_grows hx s)).symm
  · intro more hmore
    rw [last_append]
    exact last_grows hmore _

/-- A rule that adds its listener before it looks at its options. -/
def eagerRule : Rule :=
  { Rules.styleDisabled with
    activate := fun options =>
      { listeners := [Rules.styleListener]
        outcome := options.expectSwitch Rules.styleDisabledId } }

/-- The listener of an activation that fails half-way hears nothing. -/
theorem session_ignores_failures_halfway :
    let opening : Event := ⟨.tagStart, "<style>".toList, ⟨1, 1⟩, some Rules.styleName⟩
    let failing : Step := .activate eagerRule (.mode "tab")
    let accepted : Step := .activate eagerRule (.switch true)
    failing.fails = true ∧
    ({} : Session).run [accepted, .fire opening] =
      (({} : Session).run [failing, accepted, .fire opening]).filter (fun m => !m.step.fails) ∧
    (({} : Session).last [failing, accepted, .fire opening]).dispatcher.listenerCount = 1 ∧
    (({} : Session).last [failing, accepted, .fire opening]).findings.length = 1 := by
  intro opening failing accepted
  obtain ⟨hrun, _, hcount, _⟩ := session_ignores_failures [failing, accepted, .fire opening]
  exact ⟨rfl, hrun, hcount, rfl⟩

end Session

end MarkupLint.Lint

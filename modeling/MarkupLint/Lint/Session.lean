import MarkupLint.Lint.Rule
import MarkupLint.Markup.Tokenizer

/-!
# Dispatch of events

A dispatcher keeps, for each kind of event, the listeners of the activated rules in the order of
their activation. A rule that refuses its options leaves no listener behind. Each listener reports
all that it finds in an event before the next listener hears it. A session is a dispatcher together
with a reporter for what it finds: rules may be activated between pages, and the findings may be
taken out at any time.
-/

namespace MarkupLint.Lint

open Markup

/-- A listener together with the rule that it speaks for. -/
structure Subscription where
  rule : RuleRef
  listener : Listener

/-- Reports what a listener finds in an event. -/
def Subscription.hear (s : Subscription) (e : Event) (reporter : Reporter) : Reporter :=
  reporter.reportAll (s.listener.hear e s.rule)

/-- The listeners of the activated rules. -/
structure Dispatcher where
  queue : EventKind → List Subscription := fun _ => []

namespace Dispatcher

/-- Adds a subscription at the end of the queue for its kind. -/
def subscribe (d : Dispatcher) (s : Subscription) : Dispatcher :=
  ⟨fun k => if k = s.listener.kind then d.queue k ++ [s] else d.queue k⟩

/-- Adds the listeners of a rule, if the rule accepts the options. The dispatcher is the one that is
left, with an error too. -/
def activate (d : Dispatcher) (rule : Rule) (options : RuleOptions) :
    Except RuleError Unit × Dispatcher :=
  let activation := rule.activate options
  match activation.outcome with
  | .ok () => (.ok (), activation.listeners.foldl (fun d l => d.subscribe ⟨rule.ref, l⟩) d)
  | .error e => (.error e, d)

def listenerCount (d : Dispatcher) : Nat := (EventKind.all.flatMap d.queue).length

def fire (d : Dispatcher) (e : Event) (reporter : Reporter) : Reporter :=
  (d.queue e.kind).foldl (fun reporter s => s.hear e reporter) reporter

def page (d : Dispatcher) (text : List Char) (reporter : Reporter) : Reporter :=
  (pageEvents text).foldl (fun reporter e => d.fire e reporter) reporter

/-- The queue for a kind after the listeners of a rule have been added. -/
theorem queue_subscribeAll (d : Dispatcher) (rule : RuleRef) (ls : List Listener) (k : EventKind) :
    (ls.foldl (fun d l => d.subscribe ⟨rule, l⟩) d).queue k =
      d.queue k ++ (ls.filter (·.kind = k)).map (⟨rule, ·⟩) := by
  induction ls generalizing d with
  | nil => simp
  | cons l ls ih =>
    rw [List.foldl_cons, ih]
    by_cases h : k = l.kind
    · simp [subscribe, h]
    · simp [subscribe, h, Ne.symm h]

section

variable {rule : Rule} {options : RuleOptions}

theorem activate_of_ok (h : (rule.activate options).outcome = .ok ()) (d : Dispatcher) :
    d.activate rule options = (.ok (),
      (rule.activate options).listeners.foldl (fun d l => d.subscribe ⟨rule.ref, l⟩) d) := by
  simp only [activate, h]

theorem activate_of_error {e : RuleError} (h : (rule.activate options).outcome = .error e)
    (d : Dispatcher) : d.activate rule options = (.error e, d) := by
  simp only [activate, h]

end

end Dispatcher

/-! ## Sessions -/

/-- A dispatcher and the reporter of its findings. -/
structure Session where
  dispatcher : Dispatcher := {}
  reporter : Reporter := {}

/-- What can be asked of a session. -/
inductive Step where
  | activate (rule : Rule) (options : RuleOptions)
  | read (page : List Char)
  | fire (event : Event)
  | report (finding : Diagnostic)
  | take

/-- What a session answers to a step. -/
inductive Reply where
  | done
  | refused (error : RuleError)
  | taken (findings : List Diagnostic)

namespace Session

/-- The findings reported so far, the oldest first. -/
def findings (s : Session) : List Diagnostic := s.reporter.diagnostics

def step (s : Session) : Step → Reply × Session
  | .activate rule options =>
    match s.dispatcher.activate rule options with
    | (.ok (), d) => (.done, { s with dispatcher := d })
    | (.error e, d) => (.refused e, { s with dispatcher := d })
  | .read page => (.done, { s with reporter := s.dispatcher.page page s.reporter })
  | .fire event => (.done, { s with reporter := s.dispatcher.fire event s.reporter })
  | .report finding => (.done, { s with reporter := s.reporter.report finding })
  | .take => (.taken s.findings, { s with reporter := {} })

end Session

end MarkupLint.Lint

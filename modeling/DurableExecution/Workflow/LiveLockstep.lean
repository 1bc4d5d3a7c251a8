import DurableExecution.Workflow.LiveSession

/-
This file compares a live session with a replay of the whole history. The replay follows the
session call by call; a wait that it queues for a later place is a waiter of the session.
-/

namespace DurableExecution.Workflow.Live

open EventLoop

/-- What an event settles a waiter with. -/
def Waiter.outcome : Waiter → WorkflowEvent → Option (Except JsValue JsValue)
  | .step stepId stepType => stepOutcome stepId stepType
  | .timer timerId => timerOutcome timerId
  | .signal signalName _ => signalOutcome signalName

/-- How many outcomes belong to others. -/
def Waiter.skip : Waiter → Nat
  | .signal _ index => index
  | _ => 0

/-- Where a history settles a waiter, and with what. -/
def Waiter.placeIn (waiter : Waiter) (history : List WorkflowEvent) : Option (Nat × Except JsValue JsValue) :=
  nthOutcome waiter.outcome waiter.skip 0 history

/-- The decision that is compared, or an earlier one whose commands are `emitted`. The session's clock
was read `reads` times before the decision that is compared. -/
inductive Goal where
  | earlier (emitted : List WorkflowCommand)
  | latest (reads : Nat)

/-- The history goes on with the commands that a session emitted, as it recorded them. -/
structure Recorded (emitted : List WorkflowCommand) (rest : List WorkflowEvent) : Prop where
  commands : ∀ (position : Nat) (shape : CommandShape),
    (recordedCommands (emitted.map commandToEvent))[position]? = some shape →
      ∃ recorded, (recordedCommands rest)[position]? = some recorded ∧ sameCommand recorded shape = true
  times : recordedTimes (emitted.map commandToEvent) <+: recordedTimes rest

/-- A history as runs record it: it holds outcomes only of what it records, and one for a step. -/
structure Orderly (history : List WorkflowEvent) : Prop where
  justified : Justified history
  once : ∀ stepId stepType, (history.filterMap (stepOutcome stepId stepType)).length ≤ 1

/-- Such a history that a session supports. -/
structure Supported (history : List WorkflowEvent) : Prop extends Orderly history where
  events : ∀ event ∈ history, isSupportedEvent event = true

/-- The history of the replay goes on with `rest` after what the session has indexed. -/
structure Prolonged (long : Replay) (options : DecisionLoopOptions) (history : List WorkflowEvent) (goal : Goal)
    (rest : List WorkflowEvent) : Prop where
  whole : long.history = history ++ rest
  supported : Supported long.history
  random : long.options.random = options.random
  goal : match goal with
    | .earlier emitted => Recorded emitted rest
    | .latest reads => rest = [] ∧ ∀ count, long.options.clock count = options.clock (reads + count)

/-- The ids of issued commands count the calls. -/
def Numbered (steps timers : Nat) : CommandShape → Prop
  | .step id .. => ∃ number ≤ steps, id = "step-" ++ toString number
  | .timer id _ => ∃ number ≤ timers, id = "timer-" ++ toString number
  | _ => True

/-- What both have discovered: the replay finds the commands of an earlier decision in its history. -/
def Emits {H : Type} (long : Replay) (history : List WorkflowEvent) (live : LiveState H) (replay : ReplayState H) : Goal → Prop
  | .earlier _ => replay.newCommands = [] ∧ replay.clockReads = 0 ∧
      recordedCommands (live.commands.map commandToEvent) = live.matcher.issued.drop (recordedCommands history).length ∧
      (recordedTimes (live.commands.map commandToEvent)).length = live.timeCalls - (recordedTimes history).length
  | .latest reads => replay.newCommands = live.commands ∧ live.clockReads = reads + replay.clockReads ∧
      live.triggeredAt = long.options.triggeredAt

/-- The states of a session and of a replay after the same calls, when `delivered` events have been fed. -/
structure Follows {H : Type} (long : Replay) (history : List WorkflowEvent) (goal : Goal) (delivered : Nat)
    (live : LiveState H) (replay : ReplayState H) : Prop where
  steps : replay.stepSequence = live.stepSequence
  timers : replay.timerSequence = live.timerSequence
  consumed : replay.signalSequences = live.signalConsumption
  timeCalls : replay.timeCalls = live.timeCalls
  draws : replay.draws = live.draws
  settled : replay.settled = live.settled
  continuation : replay.continuation = none
  seen : live.history = history
  times : live.recordedTimes = recordedTimes history
  indexed : live.matcher.recorded = recordedCommands history
  recorded : replay.matcher.recorded = recordedCommands long.history
  issued : replay.matcher.issued = live.matcher.issued
  numbered : ∀ shape ∈ live.matcher.issued, Numbered live.stepSequence live.timerSequence shape
  emits : Emits long history live replay goal
  waiting : replay.deliveries = live.waiters.filterMap fun entry =>
    (entry.1.placeIn long.history).map fun place => (place.1, entry.2, place.2)
  unresolved : ∀ entry ∈ live.waiters, entry.1.placeIn (long.history.take delivered) = none
  known : ∀ waiter, live.tryResolve waiter = ((long.history.take delivered).filterMap waiter.outcome)[waiter.skip]?

/-- A state of a session after which nothing is claimed: it met something that it does not support, met
a mismatch, or no longer leads to the commands that were recorded. -/
def LiveState.Lost {H : Type} (goal : Goal) (live : LiveState H) : Prop :=
  live.unsupported = true ∨ ¬ live.matcher.Matched ∨ match goal with
    | .earlier emitted => ¬ live.commands <+: emitted ∨ live.unrepresentableTimers ≠ []
    | .latest _ => False

/-- The promises of a session and of a replay have the same owners and states; the tags do not matter, since
a session refuses the calls that read them. -/
def pairing (H : Type) (hosts : LiveState H → ReplayState H → Prop) (goal : Goal) :
    Comparison WaitTag (LiveState H) (ReplayState H) where
  tags _ _ := True
  frozen _ := False
  hosts := hosts
  lost := LiveState.Lost goal

/-- While the code runs, both have been fed up to the same place. -/
def alongside (H : Type) (long : Replay) (history : List WorkflowEvent) (goal : Goal) (delivered : Nat) :
    Comparison WaitTag (LiveState H) (ReplayState H) :=
  pairing H (fun live replay => Follows long history goal delivered live replay ∧ replay.fedUpTo + 1 = delivered) goal

/-- In between, the session may have looked at events that nobody waits for. -/
def beside (H : Type) (long : Replay) (history : List WorkflowEvent) (goal : Goal) (delivered : Nat) :
    Comparison WaitTag (LiveState H) (ReplayState H) :=
  pairing H (fun live replay => Follows long history goal delivered live replay ∧ replay.fedUpTo < delivered) goal

section Growth

variable {H : Type}

/-- What a call leaves of a state. -/
structure LiveState.Grows (before after : LiveState H) : Prop where
  unsupported : before.unsupported = true → after.unsupported = true
  started : before.started = true → after.started = true
  seen : after.history = before.history
  recorded : after.matcher.recorded = before.matcher.recorded
  issued : before.matcher.issued <+: after.matcher.issued
  commands : before.commands <+: after.commands
  unrepresentable : before.unrepresentableTimers <+: after.unrepresentableTimers

theorem LiveState.Grows.refl (state : LiveState H) : state.Grows state :=
  ⟨id, id, rfl, rfl, List.prefix_rfl, List.prefix_rfl, List.prefix_rfl⟩

theorem LiveState.Grows.into {first second : LiveState H} {after : LiveWorld H} {Answer : Type}
    {called : LiveWorld H × Answer} {answer : Answer} (one : first.Grows second) (reached : called.1.host = second)
    (same : called = (after, answer)) : first.Grows after.host := by
  subst same
  exact reached ▸ one

theorem LiveState.Grows.trans {first second third : LiveState H} (one : first.Grows second) (two : second.Grows third) :
    first.Grows third where
  unsupported := two.unsupported ∘ one.unsupported
  started := two.started ∘ one.started
  seen := two.seen.trans one.seen
  recorded := two.recorded.trans one.recorded
  issued := one.issued.trans two.issued
  commands := one.commands.trans two.commands
  unrepresentable := one.unrepresentable.trans two.unrepresentable

theorem LiveState.Grows.lost {before after : LiveState H} {goal : Goal} (grows : before.Grows after)
    (lost : before.Lost goal) : after.Lost goal := by
  rcases lost with unsupported | mismatched | strayed
  · exact .inl (grows.unsupported unsupported)
  · refine .inr (.inl fun matched => mismatched fun position recorded issued expected found => ?_)
    obtain ⟨later, all⟩ := grows.issued
    apply matched position recorded issued (grows.recorded ▸ expected)
    rw [← all, List.getElem?_append_left (List.getElem?_eq_some_iff.mp found).1]
    exact found
  · cases goal with
    | latest => exact strayed.elim
    | earlier emitted =>
      refine .inr (.inr (strayed.imp (fun strays leads => strays (grows.commands.trans leads)) fun some none => some ?_))
      exact List.prefix_nil.mp (none ▸ grows.unrepresentable)

theorem pendingPromise_grows (waiter : Waiter) (world : LiveWorld H) : world.host.Grows (pendingPromise waiter world).1.host := by
  unfold pendingPromise
  split
  · exact .refl _
  · exact ⟨id, id, rfl, rfl, List.prefix_rfl, List.prefix_rfl, List.prefix_rfl⟩

theorem issue_grows (shape : CommandShape) (world : LiveWorld H) : world.host.Grows (issue shape world).1.host := by
  refine ⟨id, id, rfl, CommandMatcher.issue_recorded _ shape false, ?_, List.prefix_rfl, List.prefix_rfl⟩
  exact ⟨[shape], (CommandMatcher.issue_issued _ shape).symm⟩

theorem pushCommand_grows (command : WorkflowCommand) (world : LiveWorld H) : world.host.Grows (pushCommand command world).host :=
  ⟨id, id, rfl, rfl, List.prefix_rfl, List.prefix_append _ _, List.prefix_rfl⟩

/-- The next call of a step has been counted. -/
def stepCounted (stepType : String) (input : JsValue) (world : LiveWorld H) : LiveWorld H × Except JsValue Bool :=
  issue (.step ("step-" ++ toString (world.host.stepSequence + 1)) stepType input)
    (alter (fun state => { state with stepSequence := state.stepSequence + 1 }) world)

/-- The next timer has been counted. -/
def timerCounted (durationMs : JsNumber) (world : LiveWorld H) : LiveWorld H × Except JsValue Bool :=
  issue (.timer ("timer-" ++ toString (world.host.timerSequence + 1)) (some durationMs))
    (alter (fun state => { state with timerSequence := state.timerSequence + 1 }) world)

theorem stepCounted_grows (stepType : String) (input : JsValue) (world : LiveWorld H) :
    world.host.Grows (stepCounted stepType input world).1.host := by
  refine .trans ?_ (issue_grows _ _)
  exact ⟨id, id, rfl, rfl, List.prefix_rfl, List.prefix_rfl, List.prefix_rfl⟩

theorem timerCounted_grows (durationMs : JsNumber) (world : LiveWorld H) : world.host.Grows (timerCounted durationMs world).1.host := by
  refine .trans ?_ (issue_grows _ _)
  exact ⟨id, id, rfl, rfl, List.prefix_rfl, List.prefix_rfl, List.prefix_rfl⟩

theorem step_grows (stepType : String) (input : JsValue) (world : LiveWorld H) :
    (stepCounted stepType input world).1.host.Grows (step stepType input world).1.host := by
  unfold step
  dsimp only
  have counted := LiveState.Grows.refl (stepCounted stepType input world).1.host
  split
  · next issued mismatch answer => exact counted.into rfl answer
  · next issued recorded answer =>
      refine ((counted.into rfl answer).trans ?_).trans (pendingPromise_grows _ _)
      split
      · exact .refl _
      · exact pushCommand_grows _ _

theorem sleep_grows (options : DecisionLoopOptions) (durationMs : JsNumber) (duration : Rat) (world : LiveWorld H)
    (valid : durationMs.sleepMs = some duration) :
    (timerCounted durationMs world).1.host.Grows (sleep options durationMs world).1.host := by
  unfold sleep
  rw [valid]
  dsimp only
  have counted := LiveState.Grows.refl (timerCounted durationMs world).1.host
  split
  · next issued mismatch answer => exact counted.into rfl answer
  · next issued answer => exact (counted.into rfl answer).trans (pendingPromise_grows _ _)
  · next issued answer =>
      have reached := counted.into rfl answer
      split
      · exact reached.trans ⟨id, id, rfl, rfl, List.prefix_rfl, List.prefix_rfl, List.prefix_append _ _⟩
      · refine reached.trans (.trans ?_ (pendingPromise_grows _ _))
        exact ⟨id, id, rfl, rfl, List.prefix_rfl, List.prefix_append _ _, List.prefix_rfl⟩

theorem waitForSignal_grows (signalName : String) (world : LiveWorld H) : world.host.Grows (waitForSignal signalName world).1.host := by
  unfold waitForSignal
  have begun : world.host.Grows (alter (fun state => { state with
      signalConsumption := Function.update state.signalConsumption signalName
        (world.host.signalConsumption signalName + 1) }) world).host :=
    ⟨id, id, rfl, rfl, List.prefix_rfl, List.prefix_rfl, List.prefix_rfl⟩
  exact begun.trans (pendingPromise_grows _ _)

theorem now_grows (options : DecisionLoopOptions) (world : LiveWorld H) : world.host.Grows (now options world).1.host := by
  unfold now
  dsimp only
  split
  · exact ⟨id, id, rfl, rfl, List.prefix_rfl, List.prefix_rfl, List.prefix_rfl⟩
  · split
    · exact ⟨id, id, rfl, rfl, List.prefix_rfl, List.prefix_append _ _, List.prefix_rfl⟩
    · exact ⟨id, id, rfl, rfl, List.prefix_rfl, List.prefix_append _ _, List.prefix_rfl⟩

theorem flag_grows (world : LiveWorld H) : world.host.Grows (flag world).host :=
  ⟨fun _ => rfl, id, rfl, rfl, List.prefix_rfl, List.prefix_rfl, List.prefix_rfl⟩

/-- No call takes anything back. -/
theorem contextCall_grows (options : DecisionLoopOptions) (operation : Operation H) (world : LiveWorld H) :
    world.host.Grows (contextCall options operation world).1.host := by
  unfold contextCall
  split
  · exact (stepCounted_grows _ _ _).trans (step_grows _ _ _)
  · next durationMs _ =>
      cases valid : durationMs.sleepMs with
      | none =>
        rw [sleep, valid]
        exact .refl _
      | some duration => exact (timerCounted_grows _ _).trans (sleep_grows _ _ duration _ valid)
  · exact waitForSignal_grows _ _
  · exact ⟨id, id, rfl, rfl, List.prefix_rfl, List.prefix_rfl, List.prefix_rfl⟩
  · exact now_grows _ _
  · exact ⟨id, id, rfl, rfl, List.prefix_rfl, List.prefix_rfl, List.prefix_rfl⟩
  · exact ⟨id, id, rfl, rfl, List.prefix_rfl, List.prefix_rfl, List.prefix_rfl⟩
  all_goals exact flag_grows world

theorem resumption_grows (resume : Resumption H) (outcome : Except JsValue JsValue) (world : LiveWorld H) :
    world.host.Grows (resumption resume outcome world).host := by
  cases resume with
  | handlerSettled => exact ⟨id, id, rfl, rfl, List.prefix_rfl, List.prefix_rfl, List.prefix_rfl⟩
  | _ => exact flag_grows world

/-- What every call keeps is kept while the code runs. -/
theorem live_keeps (options : DecisionLoopOptions) {holds : LiveState H → Prop}
    (kept : ∀ before after, before.Grows after → holds before → holds after) :
    (liveHost H options).Preserves fun world => holds world.host where
  frame _ _ same before := same.host ▸ before
  call operation _ _ world _ before := kept _ _ (contextCall_grows options operation world) before
  resume resume outcome _ world _ before := kept _ _ (resumption_grows resume outcome world) before

end Growth

end DurableExecution.Workflow.Live

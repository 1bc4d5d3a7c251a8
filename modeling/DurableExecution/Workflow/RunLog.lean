import DurableExecution.Workflow.Continuation

/-
This file models how the log of a run grows: decisions append the events of their
commands, and the outside world appends the outcomes of what they started.
-/

namespace DurableExecution.Workflow

open EventLoop

/-- What all decisions of one run share. -/
structure RunConfiguration (H : Type) where
  handler : WorkflowHandler H
  input : JsValue
  random : SeededRandomSource
  childLimit : Nat

/-- The replay has the random source and the limits of the run. -/
structure RunConfiguration.Decides {H : Type} (run : RunConfiguration H) (replay : Replay) : Prop where
  random : replay.options.random = run.random
  childLimit : replay.options.childLimit = run.childLimit

/-- An outcome names a command that the log records. -/
def WorkflowEvent.JustifiedBy (log : List WorkflowEvent) : WorkflowEvent → Prop
  | .stepCompleted stepId _ | .stepFailed stepId _ _ =>
    ∃ stepType input, CommandShape.step stepId stepType input ∈ recordedCommands log
  | .timerFired timerId => ∃ durationMs, CommandShape.timer timerId durationMs ∈ recordedCommands log
  | .childCompleted childId _ | .childFailed childId _ =>
    ∃ workflowType input, CommandShape.child childId workflowType input ∈ recordedCommands log
  | _ => True

/-- The events that the outside world appends while nobody asks to cancel. -/
def WorkflowEvent.isArrival : WorkflowEvent → Bool
  | .stepCompleted .. | .stepFailed .. | .stepAttemptFailed .. | .timerFired _ | .signalReceived ..
  | .childCompleted .. | .childFailed .. => true
  | _ => false

/-- A log as a run builds it. `arrives` are the events that come from outside, and every
decision that was recorded `meets` a condition. -/
inductive RunLog {H : Type} (run : RunConfiguration H) (arrives : List WorkflowEvent → WorkflowEvent → Prop)
    (meets : Replay → Prop) : List WorkflowEvent → Prop where
  | started (workflowType : String) : RunLog run arrives meets [.runStarted workflowType run.input]
  | decided (log : List WorkflowEvent) (options : DecisionLoopOptions) (fuel : Nat) (decision : Decision)
      (earlier : RunLog run arrives meets log) (own : run.Decides ⟨log, options⟩) (met : meets ⟨log, options⟩)
      (made : runDecisionLoop fuel ⟨log, options⟩ run.handler run.input = some (.ok decision)) :
      RunLog run arrives meets (log ++ decision.commands.map commandToEvent)
  | arrived (log : List WorkflowEvent) (event : WorkflowEvent) (earlier : RunLog run arrives meets log)
      (arrival : arrives log event) : RunLog run arrives meets (log ++ [event])

/-- An event from outside, and an outcome only of what the log records. -/
def WorkflowEvent.ArrivesAt (log : List WorkflowEvent) (event : WorkflowEvent) : Prop :=
  event.isArrival = true ∧ event.JustifiedBy log

/-- The log holds outcomes only of commands that it records. -/
def Justified (log : List WorkflowEvent) : Prop := ∀ event ∈ log, event.JustifiedBy log

section Logs

theorem WorkflowEvent.JustifiedBy.longer {event : WorkflowEvent} {log : List WorkflowEvent}
    (justified : event.JustifiedBy log) (rest : List WorkflowEvent) : event.JustifiedBy (log ++ rest) := by
  have kept (shape : CommandShape) (held : shape ∈ recordedCommands log) :
      shape ∈ recordedCommands (log ++ rest) := by
    rw [recordedCommands_append]
    exact List.mem_append_left _ held
  cases event with
  | stepCompleted | stepFailed | childCompleted | childFailed =>
    obtain ⟨kind, input, held⟩ := justified
    exact ⟨kind, input, kept _ held⟩
  | timerFired =>
    obtain ⟨durationMs, held⟩ := justified
    exact ⟨durationMs, kept _ held⟩
  | _ => trivial

theorem Justified.append {log rest : List WorkflowEvent} (justified : Justified log)
    (others : ∀ event ∈ rest, event.JustifiedBy log) : Justified (log ++ rest) := by
  intro event member
  rcases List.mem_append.mp member with old | new
  · exact (justified event old).longer rest
  · exact (others event new).longer rest

/-- The record of a command is the outcome of none. -/
theorem commandToEvent_justified (command : WorkflowCommand) (log : List WorkflowEvent) : (commandToEvent command).JustifiedBy log := by
  cases command <;> trivial

theorem arrival_external {event : WorkflowEvent} (arrival : event.isArrival = true) : event.External := by
  cases event <;> first | exact ⟨rfl, rfl, rfl, rfl⟩ | cases arrival

theorem nthOutcome_held (outcomeOf : WorkflowEvent → Option (Except JsValue JsValue)) (skip index : Nat) (history : List WorkflowEvent)
    (found : nthOutcome outcomeOf skip index history ≠ none) : ∃ event ∈ history, outcomeOf event ≠ none := by
  induction history generalizing skip index with
  | nil => exact absurd rfl found
  | cons event rest ih =>
    simp only [nthOutcome] at found
    split at found
    · next outcome here => exact ⟨event, List.mem_cons_self, by rw [here]; rintro ⟨⟩⟩
    all_goals
      obtain ⟨other, held, ended⟩ := ih _ _ found
      exact ⟨other, List.mem_cons_of_mem _ held, ended⟩

/-- A justified log ends only the steps that it records. -/
theorem Justified.step {log : List WorkflowEvent} (justified : Justified log) (stepId stepType : String)
    (ended : nthOutcome (stepOutcome stepId stepType) 0 0 log ≠ none) :
    ∃ recordedType input, CommandShape.step stepId recordedType input ∈ recordedCommands log := by
  obtain ⟨event, held, outcome⟩ := nthOutcome_held _ _ _ _ ended
  have justified' := justified event held
  cases event with
  | stepCompleted id _ | stepFailed id _ _ =>
    simp only [stepOutcome] at outcome
    split at outcome
    · next same => exact same ▸ justified'
    · exact absurd rfl outcome
  | _ => exact absurd rfl outcome

theorem Justified.timer {log : List WorkflowEvent} (justified : Justified log) (timerId : String)
    (fired : nthOutcome (timerOutcome timerId) 0 0 log ≠ none) :
    ∃ durationMs, CommandShape.timer timerId durationMs ∈ recordedCommands log := by
  obtain ⟨event, held, outcome⟩ := nthOutcome_held _ _ _ _ fired
  have justified' := justified event held
  cases event with
  | timerFired id =>
    simp only [timerOutcome] at outcome
    split at outcome
    · next same => exact same ▸ justified'
    · exact absurd rfl outcome
  | _ => exact absurd rfl outcome

end Logs

section Runs

variable {H : Type}

theorem settle_unique (replay : Replay) (one two : Nat) (world left right : ReplayWorld H)
    (first : settle replay one world = some left) (second : settle replay two world = some right) : left = right := by
  obtain ⟨quiet, drained, feeds⟩ := settle_parts replay one world left first
  obtain ⟨quiet', drained', feeds'⟩ := settle_parts replay two world right second
  obtain rfl := drain_unique _ one two world quiet quiet' drained drained'
  exact feeds.unique feeds'

/-- A replay has one end, whatever the fuel. -/
theorem replayHistory_unique (replay : Replay) (handler : WorkflowHandler H) (input : JsValue)
    (one two : Nat) (left right : Except JsValue (ReplayWorld H)) (first : replayHistory one replay handler input = some left)
    (second : replayHistory two replay handler input = some right) : left = right := by
  unfold replayHistory at first second
  split at first
  · next begins =>
      simp only [begins, Option.some.injEq] at first second
      exact first.symm.trans second
  · next started result begins =>
      simp only [begins] at second
      obtain ⟨quiet, settled, ended⟩ := Option.bind_eq_some_iff.mp first
      obtain ⟨quiet', settled', ended'⟩ := Option.bind_eq_some_iff.mp second
      obtain rfl := settle_unique replay one two _ quiet quiet' settled settled'
      split at ended
      · next due =>
          rw [if_pos due] at ended'
          obtain ⟨last, settled, rfl⟩ := Option.map_eq_some_iff.mp ended
          obtain ⟨last', settled', rfl⟩ := Option.map_eq_some_iff.mp ended'
          rw [settle_unique replay one two _ last last' settled settled']
      · next open' =>
          rw [if_neg open'] at ended'
          cases ended
          cases ended'
          rfl
  · next begins =>
      simp only [begins, Option.some.injEq] at first second
      exact first.symm.trans second

/-- What holds of the end of one replay holds of each. -/
theorem replayHistory_ends (replay : Replay) (handler : WorkflowHandler H) (input : JsValue)
    (holds : ReplayWorld H → Prop) (ends : ∃ fuel final, replayHistory fuel replay handler input = some (.ok final) ∧ holds final)
    (fuel : Nat) (final : ReplayWorld H) (replayed : replayHistory fuel replay handler input = some (.ok final)) : holds final := by
  obtain ⟨fuel', final', replayed', kept⟩ := ends
  cases replayHistory_unique replay handler input fuel fuel' _ _ replayed replayed'
  exact kept

/-- What a recorded decision was computed from. -/
theorem decision_replayed (fuel : Nat) (replay : Replay) (handler : WorkflowHandler H) (input : JsValue)
    (decision : Decision) (made : runDecisionLoop fuel replay handler input = some (.ok decision)) :
    ∃ final, replayHistory fuel replay handler input = some (.ok final) ∧ decideFrom replay final = .ok decision := by
  obtain ⟨outcome, replayed, decided⟩ := Option.map_eq_some_iff.mp made
  cases outcome with
  | error thrown => cases decided
  | ok final => exact ⟨final, replayed, decided⟩

/-- A decision that was made has the commands of the world its replay stopped in. -/
theorem decideFrom_commands (replay : Replay) (final : ReplayWorld H) (decision : Decision)
    (decided : decideFrom replay final = .ok decision) : decision.commands = (conclude replay final).2 := by
  unfold decideFrom at decided
  split at decided
  · cases decided
  · split at decided
    · cases decided
    · split at decided
      · cases decided
      · cases decided
        rfl

end Runs

end DurableExecution.Workflow

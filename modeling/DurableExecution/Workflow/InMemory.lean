import DurableExecution.Workflow.RunLog

/-
This file models the runner that executes a workflow in memory, for handlers that
await each call, and how a log of such a handler is driven to the end of its run.
-/

namespace DurableExecution.Workflow

open EventLoop

section Handlers

/-- A handler that awaits each call of its context before the next one. The handle that
`startChild` returns has the child's id, and its result is awaited. -/
inductive SequentialHandler where
  | finish (completion : Except JsValue JsValue)
  | step (stepType : String) (input : JsValue) (next : Except JsValue JsValue → SequentialHandler)
  | sleep (durationMs : JsNumber) (next : Except JsValue JsValue → SequentialHandler)
  | startChild (workflowType : String) (input : JsValue) (options : ChildOptions) (refused : JsValue → SequentialHandler)
      (next : JsValue → Except JsValue JsValue → SequentialHandler)
  | executeChild (workflowType : String) (input : JsValue) (options : ChildOptions)
      (next : Except JsValue JsValue → SequentialHandler)
  | patched (patchId : String) (next : Except JsValue JsValue → SequentialHandler)
  | continueAsNew (input : JsValue) (next : Except JsValue JsValue → SequentialHandler)

/-- The handler as an asynchronous function that settles `result`. -/
def SequentialHandler.code (result : PromiseId) : SequentialHandler → WorkflowCode Unit
  | .finish completion => .settle result completion (.finish (.ok (.promise result)))
  | .step stepType input next =>
    awaitCall ⟨.workflow, .step stepType input⟩ (.finish (.ok (.promise result))) fun outcome => (next outcome).code result
  | .sleep durationMs next =>
    awaitCall ⟨.workflow, .sleep durationMs⟩ (.finish (.ok (.promise result))) fun outcome => (next outcome).code result
  | .startChild workflowType input options refused next =>
    .call ⟨.workflow, .startChild workflowType input options⟩ (fun _ => .finish (.ok .undefined)) fun answer =>
      match answer with
      | .ok (.object [(_, childId), (_, .promise target)]) =>
        .react target (fun outcome => (next childId outcome).code result) (.finish (.ok (.promise result)))
      | .ok other => (refused other).code result
      | .error thrown => (refused thrown).code result
  | .executeChild workflowType input options next =>
    awaitCall ⟨.workflow, .executeChild workflowType input options⟩ (.finish (.ok (.promise result))) fun outcome =>
      (next outcome).code result
  | .patched patchId next =>
    .call ⟨.workflow, .patched patchId⟩ (fun _ => .finish (.ok .undefined)) fun answer => (next answer).code result
  | .continueAsNew input next =>
    awaitCall ⟨.workflow, .continueAsNew input⟩ (.finish (.ok (.promise result))) fun outcome => (next outcome).code result

def SequentialHandler.handler (script : JsValue → SequentialHandler) : WorkflowHandler Unit where
  heap := ()
  body input := .promise fun result => (script input).code result

end Handlers

section InMemory

/-- What the runner needs: what the clock shows at each sleep of the run, by how many came
before, and implementations of steps and children, by the number of the call. -/
structure RunWorkflowOptions where
  clock : Nat → Instant
  steps : String → Option (Nat → JsValue → Except JsValue JsValue)
  workflows : String → Option (Nat → JsValue → Except JsValue JsValue)
  maxChildren : Option Nat

def defaultMaxInMemoryChildren : Nat := 1000

def RunWorkflowOptions.childLimit (options : RunWorkflowOptions) : Nat :=
  options.maxChildren.getD defaultMaxInMemoryChildren

/-- The outcome of a step, which fails when no implementation is registered. -/
def RunWorkflowOptions.stepOutcome (options : RunWorkflowOptions) (number : Nat) (stepType : String) (input : JsValue) :
    Except JsValue JsValue :=
  match options.steps stepType with
  | none => .error (plainError "Error" ("no step registered for type \"" ++ stepType ++ "\""))
  | some handler => handler number input

/-- The outcome of a child's chain of runs. -/
def RunWorkflowOptions.childOutcome (options : RunWorkflowOptions) (number : Nat) (workflowType : String) (input : JsValue) :
    Except JsValue JsValue :=
  match options.workflows workflowType with
  | none => .error (plainError "Error" ("no workflow registered for type \"" ++ workflowType ++ "\""))
  | some handler => handler number input

/-- The locals of an in-memory context. The timers whose fire time no date represents are
not in the source. -/
structure InMemoryState where
  stepSequence : Nat
  timerSequence : Nat
  childSequence : Nat
  recordedPatches : List String
  commands : List WorkflowCommand
  unrepresentableTimers : List String

def InMemoryState.empty : InMemoryState := ⟨0, 0, 0, [], [], []⟩

def InMemoryState.push (command : WorkflowCommand) (state : InMemoryState) : InMemoryState :=
  { state with commands := state.commands ++ [command] }

namespace InMemory

def step (options : RunWorkflowOptions) (stepType : String) (input : JsValue) (state : InMemoryState) :
    InMemoryState × Except JsValue JsValue :=
  let state := { state with stepSequence := state.stepSequence + 1 }
  let stepId := "step-" ++ toString state.stepSequence
  (state.push (.scheduleStep stepId stepType input), options.stepOutcome state.stepSequence stepType input)

def sleep (options : RunWorkflowOptions) (durationMs : JsNumber) (state : InMemoryState) :
    InMemoryState × Except JsValue JsValue :=
  match durationMs.sleepMs with
  | none => (state, .error (invalidSleepDurationError durationMs))
  | some duration =>
    let now := options.clock state.timerSequence
    let state := { state with timerSequence := state.timerSequence + 1 }
    let timerId := "timer-" ++ toString state.timerSequence
    match now.after duration with
    | none => ({ state with unrepresentableTimers := state.unrepresentableTimers ++ [timerId] }, .error invalidTimeError)
    | some fireAt => (state.push (.startTimer timerId fireAt durationMs), .ok .undefined)

/-- The id of the child and its outcome, or what the call throws. -/
def startChild (options : RunWorkflowOptions) (workflowType : String) (input : JsValue) (childOptions : ChildOptions)
    (state : InMemoryState) : InMemoryState × Except JsValue (String × Except JsValue JsValue) :=
  let state := { state with childSequence := state.childSequence + 1 }
  if options.childLimit < state.childSequence then (state, .error (childLimitExceededError options.childLimit))
  else
    let childId := "child-" ++ toString state.childSequence
    (state.push (.startChild childId workflowType input (childOptions.parentClosePolicy.getD .cancel) none none),
      .ok (childId, options.childOutcome state.childSequence workflowType input))

def patched (patchId : String) (state : InMemoryState) : InMemoryState :=
  if patchId ∈ state.recordedPatches then state
  else { state with recordedPatches := state.recordedPatches ++ [patchId] }.push (.recordPatch patchId none)

end InMemory

/-- How the code of a handler ends. -/
inductive HandlerEnd where
  | settled (completion : Except JsValue JsValue)
  | continued (input : JsValue)

/-- The run of a handler against the in-memory context, where each call answers at once. -/
def SequentialHandler.runInMemory (options : RunWorkflowOptions) : SequentialHandler → InMemoryState → InMemoryState × HandlerEnd
  | .finish completion, state => (state, .settled completion)
  | .step stepType input next, state =>
    let answer := InMemory.step options stepType input state
    (next answer.2).runInMemory options answer.1
  | .sleep durationMs next, state =>
    let answer := InMemory.sleep options durationMs state
    (next answer.2).runInMemory options answer.1
  | .startChild workflowType input childOptions refused next, state =>
    let answer := InMemory.startChild options workflowType input childOptions state
    match answer.2 with
    | .error thrown => (refused thrown).runInMemory options answer.1
    | .ok (childId, outcome) => (next (.string childId) outcome).runInMemory options answer.1
  | .executeChild workflowType input childOptions next, state =>
    let answer := InMemory.startChild options workflowType input childOptions state
    match answer.2 with
    | .error thrown => (next (.error thrown)).runInMemory options answer.1
    | .ok (_, outcome) => (next outcome).runInMemory options answer.1
  | .patched patchId next, state => (next (.ok (.bool true))).runInMemory options (InMemory.patched patchId state)
  | .continueAsNew input _, state => (state, .continued input)

inductive RunWorkflowResult where
  | completed (result : JsValue) (commands : List WorkflowCommand)
  | failed (error : JsValue) (commands : List WorkflowCommand)
  | continuedAsNew (input : JsValue) (commands : List WorkflowCommand)

def RunWorkflowResult.commands : RunWorkflowResult → List WorkflowCommand
  | .completed _ commands | .failed _ commands | .continuedAsNew _ commands => commands

/-- The outcome as a decision reports it. -/
def RunWorkflowResult.outcome : RunWorkflowResult → DecisionOutcome
  | .completed result _ => .completed result
  | .failed error _ => .failed error
  | .continuedAsNew input _ => .continuedAsNew input

def runWorkflowInMemory (options : RunWorkflowOptions) (script : JsValue → SequentialHandler) (input : JsValue) :
    RunWorkflowResult :=
  match (script input).runInMemory options .empty with
  | (_, .continued input) => .continuedAsNew input [.continueAsNew input]
  | (state, .settled (.ok result)) => .completed result (state.commands ++ [.completeRun result])
  | (state, .settled (.error reason)) =>
    .failed (toError reason) (state.commands ++ [.failRun (toRecordedError (toError reason))])

end InMemory

section Driving

variable {H : Type}

/-- A log is driven to the end of its run: each decision is recorded, and what it started
`ends`. The decisions meet a condition and have these commands and this outcome. -/
inductive Drives (handler : WorkflowHandler H) (input : JsValue) (ends : WorkflowCommand → Option WorkflowEvent)
    (meets : Replay → Prop) : List WorkflowEvent → List WorkflowCommand → DecisionOutcome → Prop where
  | ended (log : List WorkflowEvent) (options : DecisionLoopOptions) (fuel : Nat) (decision : Decision)
      (met : meets ⟨log, options⟩) (made : runDecisionLoop fuel ⟨log, options⟩ handler input = some (.ok decision))
      (over' : decision.outcome ≠ .suspended) : Drives handler input ends meets log decision.commands decision.outcome
  | decided (log : List WorkflowEvent) (options : DecisionLoopOptions) (fuel : Nat) (decision : Decision)
      (commands : List WorkflowCommand) (outcome : DecisionOutcome) (met : meets ⟨log, options⟩)
      (made : runDecisionLoop fuel ⟨log, options⟩ handler input = some (.ok decision))
      (waits : decision.outcome = .suspended)
      (rest : Drives handler input ends meets
        (log ++ decision.commands.map commandToEvent ++ decision.commands.filterMap ends) commands outcome) :
      Drives handler input ends meets log (decision.commands ++ commands) outcome

/-- What ends a command in the log stands for what the in-memory runner answers. -/
structure SameResults (options : RunWorkflowOptions) (ends : WorkflowCommand → Option WorkflowEvent) : Prop where
  step : ∀ number stepType input, ∃ event, ends (.scheduleStep ("step-" ++ toString number) stepType input) = some event ∧
    stepOutcome ("step-" ++ toString number) stepType event = some (options.stepOutcome number stepType input)
  timer : ∀ timerId fireAt durationMs, ends (.startTimer timerId fireAt durationMs) = some (.timerFired timerId)
  child : ∀ number workflowType input policy runTimeoutMs executionTimeoutMs, ∃ event,
    ends (.startChild ("child-" ++ toString number) workflowType input policy runTimeoutMs executionTimeoutMs) = some event ∧
      childOutcome ("child-" ++ toString number) event = some (options.childOutcome number workflowType input)
  patch : ∀ patchId buildId, ends (.recordPatch patchId buildId) = none

def isTimerStarted : WorkflowEvent → Bool
  | .timerStarted .. => true
  | _ => false

/-- A decision has the limit of the runner, and its clock shows what the runner's clock
shows at the next sleep. -/
structure RunWorkflowOptions.Shares (options : RunWorkflowOptions) (replay : Replay) : Prop where
  childLimit : replay.options.childLimit = options.childLimit
  clock : replay.options.clock 0 = options.clock (replay.history.countP isTimerStarted)

/-- A command without what only the engine records. -/
def WorkflowCommand.predicted : WorkflowCommand → WorkflowCommand
  | .startChild childId workflowType input policy _ _ => .startChild childId workflowType input policy none none
  | .recordPatch patchId _ => .recordPatch patchId none
  | command => command

/-- The runner predicts the commands and the outcome of a run. Once the run continues as
new, its only command is the last one of the run. -/
def RunWorkflowResult.Predicts (commands : List WorkflowCommand) (outcome : DecisionOutcome) (result : RunWorkflowResult) : Prop :=
  outcome = result.outcome ∧ match result with
    | .completed _ inMemory | .failed _ inMemory => commands.map WorkflowCommand.predicted = inMemory
    | .continuedAsNew input inMemory => inMemory = [.continueAsNew input] ∧ ∃ earlier, commands = earlier ++ inMemory

end Driving

end DurableExecution.Workflow

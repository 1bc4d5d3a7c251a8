import DurableExecution.Engine.CloseRun

/-
This file models the recorder of step results and decisions.
-/

namespace DurableExecution.Engine

open Workflow (JsValue RecordedError WorkflowEvent WorkflowCommand commandToEvent Instant)
open Transaction

structure RecordStepResultInput where
  runId : RunId
  stepId : String
  attemptKey : String
  outcome : StepOutcome

structure RecordedStepResult where
  recorded : Bool
  outcome : StepOutcome

structure RecordWorkflowTaskResultInput where
  runId : RunId
  taskKey : String
  expectedSeq : Nat
  events : List WorkflowEvent

structure RecordedWorkflowTaskResult where
  recorded : Bool
  firstSequenceNumber : Nat
  lastSequenceNumber : Nat

/-- The options of a recorder, and the time its transactions read. -/
structure RecorderOptions where
  queueName : Option String
  now : Instant

section Operations

def toStepEvent (input : RecordStepResultInput) : WorkflowEvent :=
  match input.outcome with
  | .completed result => .stepCompleted input.stepId result
  | .failed error exhausted => .stepFailed input.stepId error (if exhausted then some true else none)

def isOpenStatus (row : Option RunRow) : Bool := (row.map fun run => !isTerminalState run.status).getD true

/-- The unique key on the run and the step, and the foreign key on the run. -/
def insertStepResult (row : StepResultRow) : Tx Unit := statement fun db =>
  if (db.run? row.runId).isSome &&
      !(db.stepResults.any fun other => other.runId == row.runId && other.stepId == row.stepId)
  then some ((), { db with stepResults := db.stepResults ++ [row] })
  else none

/-- The statements of `recordStepResult`, which a caller's transaction can join. -/
def recordStepResultOn (options : RecorderOptions) (input : RecordStepResultInput) :
    Tx RecordedStepResult := do
  let row ← select fun db => db.run? input.runId
  if isOpenStatus row then
    match ← select fun db => db.stepResults.find? fun result =>
        result.runId == input.runId && result.stepId == input.stepId with
    | some first => pure ⟨false, first.outcome⟩
    | none =>
      insertStepResult ⟨input.runId, input.stepId, input.attemptKey, input.outcome⟩
      discard (appendNext input.runId [toStepEvent input] options.now)
      pure ⟨true, input.outcome⟩
  else pure ⟨false, input.outcome⟩

/-- This operation records the outcome of one step attempt exactly once. -/
def recordStepResult (options : RecorderOptions) (input : RecordStepResultInput) (budget : Option Nat)
    (db : Database) : Except (Fault EngineError) RecordedStepResult × Database :=
  withTransaction (recordStepResultOn options input) budget db

/-- What a decision's event creates in the transaction that appends it. -/
def createFor (options : RecorderOptions) (runId : RunId) : WorkflowEvent → Tx Unit
  | .childStarted childId workflowType input policy runTimeoutMs executionTimeoutMs => do
    discard (select fun db => db.run? runId)
    match options.queueName with
    | none => raise .missingQueueName
    | some queueName => discard (createChildRun runId queueName childId workflowType input policy
        runTimeoutMs executionTimeoutMs options.now)
  | .runContinuedAsNew input => createContinuedRun runId input options.now
  | .stepScheduled stepId stepType input =>
    match options.queueName with
    | none => pure ()
    | some queueName => do
      match ← select fun db => db.run? runId with
      | none => raise (.missingRun runId)
      | some row => discard (enqueueStepTask row.namespaceId runId queueName stepId stepType input options.now)
  | .timerStarted timerId fireAt _ => discard (insertTimer runId timerId fireAt)
  | _ => pure ()

def insertTaskResult (row : TaskResultRow) : Tx Unit := statement fun db =>
  if (db.run? row.runId).isSome &&
      !(db.taskResults.any fun other => other.runId == row.runId && other.taskKey == row.taskKey)
  then some ((), { db with taskResults := db.taskResults ++ [row] })
  else none

def closeAfter (events : List WorkflowEvent) (runId : RunId) (now : Instant) : Tx Unit :=
  if events.any WorkflowEvent.isClosing then closeRun runId now else pure ()

/-- The statements of `recordWorkflowTaskResult`. -/
def recordWorkflowTaskResultOn (options : RecorderOptions) (input : RecordWorkflowTaskResultInput) :
    Tx RecordedWorkflowTaskResult := do
  let row ← lockRunWithParent input.runId
  discard (select fun db => db.run? input.runId)
  match ← select fun db => db.taskResults.find? fun result =>
      result.runId == input.runId && result.taskKey == input.taskKey with
  | some previous => pure ⟨false, previous.firstSequenceNumber, previous.lastSequenceNumber⟩
  | none =>
    if isOpenStatus row then
      let stored ← appendEvents input.runId input.expectedSeq input.events options.now
      input.events.forM fun event => createFor options input.runId event
      closeAfter input.events input.runId options.now
      let result : TaskResultRow :=
        ⟨input.runId, input.taskKey, input.expectedSeq + 1, input.expectedSeq + stored.length⟩
      insertTaskResult result
      pure ⟨true, result.firstSequenceNumber, result.lastSequenceNumber⟩
    else pure ⟨false, input.expectedSeq + 1, input.expectedSeq⟩

/-- This operation records a decision exactly once. -/
def recordWorkflowTaskResult (options : RecorderOptions) (input : RecordWorkflowTaskResultInput)
    (budget : Option Nat) (db : Database) :
    Except (Fault EngineError) RecordedWorkflowTaskResult × Database :=
  withTransaction (recordWorkflowTaskResultOn options input) budget db

end Operations

end DurableExecution.Engine

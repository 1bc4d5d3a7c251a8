import DurableExecution.Engine.Operations

/-
This file models what a worker does around the recording of a decision: the waiting marker
of the run and the step tasks of its open steps.
-/

namespace DurableExecution.Engine

open Workflow (JsValue WorkflowEvent Instant)
open Transaction

section Marker

def isStepScheduled : WorkflowEvent → Option String
  | .stepScheduled stepId .. => some stepId
  | _ => none

def finishedStepId : WorkflowEvent → Option String
  | .stepCompleted stepId _ | .stepFailed stepId .. => some stepId
  | _ => none

/-- The scheduled steps without an outcome. -/
def openStepIds (events : List WorkflowEvent) : List String :=
  let finished := events.filterMap finishedStepId
  (events.filterMap isStepScheduled).filter fun stepId => !finished.contains stepId

/-- What a suspended run waits for when none of its steps runs. -/
def waitingOnFor (db : Database) (runId : RunId) (events : List WorkflowEvent) : Option WaitingOn :=
  let open' := openStepIds events
  if open'.isEmpty then some .external
  else
    let deadLettered := (db.deadLetters.filter fun letter =>
      letter.runId == runId && letter.requeuedAt.isNone).map DeadLetterRow.stepId
    if open'.all fun stepId => deadLettered.contains stepId then some .deadLetter else none

/-- This operation stores the marker; the janitor counts recoveries anew after progress. -/
def Database.markRunWaiting (db : Database) (runId : RunId) (waitingOn : Option WaitingOn) (progressed : Bool) :
    Database :=
  db.updateRun runId fun row =>
    { row with waitingOn := waitingOn, recoveryCount := if progressed then 0 else row.recoveryCount }

end Marker

end DurableExecution.Engine

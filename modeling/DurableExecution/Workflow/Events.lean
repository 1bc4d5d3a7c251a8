import DurableExecution.Workflow.Errors

/-
This file models the events of a run's log, the commands of a decision and the
event that records each command.
-/

namespace DurableExecution.Workflow

inductive ParentClosePolicy where
  | cancel
  | terminate
  | abandon
  deriving DecidableEq

inductive TimeoutKind where
  | run
  | execution
  deriving DecidableEq

/-- An event of a run's log. ISO 8601 texts are the instants they denote. -/
inductive WorkflowEvent where
  | runStarted (workflowType : String) (input : JsValue)
  | runCompleted (result : JsValue)
  | runFailed (error : RecordedError)
  | runTimedOut (kind : Option TimeoutKind)
  | runCancelled (reason : Option String)
  | runTerminated (reason : Option String)
  | cancelRequested (reason : Option String)
  | runContinuedAsNew (input : JsValue)
  | stepScheduled (stepId stepType : String) (input : JsValue)
  | stepCompleted (stepId : String) (result : JsValue)
  | stepFailed (stepId : String) (error : RecordedError) (exhausted : Option Bool)
  | stepAttemptFailed (stepId : String) (attempt : Nat) (error : RecordedError)
      (retryAt : Option Instant)
  | timerStarted (timerId : String) (fireAt : Instant) (durationMs : Option JsNumber)
  | timerFired (timerId : String)
  | signalReceived (signalName : String) (payload : JsValue)
  | childStarted (childId workflowType : String) (input : JsValue)
      (parentClosePolicy : ParentClosePolicy) (runTimeoutMs executionTimeoutMs : Option JsNumber)
  | childCompleted (childId : String) (result : JsValue)
  | childFailed (childId : String) (error : RecordedError)
  | patchRecorded (patchId : String) (buildId : Option String)
  | timeRecorded (time : Instant)
  | compensationFailed (index : Nat) (error : RecordedError)

/-- The events that close a run. -/
def WorkflowEvent.isClosing : WorkflowEvent → Bool
  | .runCompleted _ | .runFailed _ | .runTimedOut _ | .runCancelled _ | .runTerminated _
  | .runContinuedAsNew _ => true
  | _ => false

def WorkflowEvent.isCancelRequested : WorkflowEvent → Bool
  | .cancelRequested _ => true
  | _ => false

/-- A command of a decision. -/
inductive WorkflowCommand where
  | scheduleStep (stepId stepType : String) (input : JsValue)
  | startTimer (timerId : String) (fireAt : Instant) (durationMs : JsNumber)
  | startChild (childId workflowType : String) (input : JsValue)
      (parentClosePolicy : ParentClosePolicy) (runTimeoutMs executionTimeoutMs : Option JsNumber)
  | recordPatch (patchId : String) (buildId : Option String)
  | recordTime (time : Instant)
  | recordCompensationFailure (index : Nat) (error : RecordedError)
  | completeRun (result : JsValue)
  | failRun (error : RecordedError)
  | cancelRun (reason : Option String)
  | continueAsNew (input : JsValue)

/-- This function turns a command into the event that records it. -/
def commandToEvent : WorkflowCommand → WorkflowEvent
  | .scheduleStep stepId stepType input => .stepScheduled stepId stepType input
  | .startTimer timerId fireAt durationMs => .timerStarted timerId fireAt (some durationMs)
  | .startChild childId workflowType input policy runTimeoutMs executionTimeoutMs =>
    .childStarted childId workflowType input policy runTimeoutMs executionTimeoutMs
  | .recordPatch patchId buildId => .patchRecorded patchId buildId
  | .recordTime time => .timeRecorded time
  | .recordCompensationFailure index error => .compensationFailed index error
  | .completeRun result => .runCompleted result
  | .failRun error => .runFailed error
  | .cancelRun reason => .runCancelled reason
  | .continueAsNew input => .runContinuedAsNew input

end DurableExecution.Workflow

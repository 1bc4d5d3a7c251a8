import DurableExecution.Transaction.Statements
import DurableExecution.Workflow.Events

/-
This file models the tables of the engine's database and the rows they hold.
-/

namespace DurableExecution.Engine

open Workflow (JsValue RecordedError WorkflowEvent ParentClosePolicy TimeoutKind Instant JsNumber)
open Transaction

/-- Runs are named by UUIDs, which are fresh numbers here. -/
abbrev RunId := Nat

inductive RunState where
  | running
  | completed
  | failed
  | timedOut
  | cancelled
  | terminated
  | continuedAsNew
  deriving DecidableEq

/-- What a suspended run waits for when it does not wait for its own steps. -/
inductive WaitingOn where
  | external
  | deadLetter
  deriving DecidableEq

/-- A row of `workflow_runs`. The status, the result and the error are a projection of the
log up to `lastSequenceNumber`. -/
structure RunRow where
  id : RunId
  namespaceId : Nat
  workflowType : String
  idempotencyKey : Option String
  status : RunState
  input : JsValue
  result : JsValue
  error : Option RecordedError
  closedAt : Option Instant
  lastSequenceNumber : Nat
  parentRunId : Option RunId
  parentChildId : Option String
  parentClosePolicy : Option ParentClosePolicy
  firstRunId : RunId
  continuedFromRunId : Option RunId
  chainIndex : Nat
  queueName : String
  runTimeoutMs : Option Nat
  executionDeadline : Option Instant
  waitingOn : Option WaitingOn
  recoveryCount : Nat
  lastRecoveredAt : Option Instant
  createdAt : Instant

/-- A row of `run_events`. -/
structure EventRow where
  runId : RunId
  sequenceNumber : Nat
  event : WorkflowEvent
  createdAt : Instant

/-- Why a workflow task was enqueued. -/
inductive WakeReason where
  | start
  | childStarted (parentRunId : RunId) (childId : String)
  | childClosed (childId : String)
  | continueAsNew (continuedFromRunId : RunId)
  | cancel
  | timerFired (timerId : String)
  | signal (signalName : String)
  | stepCompleted
  | stalledRunRecovery
  deriving DecidableEq

/-- What a task asks for; a step task carries the step, a workflow task its reason. -/
inductive TaskPayload where
  | workflowTask (reason : WakeReason)
  | stepTask (stepId stepType : String) (input : JsValue) (attemptOffset : Nat)

def TaskPayload.stepId : TaskPayload → Option String
  | .workflowTask _ => none
  | .stepTask stepId .. => some stepId

inductive TaskState where
  | pending
  | leased
  | completed
  | quarantined
  deriving DecidableEq

/-- A row of `tasks`. Its times are milliseconds since the epoch. -/
structure TaskRow where
  id : Nat
  namespaceId : Nat
  runId : RunId
  queueName : String
  payload : TaskPayload
  state : TaskState
  visibleAt : Int
  attempts : Nat
  leaseToken : Option Nat
  reclaimCount : Nat
  createdAt : Int

inductive TimerState where
  | pending
  | fired
  | cancelled
  deriving DecidableEq

/-- A row of `timers`. -/
structure TimerRow where
  runId : RunId
  timerId : String
  fireAt : Instant
  state : TimerState

/-- The outcome of one step attempt. -/
inductive StepOutcome where
  | completed (result : JsValue)
  | failed (error : RecordedError) (exhausted : Bool)

/-- A row of `step_results`. -/
structure StepResultRow where
  runId : RunId
  stepId : String
  attemptKey : String
  outcome : StepOutcome

/-- A row of `workflow_task_results`. -/
structure TaskResultRow where
  runId : RunId
  taskKey : String
  firstSequenceNumber : Nat
  lastSequenceNumber : Nat

/-- A row of `step_attempts`. -/
structure AttemptRow where
  runId : RunId
  stepId : String
  attempt : Nat
  error : RecordedError
  retryAt : Option Instant

/-- A row of `dead_letters`. -/
structure DeadLetterRow where
  id : Nat
  namespaceId : Nat
  runId : RunId
  stepId : String
  queueName : String
  payload : TaskPayload
  attempts : Nat
  error : RecordedError
  createdAt : Instant
  requeuedAt : Option Instant

/-- The read model of one run. -/
structure RunProjection where
  state : RunState
  input : JsValue
  result : JsValue
  error : Option RecordedError
  closedAt : Option Instant
  lastSequenceNumber : Nat

/-- A row of `run_snapshots`. -/
structure SnapshotRow where
  runId : RunId
  lastSequenceNumber : Nat
  prunedEventCount : Nat
  projection : RunProjection

/-- The database. `nextId` stands for the UUIDs that are still unused. -/
structure Database where
  runs : List RunRow
  events : List EventRow
  tasks : List TaskRow
  timers : List TimerRow
  stepResults : List StepResultRow
  taskResults : List TaskResultRow
  stepAttempts : List AttemptRow
  deadLetters : List DeadLetterRow
  snapshots : List SnapshotRow
  nextId : Nat

/-- The errors that the engine raises inside a transaction. -/
inductive EngineError where
  | concurrency (runId : RunId) (expectedSeq actualSeq : Nat)
  | missingRun (runId : RunId)
  | invalidTransition (from' : RunState) (event : WorkflowEvent)
  | sequenceGap (expected got : Nat)
  | missingQueueName
  | invalidTimeout (name : String)
  | invalidDate
  | runNotOpen (runId : RunId) (status : RunState)
  | leaseLost
  | closingTooDeep

abbrev Tx (A : Type) := Work Database EngineError A

def emptyDatabase : Database where
  runs := []
  events := []
  tasks := []
  timers := []
  stepResults := []
  taskResults := []
  stepAttempts := []
  deadLetters := []
  snapshots := []
  nextId := 0

section Tables

variable (db : Database)

def Database.run? (runId : RunId) : Option RunRow := db.runs.find? fun row => row.id == runId

/-- The stored events of a run, oldest first. -/
def Database.storedEvents (runId : RunId) : List EventRow :=
  db.events.filter fun row => row.runId == runId

/-- The log of a run. -/
def Database.log (runId : RunId) : List WorkflowEvent := (db.storedEvents runId).map EventRow.event

def Database.updateRun (runId : RunId) (change : RunRow → RunRow) : Database :=
  { db with runs := db.runs.map fun row => if row.id = runId then change row else row }

/-- A task as it is inserted, with the columns that have defaults. -/
def newTask (namespaceId : Nat) (runId : RunId) (queueName : String) (payload : TaskPayload) (visibleAt : Int)
    (id : Nat) : TaskRow where
  id := id
  namespaceId := namespaceId
  runId := runId
  queueName := queueName
  payload := payload
  state := .pending
  visibleAt := visibleAt
  attempts := 0
  leaseToken := none
  reclaimCount := 0
  createdAt := visibleAt

def Database.addTask (task : Nat → TaskRow) : Database :=
  { db with tasks := db.tasks ++ [task db.nextId], nextId := db.nextId + 1 }

end Tables

end DurableExecution.Engine

import DurableExecution.Engine.EventStore

/-
This file models what a recorded decision creates beside its events: step tasks, timers,
child runs and the next run of a chain.
-/

namespace DurableExecution.Engine

open Workflow (JsValue RecordedError WorkflowEvent ParentClosePolicy Instant JsNumber)
open Transaction

section Operations

/-- The `STEP_TASK` of a scheduled step, unless the run has one for that step. -/
def enqueueStepTask (namespaceId : Nat) (runId : RunId) (queueName stepId stepType : String)
    (input : JsValue) (now : Instant) : Tx Bool := statement fun db =>
  if db.tasks.any fun task => task.runId == runId && task.payload.stepId == some stepId then
    some (false, db)
  else some (true, db.addTask (newTask namespaceId runId queueName (.stepTask stepId stepType input 0) now.ms))

def insertWorkflowTask (namespaceId : Nat) (runId : RunId) (queueName : String) (reason : WakeReason)
    (now : Instant) : Tx Unit := write fun db =>
  db.addTask (newTask namespaceId runId queueName (.workflowTask reason) now.ms)

/-- `on conflict (run_id, timer_id) do nothing`. -/
def insertTimer (runId : RunId) (timerId : String) (fireAt : Instant) : Tx Bool := statement fun db =>
  if db.timers.any fun timer => timer.runId == runId && timer.timerId == timerId then some (false, db)
  else some (true, { db with timers := db.timers ++ [⟨runId, timerId, fireAt, .pending⟩] })

def runTimeoutTimerId : String := "run-timeout"

def executionTimeoutTimerId : String := "execution-timeout"

def isTimeoutTimerId (timerId : String) : Bool :=
  timerId == runTimeoutTimerId || timerId == executionTimeoutTimerId

/-- This function checks a timeout that was passed and rounds it up. -/
def validateTimeoutMs (name : String) : Option JsNumber → Except EngineError (Option Nat)
  | none => .ok none
  | some (.finite value) => if 0 < value then .ok (some value.ceil.toNat) else .error (.invalidTimeout name)
  | some _ => .error (.invalidTimeout name)

/-- A date so many milliseconds later; the database refuses one that no date represents. -/
def dateAfter (start : Instant) (ms : Nat) : Tx Instant :=
  liftExcept (((start.after ms).map Except.ok).getD (.error .invalidDate))

/-- The limits a run is created with. -/
structure RunTimeoutLimits where
  runTimeoutMs : Option JsNumber
  executionTimeoutMs : Option JsNumber
  executionDeadline : Option Instant

/-- The date of a timeout that is set, if one is. -/
def timeoutDate (start : Instant) : Option Nat → Tx (Option Instant)
  | none => pure none
  | some ms => some <$> dateAfter start ms

def executionDeadlineFor (startedAt : Instant) (limits : RunTimeoutLimits) (executionTimeoutMs : Option Nat) :
    Tx (Option Instant) :=
  match limits.executionDeadline with
  | some deadline => pure (some deadline)
  | none => timeoutDate startedAt executionTimeoutMs

def insertTimeoutTimer (runId : RunId) (timerId : String) : Option Instant → Tx Unit
  | none => pure ()
  | some fireAt => discard (insertTimer runId timerId fireAt)

/-- This operation turns the limits of a run into its columns and its timers. -/
def applyRunTimeouts (runId : RunId) (startedAt : Instant) (limits : RunTimeoutLimits) : Tx Unit := do
  let runTimeoutMs ← liftExcept (validateTimeoutMs "runTimeoutMs" limits.runTimeoutMs)
  let executionTimeoutMs ← liftExcept (validateTimeoutMs "executionTimeoutMs" limits.executionTimeoutMs)
  let executionDeadline ← executionDeadlineFor startedAt limits executionTimeoutMs
  if runTimeoutMs.isNone && executionDeadline.isNone then pure ()
  else
    write fun db => db.updateRun runId fun row =>
      { row with runTimeoutMs := runTimeoutMs, executionDeadline := executionDeadline }
    let fireAt ← timeoutDate startedAt runTimeoutMs
    insertTimeoutTimer runId runTimeoutTimerId fireAt
    insertTimeoutTimer runId executionTimeoutTimerId executionDeadline

/-- The run that a `child_started` event asks for. -/
def childRunRow (parent : RunRow) (queueName childId workflowType : String) (input : JsValue)
    (policy : ParentClosePolicy) (now : Instant) (id : RunId) : RunRow where
  id := id
  namespaceId := parent.namespaceId
  workflowType := workflowType
  idempotencyKey := none
  status := .running
  input := JsValue.orEmpty input
  result := .null
  error := none
  closedAt := none
  lastSequenceNumber := 0
  parentRunId := some parent.id
  parentChildId := some childId
  parentClosePolicy := some policy
  firstRunId := id
  continuedFromRunId := none
  chainIndex := 0
  queueName := queueName
  runTimeoutMs := none
  executionDeadline := none
  waitingOn := none
  recoveryCount := 0
  lastRecoveredAt := none
  createdAt := now

def Database.addRun (db : Database) (row : RunId → RunRow) : Database :=
  { db with runs := db.runs ++ [row db.nextId], nextId := db.nextId + 1 }

def Database.childOf? (db : Database) (parentRunId : RunId) (childId : String) : Option RunRow :=
  db.runs.find? fun row => row.parentRunId == some parentRunId && row.parentChildId == some childId

/-- `on conflict (parent_run_id, parent_child_id) do nothing`; the parent must exist. -/
def insertChildRun (parentRunId : RunId) (queueName childId workflowType : String) (input : JsValue)
    (policy : ParentClosePolicy) (now : Instant) : Tx (Option RunRow) := statement fun db =>
  match db.run? parentRunId, db.childOf? parentRunId childId with
  | none, _ => none
  | some _, some _ => some (none, db)
  | some parent, none =>
    let row := childRunRow parent queueName childId workflowType input policy now
    some (some (row db.nextId), db.addRun row)

/-- This operation creates the run of a `child_started` event, its `run_started` event and
its first workflow task, once for each child of a parent. -/
def createChildRun (parentRunId : RunId) (queueName childId workflowType : String) (input : JsValue)
    (policy : ParentClosePolicy) (runTimeoutMs executionTimeoutMs : Option JsNumber) (now : Instant) :
    Tx Bool := do
  match ← insertChildRun parentRunId queueName childId workflowType input policy now with
  | none =>
    discard (select fun db => db.childOf? parentRunId childId)
    pure false
  | some created =>
    applyRunTimeouts created.id now ⟨runTimeoutMs, executionTimeoutMs, none⟩
    discard (appendEvents created.id 0 [.runStarted workflowType input] now)
    insertWorkflowTask created.namespaceId created.id queueName (.childStarted parentRunId childId) now
    pure true

/-- The next run of a chain. -/
def continuedRunRow (predecessor : RunRow) (input : JsValue) (now : Instant) (id : RunId) : RunRow where
  id := id
  namespaceId := predecessor.namespaceId
  workflowType := predecessor.workflowType
  idempotencyKey := none
  status := .running
  input := JsValue.orEmpty input
  result := .null
  error := none
  closedAt := none
  lastSequenceNumber := 0
  parentRunId := predecessor.parentRunId
  parentChildId := none
  parentClosePolicy := predecessor.parentClosePolicy
  firstRunId := predecessor.firstRunId
  continuedFromRunId := some predecessor.id
  chainIndex := predecessor.chainIndex + 1
  queueName := predecessor.queueName
  runTimeoutMs := none
  executionDeadline := none
  waitingOn := none
  recoveryCount := 0
  lastRecoveredAt := none
  createdAt := now

/-- This operation creates the next run of a chain for a `run_continued_as_new` event. -/
def createContinuedRun (runId : RunId) (input : JsValue) (now : Instant) : Tx Unit := do
  match ← select fun db => db.run? runId with
  | none => raise (.missingRun runId)
  | some row =>
    let next ← statement fun db => some (db.nextId, db.addRun (continuedRunRow row input now))
    applyRunTimeouts next now ⟨row.runTimeoutMs.map fun (ms : Nat) => .finite ms, none, row.executionDeadline⟩
    discard (appendEvents next 0 [.runStarted row.workflowType input] now)
    insertWorkflowTask row.namespaceId next row.queueName (.continueAsNew runId) now

/-- The row of a run, locked after its parent's. -/
def lockRunWithParent (runId : RunId) : Tx (Option RunRow) := do
  let parentRunId ← select fun db => (db.run? runId).bind RunRow.parentRunId
  match parentRunId with
  | some parent => discard (select fun db => db.run? parent)
  | none => pure ()
  select fun db => db.run? runId

end Operations

end DurableExecution.Engine

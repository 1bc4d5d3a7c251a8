import DurableExecution.Engine.ChildRuns

/-
This file models how a client starts a run.
-/

namespace DurableExecution.Engine

open Workflow (JsValue WorkflowEvent Instant JsNumber)
open Transaction

structure StartRunInput where
  workflowType : String
  input : JsValue
  idempotencyKey : Option String
  runTimeoutMs : Option JsNumber
  executionTimeoutMs : Option JsNumber

/-- The input of a request as `JSON.stringify(input ?? null)` stores it. -/
def StartRunInput.stored (input : StartRunInput) : JsValue := (JsValue.orNull input.input).stored

section Operations

/-- The run that a client asks for. -/
def startedRunRow (namespaceId : Nat) (queueName : String) (input : StartRunInput) (now : Instant) (id : RunId) :
    RunRow where
  id := id
  namespaceId := namespaceId
  workflowType := input.workflowType
  idempotencyKey := input.idempotencyKey
  status := .running
  input := input.stored
  result := .null
  error := none
  closedAt := none
  lastSequenceNumber := 0
  parentRunId := none
  parentChildId := none
  parentClosePolicy := none
  firstRunId := id
  continuedFromRunId := none
  chainIndex := 0
  queueName := queueName
  runTimeoutMs := none
  executionDeadline := none
  waitingOn := none
  recoveryCount := 0
  lastRecoveredAt := none
  createdAt := now

/-- `on conflict (namespace_id, idempotency_key) do nothing`. -/
def insertStartedRun (namespaceId : Nat) (queueName : String) (input : StartRunInput) (now : Instant) :
    Tx (Option RunRow) := statement fun db =>
  if input.idempotencyKey.isSome && db.runs.any fun row =>
      row.namespaceId == namespaceId && row.idempotencyKey == input.idempotencyKey
  then some (none, db)
  else
    let row := startedRunRow namespaceId queueName input now
    some (some (row db.nextId), db.addRun row)

/-- The statements of `insertRun`: the run, its timeouts, its `run_started` event and its
first workflow task. -/
def insertRunOn (namespaceId : Nat) (queueName : String) (input : StartRunInput) (now : Instant) :
    Tx (Option RunId) := do
  match ← insertStartedRun namespaceId queueName input now with
  | none => pure none
  | some created =>
    applyRunTimeouts created.id now ⟨input.runTimeoutMs, input.executionTimeoutMs, none⟩
    discard (appendEvents created.id 0 [.runStarted input.workflowType input.stored] now)
    insertWorkflowTask namespaceId created.id queueName .start now
    pure (some created.id)

/-- This operation starts a run, unless a run holds the idempotency key. -/
def insertRun (namespaceId : Nat) (queueName : String) (input : StartRunInput) (now : Instant)
    (budget : Option Nat) (db : Database) : Except (Fault EngineError) (Option RunId) × Database :=
  withTransaction (insertRunOn namespaceId queueName input now) budget db

end Operations

section Requests

mutual

/-- `isDeepStrictEqual` of a value that was read from JSON and another value. Numbers compare
as `Object.is` does, and the order of an object's keys does not matter. -/
def isDeepStrictEqual : JsValue → JsValue → Bool
  | .undefined, .undefined => true
  | .null, .null => true
  | .bool one, .bool two => one == two
  | .number one, .number two => one == two
  | .string one, .string two => one == two
  | .array ones, .array twos => itemsDeepStrictEqual ones twos
  | .object ones, .object twos => ones.length == twos.length && fieldsDeepStrictEqual ones twos
  | _, _ => false

def itemsDeepStrictEqual : List JsValue → List JsValue → Bool
  | [], [] => true
  | one :: ones, two :: twos => isDeepStrictEqual one two && itemsDeepStrictEqual ones twos
  | _, _ => false

/-- Each of these fields has an equal one among the others. -/
def fieldsDeepStrictEqual : List (String × JsValue) → List (String × JsValue) → Bool
  | [], _ => true
  | (key, one) :: ones, twos =>
    (match twos.find? fun field => field.1 == key with
      | some field => isDeepStrictEqual one field.2
      | none => false) && fieldsDeepStrictEqual ones twos

end

example : isDeepStrictEqual (.object [("a", .null), ("b", .bool true)])
    (.object [("b", .bool true), ("a", .null)]) = true := by decide

/-- What a client is told: the run it created, the run that its key already has, or why not. -/
inductive StartRunAnswer where
  | created (run : RunRow)
  | existing (run : RunRow)
  | idempotencyConflict (runId : RunId)
  | unknownWorkflowType
  | failed

/-- How far a call of `startRun` has come. -/
inductive StartRunPhase where
  | called
  | absent
  | inserted (runId : RunId)
  | raced
  | answered (answer : StartRunAnswer)

/-- A call of `startRun`; its statements run between those of other calls. -/
structure StartRunCall where
  input : StartRunInput
  phase : StartRunPhase

def Database.runByKey? (db : Database) (namespaceId : Nat) (idempotencyKey : String) : Option RunRow :=
  db.runs.find? fun row => row.namespaceId == namespaceId && row.idempotencyKey == some idempotencyKey

/-- The answer of a run that holds the request's key already. -/
def findByKey (namespaceId : Nat) (input : StartRunInput) (db : Database) : Option StartRunAnswer :=
  (input.idempotencyKey.bind (db.runByKey? namespaceId)).map fun row =>
    if row.workflowType == input.workflowType && isDeepStrictEqual row.input (JsValue.orNull input.input)
    then .existing row
    else .idempotencyConflict row.id

/-- The next statements of a call of `startRun`. -/
def StartRunCall.advance (known : String → Bool) (namespaceId : Nat) (queueName : String) (now : Instant)
    (budget : Option Nat) (call : StartRunCall) (db : Database) : StartRunPhase × Database :=
  match call.phase with
  | .called =>
    if known call.input.workflowType then
      match findByKey namespaceId call.input db with
      | some answer => (.answered answer, db)
      | none => (.absent, db)
    else (.answered .unknownWorkflowType, db)
  | .absent =>
    match insertRun namespaceId queueName call.input now budget db with
    | (.ok (some runId), db') => (.inserted runId, db')
    | (.ok none, db') => (.raced, db')
    | (.error _, db') => (.answered .failed, db')
  | .inserted runId =>
    match (db.run? runId).filter fun row => row.namespaceId == namespaceId with
    | some row => (.answered (.created row), db)
    | none => (.answered .failed, db)
  | .raced =>
    match findByKey namespaceId call.input db with
    | some answer => (.answered answer, db)
    | none => (.answered .failed, db)
  | .answered answer => (.answered answer, db)

end Requests

end DurableExecution.Engine

import Mathlib.Data.List.Sort
import DurableExecution.Engine.Recorder

/-
This file models the task queue, the janitor's statements on it and the dead letters.
Each operation is one statement of its own, so it is a function on the database.
-/

namespace DurableExecution.Engine

open Workflow (JsValue RecordedError Instant)
open Transaction

/-- A task as it is handed to a worker. -/
structure LeasedTask where
  id : Nat
  namespaceId : Nat
  runId : RunId
  queueName : String
  payload : TaskPayload
  attempts : Nat
  leaseToken : Nat
  visibleAt : Int

/-- How many lost leases park a task; never zero. -/
structure PoisonThreshold where
  value : Nat
  positive : 0 < value

/-- A row of `run_stickiness`. -/
structure StickinessRow where
  runId : RunId
  workerId : String
  expiresAt : Int

/-- What a worker asks for. The rows that other transactions have locked are skipped. -/
structure DequeueOptions where
  queueName : String
  visibilityTimeoutMs : Nat
  positiveTimeout : 0 < visibilityTimeoutMs
  limit : Nat
  positiveLimit : 0 < limit
  stickyFor : Option String
  stickiness : List StickinessRow
  locked : Nat → Bool

def TaskPayload.isWorkflowTask : TaskPayload → Bool
  | .workflowTask _ => true
  | .stepTask .. => false

section Rows

variable (now : Instant) (task : TaskRow)

/-- `id = $1 and lease_token = $2 and state = 'LEASED'`. -/
def TaskRow.isHeldBy (taskId leaseToken : Nat) : Bool :=
  task.id == taskId && task.leaseToken == some leaseToken && task.state == .leased

def TaskRow.acked : TaskRow := { task with state := .completed, leaseToken := none }

def TaskRow.nacked (delayMs : Nat) : TaskRow :=
  { task with state := .pending, leaseToken := none, visibleAt := now.ms + delayMs }

def TaskRow.quarantined : TaskRow := { task with state := .quarantined, leaseToken := none }

def TaskRow.extended (visibilityTimeoutMs : Nat) : TaskRow := { task with visibleAt := now.ms + visibilityTimeoutMs }

/-- The lease of this task is over. -/
def TaskRow.isOrphaned : Bool := task.state == .leased && decide (task.visibleAt ≤ now.ms)

/-- One more lost lease parks the task. -/
def TaskRow.isPoisoned (poisonThreshold : PoisonThreshold) : Bool :=
  task.state == .leased && decide (poisonThreshold.value ≤ task.reclaimCount + 1)

def TaskRow.parked : TaskRow :=
  { task with state := .quarantined, leaseToken := none, reclaimCount := task.reclaimCount + 1 }

/-- A janitor takes the task back. -/
def TaskRow.reclaimed (poisonThreshold : PoisonThreshold) : TaskRow :=
  { task with
    state := if poisonThreshold.value ≤ task.reclaimCount + 1 then .quarantined else .pending
    leaseToken := none
    reclaimCount := task.reclaimCount + 1
    visibleAt := now.ms }

def TaskRow.delivered (visibilityTimeoutMs leaseToken : Nat) : TaskRow :=
  { task with
    state := .leased
    leaseToken := some leaseToken
    attempts := task.attempts + 1
    reclaimCount := task.reclaimCount + if task.state = .leased then 1 else 0
    visibleAt := now.ms + visibilityTimeoutMs }

def TaskRow.released : TaskRow := { task with state := .pending, reclaimCount := 0, visibleAt := now.ms }

/-- Another worker holds the run of this workflow task. -/
def TaskRow.isStuck (options : DequeueOptions) : Bool :=
  match options.stickyFor with
  | none => false
  | some workerId => task.payload.isWorkflowTask && options.stickiness.any fun sticky =>
    sticky.runId == task.runId && sticky.workerId != workerId && decide (now.ms < sticky.expiresAt)

/-- The rows that `dequeue` may take. -/
def TaskRow.isDue (options : DequeueOptions) : Bool :=
  task.queueName == options.queueName && (task.state == .pending || task.state == .leased) &&
    decide (task.visibleAt ≤ now.ms) && !task.isStuck now options && !options.locked task.id

/-- `order by visible_at, created_at, id`. -/
def TaskRow.goesBefore (other : TaskRow) : Bool :=
  decide (task.visibleAt < other.visibleAt) || task.visibleAt == other.visibleAt &&
    (decide (task.createdAt < other.createdAt) || task.createdAt == other.createdAt && decide (task.id ≤ other.id))

end Rows

section Operations

variable (now : Instant) (db : Database)

/-- `update tasks set ... where ...`, with the number of rows it changed. -/
def Database.updateTasks (matching : TaskRow → Bool) (change : TaskRow → TaskRow) : Nat × Database :=
  (db.tasks.countP matching,
    { db with tasks := db.tasks.map fun task => if matching task then change task else task })

def Database.enqueue (namespaceId : Nat) (runId : RunId) (queueName : String) (payload : TaskPayload)
    (delayMs : Nat) : Nat × Database :=
  (db.nextId, db.addTask fun id =>
    { newTask namespaceId runId queueName payload (now.ms + delayMs) id with createdAt := now.ms })

def Database.ack (taskId leaseToken : Nat) : Bool × Database :=
  let updated := db.updateTasks (·.isHeldBy taskId leaseToken) (·.acked)
  (updated.1 == 1, updated.2)

def Database.nack (taskId leaseToken delayMs : Nat) : Bool × Database :=
  let updated := db.updateTasks (·.isHeldBy taskId leaseToken) (·.nacked now delayMs)
  (updated.1 == 1, updated.2)

def Database.quarantine (taskId leaseToken : Nat) : Bool × Database :=
  let updated := db.updateTasks (·.isHeldBy taskId leaseToken) (·.quarantined)
  (updated.1 == 1, updated.2)

def Database.extend (taskId leaseToken visibilityTimeoutMs : Nat) : Bool × Database :=
  let updated := db.updateTasks (fun task => task.isHeldBy taskId leaseToken && decide (now.ms < task.visibleAt))
    (·.extended now visibilityTimeoutMs)
  (updated.1 == 1, updated.2)

/-- The rows that `dequeue` locks, in the order of the queue. -/
def Database.nextTasks (options : DequeueOptions) : List TaskRow :=
  ((db.tasks.filter (·.isDue now options)).insertionSort fun one two => one.goesBefore two).take options.limit

/-- What `dequeue` does to one row. Each delivery has a token of its own. -/
def TaskRow.taken (now : Instant) (poisonThreshold : PoisonThreshold) (visibilityTimeoutMs firstToken : Nat)
    (next : List TaskRow) (task : TaskRow) : TaskRow :=
  match next.findIdx? fun other => other.id == task.id with
  | none => task
  | some position =>
    if task.isPoisoned poisonThreshold then task.parked
    else task.delivered now visibilityTimeoutMs (firstToken + position)

def TaskRow.toLeasedTask (task : TaskRow) : Option LeasedTask :=
  task.leaseToken.map fun leaseToken => ⟨task.id, task.namespaceId, task.runId, task.queueName, task.payload,
    task.attempts, leaseToken, task.visibleAt⟩

/-- This operation leases due tasks. A task that lost its lease too often is parked. -/
def Database.dequeue (poisonThreshold : PoisonThreshold) (options : DequeueOptions) : List LeasedTask × Database :=
  let next := db.nextTasks now options
  let take := TaskRow.taken now poisonThreshold options.visibilityTimeoutMs db.nextId next
  (next.filterMap fun task => (take task).toLeasedTask,
    { db with tasks := db.tasks.map take, nextId := db.nextId + next.length })

/-- This operation takes back the tasks whose lease is over. -/
def Database.reclaimOrphanedLeases (poisonThreshold : PoisonThreshold) (locked : Nat → Bool) : Nat × Database :=
  db.updateTasks (fun task => task.isOrphaned now && !locked task.id) (·.reclaimed now poisonThreshold)

def Database.releaseQuarantined (taskId : Nat) : Bool × Database :=
  let updated := db.updateTasks (fun task => task.id == taskId && task.state == .quarantined) (·.released now)
  (updated.1 == 1, updated.2)

end Operations

section DeadLetters

structure AddDeadLetterInput where
  namespaceId : Nat
  runId : RunId
  stepId : String
  queueName : String
  payload : TaskPayload
  attempts : Nat
  error : RecordedError

structure TaskLease where
  taskId : Nat
  leaseToken : Nat

/-- `on conflict (run_id, step_id) where requeued_at is null do nothing`; the letter that
is there already is found instead. -/
def insertDeadLetter (input : AddDeadLetterInput) (now : Instant) : Tx Nat := statement fun db =>
  match db.deadLetters.find? fun letter =>
      letter.runId == input.runId && letter.stepId == input.stepId && letter.requeuedAt.isNone with
  | some existing => some (existing.id, db)
  | none =>
    if (db.run? input.runId).isSome then
      some (db.nextId, { db with
        deadLetters := db.deadLetters ++ [⟨db.nextId, input.namespaceId, input.runId, input.stepId,
          input.queueName, input.payload, input.attempts, input.error, now, none⟩]
        nextId := db.nextId + 1 })
    else none

/-- The statements of `addAndAckOnce`. A lease that was lost takes all of them back. -/
def addAndAckOn (input : AddDeadLetterInput) (lease : TaskLease) (within : Tx Unit) (now : Instant) : Tx Nat := do
  within
  let acked ← statement fun db => some (db.ack lease.taskId lease.leaseToken)
  if acked then insertDeadLetter input now else raise .leaseLost

/-- This operation stores a dead letter, with the acknowledgement of its task. -/
def addAndAck (input : AddDeadLetterInput) (lease : TaskLease) (within : Tx Unit) (now : Instant)
    (budget : Option Nat) (db : Database) : Except (Fault EngineError) Nat × Database :=
  withTransaction (addAndAckOn input lease within now) budget db

end DeadLetters

end DurableExecution.Engine

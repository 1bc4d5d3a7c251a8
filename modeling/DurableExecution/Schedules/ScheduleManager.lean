import DurableExecution.Engine.Projection
import DurableExecution.Schedules.Cron

/-
This file models the schedule manager: the tables it keeps and its transactions, each of
which holds the row lock of one schedule. Only the select that drains a buffer reads something
else than the row before it holds the lock, on the snapshot that the statement began with.
-/

namespace DurableExecution.Schedules

open Engine (RunId RunState)
open Workflow (JsValue WorkflowEvent)

inductive OverlapPolicy where
  | skip
  | bufferOne
  | allowAll
  deriving DecidableEq

inductive TriggerOutcome where
  | started
  | skipped
  | buffered
  deriving DecidableEq

inductive CatchUpPolicy where
  | latestOnly
  | all
  deriving DecidableEq

inductive ScheduleState where
  | active
  | paused
  | errored
  deriving DecidableEq

abbrev ScheduleId := Nat

/-- A row of `schedules`. Instants are milliseconds since the epoch. -/
structure ScheduleRow where
  id : ScheduleId
  namespaceId : Nat
  name : String
  cronExpression : String
  timeZone : String
  workflowType : String
  input : JsValue
  overlapPolicy : OverlapPolicy
  state : ScheduleState
  queueName : String
  catchUpPolicy : CatchUpPolicy
  catchUpWindowMs : Option Nat
  error : Option String
  nextFireAt : Option Int
  lastFiredAt : Option Int
  bufferedFor : Option Int

/-- A row of `schedule_triggers`. -/
structure TriggerRow where
  scheduleId : ScheduleId
  scheduledFor : Int
  outcome : TriggerOutcome
  runId : Option RunId

/-- A run as schedules see it, with the columns that they fill. -/
structure ScheduledRun where
  id : RunId
  namespaceId : Nat
  workflowType : String
  input : JsValue
  scheduleId : Option ScheduleId
  queueName : String
  status : RunState

/-- The first workflow task of a run that a schedule started, with its payload. -/
structure ScheduleTask where
  namespaceId : Nat
  runId : RunId
  queueName : String
  scheduleId : ScheduleId
  scheduledFor : Int

/-- The tables that schedules read and write. `events` holds the first events of their runs,
and `nextId` stands for the UUIDs that are still unused. -/
structure ScheduleTables where
  schedules : List ScheduleRow
  triggers : List TriggerRow
  runs : List ScheduledRun
  tasks : List ScheduleTask
  events : List (RunId × WorkflowEvent)
  nextId : Nat

/-- One trigger and what became of it. -/
structure ScheduleTrigger where
  scheduleId : ScheduleId
  scheduledFor : Int
  outcome : TriggerOutcome
  runId : Option RunId

section Tables

variable (tables : ScheduleTables)

def ScheduleTables.schedule? (id : ScheduleId) : Option ScheduleRow :=
  tables.schedules.find? fun row => row.id == id

/-- The rows of the ledger for an instant of a schedule. -/
def ScheduleTables.rowsFor (id : ScheduleId) (scheduledFor : Int) : List TriggerRow :=
  tables.triggers.filter fun row => row.scheduleId == id && row.scheduledFor == scheduledFor

def ScheduleTables.updateSchedule (id : ScheduleId) (change : ScheduleRow → ScheduleRow) : ScheduleTables :=
  { tables with schedules := tables.schedules.map fun row => if row.id = id then change row else row }

def ScheduleTables.updateTrigger (id : ScheduleId) (scheduledFor : Int) (change : TriggerRow → TriggerRow) :
    ScheduleTables :=
  { tables with triggers := tables.triggers.map fun row =>
      if row.scheduleId = id ∧ row.scheduledFor = scheduledFor then change row else row }

/-- The runs of a schedule that are open. -/
def ScheduleTables.openRuns (id : ScheduleId) : List ScheduledRun :=
  tables.runs.filter fun run => run.scheduleId == some id && run.status == .running

def ScheduleTables.hasOpenRun (id : ScheduleId) : Bool := !(tables.openRuns id).isEmpty

end Tables

section Transactions

variable (zones : ZoneTable)

/-- The run that `startRun` creates, and the tables with it. -/
def startRun (tables : ScheduleTables) (schedule : ScheduleRow) (scheduledFor : Int) : RunId × ScheduleTables :=
  let runId := tables.nextId
  (runId, { tables with
    runs := tables.runs ++ [{
      id := runId
      namespaceId := schedule.namespaceId
      workflowType := schedule.workflowType
      input := schedule.input.stored
      scheduleId := some schedule.id
      queueName := schedule.queueName
      status := .running }]
    events := tables.events ++ [(runId, .runStarted schedule.workflowType schedule.input)]
    tasks := tables.tasks ++ [⟨schedule.namespaceId, runId, schedule.queueName, schedule.id, scheduledFor⟩]
    nextId := runId + 1 })

/-- `on conflict (schedule_id, scheduled_for) do nothing`. -/
def recordTrigger (tables : ScheduleTables) (scheduleId : ScheduleId) (scheduledFor : Int) (outcome : TriggerOutcome)
    (runId : Option RunId) : ScheduleTables :=
  if (tables.rowsFor scheduleId scheduledFor).isEmpty then
    { tables with triggers := tables.triggers ++ [⟨scheduleId, scheduledFor, outcome, runId⟩] }
  else tables

/-- A trigger takes the place of the one that was buffered, which is skipped. -/
def replaceBuffered (tables : ScheduleTables) (schedule : ScheduleRow) (scheduledFor : Int) : ScheduleTables :=
  let updated := tables.updateSchedule schedule.id fun row => { row with bufferedFor := some scheduledFor }
  match schedule.bufferedFor with
  | some replaced => updated.updateTrigger schedule.id replaced fun row => { row with outcome := .skipped }
  | none => updated

/-- This operation starts, buffers or skips a trigger that has no row yet. -/
def handleTrigger (tables : ScheduleTables) (schedule : ScheduleRow) (scheduledFor : Int) :
    Option ScheduleTrigger × ScheduleTables :=
  if !(tables.rowsFor schedule.id scheduledFor).isEmpty then (none, tables)
  else if schedule.overlapPolicy = .allowAll ∨ tables.hasOpenRun schedule.id = false then
    let (runId, tables) := startRun tables schedule scheduledFor
    (some ⟨schedule.id, scheduledFor, .started, some runId⟩,
      recordTrigger tables schedule.id scheduledFor .started (some runId))
  else if schedule.overlapPolicy = .bufferOne then
    (some ⟨schedule.id, scheduledFor, .buffered, none⟩,
      recordTrigger (replaceBuffered tables schedule scheduledFor) schedule.id scheduledFor .buffered none)
  else (some ⟨schedule.id, scheduledFor, .skipped, none⟩,
    recordTrigger tables schedule.id scheduledFor .skipped none)

/-- `order by` an instant and the id. -/
def orderRows (instant : ScheduleRow → Option Int) (rows : List ScheduleRow) : List ScheduleRow :=
  rows.insertionSort fun one two => (instant one).getD 0 < (instant two).getD 0 ∨
    (instant one).getD 0 = (instant two).getD 0 ∧ one.id ≤ two.id

/-- `order by` an instant and the id, `limit 1`. -/
def firstRow (instant : ScheduleRow → Option Int) (rows : List ScheduleRow) : Option ScheduleRow :=
  (orderRows instant rows).head?

/-- The columns of a schedule let its buffered trigger start. -/
def ScheduleRow.waits (row : ScheduleRow) (queueName : String) : Bool :=
  row.state == .active && row.bufferedFor.isSome && row.queueName == queueName

/-- The next schedule whose buffered trigger may start. The statement looks for the rows and for their
open runs in its snapshot. It takes the first row that others do not hold and whose own columns, as they
are once it holds the row, still let it start; the open runs are not looked for again. -/
def selectBuffered (snapshot tables : ScheduleTables) (queueName : String) (locked : ScheduleId → Bool) :
    Option ScheduleRow :=
  (orderRows ScheduleRow.bufferedFor (snapshot.schedules.filter fun row =>
    row.waits queueName && !snapshot.hasOpenRun row.id)).findSome? fun row =>
      if locked row.id then none else (tables.schedule? row.id).filter fun row => row.waits queueName

def drainNextBuffer (snapshot tables : ScheduleTables) (queueName : String) (locked : ScheduleId → Bool) :
    Option ScheduleTrigger × ScheduleTables :=
  match selectBuffered snapshot tables queueName locked with
  | none => (none, tables)
  | some schedule =>
    match schedule.bufferedFor with
    | none => (none, tables)
    | some scheduledFor =>
      let (runId, tables) := startRun tables schedule scheduledFor
      let tables := tables.updateTrigger schedule.id scheduledFor fun row =>
        { row with outcome := .started, runId := some runId }
      (some ⟨schedule.id, scheduledFor, .started, some runId⟩,
        tables.updateSchedule schedule.id fun row => { row with bufferedFor := none })

def latestInstantUntil (schedule : CronSchedule) (latest now : Int) : Except CronError Int :=
  match found : nextCronTime zones schedule latest with
  | .error error => .error error
  | .ok next => if now < next then .ok latest else latestInstantUntil schedule next now
termination_by (now + 1 - latest).toNat
decreasing_by
  have later := nextCronTime_later found
  omega

def catchUpInstant (row : ScheduleRow) (schedule : CronSchedule) (now : Int) : Except CronError Int :=
  let due := row.nextFireAt.getD now
  match row.catchUpPolicy with
  | .latestOnly => latestInstantUntil zones schedule due now
  | .all =>
    match row.catchUpWindowMs with
    | none => .ok due
    | some window =>
      let cutoff := now - window
      if due < cutoff then nextCronTime zones schedule (cutoff - 1) else .ok due

def markErrored (tables : ScheduleTables) (id : ScheduleId) (reason : String) : ScheduleTables :=
  tables.updateSchedule id fun row => { row with state := .errored, error := some reason, nextFireAt := none }

/-- The next schedule that is due. Rows that others hold are skipped. -/
def selectDue (tables : ScheduleTables) (queueName : String) (locked : ScheduleId → Bool) (now : Int) :
    Option ScheduleRow :=
  firstRow ScheduleRow.nextFireAt (tables.schedules.filter fun row =>
    row.state == .active && row.nextFireAt.any (fun due => due ≤ now) && row.queueName == queueName && !locked row.id)

/-- What `fireNextDue` does with a schedule that is due. An expression that never matches marks the
schedule and keeps what was written before; any other error rolls the transaction back. -/
def fireSchedule (tables : ScheduleTables) (schedule : ScheduleRow) (now : Int) :
    Except CronError (Option ScheduleTrigger) × ScheduleTables :=
  match (do
    let parsed ← parseCron zones schedule.cronExpression schedule.timeZone
    let scheduledFor ← catchUpInstant zones schedule parsed now
    pure (parsed, scheduledFor)) with
  | .error (.invalidSchedule message) => (.ok none, markErrored tables schedule.id message)
  | .error error => (.error error, tables)
  | .ok (parsed, scheduledFor) =>
    let (trigger, handled) := if scheduledFor ≤ now then handleTrigger tables schedule scheduledFor else (none, tables)
    match nextCronTime zones parsed scheduledFor with
    | .error (.invalidSchedule message) => (.ok none, markErrored handled schedule.id message)
    | .error error => (.error error, tables)
    | .ok next => (.ok trigger, handled.updateSchedule schedule.id fun row =>
      { row with nextFireAt := some next, lastFiredAt := if trigger.isSome then some scheduledFor else row.lastFiredAt })

def fireNextDue (tables : ScheduleTables) (queueName : String) (locked : ScheduleId → Bool) (now : Int) :
    Except CronError (Option ScheduleTrigger) × ScheduleTables :=
  match selectDue tables queueName locked now with
  | none => (.ok none, tables)
  | some schedule => fireSchedule zones tables schedule now

def pause (tables : ScheduleTables) (id : ScheduleId) : ScheduleTables :=
  tables.updateSchedule id fun row => { row with state := .paused }

def resume (tables : ScheduleTables) (id : ScheduleId) (now : Int) : ScheduleTables :=
  match tables.schedule? id with
  | none => tables
  | some row =>
    match (do
      let parsed ← parseCron zones row.cronExpression row.timeZone
      nextCronTime zones parsed now) with
    | .error (.invalidSchedule message) => markErrored tables id message
    | .error _ => tables
    | .ok next => tables.updateSchedule id fun row =>
      { row with state := .active, nextFireAt := some next, error := none }

/-- Every matching instant from one time up to another, at most `limit`. -/
def cronTimesBetween (schedule : CronSchedule) (to' : Int) : Nat → Int → Except CronError (List Int)
  | 0, _ => .ok []
  | limit + 1, cursor => do
    let next ← nextCronTime zones schedule cursor
    if to' ≤ next then pure []
    else
      let rest ← cronTimesBetween schedule to' limit next
      pure (next :: rest)

/-- The instants that a backfill handles, from the schedule as it is stored. -/
def backfillInstants (tables : ScheduleTables) (id : ScheduleId) (from' to' : Int) : Except CronError (List Int) :=
  match tables.schedule? id with
  | none => .ok []
  | some row => do
    let parsed ← parseCron zones row.cronExpression row.timeZone
    cronTimesBetween zones parsed to' 10000 (from' - 1)

/-- The transaction of one instant of a backfill. -/
def backfillTrigger (tables : ScheduleTables) (id : ScheduleId) (scheduledFor : Int) : ScheduleTables :=
  match tables.schedule? id with
  | none => tables
  | some row => (handleTrigger tables row scheduledFor).2

/-- What `create` needs. -/
structure CreateScheduleInput where
  namespaceId : Nat
  name : String
  cronExpression : String
  workflowType : String
  input : JsValue
  timeZone : String
  overlapPolicy : OverlapPolicy
  catchUpPolicy : CatchUpPolicy
  catchUpWindowMs : Option Nat

/-- The schedule that is created looks for triggers after `startAt`. -/
def createSchedule (tables : ScheduleTables) (queueName : String) (input : CreateScheduleInput) (startAt : Int) :
    ScheduleTables :=
  match (do
    let parsed ← parseCron zones input.cronExpression input.timeZone
    let first ← nextCronTime zones parsed startAt
    pure (parsed, first)) with
  | .error _ => tables
  | .ok (parsed, first) =>
    if input.catchUpWindowMs = some 0 ∨
        tables.schedules.any (fun row => row.namespaceId == input.namespaceId && row.name == input.name) then tables
    else { tables with
      schedules := tables.schedules ++ [{
        id := tables.nextId
        namespaceId := input.namespaceId
        name := input.name
        cronExpression := parsed.expression
        timeZone := input.timeZone
        workflowType := input.workflowType
        input := (Engine.JsValue.orEmpty input.input).stored
        overlapPolicy := input.overlapPolicy
        state := .active
        queueName := queueName
        catchUpPolicy := input.catchUpPolicy
        catchUpWindowMs := input.catchUpWindowMs
        error := none
        nextFireAt := some first
        lastFiredAt := none
        bufferedFor := none }]
      nextId := tables.nextId + 1 }

end Transactions

section Runs

/-- A run is closed by the engine, or left as it is when it is closed already. -/
def closeRun (tables : ScheduleTables) (runId : RunId) (status : RunState) : ScheduleTables :=
  { tables with runs := tables.runs.map fun run =>
      if run.id = runId ∧ run.status = .running then { run with status := status } else run }

/-- An open run continues as a new one, which keeps its schedule. -/
def continueRun (tables : ScheduleTables) (runId : RunId) (input : JsValue) : ScheduleTables :=
  match tables.runs.find? fun run => run.id == runId && run.status == .running with
  | none => tables
  | some run =>
    let closed := closeRun tables runId .continuedAsNew
    { closed with
      runs := closed.runs ++ [{ run with id := tables.nextId, input := (Engine.JsValue.orEmpty input).stored }]
      nextId := tables.nextId + 1 }

/-- Anything else of the engine creates a run that has no schedule. -/
def createRun (tables : ScheduleTables) (run : ScheduledRun) : ScheduleTables :=
  { tables with
    runs := tables.runs ++ [{ run with id := tables.nextId, scheduleId := none, status := .running }]
    nextId := tables.nextId + 1 }

end Runs

end DurableExecution.Schedules

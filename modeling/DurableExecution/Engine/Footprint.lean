import DurableExecution.Engine.Recording

/-
This file names the part of the database that records what decisions created, and says
that the closing of a run leaves that part alone.
-/

namespace DurableExecution.Engine

open Workflow (JsValue WorkflowEvent Instant)
open Transaction
open Relation (ReflTransGen)

/-- A task that is created once: the task of a step or the first task of a child. -/
structure LastingTask where
  runId : RunId
  queueName : String
  payload : TaskPayload

def WakeReason.startsChild : WakeReason → Bool
  | .childStarted .. => true
  | _ => false

def TaskPayload.lasts : TaskPayload → Bool
  | .stepTask .. => true
  | .workflowTask reason => reason.startsChild

def TaskRow.lasting (task : TaskRow) : Option LastingTask :=
  if task.payload.lasts then some ⟨task.runId, task.queueName, task.payload⟩ else none

/-- The rows that recorded decisions and step results leave behind, without the columns
that the closing of a run changes. -/
structure Footprint where
  runs : List RunRow
  timers : List TimerRow
  tasks : List LastingTask
  stepResults : List StepResultRow
  taskResults : List TaskResultRow
  snapshots : List SnapshotRow

def Database.footprint (db : Database) : Footprint where
  runs := db.runs.map RunRow.identity
  timers := db.timers
  tasks := db.tasks.filterMap TaskRow.lasting
  stepResults := db.stepResults
  taskResults := db.taskResults
  snapshots := db.snapshots

/-- The events that only a recorded decision or a step result appends. -/
def WorkflowEvent.isRecorded : WorkflowEvent → Bool
  | .childStarted .. | .runContinuedAsNew _ | .stepScheduled .. | .timerStarted .. | .stepCompleted ..
  | .stepFailed .. => true
  | _ => false

/-- Every log goes on, with events that no recorder appends. -/
def LogsGoOn (db db' : Database) : Prop :=
  ∀ runId, ∃ more, db'.log runId = db.log runId ++ more ∧ ∀ event ∈ more, WorkflowEvent.isRecorded event = false

section Settling

variable {now : Instant} {runId : RunId} {db db' db'' : Database}

theorem LogsGoOn.refl : LogsGoOn db db := fun _ => ⟨[], by simp, fun _ member => (List.not_mem_nil member).elim⟩

theorem LogsGoOn.trans (first : LogsGoOn db db') (second : LogsGoOn db' db'') : LogsGoOn db db'' := by
  intro other
  obtain ⟨more, extended, plain⟩ := first other
  obtain ⟨more', extended', plain'⟩ := second other
  refine ⟨more ++ more', by rw [extended', extended, List.append_assoc], fun event member => ?_⟩
  rcases List.mem_append.mp member with before | after
  · exact plain event before
  · exact plain' event after

theorem LogsGoOn.appended {event : WorkflowEvent} (plain : WorkflowEvent.isRecorded event = false) :
    LogsGoOn db (db.appended runId [event] now) := by
  intro other
  refine ⟨if other = runId then [event] else [], Database.appended_log, fun stored member => ?_⟩
  split at member
  · rw [List.mem_singleton.mp member]
    exact plain
  · exact (List.not_mem_nil member).elim

theorem childOutcomeEvent_plain (childId : String) (projection : RunProjection) :
    WorkflowEvent.isRecorded (childOutcomeEvent childId projection) = false := by
  unfold childOutcomeEvent
  split <;> rfl

theorem Waking.plain {event : WorkflowEvent} {reason : WakeReason} (waking : Waking db runId event reason) :
    WorkflowEvent.isRecorded event = false := by
  cases waking with
  | outcome childId projection => exact childOutcomeEvent_plain childId projection
  | cancel reason unasked => rfl

theorem Database.withdrawTasks_lasting : (db.withdrawTasks runId).tasks.filterMap TaskRow.lasting = db.tasks.filterMap TaskRow.lasting := by
  simp only [Database.withdrawTasks, List.filterMap_map]
  refine List.filterMap_congr fun task _ => ?_
  simp only [Function.comp_apply]
  split <;> rfl

/-- A change of a closing leaves the footprint alone. -/
theorem Settling.footprint (step : Settling now db db') : db'.footprint = db.footprint := by
  cases step with
  | withdrawn found closed =>
    simp only [Database.footprint, Database.withdrawTasks_lasting]
    rfl
  | @woken _ row event reason found running waking =>
    have tasks : (db.woken row event reason now).tasks.filterMap TaskRow.lasting =
        db.tasks.filterMap TaskRow.lasting := by
      change (db.tasks ++ [_]).filterMap TaskRow.lasting = _
      rw [List.filterMap_append]
      have unlasting : (newTask row.namespaceId row.id row.queueName (.workflowTask reason) now.ms
          (db.appended row.id [event] now).nextId).lasting = none := by
        cases waking <;> rfl
      rw [List.filterMap_cons_none unlasting, List.filterMap_nil, List.append_nil]
    simp only [Database.footprint, tasks]
    rfl
  | terminated found running folds =>
    simp only [Database.footprint, Database.updateRun_identity]
    rfl

theorem Settling.logsGoOn (step : Settling now db db') : LogsGoOn db db' := by
  cases step with
  | withdrawn found closed => exact .refl
  | woken found running waking => exact .appended waking.plain
  | terminated found running folds => exact .appended rfl

theorem settling_footprint (steps : ReflTransGen (Settling now) db db') : db'.footprint = db.footprint ∧ LogsGoOn db db' := by
  induction steps with
  | refl => exact ⟨rfl, .refl⟩
  | tail _ step ih => exact ⟨step.footprint.trans ih.1, ih.2.trans step.logsGoOn⟩

/-- The closing of a run leaves the footprint alone. -/
theorem Closes.footprint {row : RunRow} {next : RunProjection} (closes : Closes now runId row next db db') :
    db'.footprint = db.footprint ∧ LogsGoOn db db' := by
  obtain ⟨kept, logs⟩ := settling_footprint closes.settled.steps
  refine ⟨kept.trans ?_, logs⟩
  simp only [Database.footprint, Database.updateRun_identity]
  rfl

theorem ClosesIf.footprint {closing : Bool} (closes : ClosesIf closing now runId db db') :
    db'.footprint = db.footprint ∧ LogsGoOn db db' := by
  unfold ClosesIf at closes
  split at closes
  · obtain ⟨row, next, closes⟩ := closes
    exact closes.footprint
  · rw [closes]
    exact ⟨rfl, .refl⟩

end Settling

end DurableExecution.Engine

import DurableExecution.Engine.ChildRuns

/-
This file models the closing of a run: its waiting tasks are withdrawn, its parent
learns the outcome and its children meet their close policies.
-/

namespace DurableExecution.Engine

open Workflow (JsValue RecordedError WorkflowEvent ParentClosePolicy Instant)
open Transaction

section Operations

def childFailure (name message : String) : RecordedError := .mk name (some message) none none

/-- The event that tells a parent how its child closed. -/
def childOutcomeEvent (childId : String) (projection : RunProjection) : WorkflowEvent :=
  match projection.state with
  | .completed => .childCompleted childId projection.result
  | .failed => .childFailed childId (projection.error.getD (childFailure "Error" "child workflow failed"))
  | .timedOut => .childFailed childId (childFailure "TimedOutError" "child workflow timed out")
  | .cancelled => .childFailed childId (childFailure "CancelledError" "child workflow was cancelled")
  | _ => .childFailed childId (childFailure "TerminatedError" "child workflow was terminated")

/-- The parent of a run, and the child id that the head of its chain has there. -/
def Database.parentLink (db : Database) (runId : RunId) : Option (RunId × String) := do
  let row ← db.run? runId
  let head ← db.run? row.firstRunId
  let parentRunId ← row.parentRunId
  let childId ← row.parentChildId.or head.parentChildId
  pure (parentRunId, childId)

/-- This operation records the outcome of a closed child in the log of its open parent. -/
def notifyParent (runId : RunId) (projection : RunProjection) (now : Instant) : Tx Unit := do
  if projection.state = .continuedAsNew then pure ()
  else
    match ← select fun db => db.parentLink runId with
    | none => pure ()
    | some (parentRunId, childId) =>
      match ← select fun db => db.run? parentRunId with
      | none => pure ()
      | some parent =>
        if parent.status ≠ .running then pure ()
        else
          discard (appendNext parentRunId [childOutcomeEvent childId projection] now)
          match ← select fun db => db.run? parentRunId with
          | none => raise (.missingRun parentRunId)
          | some row =>
            insertWorkflowTask parent.namespaceId parentRunId row.queueName (.childClosed childId) now

/-- This operation records a request to cancel, unless one is pending. -/
def requestCancellation (runId : RunId) (namespaceId : Nat) (queueName : String) (reason : Option String)
    (now : Instant) : Tx Unit := do
  let history ← readEvents runId 0
  if history.any fun stored => stored.event.isCancelRequested then pure ()
  else
    discard (appendNext runId [.cancelRequested reason] now)
    insertWorkflowTask namespaceId runId queueName .cancel now

def Database.openChildren (db : Database) (parentRunId : RunId) : List RunRow :=
  db.runs.filter fun row => row.parentRunId == some parentRunId && row.status == .running

/-- What a closing parent does to one of its open children. -/
def applyParentClosePolicy (close : RunId → Tx Unit) (child : RunRow) (now : Instant) : Tx Unit :=
  match child.parentClosePolicy with
  | some .cancel => do
    match ← select fun db => db.run? child.id with
    | none => raise (.missingRun child.id)
    | some row => requestCancellation child.id child.namespaceId row.queueName (some "parent run closed") now
  | some .terminate => do
    discard (appendNext child.id [.runTerminated (some "parent run closed")] now)
    close child.id
  | _ => pure ()

def applyParentClosePolicies (close : RunId → Tx Unit) (parentRunId : RunId) (now : Instant) : Tx Unit := do
  let children ← select fun db => db.openChildren parentRunId
  children.forM fun child => applyParentClosePolicy close child now

/-- Tasks that wait for a worker are withdrawn. -/
def Database.withdrawTasks (db : Database) (runId : RunId) : Database :=
  { db with tasks := db.tasks.map fun task =>
    if task.runId = runId ∧ task.state = .pending then { task with state := .completed } else task }

/-- This operation brings a run's row up to date and, when the run is closed, settles what
hangs on it. Children of children close first, `depth` levels down. -/
def closeRunIfTerminal (now : Instant) : (depth : Nat) → RunId → Tx Unit
  | 0, _ => raise .closingTooDeep
  | depth + 1, runId => do
    let projection ← refreshProjection runId
    if isTerminalState projection.state then
      write fun db => db.withdrawTasks runId
      notifyParent runId projection now
      applyParentClosePolicies (closeRunIfTerminal now depth) runId now
    else pure ()

/-- Each level closes a run that was open, so there are no more levels than runs. -/
def closeRun (runId : RunId) (now : Instant) : Tx Unit := fun session =>
  closeRunIfTerminal now (session.store.runs.length + 1) runId session

end Operations

end DurableExecution.Engine

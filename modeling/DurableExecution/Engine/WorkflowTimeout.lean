import DurableExecution.Engine.Frames

/-
This file models the timeout that a caller enforces on a run, beside the timeouts that timers
enforce, and runs it among the other operations.
-/

namespace DurableExecution.Engine

open Workflow (JsNumber WorkflowEvent Instant)
open Transaction

section Timeout

/-- The instant a run that started at `startedAt` must be over by, unless no date represents it. -/
def workflowDeadline (startedAt : Instant) : JsNumber → Option Instant
  | .finite timeoutMs => startedAt.after timeoutMs
  | .negZero => some startedAt
  | _ => none

inductive WorkflowTimeoutOutcome where
  | timedOut
  | withinDeadline
  | closed

/-- Whether a deadline lies ahead; nothing lies before an invalid date. -/
def isWithinDeadline (now : Instant) (deadline : Option Instant) : Bool := deadline.any fun deadline => now.ms < deadline.ms

/-- The statements of `enforceWorkflowTimeout`. The read is a statement of its own in the source;
an append in between makes the append here fail on its sequence number. -/
def enforceWorkflowTimeoutOn (runId : RunId) (timeoutMs : JsNumber) (now : Instant) : Tx WorkflowTimeoutOutcome := do
  let stored ← readEvents runId 0
  match stored.head? with
  | none => pure .withinDeadline
  | some first =>
    let projection ← liftExcept (foldRunEvents stored createInitialProjection)
    if isTerminalState projection.state then pure .closed
    else if isWithinDeadline now (workflowDeadline first.createdAt timeoutMs) then pure .withinDeadline
    else
      discard (appendEvents runId projection.lastSequenceNumber [.runTimedOut none] now)
      pure .timedOut

/-- The deadline of an open run has passed. -/
def Database.isOverdue (db : Database) (runId : RunId) (timeoutMs : JsNumber) (now : Instant) : Bool :=
  match (db.unseen runId 0).head?, foldRunEvents (db.unseen runId 0) createInitialProjection with
  | some first, .ok projection =>
    !isTerminalState projection.state && !isWithinDeadline now (workflowDeadline first.createdAt timeoutMs)
  | _, _ => false

end Timeout

/-- The operations of the core that write to the logs of runs. -/
inductive CoreOp where
  | engine (op : EngineOp)
  | enforceWorkflowTimeout (runId : RunId) (timeoutMs : JsNumber)

def CoreOp.work (now : Instant) : CoreOp → Tx Unit
  | .engine op => op.work now
  | .enforceWorkflowTimeout runId timeoutMs => discard (enforceWorkflowTimeoutOn runId timeoutMs now)

/-- An operation as one transaction, in which any statement may fail. -/
def CoreOp.run (op : CoreOp) (now : Instant) (budget : Option Nat) (db : Database) : Database :=
  (withTransaction (op.work now) budget db).2

/-- No caller enforces a timeout on a run that is overdue. -/
def CoreOp.inTime (op : CoreOp) (now : Instant) (db : Database) : Prop :=
  match op with
  | .engine _ => True
  | .enforceWorkflowTimeout runId timeoutMs => db.isOverdue runId timeoutMs now = false

/-- Operations run one after the other, in any order and with a failure possible at any
statement, from an empty database. Each of them meets a condition. -/
inductive CoreRun (meets : CoreOp → Instant → Database → Prop) : Database → Prop
  | empty : CoreRun meets emptyDatabase
  | step {db : Database} (run : CoreRun meets db) (op : CoreOp) (now : Instant) (met : meets op now db)
      (budget : Option Nat) : CoreRun meets (op.run now budget db)

section Specs

variable {db : Database} {now : Instant}

/-- A timeout that is not overdue changes nothing. -/
theorem enforceWorkflowTimeoutOn_idle {runId : RunId} {timeoutMs : JsNumber} (idle : db.isOverdue runId timeoutMs now = false) :
    Ensures (· = db) (enforceWorkflowTimeoutOn runId timeoutMs now) fun _ => (· = db) := by
  unfold enforceWorkflowTimeoutOn readEvents
  refine .read ?_
  change db.isOverdue runId timeoutMs now = false at idle
  unfold Database.isOverdue at idle
  change Ensures _ (match (db.unseen runId 0).head? with
    | none => _
    | some first => liftExcept (foldRunEvents (db.unseen runId 0) createInitialProjection) >>= _) _
  cases head : (db.unseen runId 0).head? with
  | none => exact .pure fun _ => id
  | some first =>
    dsimp only
    cases folds : foldRunEvents (db.unseen runId 0) createInitialProjection with
    | error error => exact .through (fun _ _ => False) .raise fun _ _ _ _ => False.elim
    | ok projection =>
      simp only [head, folds] at idle
      refine .through (fun answer db' => db' = db ∧ answer = projection) (.pure fun _ same => ⟨same, rfl⟩) fun answer => ?_
      refine .each ?_
      rintro _ ⟨rfl, rfl⟩
      split
      · exact .pure fun _ => id
      · next open' =>
          rw [Bool.eq_false_iff.mpr open', Bool.not_false, Bool.true_and, Bool.not_eq_false'] at idle
          rw [if_pos idle]
          exact .pure fun _ => id

/-- A timeout writes one event. -/
theorem enforceWorkflowTimeoutOn_kept {quiet : WorkflowEvent → Prop} {relation : Database → Database → Prop}
    (frame : Frame quiet relation) (runId : RunId) (timeoutMs : JsNumber) :
    Keeps relation (enforceWorkflowTimeoutOn runId timeoutMs now) := by
  refine frame.log.read fun stored => ?_
  cases stored.head? with
  | none => exact frame.log.done _
  | some first =>
    refine frame.log.then (liftExcept_kept frame.log _) fun projection => ?_
    split
    · exact frame.log.done _
    · split
      · exact frame.log.done _
      · refine frame.log.then (appendEvents_kept frame.log _ _ _ fun event listed => ?_).discard fun _ => frame.log.done _
        exact frame.control _ (List.mem_singleton.mp listed ▸ rfl)

end Specs

end DurableExecution.Engine

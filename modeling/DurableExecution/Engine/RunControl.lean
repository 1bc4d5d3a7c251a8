import DurableExecution.Engine.Recorder

/-
This file models what else writes to the log of a run: signals, requests to cancel, the
termination of a run, timers and failed step attempts.
-/

namespace DurableExecution.Engine

open Workflow (JsValue RecordedError WorkflowEvent TimeoutKind Instant)
open Transaction

section Control

variable (now : Instant)

/-- The row of a run that is still open, locked after its parent's. -/
def lockOpenRun (runId : RunId) : Tx RunRow := do
  match ← lockRunWithParent runId with
  | none => raise (.missingRun runId)
  | some row => if row.status ≠ .running then raise (.runNotOpen runId row.status) else pure row

/-- The statements of `signalRun`. -/
def signalRunOn (runId : RunId) (signalName : String) (payload : JsValue) : Tx Unit := do
  match ← select fun db => db.run? runId with
  | none => raise (.missingRun runId)
  | some row =>
    if row.status ≠ .running then raise (.runNotOpen runId row.status)
    else
      discard (appendNext runId [.signalReceived signalName payload] now)
      insertWorkflowTask row.namespaceId runId row.queueName (.signal signalName) now

/-- The statements of `cancelRun`. -/
def cancelRunOn (runId : RunId) (reason : Option String) : Tx Unit := do
  let row ← lockOpenRun runId
  requestCancellation runId row.namespaceId row.queueName reason now

/-- The statements of `terminateRun`. -/
def terminateRunOn (runId : RunId) (reason : Option String) : Tx Unit := do
  discard (lockOpenRun runId)
  discard (appendNext runId [.runTerminated reason] now)
  closeRun runId now

/-- The timeout that a timer stands for. -/
def timeoutKindOf (timerId : String) : TimeoutKind := if timerId = executionTimeoutTimerId then .execution else .run

/-- The statements of `timeOutRunOnClient`: a run whose timeout came due is closed, unless it is closed. -/
def timeOutRunOn (runId : RunId) (timerId : String) : Tx Bool := do
  let row ← lockRunWithParent runId
  if (row.map fun run => isTerminalState run.status).getD true then pure false
  else
    discard (appendNext runId [.runTimedOut (some (timeoutKindOf timerId))] now)
    closeRun runId now
    pure true

end Control

section Timers

def TimerRow.isNamed (timer : TimerRow) (runId : RunId) (timerId : String) : Bool :=
  timer.runId == runId && timer.timerId == timerId

/-- A pending timer of this queue whose time has come. -/
def Database.dueTimer? (db : Database) (queueName : String) (runId : RunId) (timerId : String) (now : Instant) :
    Option TimerRow :=
  db.timers.find? fun timer => timer.isNamed runId timerId && timer.state == .pending &&
    decide (timer.fireAt.ms ≤ now.ms) && (db.run? runId).any fun row => row.queueName == queueName

def Database.setTimer (db : Database) (runId : RunId) (timerId : String) (state : TimerState) : Database :=
  { db with timers := db.timers.map fun timer =>
    if timer.isNamed runId timerId then { timer with state := state } else timer }

/-- One round of `fireNext` for the due timer that the scheduler picked. Ties between due
timers are broken by their random ids. -/
def fireNextOn (queueName : String) (runId : RunId) (timerId : String) (now : Instant) : Tx Unit := do
  match ← select fun db => db.dueTimer? queueName runId timerId now with
  | none => pure ()
  | some timer =>
    if isTimeoutTimerId timer.timerId then
      let closed ← timeOutRunOn now runId timerId
      write fun db => db.setTimer runId timerId (if closed then .fired else .cancelled)
    else
      let row ← select fun db => (db.run? runId).filter fun row => row.status == .running
      match row with
      | none => write fun db => db.setTimer runId timerId .cancelled
      | some row =>
        discard (appendNext runId [.timerFired timerId] now)
        write fun db => db.setTimer runId timerId .fired
        write fun db => db.addTask
          (newTask row.namespaceId runId row.queueName (.workflowTask (.timerFired timerId)) timer.fireAt.ms)

end Timers

section Attempts

structure RecordAttemptFailureInput where
  runId : RunId
  stepId : String
  attempt : Nat
  error : RecordedError
  retryAt : Option Instant

/-- The name and the message of an error. -/
def attemptError : RecordedError → RecordedError
  | .mk name message _ _ => .mk name message none none

/-- `on conflict (run_id, step_id, attempt) do nothing`, with the foreign key on the run. -/
def insertStepAttempt (row : AttemptRow) : Tx Bool := statement fun db =>
  if db.stepAttempts.any fun other =>
      other.runId == row.runId && other.stepId == row.stepId && other.attempt == row.attempt
  then some (false, db)
  else if (db.run? row.runId).isSome then some (true, { db with stepAttempts := db.stepAttempts ++ [row] })
  else none

/-- The statements of `recordFailure`. The run's row is locked, but its status is not read. -/
def recordFailureOn (input : RecordAttemptFailureInput) (now : Instant) : Tx Bool := do
  discard (select fun db => db.run? input.runId)
  let inserted ← insertStepAttempt ⟨input.runId, input.stepId, input.attempt, input.error, input.retryAt⟩
  if inserted then
    discard (appendNext input.runId
      [.stepAttemptFailed input.stepId input.attempt (attemptError input.error) input.retryAt] now)
    pure true
  else pure false

/-- One more than the highest attempt of the step that failed so far. -/
def Database.nextAttempt (db : Database) (runId : RunId) (stepId : String) : Nat :=
  (((db.stepAttempts.filter fun row => row.runId == runId && row.stepId == stepId).map AttemptRow.attempt).max?.getD 0) + 1

end Attempts

end DurableExecution.Engine

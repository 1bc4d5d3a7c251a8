import DurableExecution.Engine.Schema

/-
This file models the states of a run and the read model that is folded from its log.
-/

namespace DurableExecution.Engine

open Workflow (JsValue RecordedError WorkflowEvent)

/-- The permitted transitions: a running run may move to any terminal state. -/
def runStateTransitions : RunState → List RunState
  | .running => [.completed, .failed, .timedOut, .cancelled, .terminated, .continuedAsNew]
  | _ => []

def isTerminalState (state : RunState) : Bool := (runStateTransitions state).isEmpty

def terminalStateFor : WorkflowEvent → Option RunState
  | .runCompleted _ => some .completed
  | .runFailed _ => some .failed
  | .runTimedOut _ => some .timedOut
  | .runCancelled _ => some .cancelled
  | .runTerminated _ => some .terminated
  | .runContinuedAsNew _ => some .continuedAsNew
  | _ => none

/-- `value ?? {}`. -/
def JsValue.orEmpty : JsValue → JsValue
  | .undefined => .object []
  | .null => .object []
  | value => value

/-- `value ?? null`. -/
def JsValue.orNull : JsValue → JsValue
  | .undefined => .null
  | value => value

def createInitialProjection : RunProjection where
  state := .running
  input := .object []
  result := .null
  error := none
  closedAt := none
  lastSequenceNumber := 0

/-- This function applies one stored event to a projection, or refuses it. -/
def applyEventToProjection (projection : RunProjection) (stored : EventRow) :
    Except EngineError RunProjection :=
  if stored.sequenceNumber ≠ projection.lastSequenceNumber + 1 then
    .error (.sequenceGap (projection.lastSequenceNumber + 1) stored.sequenceNumber)
  else if isTerminalState projection.state then
    .error (.invalidTransition projection.state stored.event)
  else
    let advanced := { projection with lastSequenceNumber := stored.sequenceNumber }
    match terminalStateFor stored.event with
    | some target =>
      if target ∈ runStateTransitions projection.state then
        let closed := { advanced with state := target, closedAt := some stored.createdAt }
        match stored.event with
        | .runCompleted result => .ok { closed with result := JsValue.orNull result }
        | .runFailed error => .ok { closed with error := some error }
        | _ => .ok closed
      else .error (.invalidTransition projection.state stored.event)
    | none =>
      match stored.event with
      | .runStarted _ input => .ok { advanced with input := JsValue.orEmpty input }
      | _ => .ok advanced

def foldRunEvents (events : List EventRow) (start : RunProjection) : Except EngineError RunProjection :=
  events.foldlM applyEventToProjection start

/-- The columns of a run's row that its projection fills. -/
def projectionFromRow (row : RunRow) : RunProjection where
  state := row.status
  input := row.input
  result := row.result
  error := row.error
  closedAt := row.closedAt
  lastSequenceNumber := row.lastSequenceNumber

def RunRow.withProjection (row : RunRow) (projection : RunProjection) : RunRow :=
  { row with
    status := projection.state
    input := projection.input
    result := projection.result
    error := projection.error
    closedAt := projection.closedAt
    lastSequenceNumber := projection.lastSequenceNumber }

section Facts

variable {projection next : RunProjection} {stored : EventRow}

theorem isTerminalState_iff (state : RunState) : isTerminalState state = true ↔ state ≠ .running := by
  cases state <;> simp [isTerminalState, runStateTransitions]

theorem terminalStateFor_isClosing (event : WorkflowEvent) : (terminalStateFor event).isSome = event.isClosing := by
  cases event <;> rfl

theorem terminalStateFor_terminal (event : WorkflowEvent) (target : RunState)
    (closes : terminalStateFor event = some target) : isTerminalState target = true := by
  cases event <;> cases closes <;> rfl

/-- What one accepted event does: it is the next one of an open run, and it closes the
run exactly when it is a closing event. -/
theorem applyEventToProjection_ok (applied : applyEventToProjection projection stored = .ok next) :
    stored.sequenceNumber = projection.lastSequenceNumber + 1 ∧
      next.lastSequenceNumber = stored.sequenceNumber ∧ projection.state = .running ∧
      next.state = (terminalStateFor stored.event).getD .running := by
  unfold applyEventToProjection at applied
  split at applied
  · cases applied
  · next following =>
      split at applied
      · cases applied
      · next open' =>
          have running : projection.state = .running := by
            by_contra closed
            exact open' ((isTerminalState_iff _).mpr closed)
          refine ⟨by simpa using following, ?_⟩
          cases closes : terminalStateFor stored.event with
          | some target =>
            simp only [closes] at applied
            split at applied
            · split at applied <;> cases applied <;> exact ⟨rfl, running, rfl⟩
            · cases applied
          | none =>
            simp only [closes] at applied
            split at applied <;> cases applied <;> exact ⟨rfl, running, running⟩

/-- An open projection accepts the next event. -/
theorem applyEventToProjection_open (following : stored.sequenceNumber = projection.lastSequenceNumber + 1)
    (running : projection.state = .running) : ∃ next, applyEventToProjection projection stored = .ok next := by
  unfold applyEventToProjection
  rw [if_neg (by simpa using following), running, if_neg (by decide)]
  cases stored.event <;> exact ⟨_, rfl⟩

end Facts

end DurableExecution.Engine

import DurableExecution.Engine.Projection

/-
This file models the append-only log of a run and the statements that read and extend
it. All writers of one run hold its row lock until they commit, so a transaction is one
step of the system.
-/

namespace DurableExecution.Engine

open Workflow (JsValue RecordedError WorkflowEvent Instant)
open Transaction

section Operations

def liftExcept {A : Type} : Except EngineError A → Tx A
  | .ok answer => pure answer
  | .error error => raise error

/-- The sequence number of the run's last event, 0 without one. -/
def Database.currentSequence (db : Database) (runId : RunId) : Nat :=
  max (((db.storedEvents runId).map EventRow.sequenceNumber).max?.getD 0)
    (((db.snapshots.find? fun row => row.runId == runId).map SnapshotRow.lastSequenceNumber).getD 0)

def readCurrentSequence (runId : RunId) : Tx Nat := select fun db => db.currentSequence runId

/-- The rows of events that follow a sequence number. -/
def eventRows (runId : RunId) (expectedSeq : Nat) (events : List WorkflowEvent) (now : Instant) :
    List EventRow :=
  (events.zipIdx (expectedSeq + 1)).map fun entry => ⟨runId, entry.2, entry.1, now⟩

/-- The foreign key on the run and the unique sequence numbers guard the insert. -/
def insertEvents (rows : List EventRow) : Tx Unit := statement fun db =>
  if rows.all fun row => (db.run? row.runId).isSome &&
      !(db.events.any fun other => other.runId == row.runId && other.sequenceNumber == row.sequenceNumber)
  then some ((), { db with events := db.events ++ rows })
  else none

/-- This operation appends events when `expectedSeq` is still current. -/
def appendEvents (runId : RunId) (expectedSeq : Nat) (events : List WorkflowEvent) (now : Instant) :
    Tx (List EventRow) := do
  let currentSeq ← readCurrentSequence runId
  if currentSeq ≠ expectedSeq then raise (.concurrency runId expectedSeq currentSeq)
  else if events.isEmpty then pure []
  else
    let rows := eventRows runId expectedSeq events now
    insertEvents rows
    pure rows

/-- The events after a sequence number, in order. -/
def readEvents (runId : RunId) (fromSeq : Nat) : Tx (List EventRow) := select fun db =>
  ((db.storedEvents runId).filter fun row => fromSeq < row.sequenceNumber).insertionSort
    fun one two => one.sequenceNumber ≤ two.sequenceNumber

/-- Appends after whatever the log holds now. -/
def appendNext (runId : RunId) (events : List WorkflowEvent) (now : Instant) : Tx (List EventRow) := do
  let currentSeq ← readCurrentSequence runId
  appendEvents runId currentSeq events now

/-- This operation folds the events a run's row has not seen into it. -/
def refreshProjection (runId : RunId) : Tx RunProjection := do
  match ← select fun db => db.run? runId with
  | none => raise (.missingRun runId)
  | some row =>
    let events ← readEvents runId row.lastSequenceNumber
    let next ← liftExcept (foldRunEvents events (projectionFromRow row))
    write fun db => db.updateRun runId fun row => row.withProjection next
    pure next

end Operations

end DurableExecution.Engine

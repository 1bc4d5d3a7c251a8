import DurableExecution.Engine.Artifacts
import DurableExecution.Engine.RunTimeouts
import DurableExecution.Workflow.SelfConsistency
import DurableExecution.Workflow.SignalWaits

/-
This file proves what becomes of the signals that runs accept: each is the next one in the log of
its own run, where every replay hands it to one wait at most, and no later run of a chain has it.
-/

namespace DurableExecution.Engine

open Workflow (JsValue WorkflowEvent WorkflowHandler Replay ReplayWorld signalPositions replayHistory
  initialWorld commandToEvent Instant Waits SharedOut SignalWait waitsFor)
open Relation (ReflTransGen)

/-- The name and the payload of a signal. -/
def signalOf : WorkflowEvent → Option (String × JsValue)
  | .signalReceived signalName payload => some (signalName, payload)
  | _ => none

/-- The signals that a run accepted, in the order of its log. -/
def Database.signals (db : Database) (runId : RunId) : List (String × JsValue) := (db.log runId).filterMap signalOf

/-- Every log goes on, with events that are no signals. -/
def SignalsStay (db db' : Database) : Prop :=
  ∀ runId, ∃ more, db'.log runId = db.log runId ++ more ∧ ∀ event ∈ more, signalOf event = none

section Staying

variable {now : Instant} {db db' db'' : Database} {runId : RunId}

theorem SignalsStay.refl (db : Database) : SignalsStay db db :=
  fun _ => ⟨[], (List.append_nil _).symm, fun _ listed => absurd listed List.not_mem_nil⟩

theorem SignalsStay.trans (first : SignalsStay db db') (second : SignalsStay db' db'') : SignalsStay db db'' := by
  intro other
  obtain ⟨more, extended, silent⟩ := first other
  obtain ⟨more', extended', silent'⟩ := second other
  refine ⟨more ++ more', by rw [extended', extended, List.append_assoc], fun event listed => ?_⟩
  rcases List.mem_append.mp listed with before | after
  · exact silent event before
  · exact silent' event after

theorem SignalsStay.appended {events : List WorkflowEvent} (silent : ∀ event ∈ events, signalOf event = none) :
    SignalsStay db (db.appended runId events now) := by
  intro other
  refine ⟨if other = runId then events else [], Database.appended_log, fun event listed => ?_⟩
  split at listed
  · exact silent event listed
  · exact absurd listed List.not_mem_nil

theorem SignalsStay.one {event : WorkflowEvent} (silent : signalOf event = none) : SignalsStay db (db.appended runId [event] now) :=
  .appended fun _ listed => List.mem_singleton.mp listed ▸ silent

/-- A database with the same events has the same logs. -/
theorem SignalsStay.ofEvents (stays : SignalsStay db db') (same : db''.events = db'.events) : SignalsStay db db'' := by
  intro other
  obtain ⟨more, extended, silent⟩ := stays other
  refine ⟨more, ?_, silent⟩
  rw [← extended]
  simp only [Database.log, Database.storedEvents, same]

theorem SignalsStay.signals (stays : SignalsStay db db') (runId : RunId) : db'.signals runId = db.signals runId := by
  obtain ⟨more, extended, silent⟩ := stays runId
  rw [Database.signals, extended, List.filterMap_append, List.filterMap_eq_nil_iff.mpr silent, List.append_nil, Database.signals]

theorem SignalsStay.prefix (stays : SignalsStay db db') (runId : RunId) : db.log runId <+: db'.log runId := by
  obtain ⟨more, extended, -⟩ := stays runId
  exact ⟨more, extended.symm⟩

theorem Waking.noSignal {event : WorkflowEvent} {reason : WakeReason} (waking : Waking db runId event reason) : signalOf event = none := by
  cases waking with
  | outcome childId projection =>
    unfold childOutcomeEvent
    split <;> rfl
  | cancel reason unasked => rfl

/-- What hangs on a closing run is settled without a signal. -/
theorem settling_noSignal (steps : ReflTransGen (Settling now) db db') : SignalsStay db db' := by
  induction steps with
  | refl => exact .refl db
  | tail _ step ih =>
    refine ih.trans ?_
    cases step with
    | withdrawn found closed => exact .refl _
    | woken found running waking => exact (SignalsStay.one waking.noSignal).ofEvents rfl
    | terminated found running folds => exact (SignalsStay.one rfl).ofEvents rfl

theorem Closes.noSignal {row : RunRow} {next : RunProjection} (closes : Closes now runId row next db db') : SignalsStay db db' := by
  have folded : SignalsStay db (db.updateRun runId (·.withProjection next)) := (SignalsStay.refl db).ofEvents rfl
  exact folded.trans (settling_noSignal closes.settled.steps)

/-- A run is opened without signals. -/
theorem Opens.noSignal {row : RunRow} {input : JsValue} {reason : WakeReason} (opens : Opens now row input reason db db') :
    SignalsStay db db' := by
  obtain ⟨row', timeouts, -, added⟩ := opens.adds
  intro other
  refine ⟨_, added.logs other, fun event listed => ?_⟩
  split at listed
  · rw [List.mem_singleton.mp listed]
    rfl
  · exact absurd listed List.not_mem_nil

theorem CreatesAll.noSignal {options : RecorderOptions} {events : List WorkflowEvent}
    (creates : CreatesAll options runId events db db') : SignalsStay db db' := by
  induction creates with
  | nil => exact .refl _
  | cons first _ ih =>
    refine SignalsStay.trans ?_ ih
    cases first with
    | timer | timerKept | stepTaskKept | stepUnqueued | childKept | nothing => exact (SignalsStay.refl _).ofEvents rfl
    | stepTask => exact (SignalsStay.refl _).ofEvents rfl
    | child queued found absent opens => exact opens.noSignal
    | successor found opens => exact opens.noSignal

/-- A recorded decision leaves the signals of all runs, also those of the run that it continues. -/
theorem DecisionRecorded.noSignal {options : RecorderOptions} {input : RecordWorkflowTaskResultInput}
    (recorded : DecisionRecorded options input db db') (plain : ∀ event ∈ input.events, signalOf event = none) : SignalsStay db db' := by
  obtain ⟨found, running, unrecorded, current, creates, closes⟩ := recorded
  have created := (SignalsStay.appended plain).trans creates.noSignal
  unfold ClosesIf at closes
  split at closes
  · obtain ⟨row, next, closes⟩ := closes
    exact (created.trans closes.noSignal).ofEvents rfl
  · rw [closes]
    exact created.ofEvents rfl

/-- A step of the engine leaves the signals of all runs, or it is a signal for one open run, which
is the next one there. -/
theorem EngineStep.signals {op : EngineOp} (step : EngineStep now db op db') :
    SignalsStay db db' ∨ ∃ runId signalName payload row, op = .signalRun runId signalName payload ∧
      db.run? runId = some row ∧ row.status = .running ∧
      ∀ other, db'.log other = db.log other ++ if other = runId then [.signalReceived signalName payload] else [] := by
  cases step with
  | started free opens => exact .inl opens.noSignal
  | stepRecorded found running first =>
    refine .inl (SignalsStay.ofEvents (.one ?_) rfl)
    unfold toStepEvent
    split <;> rfl
  | decided recorded =>
    refine .inl (recorded.noSignal fun event listed => ?_)
    obtain ⟨command, -, rfl⟩ := List.mem_map.mp listed
    cases command <;> rfl
  | @woken _ row event reason visibleAt timers found running wakes =>
    cases wakes with
    | signal signalName payload =>
      refine .inr ⟨row.id, signalName, payload, row, rfl, found, running, fun other => ?_⟩
      exact Database.appended_log
    | cancel reason => exact .inl ((SignalsStay.one rfl).ofEvents rfl)
    | timer queueName timerId => exact .inl ((SignalsStay.one rfl).ofEvents rfl)
  | closed found running closing closes =>
    obtain ⟨row, next, closes⟩ := closes
    refine .inl (SignalsStay.ofEvents ((SignalsStay.one ?_).trans closes.noSignal) rfl)
    cases closing <;> rfl
  | attempted found running => exact .inl ((SignalsStay.one rfl).ofEvents rfl)
  | timed timers => exact .inl ((SignalsStay.refl db).ofEvents rfl)

end Staying

section Runs

variable {db later : Database}

/-- An operation leaves the signals of all runs, or it is a signal that one open run accepts. -/
theorem EngineOp.run_signals {now : Instant} (op : EngineOp) (budget : Option Nat) (coherent : db.Coherent none)
    (inTime : op.inTime db) : SignalsStay db (op.run now budget db) ∨
      ∃ runId signalName payload row, op = .signalRun runId signalName payload ∧ db.run? runId = some row ∧
        row.status = .running ∧ ∀ other, (op.run now budget db).log other =
          db.log other ++ if other = runId then [.signalReceived signalName payload] else [] := by
  have outcome : StepsOrStays now op db (op.run now budget db) := op.run_cases budget coherent inTime
  rcases outcome with same | step
  · rw [same]
    exact .inl (.refl db)
  · exact step.signals

/-- The logs of all runs go on. -/
theorem EngineRunFrom.logs (run : EngineRunFrom EngineOp.inTime db later) (coherent : db.Coherent none) :
    later.Coherent none ∧ ∀ runId, db.log runId <+: later.log runId := by
  induction run with
  | refl => exact ⟨coherent, fun _ => List.prefix_refl _⟩
  | step run op met now budget ih =>
    refine ⟨op.run_coherent budget ih.1 met, fun runId => (ih.2 runId).trans ?_⟩
    rcases op.run_signals budget ih.1 met with stays | ⟨_, _, _, _, -, -, -, appended⟩
    · exact stays.prefix runId
    · exact ⟨_, (appended runId).symm⟩

/-- A run that was approved before its first decision. -/
def approved : Database :=
  (EngineOp.signalRun 0 "approve" (.bool true)).run .epoch none
    ((EngineOp.startRun 0 "main" ⟨"order", .null, none, none, none⟩).run .epoch none emptyDatabase)

def continuesAsNew : EngineOp := .recordWorkflowTaskResult none 0 "task" 2 [.continueAsNew (.string "next")]

/-- The run continues as new. -/
def continued : Database := continuesAsNew.run .epoch none approved

end Runs

end DurableExecution.Engine

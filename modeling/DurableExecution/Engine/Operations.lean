import DurableExecution.Engine.Recording
import DurableExecution.Engine.RunControl
import DurableExecution.Engine.RunService

/-
This file gathers the operations that write to the logs of runs, says what each of them
does to the database, and runs them in any order.
-/

namespace DurableExecution.Engine

open Workflow (JsValue RecordedError WorkflowEvent WorkflowCommand commandToEvent Instant)
open Transaction

/-- The operations that write to the logs of runs. -/
inductive EngineOp where
  | startRun (namespaceId : Nat) (queueName : String) (input : StartRunInput)
  | recordStepResult (queueName : Option String) (input : RecordStepResultInput)
  | recordWorkflowTaskResult (queueName : Option String) (runId : RunId) (taskKey : String) (expectedSeq : Nat)
      (commands : List WorkflowCommand)
  | signalRun (runId : RunId) (signalName : String) (payload : JsValue)
  | cancelRun (runId : RunId) (reason : Option String)
  | terminateRun (runId : RunId) (reason : Option String)
  | fireNext (queueName : String) (runId : RunId) (timerId : String)
  | recordFailure (input : RecordAttemptFailureInput)

/-- The decision that a handler hands to the recorder. -/
def decisionInput (runId : RunId) (taskKey : String) (expectedSeq : Nat) (commands : List WorkflowCommand) :
    RecordWorkflowTaskResultInput := ⟨runId, taskKey, expectedSeq, commands.map commandToEvent⟩

/-- The transaction of an operation. -/
def EngineOp.work (now : Instant) : EngineOp → Tx Unit
  | .startRun namespaceId queueName input => discard (insertRunOn namespaceId queueName input now)
  | .recordStepResult queueName input => discard (recordStepResultOn ⟨queueName, now⟩ input)
  | .recordWorkflowTaskResult queueName runId taskKey expectedSeq commands =>
    discard (recordWorkflowTaskResultOn ⟨queueName, now⟩ (decisionInput runId taskKey expectedSeq commands))
  | .signalRun runId signalName payload => signalRunOn now runId signalName payload
  | .cancelRun runId reason => cancelRunOn now runId reason
  | .terminateRun runId reason => terminateRunOn now runId reason
  | .fireNext queueName runId timerId => fireNextOn queueName runId timerId now
  | .recordFailure input => discard (recordFailureOn input now)

/-- An operation as one transaction, in which any statement may fail. -/
def EngineOp.run (op : EngineOp) (now : Instant) (budget : Option Nat) (db : Database) : Database :=
  (withTransaction (op.work now) budget db).2

/-- A failed attempt that is not recorded yet is recorded while its run is open. Every other
operation looks itself. -/
def EngineOp.inTime (op : EngineOp) (db : Database) : Prop :=
  match op with
  | .recordFailure input =>
    (∀ other ∈ db.stepAttempts,
      ¬ (other.runId = input.runId ∧ other.stepId = input.stepId ∧ other.attempt = input.attempt)) →
    ∀ row, db.run? input.runId = some row → row.status = .running
  | _ => True

/-- The events by which a run is woken from outside, with the reason its task carries. -/
inductive Wakes (runId : RunId) : EngineOp → WorkflowEvent → WakeReason → Prop
  | signal (signalName : String) (payload : JsValue) : Wakes runId (.signalRun runId signalName payload)
      (.signalReceived signalName payload) (.signal signalName)
  | cancel (reason : Option String) : Wakes runId (.cancelRun runId reason) (.cancelRequested reason) .cancel
  | timer (queueName timerId : String) : Wakes runId (.fireNext queueName runId timerId) (.timerFired timerId)
      (.timerFired timerId)

/-- The events with which a run is closed from outside. -/
inductive ClosesFromOutside (runId : RunId) : EngineOp → WorkflowEvent → Prop
  | terminated (reason : Option String) : ClosesFromOutside runId (.terminateRun runId reason) (.runTerminated reason)
  | timedOut (queueName timerId : String) : ClosesFromOutside runId (.fireNext queueName runId timerId)
      (.runTimedOut (some (timeoutKindOf timerId)))

/-- What an operation does to the database when it changes it. -/
inductive EngineStep (now : Instant) (db : Database) : EngineOp → Database → Prop
  | started {namespaceId : Nat} {queueName : String} {input : StartRunInput} {db' : Database}
      (free : ∀ row ∈ db.runs, input.idempotencyKey.isSome = true →
        ¬ (row.namespaceId = namespaceId ∧ row.idempotencyKey = input.idempotencyKey))
      (opens : Opens now (startedRunRow namespaceId queueName input now db.nextId) input.stored .start db db') :
      EngineStep now db (.startRun namespaceId queueName input) db'
  | stepRecorded {queueName : Option String} {input : RecordStepResultInput} {row : RunRow}
      (found : db.run? input.runId = some row) (running : row.status = .running)
      (first : ∀ result ∈ db.stepResults, ¬ (result.runId = input.runId ∧ result.stepId = input.stepId)) :
      EngineStep now db (.recordStepResult queueName input) (db.stepRecorded ⟨queueName, now⟩ input)
  | decided {queueName : Option String} {runId : RunId} {taskKey : String} {expectedSeq : Nat}
      {commands : List WorkflowCommand} {db' : Database}
      (recorded : DecisionRecorded ⟨queueName, now⟩ (decisionInput runId taskKey expectedSeq commands) db db') :
      EngineStep now db (.recordWorkflowTaskResult queueName runId taskKey expectedSeq commands) db'
  | woken {op : EngineOp} {row : RunRow} {event : WorkflowEvent} {reason : WakeReason} {visibleAt : Int} {timers : List TimerRow}
      (found : db.run? row.id = some row) (running : row.status = .running) (wakes : Wakes row.id op event reason) :
      EngineStep now db op { (db.appended row.id [event] now).addTask
        (newTask row.namespaceId row.id row.queueName (.workflowTask reason) visibleAt) with timers := timers }
  | closed {op : EngineOp} {runId : RunId} {row : RunRow} {event : WorkflowEvent} {timers : List TimerRow} {middle : Database}
      (found : db.run? runId = some row) (running : row.status = .running) (closing : ClosesFromOutside runId op event)
      (closes : ∃ row' next, Closes now runId row' next (db.appended runId [event] now) middle) :
      EngineStep now db op { middle with timers := timers }
  | attempted {row : RunRow} {input : RecordAttemptFailureInput}
      (found : db.run? input.runId = some row) (running : row.status = .running) :
      EngineStep now db (.recordFailure input) { db.appended input.runId
          [.stepAttemptFailed input.stepId input.attempt (attemptError input.error) input.retryAt] now with
        stepAttempts := db.stepAttempts ++
          [⟨input.runId, input.stepId, input.attempt, input.error, input.retryAt⟩] }
  | timed {queueName : String} {runId : RunId} {timerId : String} (timers : List TimerRow) :
      EngineStep now db (.fireNext queueName runId timerId) { db with timers := timers }

section Specs

variable {now : Instant} {db : Database} {runId : RunId}

/-- A step, or nothing. -/
def StepsOrStays (now : Instant) (op : EngineOp) (db db' : Database) : Prop := db' = db ∨ EngineStep now db op db'

theorem lockOpenRun_spec : Ensures (· = db) (lockOpenRun runId) fun row db' =>
    db' = db ∧ db.run? runId = some row ∧ row.status = .running := by
  refine .then (lockRunWithParent_spec runId) ?_
  rintro row _ ⟨rfl, found⟩
  cases row with
  | none => exact .raise
  | some row =>
    dsimp only
    split
    · exact .raise
    · next running =>
        refine .pure ?_
        rintro _ rfl
        exact ⟨rfl, found.symm, not_not.mp running⟩

theorem signalRunOn_spec (signalName : String) (payload : JsValue) : Ensures (· = db) (signalRunOn now runId signalName payload) fun _ =>
      StepsOrStays now (.signalRun runId signalName payload) db := by
  refine .read ?_
  cases found : db.run? runId with
  | none => exact .raise
  | some row =>
    dsimp only
    split
    · exact .raise
    · next running =>
        have same := Database.run?_id found
        subst same
        refine .then appendNext_spec.discard ?_
        rintro _ _ ⟨-, rfl, -⟩
        refine .write ?_
        rintro _ rfl
        exact .inr (.woken found (not_not.mp running) (.signal signalName payload))

theorem cancelRunOn_spec (reason : Option String) :
    Ensures (· = db) (cancelRunOn now runId reason) fun _ => StepsOrStays now (.cancelRun runId reason) db := by
  refine .then lockOpenRun_spec ?_
  rintro row _ ⟨rfl, found, running⟩
  unfold requestCancellation readEvents
  refine .read ?_
  split
  · exact .pure fun _ => .inl
  · have same := Database.run?_id found
    subst same
    refine .then appendNext_spec.discard ?_
    rintro _ _ ⟨-, rfl, -⟩
    refine .write ?_
    rintro _ rfl
    exact .inr (.woken found running (.cancel reason))

/-- An open run is closed from outside. -/
theorem closeFromOutside_spec {row : RunRow} {event : WorkflowEvent} (coherent : db.Coherent none)
    (found : db.run? runId = some row) (running : row.status = .running) :
    Ensures (· = db) (do discard (appendNext runId [event] now); closeRun runId now) fun _ db' =>
      ∃ row' next, Closes now runId row' next (db.appended runId [event] now) db' := by
  refine .then appendNext_spec.discard ?_
  rintro _ _ ⟨-, rfl, -⟩
  exact closeRun_spec (coherent.appended found running (.inr rfl) (.inl rfl))

theorem terminateRunOn_spec (reason : Option String) (coherent : db.Coherent none) :
    Ensures (· = db) (terminateRunOn now runId reason) fun _ => StepsOrStays now (.terminateRun runId reason) db := by
  refine .then lockOpenRun_spec.discard ?_
  rintro _ _ ⟨row, rfl, found, running⟩
  refine (closeFromOutside_spec coherent found running).mono (fun _ => id) fun _ db' closes => .inr ?_
  exact .closed found running (.terminated reason) closes

theorem timeOutRunOn_spec (timerId : String) (coherent : db.Coherent none) :
    Ensures (· = db) (timeOutRunOn now runId timerId) fun closed db' => closed = false ∧ db' = db ∨
      closed = true ∧ ∃ row, db.run? runId = some row ∧ row.status = .running ∧ ∃ row' next, Closes now runId row' next
          (db.appended runId [.runTimedOut (some (timeoutKindOf timerId))] now) db' := by
  refine .then (lockRunWithParent_spec runId) ?_
  rintro row _ ⟨rfl, found⟩
  split
  · exact .pure fun _ same => .inl ⟨rfl, same⟩
  · next open' =>
      cases row with
      | none => exact absurd rfl open'
      | some row =>
        have running : row.status = .running := by
          by_contra closed
          exact open' ((isTerminalState_iff _).mpr closed)
        refine .then (appendNext_spec.discard) ?_
        rintro _ _ ⟨-, rfl, -⟩
        refine .then (closeRun_spec (coherent.appended found.symm running (.inr rfl) (.inl rfl))) ?_
        rintro _ store ⟨row', next, closes⟩
        refine .pure ?_
        rintro _ rfl
        exact .inr ⟨rfl, row, found.symm, running, row', next, closes⟩

theorem fireNextOn_spec (queueName timerId : String) (coherent : db.Coherent none) :
    Ensures (· = db) (fireNextOn queueName runId timerId now) fun _ => StepsOrStays now (.fireNext queueName runId timerId) db := by
  refine .read ?_
  cases db.dueTimer? queueName runId timerId now with
  | none => exact .pure fun _ => .inl
  | some timer =>
    dsimp only
    split
    · refine .then (timeOutRunOn_spec timerId coherent) ?_
      rintro closed store (⟨rfl, rfl⟩ | ⟨rfl, row, found, running, closes⟩)
      · refine .write ?_
        rintro _ rfl
        exact .inr (.timed _)
      · refine .write ?_
        rintro _ rfl
        exact .inr (.closed found running (.timedOut queueName timerId) closes)
    · refine .read ?_
      cases found : (db.run? runId).filter fun row => row.status == .running with
      | none =>
        refine .write ?_
        rintro _ rfl
        exact .inr (.timed _)
      | some row =>
        obtain ⟨found, running⟩ := Option.filter_eq_some_iff.mp found
        have same := Database.run?_id found
        subst same
        refine .then appendNext_spec.discard ?_
        rintro _ _ ⟨-, rfl, -⟩
        refine .wrote (.write ?_)
        rintro _ rfl
        exact .inr (.woken found (by simpa using running) (.timer queueName timerId))

theorem insertStepAttempt_spec (row : AttemptRow) : Ensures (· = db) (insertStepAttempt row) fun inserted db' =>
    inserted = false ∧ db' = db ∨
      inserted = true ∧ db' = { db with stepAttempts := db.stepAttempts ++ [row] } ∧
        (db.run? row.runId).isSome = true ∧ ∀ other ∈ db.stepAttempts,
          ¬ (other.runId = row.runId ∧ other.stepId = row.stepId ∧ other.attempt = row.attempt) := by
  refine .statement ?_
  rintro store answer store' rfl answered
  split at answered
  · cases answered
    exact .inl ⟨rfl, rfl⟩
  · next absent =>
      split at answered
      · next exists' =>
          cases answered
          refine .inr ⟨rfl, rfl, exists', fun other member same => absent ?_⟩
          simp only [List.any_eq_true, Bool.and_eq_true, beq_iff_eq]
          exact ⟨other, member, ⟨same.1, same.2.1⟩, same.2.2⟩
      · cases answered

theorem recordFailureOn_spec (input : RecordAttemptFailureInput) (inTime : (EngineOp.recordFailure input).inTime db) :
    Ensures (· = db) (recordFailureOn input now) fun _ => StepsOrStays now (.recordFailure input) db := by
  refine .keeps .looked fun _ => ?_
  refine .then (insertStepAttempt_spec _) ?_
  rintro inserted _ (⟨rfl, same⟩ | ⟨rfl, rfl, exists', absent⟩)
  · refine .pure fun _ unchanged => .inl (unchanged.trans same)
  · obtain ⟨row, found⟩ := Option.isSome_iff_exists.mp exists'
    refine .then appendNext_spec.discard ?_
    rintro _ _ ⟨-, rfl, -⟩
    refine .pure ?_
    rintro _ rfl
    exact .inr (.attempted found (inTime absent row found))

theorem insertStartedRun_spec (namespaceId : Nat) (queueName : String) (input : StartRunInput) :
    Ensures (· = db) (insertStartedRun namespaceId queueName input now) fun answer db' =>
      answer = none ∧ db' = db ∧ input.idempotencyKey.isSome = true ∧
          (∃ row ∈ db.runs, row.namespaceId = namespaceId ∧ row.idempotencyKey = input.idempotencyKey) ∨
        answer = some (startedRunRow namespaceId queueName input now db.nextId) ∧
          db' = db.addRun (startedRunRow namespaceId queueName input now) ∧ ∀ row ∈ db.runs, input.idempotencyKey.isSome = true →
            ¬ (row.namespaceId = namespaceId ∧ row.idempotencyKey = input.idempotencyKey) := by
  refine .statement ?_
  rintro store answer store' rfl answered
  split at answered
  · next taken =>
      cases answered
      simp only [Bool.and_eq_true, List.any_eq_true, beq_iff_eq] at taken
      exact .inl ⟨rfl, rfl, taken⟩
  · next free =>
      cases answered
      refine .inr ⟨rfl, rfl, fun row member keyed same => free ?_⟩
      simp only [Bool.and_eq_true, List.any_eq_true, beq_iff_eq]
      exact ⟨keyed, row, member, same⟩

/-- What the transaction of `startRun` does, with the id it answers. -/
theorem insertRunOn_spec (namespaceId : Nat) (queueName : String) (input : StartRunInput)
    (fresh : ∀ other ∈ db.runs, other.id < db.nextId) : Ensures (· = db) (insertRunOn namespaceId queueName input now) fun answer db' =>
      answer = none ∧ db' = db ∧ input.idempotencyKey.isSome = true ∧
          (∃ row ∈ db.runs, row.namespaceId = namespaceId ∧ row.idempotencyKey = input.idempotencyKey) ∨ answer = some db.nextId ∧
          Opens now (startedRunRow namespaceId queueName input now db.nextId) input.stored .start db db' ∧
          ∀ row ∈ db.runs, input.idempotencyKey.isSome = true →
            ¬ (row.namespaceId = namespaceId ∧ row.idempotencyKey = input.idempotencyKey) := by
  refine .then (insertStartedRun_spec namespaceId queueName input) ?_
  rintro _ _ (⟨rfl, rfl, taken⟩ | ⟨rfl, rfl, free⟩)
  · exact .pure fun _ same => .inl ⟨rfl, same, taken⟩
  · refine opens_spec _ fresh rfl fun db' opens => .pure ?_
    rintro _ rfl
    exact .inr ⟨rfl, opens, free⟩

/-- What an operation does. -/
theorem EngineOp.work_spec {op : EngineOp} (coherent : db.Coherent none) (inTime : op.inTime db) :
    Ensures (· = db) (op.work now) fun _ => StepsOrStays now op db := by
  cases op with
  | startRun namespaceId queueName input =>
    refine (insertRunOn_spec namespaceId queueName input coherent.fresh).discard.mono (fun _ => id) ?_
    rintro _ db' ⟨answer, ⟨-, same, -⟩ | ⟨-, opens, free⟩⟩
    · exact .inl same
    · exact .inr (.started free opens)
  | recordStepResult queueName input =>
    refine (recordStepResultOn_spec input).discard.mono (fun _ => id) ?_
    rintro _ db' ⟨answer, ⟨-, same⟩ | ⟨-, rfl, ⟨row, found, running⟩, first⟩⟩
    · exact .inl same
    · exact .inr (.stepRecorded found running first)
  | recordWorkflowTaskResult queueName runId taskKey expectedSeq commands =>
    refine (recordWorkflowTaskResultOn_spec _ coherent).discard.mono (fun _ => id) ?_
    rintro _ db' ⟨answer, ⟨-, same⟩ | ⟨-, recorded⟩⟩
    · exact .inl same
    · exact .inr (.decided recorded)
  | signalRun runId signalName payload => exact signalRunOn_spec signalName payload
  | cancelRun runId reason => exact cancelRunOn_spec reason
  | terminateRun runId reason => exact terminateRunOn_spec reason coherent
  | fireNext queueName runId timerId => exact fireNextOn_spec queueName timerId coherent
  | recordFailure input =>
    refine (recordFailureOn_spec input inTime).discard.mono (fun _ => id) ?_
    rintro _ db' ⟨-, steps⟩
    exact steps

theorem EngineOp.run_cases (op : EngineOp) (budget : Option Nat) (coherent : db.Coherent none) (inTime : op.inTime db) :
    StepsOrStays now op db (op.run now budget db) := by
  have spec : Ensures (· = db) (op.work now) fun _ => StepsOrStays now op db := EngineOp.work_spec coherent inTime
  rcases withTransaction_cases spec budget db rfl with
    ⟨fault, failed⟩ | ⟨answer, db', done, steps⟩
  · rw [EngineOp.run, failed]
    exact .inl rfl
  · rw [EngineOp.run, done]
    exact steps

/-- Every operation keeps the database coherent. -/
theorem EngineStep.coherent {op : EngineOp} {db' : Database} (step : EngineStep now db op db') (coherent : db.Coherent none) :
    db'.Coherent none := by
  cases step with
  | started free opens => exact opens.coherent coherent rfl rfl rfl nofun
  | @stepRecorded _ input row found running first =>
    refine Database.Coherent.congr (coherent.appended found running (.inl rfl) (.inr fun event member => ?_))
      rfl rfl rfl le_rfl
    rw [List.mem_singleton.mp member, toStepEvent]
    split <;> rfl
  | decided recorded => exact recorded.coherent coherent
  | woken found running wakes =>
    refine Database.Coherent.congr (coherent.appended found running (.inl rfl) (.inr fun event member => ?_))
      rfl rfl rfl (Nat.le_succ _)
    rw [List.mem_singleton.mp member]
    cases wakes <;> rfl
  | closed found running closing closes =>
    obtain ⟨row', next, closes⟩ := closes
    have closed := closes.coherent (coherent.appended found running (.inr rfl) (.inl rfl))
    exact closed.congr rfl rfl rfl le_rfl
  | attempted found running =>
    refine Database.Coherent.congr (coherent.appended found running (.inl rfl) (.inr fun event member => ?_))
      rfl rfl rfl le_rfl
    rw [List.mem_singleton.mp member]
    rfl
  | timed timers => exact coherent.congr rfl rfl rfl le_rfl

end Specs

theorem emptyDatabase_coherent : emptyDatabase.Coherent none := by
  constructor
  all_goals simp [emptyDatabase, Database.run?]

/-- Operations run one after the other, in any order and with a failure possible at any
statement, from an empty database. Each of them meets a condition on the database. -/
inductive EngineRun (meets : EngineOp → Database → Prop) : Database → Prop
  | empty : EngineRun meets emptyDatabase
  | step {db : Database} (run : EngineRun meets db) (op : EngineOp) (met : meets op db) (now : Instant)
      (budget : Option Nat) : EngineRun meets (op.run now budget db)

/-- The database holds together after every run whose failed attempts are recorded in time. -/
theorem engineRun_coherent {db : Database} (run : EngineRun EngineOp.inTime db) : db.Coherent none := by
  induction run with
  | empty => exact emptyDatabase_coherent
  | step run op inTime now budget ih =>
    have outcome : StepsOrStays now op _ (op.run now budget _) := op.run_cases budget ih inTime
    rcases outcome with same | step
    · rw [same]
      exact ih
    · exact step.coherent ih

end DurableExecution.Engine

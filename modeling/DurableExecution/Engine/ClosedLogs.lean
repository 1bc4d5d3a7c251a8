import DurableExecution.Engine.HistoryCompactor
import DurableExecution.Engine.WorkflowTimeout

/-
This file proves when the log of a run ends with its closing event: over all operations that
write to logs, compactions and rebuilds, in any order.
-/

namespace DurableExecution.Engine

open Workflow (JsValue RecordedError WorkflowEvent WorkflowCommand Instant)
open Transaction

/-- The operations that write to logs and the upkeep of the histories. -/
inductive UpkeepRun (meets : CoreOp → Instant → Database → Prop) : Database → Prop
  | empty : UpkeepRun meets emptyDatabase
  | step {db : Database} (run : UpkeepRun meets db) (op : CoreOp) (now : Instant) (met : meets op now db)
      (budget : Option Nat) : UpkeepRun meets (op.run now budget db)
  | compacted {db : Database} (run : UpkeepRun meets db) (tailEvents : Nat) (runId : RunId) (budget : Option Nat) :
      UpkeepRun meets (withTransaction (compactRunOn tailEvents runId) budget db).2
  | rebuilt {db : Database} (run : UpkeepRun meets db) (runId : RunId) (budget : Option Nat) :
      UpkeepRun meets (withTransaction (rebuildProjectionOn runId) budget db).2

/-- No failure of an attempt is recorded after its run was closed, and no caller enforces a timeout on a run that is overdue. -/
def CoreOp.leavesClosed (op : CoreOp) (now : Instant) (db : Database) : Prop :=
  match op with
  | .engine op => op.inTime db
  | .enforceWorkflowTimeout runId timeoutMs => db.isOverdue runId timeoutMs now = false

section Facts

variable {db : Database} {runId : RunId} {row : RunRow}

/-- A transaction that ensures coherence keeps it. -/
theorem withTransaction_coherent {A : Type} {work : Tx A} (coherent : db.Coherent none)
    (ensures : Ensures (· = db) work fun _ db' => db'.Coherent none) (budget : Option Nat) :
    (withTransaction work budget db).2.Coherent none := by
  rcases withTransaction_cases ensures budget db rfl with ⟨fault, failed⟩ | ⟨answer, db', done, kept⟩
  · rw [failed]
    exact coherent
  · rw [done]
    exact kept

/-- The database holds together after every run of operations that leave closed logs alone. -/
theorem upkeepRun_coherent (run : UpkeepRun CoreOp.leavesClosed db) : db.Coherent none := by
  induction run with
  | empty => exact emptyDatabase_coherent
  | step run op now met budget ih =>
    cases op with
    | engine op =>
      have outcome : StepsOrStays now op _ (op.run now budget _) := op.run_cases budget ih met
      rcases outcome with same | step
      · change (op.run now budget _).Coherent none
        rw [same]
        exact ih
      · exact step.coherent ih
    | enforceWorkflowTimeout runId timeoutMs =>
      have idle := (enforceWorkflowTimeoutOn_idle met).discard
      refine withTransaction_coherent ih (idle.mono (fun _ same => same) fun _ db' kept => ?_) budget
      obtain ⟨_, rfl⟩ := kept
      exact ih
  | compacted run tailEvents runId budget ih => exact withTransaction_coherent ih (compactRunOn_spec tailEvents ih) budget
  | rebuilt run runId budget ih => exact withTransaction_coherent ih (rebuildProjectionOn_spec ih) budget

theorem liftExcept_answers {A : Type} {answer : A} :
    liftExcept (Except.ok answer) ⟨db, none⟩ = Except.ok (answer, ⟨db, none⟩) := rfl

theorem rebuildProjection_succeeds (coherent : db.Coherent none) (found : db.run? runId = some row) :
    ∃ next db', withTransaction (rebuildProjectionOn runId) none db = (.ok next, db') := by
  obtain ⟨next, folds, -⟩ := coherent.log_folds found
  have answered : rebuildProjectionOn runId ⟨db, none⟩ =
      .ok (next, ⟨db.updateRun runId (·.withProjection next), none⟩) := by
    unfold rebuildProjectionOn readEvents
    rw [select_answers, found]
    dsimp only
    rw [select_answers, select_answers]
    change (liftExcept (foldRunEvents (db.unseen runId _) _) >>= _) _ = _
    rw [folds, bind_answers liftExcept_answers, write_answers]
    rfl
  exact ⟨next, _, withTransaction_commits answered⟩

theorem compactRun_succeeds (coherent : db.Coherent none) (found : db.run? runId = some row)
    (closed : row.status ≠ .running) (tailEvents : Nat) :
    ∃ result db', withTransaction (compactRunOn tailEvents runId) none db = (.ok result, db') ∧ result.compacted = true := by
  obtain ⟨middle, folds, -⟩ := compactRun_folds coherent found closed
    ((db.unseen runId (db.base runId).lastSequenceNumber).length - tailEvents)
  have terminal : isTerminalState row.status = true := (isTerminalState_iff _).mpr closed
  have answered : ∃ result db', compactRunOn tailEvents runId ⟨db, none⟩ = .ok (result, ⟨db', none⟩) ∧
      result.compacted = true := by
    unfold compactRunOn readEvents
    rw [select_answers, found, Option.map_some, Option.getD_some, if_pos terminal, select_answers, select_answers]
    change ∃ result db', (liftExcept (foldRunEvents ((db.unseen runId (db.base runId).lastSequenceNumber).take
      ((db.unseen runId (db.base runId).lastSequenceNumber).length - tailEvents)) (db.base runId)) >>= _) _ = _ ∧ _
    rw [folds, bind_answers liftExcept_answers, write_answers, write_answers]
    exact ⟨_, _, rfl, rfl⟩
  obtain ⟨result, db', ran, compacted⟩ := answered
  exact ⟨result, db', withTransaction_commits ran, compacted⟩

/-- In every run in which failed attempts are recorded while their run is open and no timeout is enforced on an overdue run,
nothing follows the closing event of a log, every log can be folded, and every closed run can be rebuilt and compacted. -/
theorem closedLogs_end (run : UpkeepRun CoreOp.leavesClosed db) (found : db.run? runId = some row) :
    EndsOnce (db.base runId) (db.storedEvents runId) ∧
    (∃ next, foldRunEvents (db.unseen runId (db.base runId).lastSequenceNumber) (db.base runId) = .ok next) ∧
    (∃ next db', withTransaction (rebuildProjectionOn runId) none db = (.ok next, db')) ∧
    (row.status ≠ .running → ∀ tailEvents, ∃ result db',
      withTransaction (compactRunOn tailEvents runId) none db = (.ok result, db') ∧ result.compacted = true) := by
  have coherent := upkeepRun_coherent run
  obtain ⟨next, folds, -⟩ := coherent.log_folds found
  exact ⟨coherent.endsOnce found, ⟨next, folds⟩, rebuildProjection_succeeds coherent found,
    fun closed tailEvents => compactRun_succeeds coherent found closed tailEvents⟩

end Facts

/-- A run that is started and terminated. -/
def terminated : Database :=
  (EngineOp.terminateRun 0 none).run .epoch none
    ((EngineOp.startRun 0 "main" ⟨"order", .null, none, none, none⟩).run .epoch none emptyDatabase)

/-- The failure of an attempt that its worker records late. -/
def lateFailure : RecordAttemptFailureInput := ⟨0, "step-1", 1, .mk "Error" (some "declined") none none, none⟩

theorem closedLogs_end_terminated : EndsOnce (terminated.base 0) (terminated.storedEvents 0) ∧ (terminated.log 0).length = 2 := by
  have started : UpkeepRun CoreOp.leavesClosed
      (CoreOp.run (.engine (.startRun 0 "main" ⟨"order", .null, none, none, none⟩)) .epoch none emptyDatabase) :=
    .step .empty _ .epoch trivial none
  have run : UpkeepRun CoreOp.leavesClosed terminated := .step started (.engine (.terminateRun 0 none)) .epoch trivial none
  obtain ⟨row, found⟩ : ∃ row, terminated.run? 0 = some row := ⟨_, rfl⟩
  exact ⟨(closedLogs_end run found).1, rfl⟩

/-- A failure that is recorded late follows the closing event, and the log folds no more. -/
theorem closedLogs_lateFailure : ∃ db row, UpkeepRun (fun _ _ _ => True) db ∧ db.run? 0 = some row ∧
    row.status = .terminated ∧ ¬ EndsOnce (db.base 0) (db.storedEvents 0) ∧
    (∃ event, foldRunEvents (db.unseen 0 0) createInitialProjection = .error (.invalidTransition .terminated event)) ∧
    (withTransaction (compactRunOn 0 0) none db).2 = db := by
  refine ⟨(EngineOp.recordFailure lateFailure).run .epoch none terminated, _, ?_, rfl, rfl, ?_, ⟨_, rfl⟩, rfl⟩
  · have started : UpkeepRun (fun _ _ _ => True)
        (CoreOp.run (.engine (.startRun 0 "main" ⟨"order", .null, none, none, none⟩)) .epoch none emptyDatabase) :=
      .step .empty _ .epoch trivial none
    have closed : UpkeepRun (fun _ _ _ => True) terminated := .step started (.engine (.terminateRun 0 none)) .epoch trivial none
    exact .step closed (.engine (.recordFailure lateFailure)) .epoch trivial none
  · rintro (⟨-, open' | closes⟩ | ⟨-, empty⟩)
    · have quiet := open' ⟨0, 2, .runTerminated none, .epoch⟩ (.tail _ (.head _))
      cases quiet
    · obtain ⟨earlier, last, same, closing, -⟩ := closes
      have last' := congrArg List.getLast? same
      rw [List.getLast?_concat] at last'
      cases Option.some.inj last'
      cases closing
    · cases empty

end DurableExecution.Engine

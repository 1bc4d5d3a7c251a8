import DurableExecution.Engine.Creation
import DurableExecution.Engine.Settling

/-
This file says what the two calls of the recorder do: either nothing, or one whole change
of the database that keeps it coherent.
-/

namespace DurableExecution.Engine

open Workflow (JsValue WorkflowEvent WorkflowCommand commandToEvent Instant)
open Transaction

/-- The database after the outcome of a step was recorded. -/
def Database.stepRecorded (db : Database) (options : RecorderOptions) (input : RecordStepResultInput) : Database :=
  { db.appended input.runId [toStepEvent input] options.now with
    stepResults := db.stepResults ++ [⟨input.runId, input.stepId, input.attemptKey, input.outcome⟩] }

/-- What a recorded decision creates, event by event. -/
inductive CreatesAll (options : RecorderOptions) (runId : RunId) : List WorkflowEvent → Database → Database → Prop
  | nil {db : Database} : CreatesAll options runId [] db db
  | cons {event : WorkflowEvent} {rest : List WorkflowEvent} {db db' db'' : Database}
      (first : Creates options runId db event db') (others : CreatesAll options runId rest db' db'') :
      CreatesAll options runId (event :: rest) db db''

/-- A decision that closes its run settles what hangs on the run. -/
def ClosesIf (closing : Bool) (now : Instant) (runId : RunId) (db db' : Database) : Prop :=
  if closing then ∃ row next, Closes now runId row next db db' else db' = db

/-- The database after a decision was recorded. -/
inductive DecisionRecorded (options : RecorderOptions) (input : RecordWorkflowTaskResultInput) (db : Database) :
    Database → Prop
  | intro {row : RunRow} {created closed : Database} (found : db.run? input.runId = some row)
      (running : row.status = .running)
      (unrecorded : ∀ result ∈ db.taskResults, ¬ (result.runId = input.runId ∧ result.taskKey = input.taskKey))
      (current : db.currentSequence input.runId = input.expectedSeq)
      (creates : CreatesAll options input.runId input.events (db.appended input.runId input.events options.now) created)
      (closes : ClosesIf (input.events.any WorkflowEvent.isClosing) options.now input.runId created closed) :
      DecisionRecorded options input db { closed with taskResults := closed.taskResults ++
        [⟨input.runId, input.taskKey, input.expectedSeq + 1, input.expectedSeq + input.events.length⟩] }

section Calls

variable {options : RecorderOptions} {db : Database}

theorem isOpenStatus_running {row : RunRow} (open' : isOpenStatus (some row) = true) : row.status = .running := by
  by_contra closed
  have terminal := (isTerminalState_iff row.status).mpr closed
  simp [isOpenStatus, terminal] at open'

theorem insertStepResult_spec (row : StepResultRow) : Ensures (· = db) (insertStepResult row) fun _ db' =>
    db' = { db with stepResults := db.stepResults ++ [row] } ∧ (db.run? row.runId).isSome ∧
      ∀ result ∈ db.stepResults, ¬ (result.runId = row.runId ∧ result.stepId = row.stepId) := by
  refine .statement ?_
  rintro store answer store' rfl inserted
  split at inserted
  · next checked =>
      cases inserted
      rw [Bool.and_eq_true, Bool.not_eq_true'] at checked
      refine ⟨rfl, checked.1, fun result member same => ?_⟩
      have present : (store.stepResults.any fun other =>
          other.runId == row.runId && other.stepId == row.stepId) = true := by
        simpa using ⟨result, member, same⟩
      rw [present] at checked
      cases checked.2
  · cases inserted

/-- What `recordStepResult` does. -/
theorem recordStepResultOn_spec (input : RecordStepResultInput) : Ensures (· = db) (recordStepResultOn options input) fun answer db' =>
      answer.recorded = false ∧ db' = db ∨ answer.recorded = true ∧ db' = db.stepRecorded options input ∧
        (∃ row, db.run? input.runId = some row ∧ row.status = .running) ∧
        ∀ result ∈ db.stepResults, ¬ (result.runId = input.runId ∧ result.stepId = input.stepId) := by
  unfold recordStepResultOn
  refine .read ?_
  split
  · next open' =>
      refine .read ?_
      split
      · exact .pure fun _ same => .inl ⟨rfl, same⟩
      · refine .then (insertStepResult_spec _) ?_
        rintro _ _ ⟨rfl, exists', absent⟩
        refine .then appendNext_spec.discard ?_
        rintro _ _ ⟨-, rfl, -⟩
        refine .pure ?_
        rintro _ rfl
        obtain ⟨row, found⟩ := Option.isSome_iff_exists.mp exists'
        rw [found] at open'
        exact .inr ⟨rfl, rfl, ⟨row, found, isOpenStatus_running open'⟩, absent⟩
  · exact .pure fun _ same => .inl ⟨rfl, same⟩

theorem createAll_spec {runId : RunId} (fresh : ∀ other ∈ db.runs, other.id < db.nextId) (events : List WorkflowEvent) :
    Ensures (· = db) (events.forM fun event => createFor options runId event) fun _ db' => CreatesAll options runId events db db' := by
  induction events generalizing db with
  | nil => exact .pure fun _ same => same ▸ .nil
  | cons event rest ih =>
    refine .then (createFor_spec fresh event) fun _ middle creates => ?_
    exact (ih (creates.fresh fresh)).mono (fun _ => id) fun _ db' others => .cons creates others

theorem CreatesAll.coherent {runId : RunId} {stale : Option RunId} {events : List WorkflowEvent} {db' : Database}
    (creates : CreatesAll options runId events db db') (coherent : db.Coherent stale) : db'.Coherent stale := by
  induction creates with
  | nil => exact coherent
  | cons first _ ih => exact ih (first.coherent coherent)

theorem insertTaskResult_spec (row : TaskResultRow) : Ensures (· = db) (insertTaskResult row) fun _ db' =>
    db' = { db with taskResults := db.taskResults ++ [row] } ∧ (db.run? row.runId).isSome := by
  refine .statement ?_
  rintro store answer store' rfl inserted
  split at inserted
  · next checked =>
      cases inserted
      rw [Bool.and_eq_true] at checked
      exact ⟨rfl, checked.1⟩
  · cases inserted

theorem lockRunWithParent_spec (runId : RunId) :
    Ensures (· = db) (lockRunWithParent runId) fun row db' => db' = db ∧ row = db.run? runId := by
  unfold lockRunWithParent
  refine .read ?_
  have last : Ensures (E := EngineError) (· = db) (select fun db => db.run? runId)
      fun row db' => db' = db ∧ row = db.run? runId := by
    refine .select ?_
    rintro _ rfl
    exact ⟨rfl, rfl⟩
  cases (db.run? runId).bind RunRow.parentRunId with
  | none => exact last
  | some parent => exact .keeps .looked fun _ => last

theorem closeAfter_spec {runId : RunId} {now : Instant} (events : List WorkflowEvent)
    (coherent : db.Coherent (some runId)) : Ensures (· = db) (closeAfter events runId now) fun _ db' =>
      ClosesIf (events.any WorkflowEvent.isClosing) now runId db db' := by
  unfold closeAfter ClosesIf
  split
  · exact closeRun_spec coherent
  · exact .pure fun _ => id

/-- What `recordWorkflowTaskResult` does. -/
theorem recordWorkflowTaskResultOn_spec (input : RecordWorkflowTaskResultInput) (coherent : db.Coherent none) :
    Ensures (· = db) (recordWorkflowTaskResultOn options input) fun answer db' => answer.recorded = false ∧ db' = db ∨
      answer.recorded = true ∧ DecisionRecorded options input db db' := by
  unfold recordWorkflowTaskResultOn
  refine .then (lockRunWithParent_spec _) ?_
  rintro _ _ ⟨same, rfl⟩
  rw [same]
  refine .keeps .looked fun _ => .read ?_
  split
  · exact .pure fun _ same => .inl ⟨rfl, same⟩
  · next _ absent =>
      have unrecorded : ∀ result ∈ db.taskResults,
          ¬ (result.runId = input.runId ∧ result.taskKey = input.taskKey) := by
        simpa [List.find?_eq_none] using absent
      split
      · next open' =>
          refine .then appendEvents_spec ?_
          rintro stored _ ⟨current, rfl, length, exists'⟩
          cases found : db.run? input.runId with
          | none =>
            -- a missing run fails on the foreign key of its events or of the task's result
            have empty : input.events = [] := by
              by_contra some'
              simpa [found] using exists' some'
            rw [empty]
            refine .through (fun _ => (· = db)) (.pure fun _ same => by simpa using same) fun _ => ?_
            refine .through (fun _ => (· = db)) (.pure fun _ => id) fun _ => ?_
            refine .then (insertTaskResult_spec _) ?_
            rintro _ _ ⟨-, exists''⟩
            rw [found] at exists''
            cases exists''
          | some row =>
            rw [found] at open'
            have running := isOpenStatus_running open'
            have lagging : (db.appended input.runId input.events options.now).Coherent (some input.runId) :=
              coherent.appended found running (.inr rfl) (.inl rfl)
            refine .then (createAll_spec lagging.fresh _) fun _ created creates => ?_
            refine .then (closeAfter_spec input.events (creates.coherent lagging)) fun _ closed closes => ?_
            refine .then (insertTaskResult_spec _) ?_
            rintro _ _ ⟨rfl, -⟩
            refine .pure ?_
            rintro _ rfl
            rw [length]
            exact .inr ⟨rfl, .intro found running unrecorded current creates closes⟩
      · exact .pure fun _ same => .inl ⟨rfl, same⟩

/-- A call of `recordStepResult` changes nothing, or records the outcome of the step. -/
theorem recordStepResult_cases (input : RecordStepResultInput) (budget : Option Nat) (db : Database) :
    (recordStepResult options input budget db).2 = db ∧
        (∀ answer, (recordStepResult options input budget db).1 = .ok answer → answer.recorded = false) ∨
      (recordStepResult options input budget db).2 = db.stepRecorded options input ∧
        (∃ row, db.run? input.runId = some row ∧ row.status = .running) ∧
        ∀ result ∈ db.stepResults, ¬ (result.runId = input.runId ∧ result.stepId = input.stepId) := by
  have spec : Ensures (· = db) (recordStepResultOn options input) _ := recordStepResultOn_spec input
  rcases withTransaction_cases spec budget db rfl with
    ⟨fault, failed⟩ | ⟨answer, db', done, ⟨unrecorded, rfl⟩ | ⟨-, recorded⟩⟩
  · rw [recordStepResult, failed]
    exact .inl ⟨rfl, nofun⟩
  · rw [recordStepResult, done]
    refine .inl ⟨rfl, fun other same => ?_⟩
    cases same
    exact unrecorded
  · rw [recordStepResult, done]
    exact .inr recorded

/-- A call of `recordWorkflowTaskResult` changes nothing, or records the decision. -/
theorem recordWorkflowTaskResult_cases (input : RecordWorkflowTaskResultInput) (budget : Option Nat) (coherent : db.Coherent none) :
    (recordWorkflowTaskResult options input budget db).2 = db ∧
        (∀ answer, (recordWorkflowTaskResult options input budget db).1 = .ok answer → answer.recorded = false) ∨
      (∃ answer, (recordWorkflowTaskResult options input budget db).1 = .ok answer ∧ answer.recorded = true) ∧
        DecisionRecorded options input db (recordWorkflowTaskResult options input budget db).2 := by
  have spec : Ensures (· = db) (recordWorkflowTaskResultOn options input) _ := recordWorkflowTaskResultOn_spec input coherent
  rcases withTransaction_cases spec budget db rfl with
    ⟨fault, failed⟩ | ⟨answer, db', done, ⟨unrecorded, rfl⟩ | ⟨recorded, changed⟩⟩
  · rw [recordWorkflowTaskResult, failed]
    exact .inl ⟨rfl, nofun⟩
  · rw [recordWorkflowTaskResult, done]
    refine .inl ⟨rfl, fun other same => ?_⟩
    cases same
    exact unrecorded
  · rw [recordWorkflowTaskResult, done]
    exact .inr ⟨⟨answer, rfl, recorded⟩, changed⟩

/-- Recording a decision keeps the database coherent. -/
theorem DecisionRecorded.coherent {input : RecordWorkflowTaskResultInput} {db' : Database}
    (recorded : DecisionRecorded options input db db') (coherent : db.Coherent none) : db'.Coherent none := by
  obtain @⟨row, created, closed, found, running, unrecorded, current, creates, closes⟩ := recorded
  suffices kept : closed.Coherent none from kept.congr rfl rfl rfl le_rfl
  unfold ClosesIf at closes
  split at closes
  · obtain ⟨row', next, closes⟩ := closes
    exact closes.coherent (creates.coherent (coherent.appended found running (.inr rfl) (.inl rfl)))
  · next quiet =>
      rw [closes]
      refine creates.coherent (coherent.appended found running (.inl rfl) (.inr fun event member => ?_))
      simp only [List.any_eq_true, not_exists, not_and, Bool.not_eq_true] at quiet
      exact quiet event member

end Calls

end DurableExecution.Engine
